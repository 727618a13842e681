import Ade.Ledger.ParamUpdate
import Ade.Proof.Codec.Conway

/-! Which bytes of a parameter update are within bounds, and which are enacted. -/

namespace Ade.Proof.Ledger
open Std Library Cursor Ade.Codec Ade.Ledger Ade.Proof.Codec

/-! ## Items without an indefinite length -/

/-- One item whose containers all say how much they hold. -/
inductive DefiniteItem : Bytes → Prop
  | leaf {head : Bytes} (seen : Reads readHead head .leaf) : DefiniteItem head
  | container {head : Bytes} {kind : ItemHead} {items : List Bytes} (seen : Reads readHead head kind)
      (holds : owedBy kind = [some items.length]) (each : ∀ item ∈ items, DefiniteItem item) :
      DefiniteItem (head ++ items.flatten)

theorem DefiniteItem.isItem {written : Bytes} (definite : DefiniteItem written) : IsItem written := by
  induction definite with
  | leaf seen => exact isItem_leaf seen
  | container seen holds _ ih =>
      apply isItem_of_head seen
      rw [holds]
      exact skipsOver_items ih

/-! ## The walker's heads are those of the skipping decoder -/

section
variable {update : Bytes} {o : Nat}

theorem headArgument_ok {ai : Nat} {arg : UInt64} {after : Nat}
    (read : headArgument update ai o = some (arg, after)) :
    ∃ width, ∀ start, (decodeArgument update ai start).runAt o = (.ok (arg, width), after) := by
  have big : ∀ width, (if o + width > update.length then none
      else some (UInt64.ofNat (fromBeBytes ((update.drop o).take width)), o + width)) = some (arg, after) →
      (readFixed update width).runAt o = (.ok arg, after) := by
    intro width taken
    split_ifs at taken with short
    cases taken
    simp [readFixed, runAt_bind, short, Except.map]
  unfold headArgument at read
  dsimp only at read
  by_cases inline : ai ≤ 23
  · rw [if_pos inline] at read
    cases read
    refine ⟨.inline, fun start => ?_⟩
    rw [decodeArgument, if_pos inline]
    rfl
  rw [if_neg inline] at read
  by_cases one : ai = 24
  · rw [if_pos one] at read
    split_ifs at read with short
    cases read
    have here : o < update.length := by omega
    have taken : (update.drop o).take 1 = [update[o]] := by
      rw [List.take_one, List.head?_drop, List.getElem?_eq_getElem here]
      rfl
    refine ⟨.i8, fun start => ?_⟩
    rw [decodeArgument, if_neg inline, if_pos one, taken]
    simp [readByte, peekByte, runAt_bind, here, Except.map, fromBeBytes]
  rw [if_neg one] at read
  have fixed : ∀ width form, (readFixed update width).runAt o = (.ok arg, after) →
      (do return (← readFixed update width, form) : Read (UInt64 × IntWidth)).runAt o =
        (.ok (arg, form), after) := by
    intro width form ran
    rw [runAt_bind_ok ran]
    rfl
  by_cases two : ai = 25
  · rw [if_pos two] at read
    refine ⟨.i16, fun start => ?_⟩
    rw [decodeArgument, if_neg inline, if_neg one, if_pos two]
    exact fixed 2 .i16 (big 2 read)
  rw [if_neg two] at read
  by_cases four : ai = 26
  · rw [if_pos four] at read
    refine ⟨.i32, fun start => ?_⟩
    rw [decodeArgument, if_neg inline, if_neg one, if_neg two, if_pos four]
    exact fixed 4 .i32 (big 4 read)
  rw [if_neg four] at read
  by_cases eight : ai = 27
  · rw [if_pos eight] at read
    refine ⟨.i64, fun start => ?_⟩
    rw [decodeArgument, if_neg inline, if_neg one, if_neg two, if_neg four, if_pos eight]
    exact fixed 8 .i64 (big 8 read)
  · rw [if_neg eight] at read
    cases read

theorem decodeInitial_at {byte : UInt8} (here : update[o]? = some byte) :
    (decodeInitial update).runAt o = (.ok (byte.toNat / 32, byte.toNat % 32), o + 1) := by
  simp [decodeInitial, readByte, peekByte, runAt_bind, here, Except.map]

theorem headArgument_moves {ai : Nat} {arg : UInt64} {after : Nat}
    (read : headArgument update ai o = some (arg, after)) :
    (ai ≤ 23 ∧ after = o) ∨ after ≤ update.length ∧
      (ai = 24 ∧ after = o + 1 ∨ ai = 25 ∧ after = o + 2 ∨ ai = 26 ∧ after = o + 4 ∨
        ai = 27 ∧ after = o + 8) := by
  unfold headArgument at read
  dsimp only at read
  split_ifs at read <;> cases read <;> omega

theorem readPayload_at {len : Nat} (inside : o + len ≤ update.length) :
    (readPayload update len).runAt o = (.ok ((update.drop o).take len), o + len) := by
  have short : ¬ o + len > update.length := by omega
  simp [readPayload, runAt_bind, short, Except.map]

/-- The leaf that a simple value is, with what follows its initial byte. -/
theorem simple_leaf {ai : Nat} {arg : UInt64} {start after : Nat}
    (read : headArgument update ai o = some (arg, after)) :
    (readHeadTail update start majorSimple ai).runAt o = (.ok .leaf, after) := by
  have payload : ∀ len, after = o + len → after ≤ update.length →
      ((do let _ ← readPayload update len; return .leaf : Read ItemHead)).runAt o = (.ok .leaf, after) := by
    rintro len rfl inside
    rw [runAt_bind_ok (readPayload_at inside)]
    rfl
  rcases headArgument_moves read with ⟨small, rfl⟩ | ⟨inside, ⟨rfl, rfl⟩ | ⟨rfl, moved⟩ | ⟨rfl, moved⟩ |
    ⟨rfl, moved⟩⟩
  · simp [readHeadTail, majorSimple, majorUnsigned, majorNegative, majorBytes, majorText, majorArray,
      majorMap, majorTag, small]
  · have here : update[o]? = some update[o] := List.getElem?_eq_getElem (by omega)
    have byte : (readByte update).runAt o = (.ok update[o], o + 1) := by
      simp [readByte, peekByte, runAt_bind, here, Except.map]
    show ((do let _ ← readByte update; return .leaf : Read ItemHead)).runAt o = (.ok .leaf, o + 1)
    rw [runAt_bind_ok byte]
    rfl
  · exact payload 2 moved inside
  · exact payload 4 moved inside
  · exact payload 8 moved inside

theorem push_ok {levels next : Levels} {items : UInt64} (pushed : levels.push items = some next) :
    next = ⟨items, levels.top :: levels.parents⟩ := by
  unfold Levels.push at pushed
  split_ifs at pushed
  cases pushed
  rfl

/-- What the head of the step is for the skipping decoder. -/
theorem headStep_ok {levels next : Levels} {after : Nat}
    (stepped : headStep update levels o = some (next, after)) :
    ∃ kind, (readHead update).runAt o = (.ok kind, after) ∧
      (kind = .leaf ∧ next = levels.leaf ∨
        owedBy kind = [some next.top.toNat] ∧ next.parents = levels.top :: levels.parents) := by
  unfold headStep at stepped
  rw [Option.bind_eq_bind, Option.bind_eq_some_iff] at stepped
  obtain ⟨byte, here, stepped⟩ := stepped
  rw [Option.bind_eq_bind, Option.bind_eq_some_iff] at stepped
  obtain ⟨⟨arg, middle⟩, argument, stepped⟩ := stepped
  have initial := decodeInitial_at here
  have eight : byte.toNat / 32 < 8 := by
    have bound := byte.toNat_lt
    omega
  generalize byte.toNat / 32 = major at initial stepped eight
  generalize byte.toNat % 32 = ai at initial stepped argument
  have start : (readHead update).runAt o = (readHeadTail update o major ai).runAt (o + 1) := by
    unfold readHead
    rw [runAt_bind_ok (runAt_get _), runAt_bind_ok initial]
  rw [start]
  obtain ⟨width, decoded⟩ := headArgument_ok argument
  have notIndefinite : ai ≠ 31 := by
    rcases headArgument_moves argument with ⟨small, -⟩ | ⟨-, others⟩
    · omega
    · omega
  dsimp only at stepped
  by_cases integer : major = majorUnsigned ∨ major = majorNegative
  · rw [if_pos integer] at stepped
    cases stepped
    refine ⟨.leaf, ?_, .inl ⟨rfl, rfl⟩⟩
    rw [readHeadTail, if_pos integer]
    by_cases small : ai < 24
    · have moved : after = o + 1 := by
        rcases headArgument_moves argument with ⟨-, moved⟩ | ⟨-, others⟩
        · exact moved
        · omega
      rw [if_pos small, moved]
      rfl
    · rw [if_neg small, runAt_bind_ok (decoded o)]
      rfl
  rw [if_neg integer] at stepped
  by_cases string : major = majorBytes ∨ major = majorText
  · rw [if_pos string] at stepped
    split_ifs at stepped with short
    cases stepped
    refine ⟨.leaf, ?_, .inl ⟨rfl, rfl⟩⟩
    rw [readHeadTail, if_neg integer, if_pos string, if_neg notIndefinite, runAt_bind_ok (decoded o),
      runAt_bind_ok (readPayload_at (by omega))]
    rfl
  rw [if_neg string] at stepped
  by_cases array : major = majorArray
  · rw [if_pos array, Option.bind_eq_bind, Option.bind_eq_some_iff] at stepped
    obtain ⟨pushed, push, returned⟩ := stepped
    cases returned
    rw [push_ok push]
    refine ⟨.array arg, ?_, .inr ⟨rfl, rfl⟩⟩
    rw [readHeadTail, if_neg integer, if_neg string, if_pos array, if_neg notIndefinite,
      runAt_bind_ok (decoded o)]
    rfl
  rw [if_neg array] at stepped
  by_cases map : major = majorMap
  · rw [if_pos map] at stepped
    split_ifs at stepped with fits
    rw [Option.bind_eq_bind, Option.bind_eq_some_iff] at stepped
    obtain ⟨pushed, push, returned⟩ := stepped
    cases returned
    rw [push_ok push]
    have doubled : (arg * 2).toNat = arg.toNat * 2 := by
      rw [UInt64.toNat_mul]
      exact Nat.mod_eq_of_lt fits
    refine ⟨.map arg, ?_, .inr ⟨by rw [doubled]; rfl, rfl⟩⟩
    rw [readHeadTail, if_neg integer, if_neg string, if_neg array, if_pos map, if_neg notIndefinite,
      runAt_bind_ok (decoded o)]
    rfl
  rw [if_neg map] at stepped
  by_cases tag : major = majorTag
  · rw [if_pos tag, Option.bind_eq_bind, Option.bind_eq_some_iff] at stepped
    obtain ⟨pushed, push, returned⟩ := stepped
    cases returned
    rw [push_ok push]
    refine ⟨.tag, ?_, .inr ⟨rfl, rfl⟩⟩
    rw [readHeadTail, if_neg integer, if_neg string, if_neg array, if_neg map, if_pos tag,
      runAt_bind_ok (decoded o)]
    rfl
  · rw [if_neg tag] at stepped
    cases stepped
    have simple : major = majorSimple := by
      simp only [majorUnsigned, majorNegative, majorBytes, majorText, majorArray, majorMap, majorTag,
        majorSimple] at *
      omega
    subst simple
    exact ⟨.leaf, simple_leaf argument, .inl ⟨rfl, rfl⟩⟩

end

/-! ## The walk -/

/-- The items still to come, level by level, are all of the bytes. -/
def Pending : List Nat → Bytes → Prop
  | [], rest => rest = []
  | count :: counts, rest => ∃ (items : List Bytes) (tail : Bytes), rest = items.flatten ++ tail ∧
      items.length = count ∧ (∀ item ∈ items, DefiniteItem item) ∧ Pending counts tail

/-- The item that a level is of its parent is still counted there. -/
def counts (levels : Levels) : List Nat :=
  levels.top.toNat :: levels.parents.map fun parent => parent.toNat - 1

theorem Pending.zero {counts : List Nat} {rest : Bytes} (pending : Pending counts rest) :
    Pending (0 :: counts) rest :=
  ⟨[], rest, rfl, rfl, by simp, pending⟩

theorem toNat_pred {value : UInt64} (positive : value ≠ 0) : (value - 1).toNat = value.toNat - 1 := by
  have above : 1 ≤ value.toNat := by
    have apart : value.toNat ≠ 0 := fun zero => positive (UInt64.toNat_inj.mp zero)
    omega
  rw [UInt64.toNat_sub_of_le]
  · rfl
  · rwa [UInt64.le_iff_toNat_le]

theorem settle_none {top : UInt64} {parents : List UInt64} (positive : ∀ parent ∈ parents, parent ≠ 0)
    (settled : Levels.settle top parents = none) : Pending (counts ⟨top, parents⟩) [] := by
  induction parents generalizing top with
  | nil =>
      unfold Levels.settle at settled
      split_ifs at settled with empty
      subst empty
      exact Pending.zero rfl
  | cons parent parents ih =>
      rw [List.forall_mem_cons] at positive
      unfold Levels.settle at settled
      split_ifs at settled with empty
      subst empty
      have pending := ih positive.2 settled
      unfold counts at pending
      rw [toNat_pred positive.1] at pending
      exact pending.zero

theorem settle_some {top : UInt64} {parents : List UInt64} {levels : Levels}
    (positive : ∀ parent ∈ parents, parent ≠ 0) (settled : Levels.settle top parents = some levels) :
    levels.top ≠ 0 ∧ (∀ parent ∈ levels.parents, parent ≠ 0) ∧
      ∀ rest, Pending (counts levels) rest → Pending (counts ⟨top, parents⟩) rest := by
  induction parents generalizing top with
  | nil =>
      unfold Levels.settle at settled
      split_ifs at settled with empty
      cases settled
      exact ⟨empty, positive, fun _ pending => pending⟩
  | cons parent parents ih =>
      unfold Levels.settle at settled
      split_ifs at settled with empty
      · subst empty
        rw [List.forall_mem_cons] at positive
        obtain ⟨above, positive', pending⟩ := ih positive.2 settled
        refine ⟨above, positive', fun rest held => ?_⟩
        have outer := pending rest held
        unfold counts at outer
        rw [toNat_pred positive.1] at outer
        exact outer.zero
      · cases settled
        exact ⟨empty, positive, fun _ pending => pending⟩

theorem pending_at_end {levels : Levels} {before rest : Bytes}
    (positive : ∀ parent ∈ levels.parents, parent ≠ 0)
    (settled : Levels.settle levels.top levels.parents = none)
    (whole : before.length = (before ++ rest).length) : Pending (counts levels) rest := by
  rw [List.length_append] at whole
  have nothing : rest = [] := List.eq_nil_of_length_eq_zero (by omega)
  rw [nothing]
  exact settle_none positive settled

theorem walkHeads_pending {left : Nat} {levels : Levels} {before rest : Bytes}
    (positive : ∀ parent ∈ levels.parents, parent ≠ 0)
    (walked : walkHeads (before ++ rest) left levels before.length = true) : Pending (counts levels) rest := by
  induction left generalizing levels before rest with
  | zero =>
      unfold walkHeads at walked
      cases settled : Levels.settle levels.top levels.parents with
      | none =>
          rw [settled] at walked
          exact pending_at_end positive settled (of_decide_eq_true walked)
      | some next =>
          rw [settled] at walked
          cases walked
  | succ left ih =>
      unfold walkHeads at walked
      cases settled : Levels.settle levels.top levels.parents with
      | none =>
          rw [settled] at walked
          exact pending_at_end positive settled (of_decide_eq_true walked)
      | some current =>
          rw [settled] at walked
          dsimp only at walked
          obtain ⟨some_, positive, outer⟩ := settle_some positive settled
          apply outer
          cases stepped : headStep (before ++ rest) current before.length with
          | none =>
              rw [stepped] at walked
              cases walked
          | some result =>
              obtain ⟨next, after⟩ := result
              rw [stepped] at walked
              obtain ⟨kind, ran, held⟩ := headStep_ok stepped
              obtain ⟨head, remaining, rfl, rfl, reads, -⟩ := readHead_exact 0 before rest kind after ran
              dsimp only at walked
              rw [← List.append_assoc, ← List.length_append] at walked
              have one : current.top.toNat = (current.top.toNat - 1) + 1 := by
                have apart : current.top.toNat ≠ 0 := fun zero => some_ (UInt64.toNat_inj.mp zero)
                omega
              -- The head is an item of its level, alone or with the items of the level that it opens.
              rcases held with ⟨rfl, rfl⟩ | ⟨holds, parents⟩
              · obtain ⟨items, tail, rfl, counted, each, pending⟩ :=
                  @ih current.leaf (before ++ head) remaining positive walked
                rw [show current.leaf.top.toNat = current.top.toNat - 1 from toNat_pred some_] at counted
                refine ⟨head :: items, tail, ?_, ?_, ?_, pending⟩
                · rw [List.flatten_cons, List.append_assoc]
                · rw [List.length_cons, counted, ← one]
                · exact List.forall_mem_cons.mpr ⟨.leaf (reads 0), each⟩
              · have positive' : ∀ parent ∈ next.parents, parent ≠ 0 := by
                  rw [parents]
                  exact List.forall_mem_cons.mpr ⟨some_, positive⟩
                obtain ⟨inner, tail, rfl, counted, each, pending⟩ := ih positive' walked
                rw [parents, List.map_cons] at pending
                obtain ⟨items, tail, rfl, counted', each', pending⟩ := pending
                rw [← counted] at holds
                refine ⟨(head ++ inner.flatten) :: items, tail, ?_, ?_, ?_, pending⟩
                · rw [List.flatten_cons, List.append_assoc, List.append_assoc]
                · rw [List.length_cons, counted', ← one]
                · exact List.forall_mem_cons.mpr ⟨.container (reads 0) holds each, each'⟩

theorem definite_of_withinBounds {update : Bytes} (within : enactableUpdateWithinBounds update = true) :
    DefiniteItem update := by
  unfold enactableUpdateWithinBounds at within
  obtain ⟨-, -, walked⟩ := of_decide_eq_true within
  have pending := @walkHeads_pending update.length ⟨1, []⟩ [] update (by simp) walked
  obtain ⟨items, tail, rfl, counted, each, rfl⟩ := pending
  obtain ⟨item, rfl⟩ := List.length_eq_one_iff.mp counted
  simpa using each

/-! ## Updates that can be enacted -/

/-- A parameter of the subset. -/
inductive Setting where
  | minPoolCost (coin : UInt64)
  | maxTxExUnits (units : ExUnits)
  | maxBlockExUnits (units : ExUnits)
deriving DecidableEq

namespace Setting

def key : Setting → UInt64
  | minPoolCost _ => 16
  | maxTxExUnits _ => 20
  | maxBlockExUnits _ => 21

def apply (pparams : ProtocolParameters) : Setting → ProtocolParameters
  | minPoolCost coin => { pparams with minPoolCost := coin }
  | maxTxExUnits units => { pparams with maxTxExUnitsMem := units.mem, maxTxExUnitsCpu := units.steps }
  | maxBlockExUnits units => { pparams with maxBlockExUnits := .bound units.mem units.steps }

/-- The steps that it gives are the current ones. -/
def KeepsSteps (current : ProtocolParameters) : Setting → Prop
  | minPoolCost _ => True
  | maxTxExUnits units => units.steps = current.maxTxExUnitsCpu
  | maxBlockExUnits units => ∃ mem, current.maxBlockExUnits = .bound mem units.steps

end Setting

/-- An integer, in any width. -/
def IsUint (value : UInt64) (written : Bytes) : Prop := ∃ width, Reads readUint written (value, width)

def IsExUnits (units : ExUnits) (written : Bytes) : Prop :=
  ∃ header width mem steps, written = header ++ (mem ++ steps) ∧
    Reads readArrayHeader header (.definite 2 width) ∧ IsUint units.mem mem ∧ IsUint units.steps steps

def IsValue : Setting → Bytes → Prop
  | .minPoolCost coin => IsUint coin
  | .maxTxExUnits units => IsExUnits units
  | .maxBlockExUnits units => IsExUnits units

def IsSettingEntry (setting : Setting) (written : Bytes) : Prop :=
  ∃ key value, written = key ++ value ∧ IsUint setting.key key ∧ IsValue setting value

/-- A map of definite length with one entry for each setting, and no key twice. -/
structure IsUpdate (update : Bytes) (settings : List Setting) : Prop where
  written : ∃ header count width chunks, update = header ++ chunks.flatten ∧
    Reads readMapHeader header (.definite count width) ∧ count.toNat = settings.length ∧
    List.Forall₂ IsSettingEntry settings chunks
  nodup : (settings.map Setting.key).Nodup

structure Enactable (current : ProtocolParameters) (update : Bytes) (settings : List Setting) : Prop where
  bounded : enactableUpdateWithinBounds update = true
  update : IsUpdate update settings
  some_ : settings ≠ []
  steps : ∀ setting ∈ settings, setting.KeepsSteps current

/-! ### What is decoded -/

def withSetting (decoded : EnactableParamUpdate) : Setting → EnactableParamUpdate
  | .minPoolCost coin => { decoded with minPoolCost := some coin }
  | .maxTxExUnits units => { decoded with maxTxExUnits := some units }
  | .maxBlockExUnits units => { decoded with maxBlockExUnits := some units }

def Gives (decoded : EnactableParamUpdate) : Setting → Prop
  | .minPoolCost coin => decoded.minPoolCost = some coin
  | .maxTxExUnits units => decoded.maxTxExUnits = some units
  | .maxBlockExUnits units => decoded.maxBlockExUnits = some units

def Free (decoded : EnactableParamUpdate) : Setting → Prop
  | .minPoolCost _ => decoded.minPoolCost = none
  | .maxTxExUnits _ => decoded.maxTxExUnits = none
  | .maxBlockExUnits _ => decoded.maxBlockExUnits = none

theorem free_with {decoded : EnactableParamUpdate} {setting other : Setting} :
    Free (withSetting decoded setting) other ↔ Free decoded other ∧ other.key ≠ setting.key := by
  cases setting <;> cases other <;> simp [Free, withSetting, Setting.key]

theorem holds_with {decoded : EnactableParamUpdate} {setting other : Setting}
    (free : Free decoded setting) :
    Gives (withSetting decoded setting) other ↔ other = setting ∨ Gives decoded other := by
  cases setting <;> cases other <;> simp_all [Free, Gives, withSetting, eq_comm]

theorem free_empty (setting : Setting) : Free .empty setting := by
  cases setting <;> rfl

/-- The settings all have different keys, and none of them is there yet. -/
def Fresh (decoded : EnactableParamUpdate) (settings : List Setting) : Prop :=
  (settings.map Setting.key).Nodup ∧ ∀ setting ∈ settings, Free decoded setting

theorem fresh_cons {decoded : EnactableParamUpdate} {setting : Setting} {settings : List Setting} :
    Fresh decoded (setting :: settings) ↔
      Free decoded setting ∧ Fresh (withSetting decoded setting) settings := by
  unfold Fresh
  simp only [List.map_cons, List.nodup_cons, List.forall_mem_cons, free_with, List.mem_map, not_exists,
    not_and]
  constructor
  · rintro ⟨⟨unlisted, nodup⟩, free, others⟩
    exact ⟨free, nodup, fun other member => ⟨others other member, unlisted other member⟩⟩
  · rintro ⟨free, nodup, others⟩
    exact ⟨⟨fun other member => (others other member).2, nodup⟩, free,
      fun other member => (others other member).1⟩

theorem holds_foldl {decoded : EnactableParamUpdate} {settings : List Setting} {setting : Setting}
    (fresh : Fresh decoded settings) :
    Gives (settings.foldl withSetting decoded) setting ↔ setting ∈ settings ∨ Gives decoded setting := by
  induction settings generalizing decoded with
  | nil => simp
  | cons first settings ih =>
      obtain ⟨free, fresh⟩ := fresh_cons.mp fresh
      rw [List.foldl_cons, ih fresh, holds_with free, List.mem_cons]
      tauto

theorem unsupported_foldl (decoded : EnactableParamUpdate) (settings : List Setting) :
    (settings.foldl withSetting decoded).unsupportedFields = decoded.unsupportedFields := by
  induction settings generalizing decoded with
  | nil => rfl
  | cons setting settings ih =>
      rw [List.foldl_cons, ih]
      cases setting <;> rfl

/-! ### Reading an entry -/

theorem failAs_reads {α : Type} {read : Bytes → Read α} {written : Bytes} {value : α}
    (failure : EnactableUpdateError) (reads : Reads read written value) :
    Reads (fun data => failAs failure (read data)) written value :=
  reads.adapt _

theorem readExUnitsValue_reads {units : ExUnits} {written : Bytes} (key : UInt64)
    (value : IsExUnits units written) : Reads (fun data => readExUnitsValue data key) written units := by
  obtain ⟨header, width, mem, steps, rfl, headed, ⟨_, first⟩, ⟨_, second⟩⟩ := value
  have fields : Reads (fun data => expectExUnits data key (.definite 2 width)) (mem ++ steps) units :=
    (failAs_reads _ first).bind ((failAs_reads _ second).last (Reads.pure units))
  exact (failAs_reads _ headed).bind fields

theorem decodeUpdateEntry_reads {decoded : EnactableParamUpdate} {setting : Setting} {written : Bytes}
    (entry : IsSettingEntry setting written) (free : Free decoded setting) :
    Reads (fun data => decodeUpdateEntry data decoded) written (withSetting decoded setting) := by
  obtain ⟨keyBytes, value, rfl, ⟨_, key⟩, valued⟩ := entry
  refine (failAs_reads _ key).bind ?_
  unfold decodeUpdateValue
  cases setting with
  | minPoolCost coin =>
      obtain ⟨_, coin⟩ := valued
      have absent : decoded.minPoolCost.isSome = false := by rw [show decoded.minPoolCost = none from free]; rfl
      simp only [Setting.key, ppuKeyMinPoolCost, absent, if_true, if_false, Bool.false_eq_true]
      exact (failAs_reads _ coin).last (Reads.pure _)
  | maxTxExUnits units =>
      have absent : decoded.maxTxExUnits.isSome = false := by rw [show decoded.maxTxExUnits = none from free]; rfl
      have other : ¬ (20 : UInt64) = 16 := by decide
      simp only [Setting.key, ppuKeyMinPoolCost, ppuKeyMaxTxExUnits, absent, other, if_true, if_false,
        Bool.false_eq_true]
      exact (readExUnitsValue_reads 20 valued).last (Reads.pure _)
  | maxBlockExUnits units =>
      have absent : decoded.maxBlockExUnits.isSome = false := by
        rw [show decoded.maxBlockExUnits = none from free]; rfl
      have other : ¬ (21 : UInt64) = 16 := by decide
      have other' : ¬ (21 : UInt64) = 20 := by decide
      simp only [Setting.key, ppuKeyMinPoolCost, ppuKeyMaxTxExUnits, ppuKeyMaxBlockExUnits, absent, other,
        other', if_true, if_false, Bool.false_eq_true]
      exact (readExUnitsValue_reads 21 valued).last (Reads.pure _)

/-- The entry gives a parameter that was not given before, or its key is recorded. -/
def Stepped (decoded : EnactableParamUpdate) (written : Bytes) (next : EnactableParamUpdate) : Prop :=
  (∃ setting, IsSettingEntry setting written ∧ Free decoded setting ∧ next = withSetting decoded setting) ∨
    ∃ key, next.unsupportedFields = decoded.unsupportedFields.insert key

theorem failAs_exact {α : Type} {read : Bytes → Read α} {fact : Bytes → α → Prop}
    (failure : EnactableUpdateError) (exact_ : Exact (fun _ => read) fact) :
    Exact (fun _ data => failAs failure (read data)) fun written value => Reads read written value :=
  (Exact.adapt _ exact_.reads).mono fun _ _ known => known.1

theorem readUint_isUint (failure : EnactableUpdateError) :
    Exact (fun _ data => failAs failure (readUint data)) fun written value => IsUint value.1 written :=
  (failAs_exact failure readUint_exact).mono fun _ value reads => ⟨value.2, reads⟩

theorem readExUnitsValue_exact (key : UInt64) :
    Exact (fun _ data => readExUnitsValue data key) fun written units => IsExUnits units written := by
  have fields : ∀ encoding, Exact (fun _ data => expectExUnits data key encoding)
      fun written units => ∃ width mem steps, encoding = .definite 2 width ∧ written = mem ++ steps ∧
        IsUint units.mem mem ∧ IsUint units.steps steps := by
    intro encoding
    cases encoding with
    | indefinite => exact Exact.thrown fun _ => EnactableUpdateError.malformedExUnits key
    | definite count width =>
        refine .ite (fun two => ?_) fun _ => Exact.thrown fun _ => EnactableUpdateError.malformedExUnits key
        subst two
        refine ((readUint_isUint _).bind fun mem => (readUint_isUint _).bind fun steps =>
          Exact.pure (⟨mem.1, steps.1⟩ : ExUnits)).mono ?_
        rintro written units ⟨mem, _, _, rfl, first, steps, _, _, rfl, second, rfl, rfl⟩
        rw [List.append_nil]
        exact ⟨width, mem, steps, rfl, rfl, first, second⟩
  refine (Exact.bind (failAs_exact _ readArrayHeader_exact) fields).mono ?_
  rintro written units ⟨header, _, encoding, rfl, headed, width, mem, steps, rfl, rfl, first, second⟩
  exact ⟨header, width, mem, steps, rfl, headed, first, second⟩

theorem decodeUpdateEntry_exact (decoded : EnactableParamUpdate) :
    Exact (fun _ data => decodeUpdateEntry data decoded) (Stepped decoded) := by
  have value : ∀ key : UInt64 × IntWidth, Exact (fun _ data => decodeUpdateValue data decoded key.1)
      fun written next => (∃ setting, key.1 = setting.key ∧ IsValue setting written ∧ Free decoded setting ∧
        next = withSetting decoded setting) ∨
          ∃ key, next.unsupportedFields = decoded.unsupportedFields.insert key := by
    intro key
    have refused : ∀ {fact : Bytes → EnactableParamUpdate → Prop}, Exact (fun _ (_ : Bytes) =>
        (throw (.duplicateKey key.1) : DecodeUpdate EnactableParamUpdate)) fact :=
      Exact.thrown fun _ => EnactableUpdateError.duplicateKey key.1
    refine .ite (fun here => .ite (fun _ => refused) fun free => ?_) fun _ => ?_
    · refine ((readUint_isUint _).bind fun coin => Exact.pure _).mono ?_
      rintro written next ⟨_, _, coin, rfl, read, rfl, rfl⟩
      rw [List.append_nil]
      exact .inl ⟨.minPoolCost coin.1, here, read, by simpa [Free] using free, rfl⟩
    refine .ite (fun here => .ite (fun _ => refused) fun free => ?_) fun _ => ?_
    · refine ((readExUnitsValue_exact _).bind fun units => Exact.pure _).mono ?_
      rintro written next ⟨_, _, units, rfl, read, rfl, rfl⟩
      rw [List.append_nil]
      exact .inl ⟨.maxTxExUnits units, here, read, by simpa [Free] using free, rfl⟩
    refine .ite (fun here => .ite (fun _ => refused) fun free => ?_) fun _ => ?_
    · refine ((readExUnitsValue_exact _).bind fun units => Exact.pure _).mono ?_
      rintro written next ⟨_, _, units, rfl, read, rfl, rfl⟩
      rw [List.append_nil]
      exact .inl ⟨.maxBlockExUnits units, here, read, by simpa [Free] using free, rfl⟩
    · refine ((Exact.adapt _ (skipped_exact ())).bind fun _ => Exact.pure _).mono ?_
      rintro written next ⟨_, _, _, rfl, -, rfl, rfl⟩
      exact .inr ⟨key.1, rfl⟩
  refine (Exact.bind (readUint_isUint _) value).mono ?_
  rintro written next ⟨keyBytes, valueBytes, key, rfl, keyed, ⟨setting, same, valued, free, rfl⟩ | recorded⟩
  · rw [same] at keyed
    exact .inl ⟨setting, ⟨keyBytes, valueBytes, rfl, keyed, valued⟩, free, rfl⟩
  · exact .inr recorded

/-! ### Reading the map -/

def collect (settings : List Setting) : EnactableParamUpdate := settings.foldl withSetting .empty

theorem settings_of_chain {first last : EnactableParamUpdate} {chunks : List Bytes}
    (chain : Exact.Chain Stepped first chunks last) (clean : last.unsupportedFields.isEmpty = true) :
    first.unsupportedFields.isEmpty = true ∧ ∃ settings, List.Forall₂ IsSettingEntry settings chunks ∧
      Fresh first settings ∧ last = settings.foldl withSetting first := by
  induction chain with
  | nil state => exact ⟨clean, [], .nil, ⟨.nil, by simp⟩, rfl⟩
  | @cons state next last chunk chunks head _ ih =>
      obtain ⟨cleared, settings, entries, fresh, rfl⟩ := ih clean
      rcases head with ⟨setting, entry, free, rfl⟩ | ⟨key, recorded⟩
      · have unchanged : (withSetting state setting).unsupportedFields = state.unsupportedFields :=
          unsupported_foldl state [setting]
        rw [unchanged] at cleared
        exact ⟨cleared, setting :: settings, .cons entry entries, fresh_cons.mpr ⟨free, fresh⟩, rfl⟩
      · rw [recorded, ExtTreeSet.isEmpty_iff] at cleared
        exact absurd cleared ExtTreeSet.insert_ne_empty

theorem chain_of_settings {first : EnactableParamUpdate} {settings : List Setting} {chunks : List Bytes}
    (entries : List.Forall₂ IsSettingEntry settings chunks) (fresh : Fresh first settings) :
    Exact.Chain (fun decoded chunk next => Reads (fun data => decodeUpdateEntry data decoded) chunk next)
      first chunks (settings.foldl withSetting first) := by
  induction entries generalizing first with
  | nil => exact .nil first
  | cons entry _ ih =>
      obtain ⟨free, fresh⟩ := fresh_cons.mp fresh
      exact .cons (decodeUpdateEntry_reads entry free) (ih fresh)

theorem IsUpdate.fresh {update : Bytes} {settings : List Setting} (shape : IsUpdate update settings) :
    Fresh .empty settings :=
  ⟨shape.nodup, fun setting _ => free_empty setting⟩

theorem decode_of_update {update : Bytes} {settings : List Setting} (shape : IsUpdate update settings) :
    decodeEnactableParamUpdate update = .ok (collect settings) := by
  obtain ⟨header, count, width, chunks, rfl, headed, counted, entries⟩ := shape.written
  have listed : count.toNat = chunks.length := by rw [counted, entries.length_eq]
  have body : Reads (fun data => decodeUpdateMap data (.definite count width)) chunks.flatten
      (collect settings) := by
    simp only [decodeUpdateMap, listed]
    exact (chain_of_settings entries shape.fresh).reads
  have reads : Reads readParamUpdate (header ++ chunks.flatten) (collect settings) :=
    (failAs_reads .malformed headed).bind body
  have ran := reads [] []
  rw [List.nil_append, List.append_nil, List.length_nil, Nat.zero_add] at ran
  unfold decodeEnactableParamUpdate
  rw [ran]
  exact if_pos rfl

theorem update_of_decode {update : Bytes} {decoded : EnactableParamUpdate}
    (read : decodeEnactableParamUpdate update = .ok decoded)
    (clean : decoded.unsupportedFields.isEmpty = true) :
    ∃ settings, IsUpdate update settings ∧ decoded = collect settings := by
  have body : ∀ encoding, Exact (fun _ data => decodeUpdateMap data encoding) fun written decoded =>
      ∃ count width chunks, encoding = .definite count width ∧ written = chunks.flatten ∧
        chunks.length = count.toNat ∧ Exact.Chain Stepped .empty chunks decoded := by
    intro encoding
    cases encoding with
    | indefinite => exact Exact.thrown fun _ => EnactableUpdateError.malformed
    | definite count width =>
        refine (Exact.iterate decodeUpdateEntry_exact count.toNat .empty).mono ?_
        rintro written decoded ⟨chunks, rfl, counted, chain⟩
        exact ⟨count, width, chunks, rfl, rfl, counted, chain⟩
  have whole := Exact.bind (failAs_exact .malformed readMapHeader_exact) body
  unfold decodeEnactableParamUpdate at read
  rcases ran : (readParamUpdate update).runAt 0 with ⟨failure | found, o⟩
  · rw [ran] at read
    cases read
  · rw [ran] at read
    have checked : (if o = update.length then .ok found else .error .malformed :
        Except EnactableUpdateError EnactableParamUpdate) = .ok decoded := read
    split_ifs at checked with consumed
    cases checked
    rw [consumed] at ran
    obtain ⟨-, header, _, encoding, rfl, headed, count, width, chunks, rfl, rfl, counted, chain⟩ :=
      Exact.reads_of_run whole ran
    obtain ⟨-, settings, entries, fresh, rfl⟩ := settings_of_chain chain clean
    refine ⟨settings, ⟨⟨header, count, width, chunks, rfl, headed, ?_, entries⟩, fresh.1⟩, rfl⟩
    rw [← counted, entries.length_eq]

/-! ### The enactment -/

theorem build_with {current : ProtocolParameters} {setting : Setting} (decoded : EnactableParamUpdate)
    (keeps : setting.KeepsSteps current) :
    buildEnactedPparams current (withSetting decoded setting) =
      setting.apply (buildEnactedPparams current decoded) := by
  cases setting with
  | minPoolCost coin => rfl
  | maxTxExUnits units =>
      have same : units.steps = current.maxTxExUnitsCpu := keeps
      simp only [buildEnactedPparams, withSetting, Setting.apply, same]
      rfl
  | maxBlockExUnits units => rfl

theorem build_collect {current : ProtocolParameters} {settings : List Setting}
    (keeps : ∀ setting ∈ settings, setting.KeepsSteps current) :
    buildEnactedPparams current (collect settings) = settings.foldl Setting.apply current := by
  have whole : ∀ decoded, buildEnactedPparams current (settings.foldl withSetting decoded) =
      settings.foldl Setting.apply (buildEnactedPparams current decoded) := by
    intro decoded
    induction settings generalizing decoded with
    | nil => rfl
    | cons setting settings ih =>
        rw [List.forall_mem_cons] at keeps
        rw [List.foldl_cons, List.foldl_cons, ← build_with decoded keeps.1]
        exact ih keeps.2 _
  exact whole .empty

theorem holds_collect {update : Bytes} {settings : List Setting} (shape : IsUpdate update settings)
    (setting : Setting) : Gives (collect settings) setting ↔ setting ∈ settings := by
  have empty : ¬ Gives .empty setting := by
    cases setting <;> simp [Gives, EnactableParamUpdate.empty]
  rw [collect, holds_foldl shape.fresh]
  simp [empty]

section
variable (check : FrozenRatificationInput → BTreeMap DRep Ade.Ledger.Coin → BTreeMap PoolId Ade.Ledger.Coin →
  GovActionState → Bool) (winner : GovActionState) (prevAction : Option GovActionId) (update : Bytes)
  (policyHash : Option Hash28) (current : ProtocolParameters)

/-- The winner is the change of the parameters that has these bytes. -/
def enact : Except GovernanceTerminal EnactedParameterChange :=
  buildParameterChangeEnactment (rulesOfVotes check)
    { winner with govAction := .parameterChange prevAction update policyHash } current

variable {check winner prevAction update policyHash current}

theorem checkBlockSteps_ok {actionId : GovActionId} {units : ExUnits} :
    checkBlockSteps actionId current.maxBlockExUnits units = .ok () ↔
      (Setting.maxBlockExUnits units).KeepsSteps current := by
  unfold checkBlockSteps Setting.KeepsSteps
  cases current.maxBlockExUnits with
  | unversioned => simp
  | bound mem steps =>
      by_cases same : units.steps = steps
      · simp [same]
      · simp only [ne_eq, same, not_false_eq_true, if_true, reduceCtorEq, MaxBlockExUnits.bound.injEq,
          false_iff, not_exists, not_and]
        exact fun _ _ equal => same equal.symm

/-- Either execution limit is in the update. -/
theorem limits_collect {settings : List Setting} (shape : IsUpdate update settings) :
    ((collect settings).maxTxExUnits.isNone ∧ (collect settings).maxBlockExUnits.isNone) ↔
      ¬ ∃ setting ∈ settings, setting.key ≠ 16 := by
  rw [Option.isNone_iff_eq_none, Option.isNone_iff_eq_none]
  constructor
  · rintro ⟨noTx, noBlock⟩ ⟨setting, member, other⟩
    have held := (holds_collect shape setting).mpr member
    cases setting with
    | minPoolCost coin => exact other rfl
    | maxTxExUnits units =>
        rw [Gives, noTx] at held
        cases held
    | maxBlockExUnits units =>
        rw [Gives, noBlock] at held
        cases held
  · intro none
    constructor
    · rw [Option.eq_none_iff_forall_ne_some]
      intro units held
      exact none ⟨.maxTxExUnits units, (holds_collect shape (.maxTxExUnits units)).mp held,
        (by decide : (20 : UInt64) ≠ 16)⟩
    · rw [Option.eq_none_iff_forall_ne_some]
      intro units held
      exact none ⟨.maxBlockExUnits units, (holds_collect shape (.maxBlockExUnits units)).mp held,
        (by decide : (21 : UInt64) ≠ 16)⟩

theorem keeps_collect {settings : List Setting} {actionId : GovActionId} (shape : IsUpdate update settings) :
    (¬ ((collect settings).maxTxExUnits.any fun units => units.steps ≠ current.maxTxExUnitsCpu) = true ∧
      (collect settings).maxBlockExUnits.toList.forM (checkBlockSteps actionId current.maxBlockExUnits) =
        .ok ()) ↔ ∀ setting ∈ settings, setting.KeepsSteps current := by
  have tx : ¬ ((collect settings).maxTxExUnits.any fun units => units.steps ≠ current.maxTxExUnitsCpu) =
      true ↔ ∀ units, Setting.maxTxExUnits units ∈ settings → units.steps = current.maxTxExUnitsCpu := by
    simp only [← holds_collect shape, Gives]
    cases (collect settings).maxTxExUnits <;> simp
  have block : (collect settings).maxBlockExUnits.toList.forM
      (checkBlockSteps actionId current.maxBlockExUnits) = .ok () ↔
        ∀ units, Setting.maxBlockExUnits units ∈ settings →
          (Setting.maxBlockExUnits units).KeepsSteps current := by
    simp only [← holds_collect shape, Gives]
    cases held : (collect settings).maxBlockExUnits with
    | none => simp [pure, Except.pure]
    | some units =>
        have one : [units].forM (checkBlockSteps actionId current.maxBlockExUnits) =
            checkBlockSteps actionId current.maxBlockExUnits units := by
          show (checkBlockSteps actionId current.maxBlockExUnits units >>= fun _ => pure PUnit.unit) = _
          cases checkBlockSteps actionId current.maxBlockExUnits units <;> rfl
        rw [Option.toList_some, one, checkBlockSteps_ok]
        simp
  rw [tx, block]
  constructor
  · rintro ⟨txKept, blockKept⟩ setting member
    cases setting with
    | minPoolCost coin => trivial
    | maxTxExUnits units => exact txKept units member
    | maxBlockExUnits units => exact blockKept units member
  · intro keeps
    exact ⟨fun units member => keeps _ member, fun units member => keeps _ member⟩

/-- Exactly the supplied values are carried, and at least one of them is an execution limit. -/
theorem enact_ok {enacted : EnactedParameterChange} :
    enact check winner prevAction update policyHash current = .ok enacted ↔
      enactableUpdateWithinBounds update = true ∧ ∃ settings, IsUpdate update settings ∧
        (∃ setting ∈ settings, setting.key ≠ 16) ∧ (∀ setting ∈ settings, setting.KeepsSteps current) ∧
        enacted = ⟨winner.actionId, prevAction, settings.foldl Setting.apply current⟩ := by
  unfold enact buildParameterChangeEnactment rulesOfVotes
  dsimp only
  constructor
  · intro built
    by_cases bounded : enactableUpdateWithinBounds update = true
    · rw [if_neg (not_not.mpr bounded)] at built
      cases read : decodeEnactableParamUpdate update with
      | error failure =>
          rw [read] at built
          cases built
      | ok decoded =>
          rw [read] at built
          dsimp only [Except.toOption] at built
          split_ifs at built with clean limits steps
          obtain ⟨settings, shape, rfl⟩ := update_of_decode read clean
          obtain ⟨_, blockKept, returned⟩ := bind_ok built
          have keeps := (keeps_collect shape).mp ⟨steps, blockKept⟩
          cases returned
          rw [build_collect keeps]
          exact ⟨bounded, settings, shape, not_not.mp (mt (limits_collect shape).mpr limits), keeps, rfl⟩
    · rw [if_pos bounded] at built
      cases built
  · rintro ⟨bounded, settings, shape, limit, keeps, rfl⟩
    have clean : (collect settings).unsupportedFields.isEmpty = true := by
      rw [collect, unsupported_foldl]
      exact ExtTreeSet.isEmpty_empty
    obtain ⟨steps, blockKept⟩ := (keeps_collect shape).mpr keeps
    rw [if_neg (not_not.mpr bounded), decode_of_update shape]
    dsimp only [Except.toOption]
    rw [if_neg (not_not.mpr clean), if_neg (mt (limits_collect shape).mp (not_not.mpr limit)), if_neg steps,
      blockKept, build_collect keeps]
    rfl

variable (check winner prevAction update policyHash current)

/-- The bounds admit single definite items only, and the change is enacted exactly as it is written. -/
structure EnactsExactly : Prop where
  definite : enactableUpdateWithinBounds update = true → SingleItem update ∧ DefiniteItem update
  accepts : (∃ enacted, enact check winner prevAction update policyHash current = .ok enacted) ↔
    ∃ settings, Enactable current update settings
  carries : ∀ enacted settings, enact check winner prevAction update policyHash current = .ok enacted →
    IsUpdate update settings →
    enacted = ⟨winner.actionId, prevAction, settings.foldl Setting.apply current⟩

/-- `minPoolCost` is all that the update sets. -/
def OnlyMinPoolCost : Prop :=
  enactableUpdateWithinBounds update = true ∧ ∃ coin, IsUpdate update [.minPoolCost coin]

variable {check winner prevAction update policyHash current}

theorem enactable_only {coin : UInt64} (bounded : enactableUpdateWithinBounds update = true)
    (shape : IsUpdate update [.minPoolCost coin]) : Enactable current update [.minPoolCost coin] :=
  ⟨bounded, shape, List.cons_ne_nil _ _, List.forall_mem_singleton.mpr trivial⟩

/-- The same bytes set the same parameters. -/
theorem mem_of_updates {settings others : List Setting} (shape : IsUpdate update settings)
    (shape' : IsUpdate update others) {setting : Setting} (member : setting ∈ settings) : setting ∈ others := by
  have same : collect settings = collect others :=
    Except.ok.inj ((decode_of_update shape).symm.trans (decode_of_update shape'))
  rw [← holds_collect shape', ← same]
  exact (holds_collect shape setting).mpr member

theorem not_enact_only {coin : UInt64} (shape : IsUpdate update [.minPoolCost coin])
    (enacted : EnactedParameterChange) :
    enact check winner prevAction update policyHash current ≠ .ok enacted := by
  intro built
  obtain ⟨-, settings, shape', ⟨setting, member, other⟩, -⟩ := enact_ok.mp built
  rw [List.mem_singleton.mp (mem_of_updates shape' shape member)] at other
  exact other rfl

theorem only_of_keys {settings : List Setting} (shape : IsUpdate update settings) (some_ : settings ≠ [])
    (keys : ∀ setting ∈ settings, setting.key = 16) : ∃ coin, IsUpdate update [.minPoolCost coin] := by
  obtain ⟨setting, settings, rfl⟩ := List.exists_cons_of_ne_nil some_
  rw [List.forall_mem_cons] at keys
  have alone : settings = [] := by
    by_contra more
    obtain ⟨other, settings, rfl⟩ := List.exists_cons_of_ne_nil more
    have apart := (List.nodup_cons.mp shape.nodup).1
    rw [List.map_cons, keys.1, keys.2 other (List.mem_cons_self ..)] at apart
    exact apart (List.mem_cons_self ..)
  subst alone
  cases setting with
  | minPoolCost coin => exact ⟨coin, shape⟩
  | maxTxExUnits units => exact absurd keys.1 (by decide : (20 : UInt64) ≠ 16)
  | maxBlockExUnits units => exact absurd keys.1 (by decide : (21 : UInt64) ≠ 16)

/-- A change of `minPoolCost` alone is refused, although the parameter is one of the subset. -/
theorem parameter_change_enacts_iff :
    EnactsExactly check winner prevAction update policyHash current ↔ ¬ OnlyMinPoolCost update := by
  constructor
  · rintro exact_ ⟨bounded, coin, shape⟩
    obtain ⟨enacted, built⟩ := exact_.accepts.mpr ⟨_, enactable_only bounded shape⟩
    exact not_enact_only shape enacted built
  · intro others
    refine ⟨fun bounded => ?_, ⟨?_, ?_⟩, ?_⟩
    · have definite := definite_of_withinBounds bounded
      exact ⟨singleItem_iff.mpr definite.isItem, definite⟩
    · rintro ⟨enacted, built⟩
      obtain ⟨bounded, settings, shape, ⟨setting, member, -⟩, keeps, -⟩ := enact_ok.mp built
      exact ⟨settings, bounded, shape, List.ne_nil_of_mem member, keeps⟩
    · rintro ⟨settings, bounded, shape, some_, keeps⟩
      have limit : ∃ setting ∈ settings, setting.key ≠ 16 := by
        by_contra none
        push Not at none
        exact others ⟨bounded, only_of_keys shape some_ none⟩
      exact ⟨_, enact_ok.mpr ⟨bounded, settings, shape, limit, keeps, rfl⟩⟩
    · intro enacted settings built shape
      obtain ⟨-, others, shape', -, keeps, rfl⟩ := enact_ok.mp built
      have kept : ∀ setting ∈ settings, setting.KeepsSteps current := fun setting member =>
        keeps setting (mem_of_updates shape shape' member)
      rw [← build_collect keeps, ← build_collect kept,
        Except.ok.inj ((decode_of_update shape').symm.trans (decode_of_update shape))]

end

/-! ## A lower `minPoolCost` -/

/-- `{16: 0}` -/
def sampleOnly : Bytes := [0xa1, 0x10, 0x00]

def sampleCostChange : GovActionState where
  actionId := ⟨Vector.replicate 32 0, 0⟩
  committeeVotes := []
  drepVotes := []
  spoVotes := []
  deposit := 0
  returnAddr := []
  govAction := .infoAction
  proposedIn := 0
  expiresAfter := 10

theorem isUpdate_sampleOnly : IsUpdate sampleOnly [.minPoolCost 0] where
  written := ⟨[0xa1], 1, .inline, [[0x10, 0x00]], rfl, readMapHeader_reads 1, rfl,
    .cons ⟨[0x10], [0x00], rfl, ⟨_, readUint_reads 16⟩, _, readUint_reads 0⟩ .nil⟩
  nodup := List.nodup_singleton _

theorem min_pool_cost_refused :
    Enactable .default sampleOnly [.minPoolCost 0] ∧
      enact (fun _ _ _ _ => true) sampleCostChange none sampleOnly none .default =
        .error (.unsupportedRatifiedAction sampleCostChange.actionId .noEnactableField ∅) ∧
      ¬ EnactsExactly (fun _ _ _ _ => true) sampleCostChange none sampleOnly none .default := by
  have bounded : enactableUpdateWithinBounds sampleOnly = true := by decide
  have enactable := @enactable_only _ .default _ bounded isUpdate_sampleOnly
  refine ⟨enactable, ?_, fun exact_ => ?_⟩
  · unfold enact buildParameterChangeEnactment rulesOfVotes
    dsimp only
    rw [if_neg (not_not.mpr bounded), decode_of_update isUpdate_sampleOnly]
    rfl
  · obtain ⟨enacted, built⟩ := exact_.accepts.mpr ⟨_, enactable⟩
    exact not_enact_only isUpdate_sampleOnly enacted built

end Ade.Proof.Ledger
