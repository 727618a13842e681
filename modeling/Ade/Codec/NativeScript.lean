import Ade.Codec.Conway

/-! Native scripts: the iterative decoder, and the recursive descent that it stands for. -/

namespace Ade.Codec
open Library

/-! ## Scripts in post-order -/

/-- A composite node owns the `arity` scripts that end before it. Every one of them takes bytes of
the decoded slice, so that a count never overflows. -/
inductive NativeScriptNode where
  | sig (keyHash : Hash28)
  | all (arity : Nat)
  | any (arity : Nat)
  | mOfN (threshold : Int) (arity : Nat)
  | invalidBefore (slot : UInt64)
  | invalidHereafter (slot : UInt64)
deriving DecidableEq

def NativeScriptNode.arity : NativeScriptNode → Nat
  | .all arity | .any arity | .mOfN _ arity => arity
  | .sig _ | .invalidBefore _ | .invalidHereafter _ => 0

/-- Scripts completed and not yet owned by a parent. -/
def pendingAfter : Nat → List NativeScriptNode → Option Nat
  | pending, [] => some pending
  | pending, node :: nodes =>
      if node.arity > pending then none else pendingAfter (pending - node.arity + 1) nodes

structure NativeScript where
  nodes : List NativeScriptNode
  oneTree : pendingAfter 0 nodes = some 1
deriving DecidableEq

inductive MalformedPostOrder where
  | malformed
deriving DecidableEq

def NativeScript.fromPostOrder (nodes : List NativeScriptNode) : Except MalformedPostOrder NativeScript :=
  if oneTree : pendingAfter 0 nodes = some 1 then .ok ⟨nodes, oneTree⟩ else .error .malformed

/-! ## Heads -/

inductive Composite where
  | all
  | any
  | mOfN (threshold : Int)
deriving DecidableEq

def Composite.node : Composite → (arity : Nat) → NativeScriptNode
  | .all, arity => .all arity
  | .any, arity => .any arity
  | .mOfN threshold, arity => .mOfN threshold arity

inductive Leaf where
  | sig (keyHash : Hash28)
  | invalidBefore (slot : UInt64)
  | invalidHereafter (slot : UInt64)
deriving DecidableEq

def Leaf.node : Leaf → NativeScriptNode
  | .sig keyHash => .sig keyHash
  | .invalidBefore slot => .invalidBefore slot
  | .invalidHereafter slot => .invalidHereafter slot

/-- A whole leaf, or what stands before the sub-scripts of a composite. -/
inductive ScriptHead where
  | leaf (leaf : Leaf)
  | list (composite : Composite)
deriving DecidableEq

def readAnyInt (data : Bytes) : Read (UInt64 × Bool × IntWidth) := do
  let start ← get
  let (major, ai) ← decodeInitial data
  if major = majorUnsigned then
    let (value, width) ← decodeArgument data ai start
    return (value, false, width)
  else if major = majorNegative then
    let (value, width) ← decodeArgument data ai start
    return (value, true, width)
  else throw (.unexpectedCborType start "integer" major)

/-- Major type 1 stands for `-1 - argument`. -/
def readThreshold (data : Bytes) : Read Int := do
  let start ← get
  let (argument, negative, _) ← readAnyInt data
  if argument.toNat < 2 ^ 63 then
    return if negative then -1 - argument.toNat else argument.toNat
  else throw (.invalidCborStructure start "native script MOfN threshold outside int64")

def readScriptArray (data : Bytes) : Read UInt64 := do
  match ← readArrayHeader data with
  | .definite count _ => return count
  | .indefinite =>
      throw (.invalidCborStructure (← get) "native script must be definite-length array")

def readKeyHash : Bytes → Read Hash28 := readHash 28 "native script Sig key hash must be 28 bytes"

def expectMOfN (declared : UInt64) : Read Unit := do
  if declared ≠ 3 then
    throw (.invalidCborStructure (← get) "native script MOfN must be array(3)")

/-- After the array header: the tag, and all of a leaf or the threshold. The declared length of the
array is looked at for one tag only. -/
def readScriptTag (data : Bytes) (declared : UInt64) : Read ScriptHead := do
  let (tag, _) ← readUint data
  if tag = 0 then return .leaf (.sig (← readKeyHash data))
  else if tag = 1 then return .list .all
  else if tag = 2 then return .list .any
  else if tag = 3 then
    expectMOfN declared
    return .list (.mOfN (← readThreshold data))
  else if tag = 4 then
    let (slot, _) ← readUint data
    return .leaf (.invalidBefore slot)
  else if tag = 5 then
    let (slot, _) ← readUint data
    return .leaf (.invalidHereafter slot)
  else throw (.invalidCborStructure (← get) "unknown native script constructor tag")

/-- The start of a script, with the declared length of its array. -/
def readScriptStart (data : Bytes) : Read (UInt64 × ScriptHead) := do
  let declared ← readScriptArray data
  let head ← readScriptTag data declared
  return (declared, head)

/-- A composite whose sub-script list is still being read; `none` is owed until a break byte. -/
structure Open where
  composite : Composite
  owed : Option Nat
  arity : Nat

def openList (data : Bytes) (composite : Composite) : Read Open := do
  match ← readArrayHeader data with
  | .definite count _ => return ⟨composite, some count.toNat, 0⟩
  | .indefinite => return ⟨composite, none, 0⟩

def openHead (data : Bytes) : ScriptHead → Read (Leaf ⊕ Open)
  | .leaf leaf => return .inl leaf
  | .list composite => do return .inr (← openList data composite)

/-- A leaf, or a composite with the header of its list. -/
def readScriptHead (data : Bytes) : Read (Leaf ⊕ Open) := do
  let start ← readScriptStart data
  openHead data start.2

/-! ## Every head takes a byte, and fails in an ordinary way -/

def lostPosition : String := "native script decoder lost its position"

def notOneTree : String := "native script nodes do not form one tree"

/-- Not a failure of the decoder's own book-keeping. -/
def Ordinary (failure : CodecError) : Prop :=
  ∀ offset, failure ≠ .invalidCborStructure offset lostPosition ∧
    failure ≠ .invalidCborStructure offset notOneTree

section Progress

variable {data : Bytes} {least : Nat}

theorem ordinary_structure {offset : Nat} {detail : String} (lost : detail ≠ lostPosition)
    (tree : detail ≠ notOneTree) : Ordinary (.invalidCborStructure offset detail) := by
  intro other
  constructor
  · rintro ⟨⟩
    exact lost rfl
  · rintro ⟨⟩
    exact tree rfl

theorem ordinary_eof (offset needed : Nat) : Ordinary (.unexpectedEof offset needed) :=
  fun _ => ⟨nofun, nofun⟩

theorem ordinary_type (offset actual : Nat) (expected : String) :
    Ordinary (.unexpectedCborType offset expected actual) :=
  fun _ => ⟨nofun, nofun⟩

abbrev Forward {α : Type} (least : Nat) (cursor : Read α) : Prop :=
  Cursor.Ensures (least ≤ ·) Ordinary cursor

theorem get_forward : Forward least (get : Read Nat) := by
  intro offset reached
  exact ⟨reached, fun failure failed => by cases failed⟩

/-- A check before the rest. -/
theorem check_ordinary {α : Type} {refused : Prop} [Decidable refused] {failure : CodecError}
    {rest : Read α} (allowed : Ordinary failure) (after : Forward least rest) :
    Forward least (if refused then (throw failure : Read PUnit) >>= fun _ => rest else rest) :=
  .ite ((Cursor.Ensures.throw allowed).bind fun _ => after) after

theorem decodeArgument_ordinary (ai start : Nat) : Forward least (decodeArgument data ai start) :=
  decodeArgument_ensures ordinary_eof (ordinary_structure (by decide) (by decide)) least ai

theorem decodeInitial_ordinary : Forward least (decodeInitial data) :=
  (readByte_ensures ordinary_eof least).bind fun _ => .pure _

theorem readUint_ordinary : Forward least (readUint data) := by
  refine get_forward.bind fun start => decodeInitial_ordinary.bind fun initial => ?_
  exact check_ordinary (ordinary_type _ _ _) (decodeArgument_ordinary _ _)

/-- An array header is an initial byte and what is read after it. -/
theorem readArrayHeader_split (data : Bytes) : ∃ next : Nat → Nat × Nat → Read ContainerEncoding,
    (readArrayHeader data = do
      let start ← get
      let initial ← decodeInitial data
      next start initial) ∧ ∀ start initial least, Forward least (next start initial) := by
  refine ⟨_, rfl, fun start initial least => ?_⟩
  have rest : Forward least (decodeArgument data initial.2 start >>= fun argument =>
      (pure (.definite argument.1 argument.2) : Read ContainerEncoding)) :=
    (decodeArgument_ordinary _ _).bind fun _ => .pure _
  exact check_ordinary (ordinary_type _ _ _) (.ite (.pure _) rest)

theorem readArrayHeader_ordinary : Forward least (readArrayHeader data) := by
  obtain ⟨next, split, forward⟩ := readArrayHeader_split data
  rw [split]
  exact get_forward.bind fun start => decodeInitial_ordinary.bind fun initial => forward start initial _

theorem readBytes_ordinary : Forward least (readBytes data) := by
  refine get_forward.bind fun start => decodeInitial_ordinary.bind fun initial => ?_
  have payload : ∀ len, Forward least (readPayload data len) := fun len =>
    ensures_of_runAt ordinary_eof least (readPayload_runAt data len)
  have argument : Forward least (decodeArgument data initial.2 start >>= fun length =>
      readPayload data length.1.toNat >>= fun bytes => (pure (bytes, length.2) : Read (Bytes × IntWidth))) :=
    (decodeArgument_ordinary _ _).bind fun _ => (payload _).bind fun _ => .pure _
  exact check_ordinary (ordinary_type _ _ _)
    (check_ordinary (ordinary_structure (by decide) (by decide)) argument)

theorem readHash_ordinary (size : Nat) (detail : String) : Forward least (readHash size detail data) := by
  refine readBytes_ordinary.bind fun bytes => ?_
  dsimp only
  split_ifs
  · exact .pure _
  · exact get_forward.bind fun _ => .throw fun _ => ⟨nofun, nofun⟩

theorem readAnyInt_ordinary : Forward least (readAnyInt data) := by
  refine get_forward.bind fun start => decodeInitial_ordinary.bind fun initial => ?_
  exact .ite ((decodeArgument_ordinary _ _).bind fun _ => .pure _)
    (.ite ((decodeArgument_ordinary _ _).bind fun _ => .pure _) (.throw (ordinary_type _ _ _)))

theorem readThreshold_ordinary : Forward least (readThreshold data) := by
  refine get_forward.bind fun start => readAnyInt_ordinary.bind fun argument => ?_
  exact .ite (.pure _) (.throw (ordinary_structure (by decide) (by decide)))

theorem readScriptTag_ordinary (declared : UInt64) : Forward least (readScriptTag data declared) := by
  refine readUint_ordinary.bind fun tag => ?_
  have slot : ∀ leaf : UInt64 → Leaf, Forward least (readUint data >>= fun slot =>
      (pure (.leaf (leaf slot.1)) : Read ScriptHead)) := fun leaf => readUint_ordinary.bind fun _ => .pure _
  have threshold : Forward least (expectMOfN declared >>= fun _ => readThreshold data >>= fun threshold =>
      (pure (.list (.mOfN threshold)) : Read ScriptHead)) := by
    refine Cursor.Ensures.bind ?_ fun _ => readThreshold_ordinary.bind fun _ => .pure _
    exact .ite (get_forward.bind fun _ => .throw (ordinary_structure (by decide) (by decide))) (.pure _)
  have unknown : Forward least ((get : Read Nat) >>= fun offset => (throw (.invalidCborStructure offset
      "unknown native script constructor tag") : Read ScriptHead)) :=
    get_forward.bind fun _ => .throw (ordinary_structure (by decide) (by decide))
  exact .ite ((readHash_ordinary _ _).bind fun _ => .pure _) <| .ite (.pure _) <| .ite (.pure _) <|
    .ite threshold <| .ite (slot _) <| .ite (slot _) unknown

theorem readScriptArray_ordinary : Forward least (readScriptArray data) := by
  refine readArrayHeader_ordinary.bind fun encoding => ?_
  cases encoding with
  | definite count width => exact .pure _
  | indefinite =>
      exact get_forward.bind fun _ => .throw (ordinary_structure (by decide) (by decide))

theorem openHead_ordinary (head : ScriptHead) : Forward least (openHead data head) := by
  cases head with
  | leaf node => exact .pure _
  | list composite =>
      refine Cursor.Ensures.bind (readArrayHeader_ordinary.bind fun encoding => ?_) fun _ => .pure _
      cases encoding with
      | definite count width => exact .pure _
      | indefinite => exact .pure _

theorem readScriptStart_ordinary : Forward least (readScriptStart data) :=
  readScriptArray_ordinary.bind fun declared => (readScriptTag_ordinary declared).bind fun _ => .pure _

variable {offset after : Nat}

theorem Forward.le {α : Type} {cursor : Read α} {value : Except CodecError α}
    (forward : Forward offset cursor) (ran : cursor.runAt offset = (value, after)) : offset ≤ after := by
  have reached := (forward offset (Nat.le_refl offset)).1
  rwa [ran] at reached

theorem readArrayHeader_ok {encoding : ContainerEncoding}
    (ran : (readArrayHeader data).runAt offset = (.ok encoding, after)) :
    offset < data.length ∧ offset < after := by
  obtain ⟨next, split, forward⟩ := readArrayHeader_split data
  rw [split, Cursor.runAt_bind_ok (Cursor.runAt_get offset), Cursor.runAt_bind] at ran
  cases found : data[offset]? with
  | none => simp [decodeInitial, readByte, peekByte, Cursor.runAt_bind, found] at ran
  | some byte =>
      have initial : (decodeInitial data).runAt offset =
          (.ok (byte.toNat / 32, byte.toNat % 32), offset + 1) := by
        simp [decodeInitial, readByte, peekByte, Cursor.runAt_bind, found, Except.map]
      rw [initial] at ran
      exact ⟨(List.getElem?_eq_some_iff.mp found).1, Forward.le (forward _ _ _) ran⟩

/-- What an array header begins takes a byte. -/
theorem taken_after_header {α : Type} {next : ContainerEncoding → Read α} {value : α}
    (forward : ∀ encoding least, Forward least (next encoding))
    (ran : (readArrayHeader data >>= next).runAt offset = (.ok value, after)) :
    offset < data.length ∧ offset < after := by
  rw [Cursor.runAt_bind] at ran
  rcases header : (readArrayHeader data).runAt offset with ⟨failure | encoding, middle⟩
  · rw [header] at ran
    cases ran
  · rw [header] at ran
    obtain ⟨available, taken⟩ := readArrayHeader_ok header
    exact ⟨available, Nat.lt_of_lt_of_le taken (Forward.le (forward encoding middle) ran)⟩

theorem readScriptStart_ok {start : UInt64 × ScriptHead}
    (ran : (readScriptStart data).runAt offset = (.ok start, after)) :
    offset < data.length ∧ offset < after := by
  unfold readScriptStart readScriptArray at ran
  rw [bind_assoc] at ran
  refine taken_after_header (fun encoding least => ?_) ran
  have rest : ∀ declared, Forward least (readScriptTag data declared >>= fun head =>
      (pure (declared, head) : Read (UInt64 × ScriptHead))) := fun declared =>
    (readScriptTag_ordinary declared).bind fun _ => .pure _
  cases encoding with
  | definite count width => exact (Cursor.Ensures.pure count).bind rest
  | indefinite =>
      refine Cursor.Ensures.bind ?_ rest
      exact get_forward.bind fun _ => .throw (ordinary_structure (by decide) (by decide))

theorem readScriptHead_ok {head : Leaf ⊕ Open}
    (ran : (readScriptHead data).runAt offset = (.ok head, after)) :
    offset < data.length ∧ offset < after := by
  unfold readScriptHead at ran
  rw [Cursor.runAt_bind] at ran
  rcases started : (readScriptStart data).runAt offset with ⟨failure | start, middle⟩
  · rw [started] at ran
    cases ran
  · rw [started] at ran
    obtain ⟨available, taken⟩ := readScriptStart_ok started
    exact ⟨available, Nat.lt_of_lt_of_le taken (Forward.le (openHead_ordinary start.2) ran)⟩

end Progress

/-! ## The iterative decoder -/

/-- The inner loop. It ends with the script, or with the nodes and the lists to read on with. -/
def closeLists (data : Bytes) (start : Nat) : (completed : Bool) → List NativeScriptNode → List Open →
    Nat → Outcome (NativeScript ⊕ (List NativeScriptNode × List Open))
  | true, nodes, [], offset =>
      match NativeScript.fromPostOrder nodes with
      | .ok script => (.ok (.inl script), offset)
      | .error _ => (.error (.invalidCborStructure start notOneTree), offset)
  | false, _, [], offset => (.error (.invalidCborStructure offset lostPosition), offset)
  | completed, nodes, top :: rest, offset =>
      let arity := if completed then top.arity + 1 else top.arity
      let closed := nodes ++ [top.composite.node arity]
      match top.owed with
      | some 0 => closeLists data start true closed rest offset
      | some (count + 1) => (.ok (.inr (nodes, ⟨top.composite, some count, arity⟩ :: rest)), offset)
      | none =>
          match peekByte data offset with
          | .error failure => (.error failure, offset)
          | .ok byte =>
              if byte = breakByte then closeLists data start true closed rest (offset + 1)
              else (.ok (.inr (nodes, ⟨top.composite, none, arity⟩ :: rest)), offset)

/-- A leaf is completed by its head. -/
def afterHead (nodes : List NativeScriptNode) (lists : List Open) :
    Leaf ⊕ Open → Bool × List NativeScriptNode × List Open
  | .inl leaf => (true, nodes ++ [leaf.node], lists)
  | .inr list => (false, nodes, list :: lists)

theorem closeLists_forward {data : Bytes} {start : Nat} {completed : Bool}
    {nodes : List NativeScriptNode} {lists : List Open} {offset : Nat} :
    offset ≤ (closeLists data start completed nodes lists offset).2 := by
  fun_induction closeLists data start completed nodes lists offset with
  | case1 | case2 | case3 | case5 | case6 | case8 => exact Nat.le_refl _
  | case4 => assumption
  | case7 => exact Nat.le_of_succ_le (by assumption)

def decodeScriptLoop (data : Bytes) (start : Nat) (nodes : List NativeScriptNode) (lists : List Open)
    (offset : Nat) : Outcome NativeScript :=
  match ran : (readScriptHead data).runAt offset with
  | (.error failure, after) => (.error failure, after)
  | (.ok head, after) =>
      let (completed, seen, pushed) := afterHead nodes lists head
      match closed : closeLists data start completed seen pushed after with
      | (.error failure, final) => (.error failure, final)
      | (.ok (.inl script), final) => (.ok script, final)
      | (.ok (.inr (nodes, lists)), final) => decodeScriptLoop data start nodes lists final
termination_by data.length - offset
decreasing_by
  obtain ⟨available, taken⟩ := readScriptHead_ok ran
  have forward := @closeLists_forward data start completed seen pushed after
  rw [closed] at forward
  have passed : after ≤ final := forward
  omega

def decodeNativeScript (data : Bytes) (offset : Nat) : Outcome NativeScript :=
  decodeScriptLoop data offset [] [] offset

/-! ## Arrays of scripts -/

/-- A script with its byte range. -/
def readOne (data : Bytes) : Read (NativeScript × Nat × Nat) := do
  let start ← get
  let script ← Cursor.ofRun (decodeNativeScript data)
  let after ← get
  return (script, start, after)

def decodeScriptArray (data : Bytes) : Read (List (NativeScript × Nat × Nat)) :=
  readArray data (readOne data)

def decodeNativeScripts (data : Bytes) : Read (List NativeScript) :=
  List.map Prod.fst <$> decodeScriptArray data

def decodeNativeScriptsPreserved : Bytes → Read (List (NativeScript × Nat × Nat)) := decodeScriptArray

/-! ## The recursive descent -/

/-- A script as it is written: the declared length of each array, and how each list ends. -/
inductive ScriptSyntax where
  | leaf (declared : UInt64) (leaf : Leaf)
  | list (declared : UInt64) (composite : Composite) (indefinite : Bool) (scripts : List ScriptSyntax)

mutual

def ScriptSyntax.postOrder : ScriptSyntax → List NativeScriptNode
  | .leaf _ leaf => [leaf.node]
  | .list _ composite _ scripts => postOrders scripts ++ [composite.node scripts.length]

def postOrders : List ScriptSyntax → List NativeScriptNode
  | [] => []
  | script :: scripts => script.postOrder ++ postOrders scripts

end

def readScriptList (data : Bytes) (element : Read ScriptSyntax) : Read (Bool × List ScriptSyntax) := do
  match ← readArrayHeader data with
  | .definite count _ => return (false, ← Cursor.times element count.toNat)
  | .indefinite =>
      let scripts ← untilBreak data element data.length
      modify (· + 1)
      return (true, scripts)

/-- `left` bounds the bytes from the offset on. With none left, reading fails as it does at the end
of the data. -/
def readScriptWithin (data : Bytes) : Nat → Read ScriptSyntax
  | 0 => do throw (.unexpectedEof (← get) 1)
  | left + 1 => do
      let (declared, head) ← readScriptStart data
      match head with
      | .leaf leaf => return .leaf declared leaf
      | .list composite =>
          let (indefinite, scripts) ← readScriptList data (readScriptWithin data left)
          return .list declared composite indefinite scripts

def readScript (data : Bytes) : Read ScriptSyntax := do
  let offset ← get
  readScriptWithin data (data.length - offset)

end Ade.Codec
