import Ade.Proof.Participant.Lockstep

/-! What every turn of the participant's loop preserves. -/

namespace Ade.Proof.Participant
open Library Ade.ChainDb Ade.Codec.Shelley Ade.Consensus Ade.Receive Ade.Rollback Ade.ForwardSync
open Ade.Wal Ade.BlockValidity Ade.Participant
open Proof.Rollback
open Proof.BlockValidity (BodyLocates)
open Proof.Consensus (Reaches)

variable {env : Environment} {shell : Shell env} {origin : Origin env.Ledger} {snapshot : Bytes}
  {state : State env} {chain : List (Admission env.Ledger)}

/-! ## Chains by parent hash -/

/-- Every block of the chain, newest first, names the one below it. -/
def NamesChain (chain : List (Admission env.Ledger)) : Prop :=
  chain.IsChain fun newer older => NamesParent env older.block newer.block

theorem namesChain_below {above below : List (Admission env.Ledger)}
    (names : NamesChain (above ++ below)) : NamesChain below :=
  (List.isChain_append.mp names).2.1

theorem namesChain_admitted (names : NamesChain chain) {blockBytes : Bytes}
    {decoded : BlockValidity.DecodedBlock} (decodes : decodeBlock env blockBytes = .ok decoded)
    (parent : ∀ newest ∈ chain.head?, decoded.prevHash = .block newest.block.hash)
    (ledger : env.Ledger) (chainDep : PraosChainDepState) :
    NamesChain (⟨storedBlock decoded blockBytes, ledger, chainDep⟩ :: chain) :=
  List.isChain_cons.mpr ⟨fun newest head => ⟨decoded, decodes, parent newest head⟩, names⟩

/-- A block that names the tip keeps the chain linked. -/
theorem grows_names {blockBytes : Bytes} {decoded : BlockValidity.DecodedBlock}
    (decodes : decodeBlock env blockBytes = .ok decoded) (names : NamesChain chain)
    (parent : ∀ newest ∈ chain.head?, decoded.prevHash = .block newest.block.hash)
    {result : Except (PumpError env) (Option PumpTip)} {grown : List (Admission env.Ledger)}
    (grows : Grows blockBytes chain result grown) : NamesChain grown := by
  cases grows with
  | refused error => exact names
  | repeated => exact names
  | admitted again ledger chainDep ran =>
      rw [decodes] at ran
      cases ran
      exact namesChain_admitted names decodes parent ledger chainDep

/-- The state after a step is that of a chain, linked where the one before was. -/
def Continues (shell : Shell env) (origin : Origin env.Ledger) (snapshot : Bytes)
    (chain : List (Admission env.Ledger)) (after : State env) : Prop :=
  ∃ next, Holds shell origin snapshot after next ∧ (NamesChain chain → NamesChain next)

/-! ## Blocks -/

theorem admitBlock_ok {after : State env} {blockBytes : Bytes}
    (admitted : admitBlock shell state blockBytes = .ok after) :
    ∃ tip, pumpBlock shell state blockBytes = (.ok tip, after) := by
  unfold admitBlock at admitted
  cases pumped : pumpBlock shell state blockBytes with
  | mk result next =>
      rw [pumped] at admitted
      cases result with
      | error failure => cases admitted
      | ok tip =>
          cases admitted
          exact ⟨tip, rfl⟩

theorem admitBlock_continues (holds : Holds shell origin snapshot state chain) {after : State env}
    {blockBytes : Bytes} {decoded : BlockValidity.DecodedBlock}
    (decodes : decodeBlock env blockBytes = .ok decoded)
    (parent : ∀ newest ∈ chain.head?, decoded.prevHash = .block newest.block.hash)
    (admitted : admitBlock shell state blockBytes = .ok after) :
    Continues shell origin snapshot chain after := by
  obtain ⟨tip, pumped⟩ := admitBlock_ok admitted
  obtain ⟨grown, next, grows⟩ := holds.pump blockBytes
  rw [pumped] at next grows
  exact ⟨grown, next, fun names => grows_names decodes names parent grows⟩

theorem classifyReceive_linearExtend {durableTip : TipPoint} {candidate : CandidateSummary}
    {inSpine : Bool} (disposed : resolveDisposition (classifyReceive durableTip candidate inSpine)
      .participant = .linearExtend) : candidate.prevHash = .block durableTip.hash := by
  unfold classifyReceive at disposed
  split_ifs at disposed with known extends_
  · cases disposed
  · exact extends_.1
  · cases disposed

theorem receiveBlock_continues (holds : Holds shell origin snapshot state chain) {after : State env}
    {blockBytes : Bytes} (received : receiveBlock shell state blockBytes = .ok after) :
    Continues shell origin snapshot chain after := by
  unfold receiveBlock at received
  obtain ⟨decoded, read, received⟩ := bind_ok received
  have decodes := mapError_ok read
  obtain ⟨tip, looked, received⟩ := bind_ok received
  have here := mapError_ok looked
  rw [tip_keeps holds.linked holds.keeps] at here
  cases here
  cases chain with
  | nil => exact admitBlock_continues holds decodes nofun received
  | cons newest rest =>
      dsimp only [List.head?_cons, Option.map_some] at received
      obtain ⟨stored, -, received⟩ := bind_ok received
      have same : ∀ {next : State env}, state = next →
          Continues shell origin snapshot (newest :: rest) next := by
        rintro next rfl
        exact ⟨newest :: rest, holds, id⟩
      split at received
      · exact same (Except.ok.inj received)
      · rename_i disposed
        have parent := classifyReceive_linearExtend disposed
        refine admitBlock_continues holds decodes ?_ received
        intro other head
        cases head
        exact parent
      · exact same (Except.ok.inj received)
      · cases received

/-! ## Rollbacks -/

section
variable {seed : EraSummary} {count : Nat} (reaches : Reaches seed count env.eraSchedule)
  (body : BodyLocates env) (decodes : shell.decodeSnapshot snapshot = .ok (origin.ledger, origin.chainDep))
include reaches body decodes

theorem rolledBack_continues (holds : Holds shell origin snapshot state chain) {target : Point}
    {reason : RollbackReason} {outcome : Option Point × State env}
    (applied : applyChainEvent shell state (.rolledBack target) reason none = .ok outcome) :
    Continues shell origin snapshot chain outcome.2 := by
  obtain ⟨above, admission, below, split, -, -, next⟩ :=
    holds.rolledBack reaches body decodes applied
  refine ⟨admission :: below, next, fun names => ?_⟩
  rw [split] at names
  exact namesChain_below names

theorem peerRollback_continues (holds : Holds shell origin snapshot state chain)
    {accumulator : AccumulatorStore} {point : Network.Point} {after : State env}
    (resolved : resolveAndApplyPeerRollback shell accumulator state point = .ok after) :
    Continues shell origin snapshot chain after := by
  unfold resolveAndApplyPeerRollback at resolved
  cases point with
  | origin => cases resolved
  | block slot hash =>
      dsimp only at resolved
      split_ifs at resolved
      · cases resolved
        exact ⟨chain, holds, id⟩
      · obtain ⟨found, -, resolved⟩ := bind_ok resolved
        split at resolved
        · cases resolved
        · split_ifs at resolved
          · cases resolved
          · obtain ⟨_, -, resolved⟩ := bind_ok resolved
            obtain ⟨outcome, applied, resolved⟩ := bind_ok resolved
            obtain ⟨_, -, resolved⟩ := bind_ok resolved
            cases resolved
            exact rolledBack_continues reaches body decodes holds (mapError_ok applied)

end

/-! ## Ranges fetched again -/

theorem namesChain_admitted_iff (holds : Holds shell origin snapshot state chain)
    (names : NamesChain chain) {blockBytes : Bytes} {decoded : BlockValidity.DecodedBlock}
    (decodes : decodeBlock env blockBytes = .ok decoded) (ledger : env.Ledger)
    (chainDep : PraosChainDepState) :
    NamesChain (⟨storedBlock decoded blockBytes, ledger, chainDep⟩ :: chain) ↔
      NamesTop state blockBytes := by
  unfold NamesTop
  rw [holds.tip]
  constructor
  · intro linked top head
    obtain ⟨newest, first, rfl⟩ := Option.map_eq_some_iff.mp head
    exact (List.isChain_cons.mp linked).1 newest first
  · intro extending
    apply namesChain_admitted names decodes
    intro newest first
    obtain ⟨again, found, parent⟩ := extending _ (Option.mem_map_of_mem _ first)
    rw [decodes] at found
    cases found
    exact parent

/-- A range grows the chain, and leaves it linked exactly where every admitted body names the tip. -/
theorem recoverBodies_grows (holds : Holds shell origin snapshot state chain)
    (toDescendant : Hash32) (reached : Bool) (bodies : List Bytes) : ∃ above,
      Holds shell origin snapshot (recoverBodies shell toDescendant reached state bodies).2
        (above ++ chain) ∧
      (NamesChain chain → (NamesChain (above ++ chain) ↔ Extending shell state bodies)) := by
  induction bodies generalizing reached state chain with
  | nil => exact ⟨[], holds, fun names => iff_of_true names trivial⟩
  | cons bytes bodies ih =>
      obtain ⟨grown, next, grows⟩ := holds.pump bytes
      unfold recoverBodies Extending
      generalize pumpBlock shell state bytes = outcome at next grows
      obtain ⟨result, pumped⟩ := outcome
      dsimp only at next grows
      cases grows with
      | refused error =>
          cases error <;> exact ⟨[], next, fun names => iff_of_true names trivial⟩
      | repeated => exact ih next _
      | admitted decoded ledger chainDep decodes =>
          obtain ⟨above, final, extends_⟩ := ih next (reached || (pumpTip decoded).hash = toDescendant)
          refine ⟨above ++ [⟨storedBlock decoded bytes, ledger, chainDep⟩], ?_, fun names => ?_⟩
          · rw [List.append_assoc]
            exact final
          · rw [List.append_assoc, List.singleton_append]
            have first := namesChain_admitted_iff holds names decodes ledger chainDep
            constructor
            · intro linked
              have grown := namesChain_below linked
              exact ⟨first.mp grown, (extends_ grown).mp linked⟩
            · rintro ⟨named, further⟩
              exact (extends_ (first.mpr named)).mpr further

theorem recoverMissingRange_grows (holds : Holds shell origin snapshot state chain)
    (toDescendant : Hash32) (bodies : List Bytes) : ∃ above,
      Holds shell origin snapshot (recoverMissingRange shell state toDescendant bodies).2
        (above ++ chain) ∧
      (NamesChain chain → (NamesChain (above ++ chain) ↔ Extending shell state bodies)) := by
  unfold recoverMissingRange
  split_ifs with empty
  · rw [List.isEmpty_iff.mp empty]
    exact ⟨[], holds, fun names => iff_of_true names trivial⟩
  · exact recoverBodies_grows holds toDescendant false bodies

end Ade.Proof.Participant
