import Ade.Proof.Network.HandshakeMessages
import Ade.Proof.Network.Mux

/-! What the two sides of a handshake report. -/

namespace Ade.Proof.Network
open Library Ade.Codec Ade.Network

/-! ## Selection -/

/-- The best among the pairs of equal versions, if there is one. -/
def Chosen (pairs : List (UInt16 × UInt16 × VersionData)) : Option (UInt16 × VersionData) → Prop
  | none => ∀ pair ∈ pairs, pair.2.1 ≠ pair.1
  | some found => (found.1, found) ∈ pairs ∧
      ∀ pair ∈ pairs, pair.2.1 = pair.1 → pair.1 ≤ found.1

theorem betterVersion_chosen {pairs : List (UInt16 × UInt16 × VersionData)}
    {best : Option (UInt16 × VersionData)} (chosen : Chosen pairs best)
    (pair : UInt16 × UInt16 × VersionData) :
    Chosen (pairs ++ [pair]) (betterVersion pair.1 best pair.2) := by
  unfold betterVersion
  by_cases same : pair.2.1 = pair.1
  · cases best with
    | none =>
        rw [if_pos ⟨same, rfl⟩]
        refine ⟨List.mem_append_right _ ?_, fun other member equal => ?_⟩
        · rw [List.mem_singleton, ← same]
          exact Prod.ext same rfl
        · rcases List.mem_append.mp member with earlier | last
          · exact absurd equal (chosen other earlier)
          · rw [List.mem_singleton.mp last]
            exact UInt16.le_refl _
    | some found =>
        obtain ⟨present, highest⟩ := chosen
        by_cases higher : pair.1 > found.1
        · rw [if_pos ⟨same, decide_eq_true higher⟩]
          refine ⟨List.mem_append_right _ ?_, fun other member equal => ?_⟩
          · rw [List.mem_singleton, ← same]
            exact Prod.ext same rfl
          · rcases List.mem_append.mp member with earlier | last
            · exact UInt16.le_of_lt (UInt16.lt_of_le_of_lt (highest other earlier equal) higher)
            · rw [List.mem_singleton.mp last]
              exact UInt16.le_refl _
        · rw [if_neg (by simpa [same] using higher)]
          refine ⟨List.mem_append_left _ present, fun other member equal => ?_⟩
          rcases List.mem_append.mp member with earlier | last
          · exact highest other earlier equal
          · rw [List.mem_singleton.mp last]
            exact UInt16.not_lt.mp higher
  · rw [if_neg fun both => same both.1]
    cases best with
    | none =>
        intro other member
        rcases List.mem_append.mp member with earlier | last
        · exact chosen other earlier
        · rw [List.mem_singleton.mp last]
          exact same
    | some found =>
        refine ⟨List.mem_append_left _ chosen.1, fun other member equal => ?_⟩
        rcases List.mem_append.mp member with earlier | last
        · exact chosen.2 other earlier equal
        · exact absurd (List.mem_singleton.mp last ▸ equal) same

theorem foldl_betterVersion_chosen (pairs : List (UInt16 × UInt16 × VersionData)) :
    Chosen pairs (pairs.foldl (fun best pair => betterVersion pair.1 best pair.2) none) := by
  induction pairs using List.reverseRecOn with
  | nil => simp [Chosen]
  | append_singleton pairs pair ih =>
      rw [List.foldl_concat]
      exact betterVersion_chosen ih pair

theorem selectN2nVersion_chosen (proposed : VersionTable)
    (supported : List (UInt16 × VersionData)) :
    Chosen (proposed.flatMap fun entry => supported.map fun other => (entry.1, other))
      (selectN2nVersion proposed supported) := by
  have chosen := foldl_betterVersion_chosen
    (proposed.flatMap fun entry => supported.map fun other => (entry.1, other))
  simp only [List.foldl_flatMap, List.foldl_map] at chosen
  exact chosen

theorem mem_supportedBy {networkMagic : UInt32} {versions : List UInt16}
    {entry : UInt16 × VersionData} : entry ∈ supportedBy networkMagic versions ↔
      entry.1 ∈ n2nSupported.map Prod.fst ∧ entry.1 ∈ versions ∧ entry.2 = n2n networkMagic := by
  obtain ⟨version, data⟩ := entry
  simp only [supportedBy, n2nSupportedForMagic, List.mem_filter, List.mem_map, Prod.mk.injEq,
    decide_eq_true_eq]
  constructor
  · rintro ⟨⟨known, member, rfl, rfl⟩, offered⟩
    exact ⟨⟨known, member, rfl⟩, offered, rfl⟩
  · rintro ⟨⟨known, member, rfl⟩, offered, rfl⟩
    exact ⟨⟨known, member, rfl, rfl⟩, offered⟩

section
variable {initiatorMagic responderMagic : UInt32} {offered offered' : List UInt16}

/-- Both magics are ignored by the selection. -/
theorem selectN2nVersion_supportedBy (known : offered' ⊆ n2nSupported.map Prod.fst) :
    (∀ version ∈ offered, version ∉ offered') ∧
        selectN2nVersion (proposalOf initiatorMagic offered) (supportedBy responderMagic offered') = none ∨
      ∃ version, IsBestCommon offered offered' version ∧
        selectN2nVersion (proposalOf initiatorMagic offered) (supportedBy responderMagic offered') =
          some (version, n2n responderMagic) := by
  have chosen := selectN2nVersion_chosen (proposalOf initiatorMagic offered)
    (supportedBy responderMagic offered')
  have common : ∀ version ∈ offered, version ∈ offered' →
      (version, version, n2n responderMagic) ∈
        (proposalOf initiatorMagic offered).flatMap fun entry =>
          (supportedBy responderMagic offered').map fun other => (entry.1, other) := by
    intro version member member'
    simp only [proposalOf, List.mem_flatMap, List.mem_map, exists_exists_and_eq_and]
    exact ⟨version, member, (version, n2n responderMagic),
      mem_supportedBy.mpr ⟨known member', member', rfl⟩, rfl⟩
  generalize selectN2nVersion (proposalOf initiatorMagic offered)
    (supportedBy responderMagic offered') = selected at chosen ⊢
  cases selected with
  | none =>
      refine .inl ⟨fun version member member' => ?_, rfl⟩
      exact chosen _ (common version member member') rfl
  | some found =>
      obtain ⟨version, data⟩ := found
      obtain ⟨member, best⟩ := chosen
      simp only [proposalOf, List.mem_flatMap, List.mem_map, exists_exists_and_eq_and,
        Prod.mk.injEq] at member
      obtain ⟨proposed, member, entry, member', rfl, rfl⟩ := member
      obtain ⟨-, member', rfl⟩ := mem_supportedBy.mp member'
      refine .inr ⟨_, ⟨member, member', fun other offers offers' => ?_⟩, rfl⟩
      exact best _ (common other offers offers') rfl

end

/-! ## Driver runs -/

def runFrom {α : Type} (driver : Driver α) (pipe : Pipe) : Except TransportError α × Pipe :=
  StateT.run driver.run pipe

section
variable {α β : Type}

theorem runOn_eq (driver : Driver α) (inbox : Bytes) :
    driver.runOn inbox = ((runFrom driver ⟨inbox, []⟩).1, (runFrom driver ⟨inbox, []⟩).2.outbox) := rfl

@[simp] theorem runFrom_pure (value : α) (pipe : Pipe) :
    runFrom (pure value) pipe = (.ok value, pipe) := rfl

@[simp] theorem runFrom_handshakeFailed (failure : HandshakeError) (pipe : Pipe) :
    runFrom (handshakeFailed failure : Driver α) pipe = (.error (.handshake failure), pipe) := rfl

@[simp] theorem runFrom_liftExcept (result : Except TransportError α) (pipe : Pipe) :
    runFrom (liftExcept result) pipe = (result, pipe) := by
  cases result <;> rfl

theorem runFrom_bind (driver : Driver α) (next : α → Driver β) (pipe : Pipe) :
    runFrom (driver >>= next) pipe =
      match runFrom driver pipe with
      | (.ok value, after) => runFrom (next value) after
      | (.error failure, after) => (.error failure, after) := by
  simp only [runFrom, ExceptT.run_bind, StateT.run_bind]
  rcases StateT.run driver.run pipe with ⟨_ | _, after⟩ <;> rfl

theorem runFrom_bind_ok {driver : Driver α} {next : α → Driver β} {pipe after : Pipe} {value : α}
    (ran : runFrom driver pipe = (.ok value, after)) :
    runFrom (driver >>= next) pipe = runFrom (next value) after := by
  rw [runFrom_bind, ran]

end

theorem runFrom_readExact {count : Nat} {inbox : Bytes} (enough : count ≤ inbox.length) (outbox : Bytes) :
    runFrom (Driver.readExact count) ⟨inbox, outbox⟩ =
      (.ok (inbox.take count), ⟨inbox.drop count, outbox⟩) := by
  have got : runFrom (get : Driver Pipe) ⟨inbox, outbox⟩ = (.ok ⟨inbox, outbox⟩, ⟨inbox, outbox⟩) := rfl
  have set_ : runFrom (set (Pipe.mk (inbox.drop count) outbox) : Driver PUnit) ⟨inbox, outbox⟩ =
    (.ok ⟨⟩, ⟨inbox.drop count, outbox⟩) := rfl
  rw [Driver.readExact, runFrom_bind_ok got, if_neg (Nat.not_lt.mpr enough), runFrom_bind_ok set_]
  rfl

theorem runFrom_readHandshakeFrame {inbox rest : Bytes} {frame : MuxFrame}
    (decoded : decodeFrame inbox = .ok (frame, rest)) (outbox : Bytes) :
    runFrom readHandshakeFrame ⟨inbox, outbox⟩ = (.ok frame, ⟨rest, outbox⟩) := by
  obtain ⟨enough, whole, rfl, rfl⟩ := decodeFrame_ok decoded
  have headerSized : (inbox.take headerLen).length = headerLen := List.length_take_of_le enough
  have header : decodeHeader (inbox.take headerLen) = decodeHeader inbox := by
    have same := decodeHeader_append (Nat.le_of_eq headerSized.symm) (inbox.drop headerLen)
    rwa [List.take_append_drop, eq_comm] at same
  have remains : (decodeHeader inbox).length.toNat ≤ (inbox.drop headerLen).length := by
    rw [List.length_drop]
    omega
  generalize payloadIs : (inbox.drop headerLen).take (decodeHeader inbox).length.toNat = payload
  have payloadSized : payload.length = (decodeHeader inbox).length.toNat := by
    rw [← payloadIs, List.length_take_of_le remains]
  have both : decodeHeader (inbox.take headerLen ++ payload) = decodeHeader inbox := by
    rw [decodeHeader_append (Nat.le_of_eq headerSized.symm), header]
  have short : headerLen ≤ (inbox.take headerLen ++ payload).length := by
    rw [List.length_append]
    omega
  have inside : headerLen + (decodeHeader (inbox.take headerLen ++ payload)).length.toNat ≤
      (inbox.take headerLen ++ payload).length := by
    rw [both, List.length_append]
    omega
  have again := decodeFrame_eq short inside
  rw [both, List.drop_append_of_le_length (Nat.le_of_eq headerSized.symm),
    List.drop_of_length_le (Nat.le_of_eq headerSized), List.nil_append, ← payloadSized, List.take_length]
    at again
  rw [readHandshakeFrame, runFrom_bind_ok (runFrom_readExact enough outbox), header,
    runFrom_bind_ok (runFrom_readExact remains outbox), payloadIs, again, List.drop_drop]
  rfl

def handshakeHeader (payload : Bytes) (mode : MuxMode) : MuxHeader :=
  { timestamp := 0, mode, miniProtocolId := ⟨0, zero_le_idMask⟩, length := UInt16.ofNat payload.length }

def handshakeFrame (payload : Bytes) (mode : MuxMode) : Bytes :=
  encodeHeader (handshakeHeader payload mode) ++ payload

section
variable {payload : Bytes} (fits : payload.length ≤ maxPayload) (mode : MuxMode)
include fits

theorem handshakeHeader_length : (handshakeHeader payload mode).length.toNat = payload.length := by
  unfold maxPayload at fits
  simpa [handshakeHeader] using Nat.mod_eq_of_lt (Nat.lt_succ_of_le fits)

theorem runFrom_writeHandshakeFrame (pipe : Pipe) :
    runFrom (writeHandshakeFrame payload mode) pipe =
      (.ok (), { pipe with outbox := pipe.outbox ++ handshakeFrame payload mode }) := by
  have encoded := encodeFrame_eq ⟨handshakeHeader payload mode, payload⟩
    (handshakeHeader_length fits mode)
  unfold handshakeHeader at encoded
  rw [writeHandshakeFrame, encoded]
  rfl

theorem decodeFrame_handshakeFrame (rest : Bytes) :
    decodeFrame (handshakeFrame payload mode ++ rest) =
      .ok (⟨handshakeHeader payload mode, payload⟩, rest) :=
  decodeFrame_encode ⟨handshakeHeader payload mode, payload⟩ (handshakeHeader_length fits mode) rest

end

/-! ## Every message fits a frame -/

theorem length_writeArgument (major : Nat) (value : UInt64) (width : IntWidth) :
    (writeArgument major value width).length ≤ 9 := by
  cases width <;> simp [writeArgument]

theorem length_encodeU64 (value : UInt64) : (encodeU64 value).length ≤ 9 :=
  length_writeArgument _ _ _

theorem length_encodeArrayHeader (len : UInt64) : (encodeArrayHeader len).length ≤ 9 :=
  length_writeArgument _ _ _

theorem length_encodeN2nVersionParams (version : UInt16) (networkMagic : UInt32) :
    (encodeN2nVersionParams version networkMagic).length ≤ 30 := by
  have header := length_encodeArrayHeader (if version ≥ 16 then 5 else 4)
  have magic := length_encodeU64 networkMagic.toUInt64
  have sharing := length_encodeU64 0
  unfold encodeN2nVersionParams
  split_ifs at header ⊢ <;> simp only [List.length_append, writeBool] <;> simp <;> omega

theorem length_flatten_map {α : Type} (items : List α) (f : α → Bytes) (most : Nat)
    (each : ∀ item ∈ items, (f item).length ≤ most) :
    (items.map f).flatten.length ≤ items.length * most := by
  induction items with
  | nil => exact Nat.zero_le _
  | cons item items ih =>
      have first := each item (List.mem_cons_self ..)
      have rest := ih fun other member => each other (List.mem_cons_of_mem _ member)
      rw [List.map_cons, List.flatten_cons, List.length_append, List.length_cons, Nat.succ_mul]
      omega

theorem proposal_fits {offered : List UInt16} (few : offered.length ≤ 6) (networkMagic : UInt32) :
    (encodeHandshakeMessage (.proposeVersions (proposalOf networkMagic offered))).length ≤ maxPayload := by
  have header := length_encodeArrayHeader 2
  have tag := length_encodeU64 0
  have map := length_writeArgument majorMap (UInt64.ofNat (proposalOf networkMagic offered).length)
    (canonicalWidth (UInt64.ofNat (proposalOf networkMagic offered).length))
  have entries := length_flatten_map (proposalOf networkMagic offered)
    (fun entry => encodeU64 entry.1.toUInt64 ++ entry.2) 39 (by
      intro entry member
      obtain ⟨version, -, rfl⟩ := List.mem_map.mp member
      dsimp only
      have number := length_encodeU64 version.toUInt64
      have params := length_encodeN2nVersionParams version networkMagic
      rw [List.length_append]
      omega)
  have count : (proposalOf networkMagic offered).length = offered.length := List.length_map _
  simp only [encodeHandshakeMessage, encodeVersionTable, writeMapHeader, List.length_append, maxPayload]
  omega

theorem acceptance_fits (version : UInt16) (networkMagic : UInt32) :
    (encodeHandshakeMessage (.acceptVersion version
      (encodeN2nVersionParams version networkMagic))).length ≤ maxPayload := by
  have header := length_encodeArrayHeader 3
  have tag := length_encodeU64 1
  have number := length_encodeU64 version.toUInt64
  have params := length_encodeN2nVersionParams version networkMagic
  simp only [encodeHandshakeMessage, List.length_append, maxPayload]
  omega

theorem refusal_fits {versions : List UInt16} (few : versions.length ≤ 6) :
    (encodeHandshakeMessage (.refuse (.versionMismatch versions))).length ≤ maxPayload := by
  have header := length_encodeArrayHeader 2
  have tag := length_encodeU64 2
  have reason := length_encodeU64 0
  have count := length_encodeArrayHeader (UInt64.ofNat versions.length)
  have entries := length_flatten_map versions (fun version => encodeU64 version.toUInt64) 9
    fun version _ => length_encodeU64 version.toUInt64
  simp only [encodeHandshakeMessage, encodeRefuseReason, List.length_append, maxPayload]
  omega

/-! ## The exchange -/

theorem runFrom_decodeOrFail {message : HandshakeMessage} (writable : Writable message)
    (reason : String) (pipe : Pipe) :
    runFrom (decodeOrFail reason (encodeHandshakeMessage message)) pipe = (.ok message, pipe) := by
  rw [decodeOrFail, decodeHandshakeMessage_encode writable]
  rfl

/-- Nothing is written. -/
def Quiet {α : Type} (driver : Driver α) : Prop :=
  ∀ pipe, (runFrom driver pipe).2.outbox = pipe.outbox

theorem Quiet.bind {α β : Type} {driver : Driver α} {next : α → Driver β} (first : Quiet driver)
    (second : ∀ value, Quiet (next value)) : Quiet (driver >>= next) := by
  intro pipe
  have quiet := first pipe
  rw [runFrom_bind]
  rcases ran : runFrom driver pipe with ⟨failure | value, after⟩
  · rw [ran] at quiet
    exact quiet
  · rw [ran] at quiet
    rw [← quiet]
    exact second value after

theorem quiet_liftExcept {α : Type} (result : Except TransportError α) : Quiet (liftExcept result) := by
  intro pipe
  rw [runFrom_liftExcept]

theorem quiet_readExact (count : Nat) : Quiet (Driver.readExact count) := by
  intro pipe
  have got : runFrom (get : Driver Pipe) pipe = (.ok pipe, pipe) := rfl
  rw [Driver.readExact, runFrom_bind_ok got]
  by_cases short : pipe.inbox.length < count
  · rw [if_pos short]
    rfl
  · rw [if_neg short]
    rfl

theorem quiet_readHandshakeFrame : Quiet readHandshakeFrame :=
  (quiet_readExact _).bind fun _ => (quiet_readExact _).bind fun _ =>
    (quiet_liftExcept _).bind fun _ _ => rfl

theorem quiet_decodeOrFail (reason : String) (payload : Bytes) : Quiet (decodeOrFail reason payload) := by
  intro pipe
  unfold decodeOrFail
  cases decodeHandshakeMessage payload <;> rfl

theorem quiet_initiatorOutcome (output : N2nHandshakeOutput) : Quiet (initiatorOutcome output) := by
  intro pipe
  cases output <;> rfl

def proposalFrame (table : VersionTable) : Bytes :=
  handshakeFrame (encodeHandshakeMessage (.proposeVersions table)) .initiator

def replyFrame (reply : HandshakeMessage) : Bytes :=
  handshakeFrame (encodeHandshakeMessage reply) .responder

section
variable {table : VersionTable}
  (fits : (encodeHandshakeMessage (.proposeVersions table)).length ≤ maxPayload)
include fits

/-- Whatever it is answered, the initiator writes its proposal. -/
theorem initiator_writes (inbox : Bytes) :
    ((runN2nHandshakeInitiator table).runOn inbox).2 = proposalFrame table := by
  have wrote := runFrom_writeHandshakeFrame fits .initiator ⟨inbox, []⟩
  have rest : Quiet (do
      let frame ← readHandshakeFrame
      let message ← decodeOrFail "peer reply failed handshake decode" frame.payload
      let step ← liftExcept ((n2nTransition .proposed .serverHasAgency n2nSupported
        message).mapError TransportError.handshake)
      initiatorOutcome step.2) :=
    quiet_readHandshakeFrame.bind fun _ => (quiet_decodeOrFail _ _).bind fun _ =>
      (quiet_liftExcept _).bind fun _ => quiet_initiatorOutcome _
  rw [runOn_eq, runN2nHandshakeInitiator, runFrom_bind_ok wrote]
  exact rest _

theorem initiator_reads {reply : HandshakeMessage} (writable : Writable reply)
    (small : (encodeHandshakeMessage reply).length ≤ maxPayload) {state : HandshakeState}
    {output : N2nHandshakeOutput}
    (transition : n2nTransition .proposed .serverHasAgency n2nSupported reply = .ok (state, output)) :
    ((runN2nHandshakeInitiator table).runOn (replyFrame reply)).1 =
      (runFrom (initiatorOutcome output) ⟨[], proposalFrame table⟩).1 := by
  have wrote := runFrom_writeHandshakeFrame fits .initiator ⟨replyFrame reply, []⟩
  have read := runFrom_readHandshakeFrame (decodeFrame_handshakeFrame small .responder []) (proposalFrame table)
  rw [List.append_nil] at read
  rw [runOn_eq, runN2nHandshakeInitiator, runFrom_bind_ok wrote]
  dsimp only
  rw [List.nil_append, ← proposalFrame, replyFrame, runFrom_bind_ok read,
    runFrom_bind_ok (runFrom_decodeOrFail writable _ _), transition]
  rfl

theorem exchanged_eq {responder : Driver NegotiatedN2n}
    {initiated responded : Except TransportError NegotiatedN2n} :
    Exchanged (runN2nHandshakeInitiator table) responder initiated responded ↔
      responded = (responder.runOn (proposalFrame table)).1 ∧
        initiated = ((runN2nHandshakeInitiator table).runOn
          (responder.runOn (proposalFrame table)).2).1 := by
  constructor
  · rintro ⟨toResponder, toInitiator, initiates, responds⟩
    have written := initiator_writes fits toInitiator
    rw [initiates] at written
    dsimp only at written
    subst written
    rw [responds]
    exact ⟨rfl, by rw [initiates]⟩
  · rintro ⟨rfl, rfl⟩
    refine ⟨proposalFrame table, (responder.runOn (proposalFrame table)).2, ?_, rfl⟩
    exact Prod.ext rfl (initiator_writes fits _)

section
variable (writable : Writable (.proposeVersions table)) {supported : List (UInt16 × VersionData)}
include writable

theorem responder_reads :
    (runN2nHandshakeResponder supported).runOn (proposalFrame table) =
      (match n2nTransition .idle .clientHasAgency supported (.proposeVersions table) with
        | .ok (_, output) => responderOutcome output
        | .error (.versionMismatch _ supportedSet) => do
            let refuse := .refuse (.versionMismatch supportedSet)
            writeHandshakeFrame (encodeHandshakeMessage refuse) .responder
            handshakeFailed (.versionMismatch [] supportedSet)
        | .error failure => handshakeFailed failure : Driver NegotiatedN2n).runOn [] := by
  have read := runFrom_readHandshakeFrame (decodeFrame_handshakeFrame fits .initiator []) []
  rw [List.append_nil, ← proposalFrame] at read
  rw [runOn_eq, runN2nHandshakeResponder, runFrom_bind_ok read,
    runFrom_bind_ok (runFrom_decodeOrFail writable _ _)]
  rfl

theorem responder_selects (some_ : table ≠ []) {version : UInt16} {data : VersionData}
    (selected : selectN2nVersion table supported = some (version, data)) :
    (runN2nHandshakeResponder supported).runOn (proposalFrame table) =
      (.ok ⟨version, data⟩,
        replyFrame (.acceptVersion version (encodeN2nVersionParams version data.networkMagic))) := by
  have transition : n2nTransition .idle .clientHasAgency supported (.proposeVersions table) =
      .ok (.done, .selected version data) := by
    simp [n2nTransition, some_, selected]
  have wrote := runFrom_writeHandshakeFrame (acceptance_fits version data.networkMagic) .responder ⟨[], []⟩
  rw [responder_reads fits writable, transition, runOn_eq]
  dsimp only [responderOutcome]
  rw [runFrom_bind_ok wrote]
  rfl

theorem responder_refuses (some_ : table ≠ []) (few : supported.length ≤ 6)
    (selected : selectN2nVersion table supported = none) :
    (runN2nHandshakeResponder supported).runOn (proposalFrame table) =
      (.error (.handshake (.versionMismatch [] (supported.map Prod.fst))),
        replyFrame (.refuse (.versionMismatch (supported.map Prod.fst)))) := by
  have transition : n2nTransition .idle .clientHasAgency supported (.proposeVersions table) =
      .error (.versionMismatch (table.map Prod.fst) (supported.map Prod.fst)) := by
    simp [n2nTransition, some_, selected]
  have refusable : (supported.map Prod.fst).length ≤ 6 := by rwa [List.length_map]
  have wrote := runFrom_writeHandshakeFrame (refusal_fits refusable) .responder ⟨[], []⟩
  rw [responder_reads fits writable, transition, runOn_eq]
  dsimp only
  rw [runFrom_bind_ok wrote]
  rfl

end

end

section
variable {initiatorMagic responderMagic : UInt32} {offered offered' : List UInt16}

theorem writable_proposal (few : offered.length ≤ 6) :
    Writable (.proposeVersions (proposalOf initiatorMagic offered)) := by
  constructor
  · rw [proposalOf, List.length_map]
    omega
  · intro entry member
    obtain ⟨version, -, rfl⟩ := List.mem_map.mp member
    exact isItem_encodeN2nVersionParams version initiatorMagic

/-- The table that the initiator looks the accepted version up in. -/
theorem find_n2nSupported : ∀ version ∈ n2nSupported.map Prod.fst,
    n2nSupported.find? (fun entry => entry.1 = version) = some (version, n2n mainnetNetworkMagic) := by
  simp [n2nSupported]

theorem length_supportedBy (networkMagic : UInt32) (versions : List UInt16) :
    (supportedBy networkMagic versions).length ≤ 6 := by
  rw [supportedBy]
  exact List.length_filter_le ..

/-- What the two sides report. -/
inductive Reported (responderMagic : UInt32) (offered offered' : List UInt16) :
    Except TransportError NegotiatedN2n → Except TransportError NegotiatedN2n → Prop
  | agreed {version : UInt16} (best : IsBestCommon offered offered' version) :
      Reported responderMagic offered offered' (.ok ⟨version, n2n mainnetNetworkMagic⟩)
        (.ok ⟨version, n2n responderMagic⟩)
  | refused {initiated responded : TransportError}
      (disjoint : ∀ version ∈ offered, version ∉ offered') :
      Reported responderMagic offered offered' (.error initiated) (.error responded)

theorem exchanged_reported (some_ : offered ≠ []) (few : offered.length ≤ 6)
    (known : offered' ⊆ n2nSupported.map Prod.fst) :
    ∃ initiated responded, Reported responderMagic offered offered' initiated responded ∧
      ∀ initiated' responded',
        Exchanged (runN2nHandshakeInitiator (proposalOf initiatorMagic offered))
            (runN2nHandshakeResponder (supportedBy responderMagic offered')) initiated' responded' ↔
          initiated' = initiated ∧ responded' = responded := by
  have fits := proposal_fits few initiatorMagic
  have writable := @writable_proposal initiatorMagic offered few
  have proposed : proposalOf initiatorMagic offered ≠ [] := by simpa [proposalOf] using some_
  have supports := length_supportedBy responderMagic offered'
  rcases @selectN2nVersion_supportedBy initiatorMagic responderMagic offered offered' known with
    ⟨disjoint, selected⟩ | ⟨version, best, selected⟩
  · have responds := responder_refuses fits writable proposed supports selected
    have refusable : ((supportedBy responderMagic offered').map Prod.fst).length ≤ 6 := by
      rwa [List.length_map]
    have reads := initiator_reads fits (show Writable (.refuse (.versionMismatch _)) from
      show _ < 2 ^ 64 by omega) (refusal_fits refusable) rfl
    refine ⟨.error (.handshake (.malformedMessage
        "handshake refused or terminated without selection")),
      .error (.handshake (.versionMismatch [] ((supportedBy responderMagic offered').map Prod.fst))),
      .refused disjoint, fun initiated' responded' => ?_⟩
    rw [exchanged_eq fits, responds, reads, and_comm]
    rfl
  · have responds := responder_selects fits writable proposed selected
    have transition : n2nTransition .proposed .serverHasAgency n2nSupported
        (.acceptVersion version (encodeN2nVersionParams version responderMagic)) =
          .ok (.done, .selected version (n2n mainnetNetworkMagic)) := by
      rw [n2nTransition, find_n2nSupported version (known best.2.1)]
    have reads := initiator_reads fits
      (show Writable (.acceptVersion _ _) from isItem_encodeN2nVersionParams version responderMagic)
      (acceptance_fits version responderMagic) transition
    refine ⟨.ok ⟨version, n2n mainnetNetworkMagic⟩, .ok ⟨version, n2n responderMagic⟩, .agreed best,
      fun initiated' responded' => ?_⟩
    rw [exchanged_eq fits, responds, and_comm,
      show (n2n responderMagic).networkMagic = responderMagic from rfl, reads]
    rfl

theorem handshakeAgrees_of_reported (some_ : offered ≠ []) (few : offered.length ≤ 6)
    (known : offered' ⊆ n2nSupported.map Prod.fst) :
    HandshakeAgrees initiatorMagic responderMagic offered offered' ↔
      (∀ version ∈ offered, version ∉ offered') ∨
        initiatorMagic = mainnetNetworkMagic ∧ responderMagic = mainnetNetworkMagic := by
  obtain ⟨initiated, responded, reported, exchanged⟩ :=
    @exchanged_reported initiatorMagic responderMagic offered offered' some_ few known
  cases reported with
  | refused disjoint =>
      refine ⟨fun _ => .inl disjoint, fun _ => ⟨?_, ?_⟩⟩
      · intro initiated responded ran
        cases ((exchanged _ _).mp ran).1
      · intro initiated responded ran
        cases ((exchanged _ _).mp ran).2
  | @agreed version best =>
      constructor
      · intro agrees
        obtain ⟨-, -, same, magics⟩ := agrees.agreement _ _ ((exchanged _ _).mpr ⟨rfl, rfl⟩)
        have responder : mainnetNetworkMagic = responderMagic := same
        exact .inr ⟨magics.trans responder.symm, responder.symm⟩
      · rintro (disjoint | ⟨rfl, rfl⟩)
        · exact absurd best.2.1 (disjoint version best.1)
        · refine ⟨?_, ?_⟩
          · intro initiated responded ran
            obtain ⟨same, same'⟩ := (exchanged _ _).mp ran
            cases same
            cases same'
            exact ⟨rfl, best, rfl, rfl⟩
          · intro initiated responded ran
            exact ⟨_, ((exchanged _ _).mp ran).1⟩

/-- The accepted version is looked up in the table of one network, and neither side compares magics. -/
theorem handshakeAgrees_iff {initiatorMagic responderMagic : UInt32} {offered offered' : List UInt16}
    (some_ : offered ≠ []) (sub : List.Sublist offered (n2nSupported.map Prod.fst))
    (sub' : List.Sublist offered' (n2nSupported.map Prod.fst)) :
    HandshakeAgrees initiatorMagic responderMagic offered offered' ↔
      (∀ version ∈ offered, version ∉ offered') ∨
        initiatorMagic = mainnetNetworkMagic ∧ responderMagic = mainnetNetworkMagic :=
  handshakeAgrees_of_reported some_ sub.length_le sub'.subset

theorem handshakeAgrees_on_mainnet :
    HandshakeAgrees mainnetNetworkMagic mainnetNetworkMagic [13, 14] [14, 15] ↔
      (∀ version ∈ ([13, 14] : List UInt16), version ∉ ([14, 15] : List UInt16)) ∨
        mainnetNetworkMagic = mainnetNetworkMagic ∧ mainnetNetworkMagic = mainnetNetworkMagic :=
  handshakeAgrees_iff (by decide) (by decide) (by decide)

/-- On another network the initiator reports a magic that nobody sent. -/
theorem handshake_disagrees_off_mainnet : ¬ HandshakeAgrees 1 1 [15] [15] := by
  intro agrees
  rcases Iff.mp (handshakeAgrees_of_reported (by decide) (by decide) (by decide)) agrees with
    disjoint | ⟨magic, -⟩
  · exact disjoint 15 (by decide) (by decide)
  · cases magic

end

end Ade.Proof.Network
