import Ade.Ledger.Mempool
import Ade.Proof.Ledger.TxEffect

namespace Ade.Proof.Ledger
open Std (ExtTreeSet)
open Library Cursor Ade.Codec Ade.Ledger Ade.Proof.Codec

/-! ## What is admitted was read -/

/-- The body is the one that its bytes decode to, wherever they stand. -/
structure IsDecoded (crypto : TxCrypto) (tx : DecodedTx) : Prop where
  reads : Reads (decodeConwayTxBody decodeProposalProcedures) tx.bodyBytes tx.body
  shape : ∃ header fields entries, BodyRead tx.bodyBytes tx.body header fields entries
  txId : tx.txId = crypto.blake2b256 tx.bodyBytes

theorem decodeBodyBytes_ok {before rest bodyBytes : Bytes} {body : TxBody} {after : Nat}
    (ran : (decodeBodyBytes decodeProposalProcedures (before ++ rest)).runAt before.length =
      (.ok (body, bodyBytes), after)) :
    Reads (decodeConwayTxBody decodeProposalProcedures) bodyBytes body ∧
      ∃ header fields entries, BodyRead bodyBytes body header fields entries := by
  unfold decodeBodyBytes decoded at ran
  rw [runAt_bind_ok (runAt_get _)] at ran
  obtain ⟨value, middle, read, ran⟩ := of_runAt_bind_ok ran
  rw [runAt_adapt, Prod.mk.injEq] at read
  obtain ⟨written, remaining, rfl, moved, reads, known⟩ :=
    decodeConwayTxBody_exact 0 before rest value middle (Prod.ext (mapError_ok read.1) read.2)
  rw [runAt_bind_ok (runAt_get _), moved, ← List.append_assoc, slice_segment] at ran
  cases ran
  exact ⟨reads 0, known⟩

theorem readTx_ok {data bodyBytes witnessSetBytes : Bytes} {body : TxBody} {after : Nat}
    (ran : (readTx data).runAt 0 = (.ok ((body, bodyBytes), witnessSetBytes), after)) :
    Reads (decodeConwayTxBody decodeProposalProcedures) bodyBytes body ∧
      ∃ header fields entries, BodyRead bodyBytes body header fields entries := by
  unfold readTx at ran
  obtain ⟨encoding, middle, opened, ran⟩ := of_runAt_bind_ok ran
  unfold decoded at opened
  rw [runAt_adapt, Prod.mk.injEq] at opened
  obtain ⟨header, remaining, split, moved, -, -⟩ :=
    readArrayHeader_exact 0 [] data encoding middle (Prod.ext (mapError_ok opened.1) opened.2)
  rw [List.length_nil, Nat.zero_add] at moved
  subst split moved
  cases encoding with
  | indefinite => cases ran
  | definite count width =>
      dsimp only at ran
      split_ifs at ran with short
      · cases ran
      · obtain ⟨pair, bodyEnd, read, ran⟩ := of_runAt_bind_ok ran
        obtain ⟨item, last, -, ran⟩ := of_runAt_bind_ok ran
        cases ran
        exact decodeBodyBytes_ok read

theorem decodeTx_ok {crypto : TxCrypto} {txCbor : Bytes} {tx : DecodedTx}
    (decodes : decodeTx crypto txCbor = .ok tx) : IsDecoded crypto tx := by
  unfold decodeTx at decodes
  obtain ⟨⟨⟨body, bodyBytes⟩, witnessSetBytes⟩, read, decodes⟩ := bind_ok decodes
  obtain ⟨witnessInfo, -, decodes⟩ := bind_ok decodes
  obtain ⟨vkeyWitnesses, -, decodes⟩ := bind_ok decodes
  cases decodes
  obtain ⟨reads, shape⟩ := readTx_ok (Prod.ext (mapError_ok read) rfl)
  exact ⟨reads, shape, rfl⟩

section
variable {env : TxEnv} {ledger : LedgerState OverlayUtxo} {txCbor : Bytes} {tx : DecodedTx}
  {utxoState : OverlayUtxo}

theorem checkTx_ok (checked : checkTx env ledger txCbor = .ok (tx, utxoState)) :
    IsDecoded env.crypto tx ∧
      applyConwayTxToUtxo env.bound ledger.utxoState tx.body tx.bodyBytes tx.txId = .ok utxoState := by
  unfold checkTx at checked
  obtain ⟨decodedTx, decodes, checked⟩ := bind_ok checked
  obtain ⟨_, -, checked⟩ := bind_ok checked
  obtain ⟨_, -, checked⟩ := bind_ok checked
  obtain ⟨next, applied, checked⟩ := bind_ok checked
  cases checked
  exact ⟨decodeTx_ok decodes, mapError_ok applied⟩

/-! ## One transaction in a block -/

theorem trackTx_of_checked (checked : checkTx env ledger txCbor = .ok (tx, utxoState)) :
    ((trackTx decodeProposalProcedures env.bound env.older env.crypto.blake2b256 tx.bodyBytes
      .conway ∅ 0 ledger.utxoState).runAt 0).1 = .ok utxoState := by
  obtain ⟨⟨reads, ⟨header, fields, entries, known⟩, txId⟩, applied⟩ := checkTx_ok checked
  obtain ⟨slices, located_, -⟩ := locate_ok known.shape known.listed
  have unlisted : ¬ (∅ : BTreeSet UInt64).contains 0 := by simp
  obtain ⟨next, tracked, same⟩ := sameUtxo env.older env.bound env.crypto.blake2b256 reads located_
    [] [] ledger.utxoState unlisted
  rw [List.nil_append, List.append_nil, List.length_nil] at tracked
  rw [txId, same] at applied
  cases applied
  rw [tracked]

theorem processTxCerts_of_decoded (decoded_ : IsDecoded env.crypto tx) {σ : Type}
    (accumulate : σ → Bytes → Except LedgerError σ) (state : σ) :
    ((processTxCerts accumulate tx.bodyBytes ∅ 0 state).runAt 0).1 =
      (valuesAt 4 tx.bodyBytes).foldlM accumulate state := by
  obtain ⟨header, fields, entries, known⟩ := decoded_.shape
  have unlisted : ¬ (∅ : BTreeSet UInt64).contains 0 := by simp
  have walked := processTxCerts_eq known.shape accumulate state [] [] unlisted
  rwa [List.nil_append, List.append_nil, List.length_nil, ← valuesAt_eq known.shape] at walked

/-- The walk leaves the state as it is exactly if the certificates do. -/
theorem applyCerts_iff (decoded_ : IsDecoded env.crypto tx) :
    applyCertsOnBlockPath env ledger tx = some ledger ↔ CertsInert env ledger tx := by
  unfold applyCertsOnBlockPath CertsInert
  cases certs : ledger.certState with
  | reducedUnavailable => simp
  | authoritative cert =>
      cases govs : ledger.govState with
      | reducedUnavailable => simp
      | authoritative gov =>
          dsimp only
          rw [processTxCerts_of_decoded decoded_]
          constructor
          · intro same
            obtain ⟨after, ran, same⟩ := Option.map_eq_some_iff.mp same
            refine ⟨cert, gov, rfl, rfl, ?_⟩
            have certSame := congrArg LedgerState.certState same
            have govSame := congrArg LedgerState.govState same
            rw [certs] at certSame
            rw [govs] at govSame
            obtain ⟨cert', gov'⟩ := after
            cases certSame
            cases govSame
            cases folded : (valuesAt 4 tx.bodyBytes).foldlM (accumulateField env ledger)
                (⟨cert', gov'⟩ : CertLedger) with
            | error failure =>
                rw [folded] at ran
                cases ran
            | ok after =>
                rw [folded] at ran
                cases ran
                rfl
          · rintro ⟨cert', gov', certSame, govSame, folded⟩
            cases certSame
            cases govSame
            rw [folded]
            show some { ledger with
              certState := .authoritative cert, govState := .authoritative gov } = some ledger
            rw [← certs, ← govs]

theorem applyOnBlockPath_iff (checked : checkTx env ledger txCbor = .ok (tx, utxoState)) :
    applyOnBlockPath env ledger tx = some { ledger with utxoState } ↔ CertsInert env ledger tx := by
  unfold applyOnBlockPath trackOnBlockPath
  rw [trackTx_of_checked checked]
  exact applyCerts_iff (checkTx_ok checked).1

end

/-! ## Admission -/

section
variable {env : TxEnv} {mempool : MempoolState} {txCbor : Bytes}

theorem admit_of_ok {tx : DecodedTx} {utxoState : OverlayUtxo}
    (checked : checkTx env mempool.accumulating txCbor = .ok (tx, utxoState)) :
    admitTx env mempool txCbor =
      (⟨mempool.accepted ++ [tx.txId], { mempool.accumulating with utxoState }⟩,
        .admitted tx.txId) := by
  unfold admitTx txValidity
  rw [checked]

theorem admit_of_error {failure : TxValidityError}
    (failed : checkTx env mempool.accumulating txCbor = .error failure) :
    admitTx env mempool txCbor = (mempool, .rejected failure.class failure) := by
  unfold admitTx txValidity
  rw [failed]
  rfl

theorem rejected_unchanged {rejected : TxRejectClass} {failure : TxValidityError}
    (outcome : (admitTx env mempool txCbor).2 = .rejected rejected failure) :
    (admitTx env mempool txCbor).1 = mempool := by
  cases checked : checkTx env mempool.accumulating txCbor with
  | error other => rw [admit_of_error checked]
  | ok applied =>
      rw [admit_of_ok checked] at outcome
      cases outcome

/-- Admission moves the UTxO and nothing else of the ledger. -/
theorem admit_keeps (env : TxEnv) (mempool : MempoolState) (txCbor : Bytes) :
    (admitTx env mempool txCbor).1.accumulating =
      { mempool.accumulating with
        utxoState := (admitTx env mempool txCbor).1.accumulating.utxoState } := by
  cases checked : checkTx env mempool.accumulating txCbor with
  | error failure => rw [admit_of_error checked]
  | ok applied => rw [admit_of_ok checked]

end

/-! ## Runs -/

section
variable (env : TxEnv)

theorem admitAll_append (mempool : MempoolState) (earlier later : List Bytes) :
    admitAll env mempool (earlier ++ later) = admitAll env (admitAll env mempool earlier) later :=
  List.foldl_append

theorem admittedTxs_append (mempool : MempoolState) (earlier later : List Bytes) :
    admittedTxs env mempool (earlier ++ later) =
      admittedTxs env mempool earlier ++ admittedTxs env (admitAll env mempool earlier) later := by
  induction earlier generalizing mempool with
  | nil => rfl
  | cons txCbor earlier ih =>
      rw [List.cons_append, admittedTxs, admittedTxs, ih]
      cases checkTx env mempool.accumulating txCbor with
      | error failure => rfl
      | ok checked => rfl

theorem admitAll_keeps (mempool : MempoolState) (txs : List Bytes) :
    (admitAll env mempool txs).accumulating =
      { mempool.accumulating with
        utxoState := (admitAll env mempool txs).accumulating.utxoState } := by
  induction txs using List.reverseRecOn with
  | nil => rfl
  | append_singleton txs txCbor ih =>
      rw [admitAll_append]
      show (admitTx env (admitAll env mempool txs) txCbor).1.accumulating = _
      rw [admit_keeps, ih]
      rfl

/-- The certificates are weighed against the certificate and governance states of the base. -/
theorem inert_iff (mempool : MempoolState) (txs : List Bytes) (tx : DecodedTx) :
    CertsInert env (admitAll env mempool txs).accumulating tx ↔
      CertsInert env mempool.accumulating tx := by
  rw [admitAll_keeps]
  rfl

theorem effects_snoc {mempool : MempoolState} {base : LedgerState OverlayUtxo} {txs : List Bytes}
    (txCbor : Bytes)
    (earlier : (admittedTxs env mempool txs).foldlM (applyOnBlockPath env) base =
      some (admitAll env mempool txs).accumulating) :
    (admittedTxs env mempool (txs ++ [txCbor])).foldlM (applyOnBlockPath env) base =
        some (admitAll env mempool (txs ++ [txCbor])).accumulating ↔
      ∀ tx ∈ admittedTxs env (admitAll env mempool txs) [txCbor],
        CertsInert env mempool.accumulating tx := by
  rw [admittedTxs_append, admitAll_append, List.foldlM_append, earlier]
  show (admittedTxs env (admitAll env mempool txs) [txCbor]).foldlM (applyOnBlockPath env)
    (admitAll env mempool txs).accumulating =
      some (admitTx env (admitAll env mempool txs) txCbor).1.accumulating ↔ _
  rw [admittedTxs, admittedTxs]
  cases checked : checkTx env (admitAll env mempool txs).accumulating txCbor with
  | error failure =>
      rw [admit_of_error checked]
      simp
  | ok applied =>
      obtain ⟨tx, utxoState⟩ := applied
      rw [admit_of_ok checked]
      dsimp only
      rw [List.foldlM_cons, List.forall_mem_singleton, ← inert_iff env mempool txs,
        ← applyOnBlockPath_iff checked]
      simp

theorem utxo_snoc {mempool : MempoolState} {txs : List Bytes} {utxo : OverlayUtxo} (txCbor : Bytes)
    (earlier : (admittedTxs env mempool txs).foldlM (trackOnBlockPath env) utxo =
      some (admitAll env mempool txs).accumulating.utxoState) :
    (admittedTxs env mempool (txs ++ [txCbor])).foldlM (trackOnBlockPath env) utxo =
      some (admitAll env mempool (txs ++ [txCbor])).accumulating.utxoState := by
  rw [admittedTxs_append, admitAll_append, List.foldlM_append, earlier]
  show (admittedTxs env (admitAll env mempool txs) [txCbor]).foldlM (trackOnBlockPath env)
    (admitAll env mempool txs).accumulating.utxoState =
      some (admitTx env (admitAll env mempool txs) txCbor).1.accumulating.utxoState
  rw [admittedTxs, admittedTxs]
  cases checked : checkTx env (admitAll env mempool txs).accumulating txCbor with
  | error failure =>
      rw [admit_of_error checked]
      rfl
  | ok applied =>
      obtain ⟨tx, utxoState⟩ := applied
      rw [admit_of_ok checked, List.foldlM_cons]
      unfold trackOnBlockPath
      rw [trackTx_of_checked checked]
      rfl

end

/-- The UTxO accumulates as in a block. The whole state does, at every point of the run, exactly if
the certificates of every admitted transaction leave the base as it is. -/
theorem mempool_accumulates_iff (env : TxEnv) (base : LedgerState OverlayUtxo) (txs : List Bytes) :
    (admittedTxs env (.new base) txs).foldlM (trackOnBlockPath env) base.utxoState =
        some (admitAll env (.new base) txs).accumulating.utxoState ∧
      ((∀ earlier, earlier <+: txs → AccumulatesAsBlock env base earlier) ↔
        ∀ tx ∈ admittedTxs env (.new base) txs, CertsInert env base tx) := by
  constructor
  · induction txs using List.reverseRecOn with
    | nil => rfl
    | append_singleton txs txCbor ih => exact utxo_snoc env txCbor ih
  · induction txs using List.reverseRecOn with
    | nil =>
        refine iff_of_true (fun earlier inside => ?_) (by simp [admittedTxs])
        rw [List.prefix_nil.mp inside]
        exact ⟨rfl, fun _ _ _ => rejected_unchanged⟩
    | append_singleton txs txCbor ih =>
        rw [admittedTxs_append, List.forall_mem_append, ← ih]
        constructor
        · intro all
          have before := fun earlier inside =>
            all earlier (List.IsPrefix.trans inside (List.prefix_append ..))
          refine ⟨before, (effects_snoc env txCbor (before txs List.prefix_rfl).effects).mp ?_⟩
          exact (all _ List.prefix_rfl).effects
        · rintro ⟨before, inert⟩ earlier inside
          rcases List.prefix_concat_iff.mp inside with rfl | inside
          · refine ⟨?_, fun _ _ _ => rejected_unchanged⟩
            exact (effects_snoc env txCbor (before txs List.prefix_rfl).effects).mpr inert
          · exact before earlier inside

/-! ### A registration that the next transaction does not see -/

/-- Spends one of two Byron outputs, pays one coin, and registers a stake key. -/
def registeringBody (index : UInt8) : Bytes :=
  [0xa4, 0x00, 0x81, 0x82, 0x58, 0x20] ++ List.replicate 32 0xaa ++ [index] ++
    [0x01, 0x81, 0x82, 0x58, 0x1d, 0x61] ++ List.replicate 28 0xbb ++ [0x01] ++ [0x02, 0x00] ++
    [0x04, 0x81, 0x82, 0x00, 0x82, 0x00, 0x58, 0x1c] ++ List.replicate 28 0xcc

/-- Without witnesses: nothing in it asks for a signature. -/
def registeringTx (index : UInt8) : Bytes := [0x84] ++ registeringBody index ++ [0xa0, 0xf5, 0xf6]

def checksum (data : Bytes) : UInt8 := data.foldl (fun sum byte => 31 * sum + byte) 7

def checksumEnv : TxEnv where
  crypto := {
    blake2b224 data := Vector.replicate 28 (checksum data)
    sha3_256 data := Vector.replicate 32 (checksum data)
    blake2b256 data := Vector.replicate 32 (checksum data)
    verifyEd25519 _ _ _ := false }
  tryEvaluateTx _ := .ineligible
  bound := maxOverlayEntries
  older := sampleOlderEras
  decodeCertificates _ := .ok []

def byronOutput (index : UInt16) : TxIn × TxOut :=
  (⟨Vector.replicate 32 0xaa, index⟩, .byron (.byron [0x82]) 2000001)

/-- Two outputs, each of the key deposit and one coin. -/
def fundedLedger : LedgerState OverlayUtxo where
  utxoState := .fromMap (Std.ExtTreeMap.ofList [byronOutput 0, byronOutput 1])
  epochState := {
    epoch := 600
    slot := 0
    snapshots := .reducedUnavailable
    reserves := 0
    treasury := 0
    blockProduction := ∅
    epochFees := 0
    donationPot := 0 }
  protocolParams := .default
  era := .conway
  trackUtxo := true
  certState := .authoritative .new
  maxLovelaceSupply := 45000000000000000
  govState := .authoritative none
  conwayDepositParams := some ⟨500000000, 100000000000, 20⟩

/-- Both transactions are admitted, but in a block the second registration fails. -/
theorem registered_twice_admitted :
    (admitAll checksumEnv (.new fundedLedger) [registeringTx 0, registeringTx 1]).accepted.length = 2 ∧
      ((admittedTxs checksumEnv (.new fundedLedger) [registeringTx 0, registeringTx 1]).foldlM
        (applyOnBlockPath checksumEnv) fundedLedger).isNone = true ∧
      ¬ AccumulatesAsBlock checksumEnv fundedLedger [registeringTx 0, registeringTx 1] := by
  have admitted : (admitAll checksumEnv (.new fundedLedger)
      [registeringTx 0, registeringTx 1]).accepted.length = 2 := by decide +kernel
  have refused : ((admittedTxs checksumEnv (.new fundedLedger)
      [registeringTx 0, registeringTx 1]).foldlM (applyOnBlockPath checksumEnv)
        fundedLedger).isNone = true := by decide +kernel
  refine ⟨admitted, refused, fun accumulates => ?_⟩
  rw [accumulates.effects] at refused
  cases refused

end Ade.Proof.Ledger
