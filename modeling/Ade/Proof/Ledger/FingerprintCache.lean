import Ade.Ledger.Fingerprint
import Ade.Proof.Ledger.Utxo

namespace Ade.Proof.Ledger
open Std (ExtTreeMap)
open Library Ade.Ledger

section
variable {crypto : Crypto}

theorem fingerprintUtxoV2_congr {utxos other : OverlayUtxo} (same : utxos.toMap = other.toMap) :
    fingerprintUtxoV2 crypto utxos = fingerprintUtxoV2 crypto other := by
  unfold fingerprintUtxoV2
  rw [iter_eq_toList, iter_eq_toList, same]

theorem utxoFingerprint_hit {cache : UtxoFpCache} {utxos : OverlayUtxo} {fp : Hash32}
    (cached : cache.entry = some (utxos.generation, fp)) :
    cache.utxoFingerprint crypto utxos = (cache, fp) := by
  unfold UtxoFpCache.utxoFingerprint
  rw [cached]
  exact if_pos rfl

theorem utxoFingerprint_miss {cache : UtxoFpCache} {utxos : OverlayUtxo}
    (missing : ∀ generation fp, cache.entry = some (generation, fp) →
      generation ≠ utxos.generation) :
    cache.utxoFingerprint crypto utxos = UtxoFpCache.refresh crypto utxos := by
  unfold UtxoFpCache.utxoFingerprint
  split
  · rename_i generation fp cached
    exact if_neg (missing generation fp cached)
  · rfl

/-- What the cache holds after a call on `utxos` that it answered correctly. -/
def cacheOf (crypto : Crypto) (utxos : OverlayUtxo) : UtxoFpCache :=
  ⟨some (utxos.generation, fingerprintUtxoV2 crypto utxos)⟩

def sameGenerationSameFp (crypto : Crypto) (utxos next : OverlayUtxo) : Prop :=
  utxos.generation = next.generation →
    fingerprintUtxoV2 crypto utxos = fingerprintUtxoV2 crypto next

theorem answers_cacheOf_iff (utxos : OverlayUtxo) (calls : List OverlayUtxo) :
    (answers (UtxoFpCache.utxoFingerprint crypto) (cacheOf crypto utxos) calls).2 =
        calls.map (fingerprintUtxoV2 crypto) ↔
      (utxos :: calls).IsChain (sameGenerationSameFp crypto) := by
  induction calls generalizing utxos with
  | nil => simp [answers]
  | cons next calls ih =>
      rw [List.isChain_cons_cons, ← ih next, List.map_cons]
      by_cases same : utxos.generation = next.generation
      · have hit : (cacheOf crypto utxos).utxoFingerprint crypto next =
            (cacheOf crypto utxos, fingerprintUtxoV2 crypto utxos) := by
          apply utxoFingerprint_hit
          rw [← same]
          rfl
        simp only [answers, hit, List.cons.injEq, sameGenerationSameFp, same, forall_const]
        apply and_congr_right
        intro equal
        have cached : cacheOf crypto utxos = cacheOf crypto next := by
          unfold cacheOf
          rw [same, equal]
        rw [cached]
      · have miss : (cacheOf crypto utxos).utxoFingerprint crypto next =
            UtxoFpCache.refresh crypto next := by
          apply utxoFingerprint_miss
          intro generation fp cached equal
          have entry : utxos.generation = generation :=
            congrArg Prod.fst (Option.some.inj cached)
          exact same (entry.trans equal)
        have unrelated : sameGenerationSameFp crypto utxos next := fun equal => absurd equal same
        simp only [answers, miss, UtxoFpCache.refresh, List.cons.injEq, true_and, unrelated]
        rfl

/-- The cache is transparent exactly when the generation tells fingerprints of neighbours apart. -/
theorem transparent_iff (calls : List OverlayUtxo) :
    Transparent crypto calls ↔ calls.IsChain (sameGenerationSameFp crypto) := by
  cases calls with
  | nil => simp [Transparent, answers]
  | cons utxos calls =>
      have miss : UtxoFpCache.new.utxoFingerprint crypto utxos = UtxoFpCache.refresh crypto utxos := by
        apply utxoFingerprint_miss
        intro generation fp cached
        cases cached
      rw [← answers_cacheOf_iff]
      simp only [Transparent, answers, miss, UtxoFpCache.refresh, List.map_cons, List.cons.injEq,
        true_and]
      rfl

/-- The cache answers every call right when consecutive calls on one generation are calls on the
same contents, and only then, as far as the fingerprint tells those contents apart. -/
theorem utxoFingerprint_transparent_iff (crypto : Crypto) (calls : List OverlayUtxo) :
    (GenerationsTell calls → Transparent crypto calls) ∧
      (CollisionFree crypto calls → Transparent crypto calls → GenerationsTell calls) := by
  rw [transparent_iff]
  constructor
  · intro tell
    exact tell.imp fun utxos next same generation => fingerprintUtxoV2_congr (same generation)
  · intro free transparent
    apply transparent.imp_of_mem_imp
    intro utxos next member memberNext same generation
    exact free utxos member next memberNext (same generation)

end

/-- Polynomial hashes and the group of integers. -/
def sampleCrypto : Crypto where
  Point := Int
  identity := 0
  add := (· + ·)
  fromUniformBytes bytes := fromBeBytes bytes
  compress point := toBeBytes 32 point.toNat
  blake2b256 bytes := ⟨(toBeBytes 32 (fromBeBytes bytes)).toArray, by simp⟩
  blake2b512 bytes := bytes

/-- One output, on a branch of its own from the empty set. -/
def sampleBranch (byte : UInt8) : OverlayUtxo :=
  OverlayUtxo.new.clone.insert maxOverlayEntries ⟨Vector.replicate 32 byte, 0⟩ sampleTxOut

/-- Two branches of one ancestor carry one generation, and the second is given the fingerprint of
the first. -/
theorem utxoFingerprint_stale_across_branches :
    ¬ Transparent sampleCrypto [sampleBranch 1, sampleBranch 2] := by
  have contents (byte : UInt8) : (sampleBranch byte).toMap =
      (∅ : BTreeMap TxIn TxOut).insert ⟨Vector.replicate 32 byte, 0⟩ sampleTxOut := by
    rw [sampleBranch, toMap_insert]
    exact congrArg (fun map : BTreeMap TxIn TxOut => map.insert _ _) toMap_of_overlay_empty
  have generation (byte : UInt8) : (sampleBranch byte).generation = 1 := generation_insert _ _
  rw [transparent_iff, List.isChain_pair]
  intro same
  have equal := same ((generation 1).trans (generation 2).symm)
  unfold fingerprintUtxoV2 at equal
  rw [iter_eq_toList, iter_eq_toList, contents, contents] at equal
  revert equal
  decide +kernel

end Ade.Proof.Ledger
