import Ade.Ledger.Utxo

/-! The fingerprint of the UTxO set and the cache over it. -/

namespace Ade.Ledger
open Std Library Codec

/-! ## Writers -/

def writeArrayCanonical (count : UInt64) : Bytes := writeArrayHeader (.definite count (canonicalWidth count))

def writeMapCanonical (count : UInt64) : Bytes := writeArgument majorMap count (canonicalWidth count)

def writeCoin (coin : Coin) : Bytes := writeUintCanonical coin

def writeHash32 (hash : Hash32) : Bytes := writeBytesCanonical hash.toList

def writeHash28 (hash : Hash28) : Bytes := writeBytesCanonical hash.toList

def writeTxIn (txIn : TxIn) : Bytes :=
  writeArrayCanonical 2 ++ writeHash32 txIn.txHash ++ writeUintCanonical txIn.index.toUInt64

def writeAsset (asset : AssetName × UInt64) : Bytes :=
  writeBytesCanonical asset.1 ++ writeUintCanonical asset.2

def writePolicy (policy : Hash28 × BTreeMap AssetName UInt64) : Bytes :=
  writeHash28 policy.1 ++ writeMapCanonical (UInt64.ofNat policy.2.size) ++
    policy.2.toList.flatMap writeAsset

def writeMultiAsset (multiAsset : MultiAsset) : Bytes :=
  writeMapCanonical (UInt64.ofNat multiAsset.size) ++ multiAsset.toList.flatMap writePolicy

def writeValue (value : Value) : Bytes :=
  writeArrayCanonical 2 ++ writeCoin value.coin ++ writeMultiAsset value.multiAsset

def writeTxOut : TxOut → Bytes
  | .byron address coin =>
      writeArrayCanonical 3 ++ writeUintCanonical 0 ++ writeBytesCanonical address.asBytes ++
        writeCoin coin
  | .shelleyMary address value =>
      writeArrayCanonical 3 ++ writeUintCanonical 1 ++ writeBytesCanonical address ++
        writeValue value
  | .alonzoPlus raw address coin =>
      writeArrayCanonical 5 ++ writeUintCanonical 2 ++ writeBytesCanonical address ++
        writeCoin coin ++ writeUintCanonical (UInt64.ofNat raw.length) ++ raw

def v2EntryBytes (entry : TxIn × TxOut) : Bytes := writeTxIn entry.1 ++ writeTxOut entry.2

/-! ## The set commitment -/

/-- The hash functions and the group of the `blake2` and `curve25519-dalek` crates. -/
structure Crypto where
  Point : Type
  identity : Point
  add : Point → Point → Point
  fromUniformBytes : Bytes → Point
  compress : Point → Bytes
  blake2b256 : Bytes → Hash32
  blake2b512 : Bytes → Bytes

def domainEntry : Bytes := "ade.utxo.fp.v2.entry".toUTF8.toList

def domainDigest : Bytes := "ade/fp/utxo/v2".toUTF8.toList

namespace UtxoSetCommitment
variable (crypto : Crypto)

def entryPoint (canonicalEntryBytes : Bytes) : crypto.Point :=
  crypto.fromUniformBytes (crypto.blake2b512 (domainEntry ++ canonicalEntryBytes))

def add (commitment : crypto.Point) (canonicalEntryBytes : Bytes) : crypto.Point :=
  crypto.add commitment (entryPoint crypto canonicalEntryBytes)

def digest (commitment : crypto.Point) : Hash32 :=
  crypto.blake2b256 (domainDigest ++ crypto.compress commitment)

end UtxoSetCommitment

section
variable (crypto : Crypto)

def fingerprintUtxoV2 (utxos : OverlayUtxo) : Hash32 :=
  UtxoSetCommitment.digest crypto (utxos.iter.foldl
    (fun commit entry => UtxoSetCommitment.add crypto commit (v2EntryBytes entry)) crypto.identity)

/-! ## The cache -/

structure UtxoFpCache where
  entry : Option (UInt64 × Hash32)

def UtxoFpCache.new : UtxoFpCache := ⟨none⟩

def UtxoFpCache.refresh (utxos : OverlayUtxo) : UtxoFpCache × Hash32 :=
  let fp := fingerprintUtxoV2 crypto utxos
  (⟨some (utxos.generation, fp)⟩, fp)

def UtxoFpCache.utxoFingerprint (cache : UtxoFpCache) (utxos : OverlayUtxo) :
    UtxoFpCache × Hash32 :=
  match cache.entry with
  | some (cachedGen, fp) =>
      if cachedGen = utxos.generation then (cache, fp) else refresh crypto utxos
  | none => refresh crypto utxos

/-- Every call returns what a full scan would. -/
def Transparent (calls : List OverlayUtxo) : Prop :=
  (answers (UtxoFpCache.utxoFingerprint crypto) .new calls).2 =
    calls.map (fingerprintUtxoV2 crypto)

/-- No two of the sets called on have the same fingerprint. -/
def CollisionFree (calls : List OverlayUtxo) : Prop :=
  ∀ utxos ∈ calls, ∀ other ∈ calls,
    fingerprintUtxoV2 crypto utxos = fingerprintUtxoV2 crypto other → utxos.toMap = other.toMap

end

/-- Consecutive calls on the same generation are calls on the same contents. -/
def GenerationsTell (calls : List OverlayUtxo) : Prop :=
  calls.IsChain fun utxos next => utxos.generation = next.generation → utxos.toMap = next.toMap

end Ade.Ledger
