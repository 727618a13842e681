import Ade.Library.Bytes
import Ade.Types

/-! Key-evolving signatures: a single-period leaf, and the sum construction over it. -/

namespace Ade.Crypto
open Library

abbrev KesSeed := Vector UInt8 32
abbrev VerificationKey := Vector UInt8 32
abbrev Ed25519Signature := Vector UInt8 64

inductive KesError where
  | invalidSeedLength (expected actual : Nat)
  | periodOutOfRange (period maxPeriod : UInt32)
  | verificationFailed
  | keyExpired
  | ed25519 (detail : String)
deriving DecidableEq, Repr

inductive KesParseError where
  | wrongPayloadSize (actual : Nat)
  | leafSignKeyAllZero
  | inconsistentSubtreeVkLeft (level : UInt32)
  | inconsistentSubtreeVkRight (level : UInt32)
  | invalidEd25519SignatureLength (actual : Nat)
deriving DecidableEq, Repr

/-- The hashes and the curve below the construction. -/
structure Primitives where
  expandSeed : KesSeed → KesSeed × KesSeed
  hashConcatVk : VerificationKey → VerificationKey → VerificationKey
  verifyingKey : KesSeed → VerificationKey
  sign : KesSeed → Bytes → Ed25519Signature
  isPoint : VerificationKey → Bool
  verify : VerificationKey → Bytes → Ed25519Signature → Bool

/-- `copy_from_slice` into an array of zeros. -/
def copyFromSlice (size : Nat) (bytes : Bytes) : Vector UInt8 size :=
  Vector.ofFn fun i => bytes.getD i 0

def allZero (bytes : Bytes) : Bool := bytes.all (· == 0)

structure KesAlgorithm where
  SigningKey : Type
  Signature : Type
  level : UInt32
  seedSize : Nat
  signingKeySize : Nat
  signatureSize : Nat
  totalPeriods : UInt32
  genKeyKesFromSeedBytes : Bytes → Except KesError SigningKey
  deriveVerificationKey : SigningKey → VerificationKey
  updateKes : SigningKey → UInt32 → Except KesError (Option SigningKey)
  signKes : SigningKey → UInt32 → Bytes → Except KesError Signature
  verifyKes : VerificationKey → UInt32 → Bytes → Signature → Except KesError Unit
  rawSerializeSigningKeyKes : SigningKey → Bytes
  rawDeserializeSigningKeyKes : Bytes → Except KesParseError SigningKey
  rawSerializeSignatureKes : Signature → Bytes
  rawDeserializeSignatureKes : Bytes → Except KesParseError Signature
  currentPeriodOfSigningKey : SigningKey → UInt32

variable (primitives : Primitives)

/-! ## The leaf -/

structure Sum0SigningKey where
  seed : KesSeed

structure Sum0Signature where
  bytes : Ed25519Signature

def Sum0SigningKey.fromSeed (seed : Bytes) : Except KesError Sum0SigningKey :=
  if seed.length ≠ 32 then .error (.invalidSeedLength 32 seed.length)
  else .ok ⟨copyFromSlice 32 seed⟩

def Sum0Kes : KesAlgorithm where
  SigningKey := Sum0SigningKey
  Signature := Sum0Signature
  level := 0
  seedSize := 32
  signingKeySize := 32
  signatureSize := 64
  totalPeriods := 1
  genKeyKesFromSeedBytes := Sum0SigningKey.fromSeed
  deriveVerificationKey key := primitives.verifyingKey key.seed
  updateKes _ period :=
    if period ≥ 1 then .error (.periodOutOfRange period 0) else .ok none
  signKes key period msg :=
    if period ≠ 0 then .error (.periodOutOfRange period 0)
    else .ok ⟨primitives.sign key.seed msg⟩
  verifyKes vk period msg sig :=
    if period ≠ 0 then .error (.periodOutOfRange period 0)
    else if ¬ primitives.isPoint vk then .error (.ed25519 "invalid verification key point")
    else if primitives.verify vk msg sig.bytes then .ok ()
    else .error .verificationFailed
  rawSerializeSigningKeyKes key := key.seed.toList
  rawDeserializeSigningKeyKes bytes :=
    if bytes.length ≠ 32 then .error (.wrongPayloadSize bytes.length)
    else if allZero bytes then .error .leafSignKeyAllZero
    else .ok ⟨copyFromSlice 32 bytes⟩
  rawSerializeSignatureKes sig := sig.bytes.toList
  rawDeserializeSignatureKes bytes :=
    if bytes.length ≠ 64 then .error (.invalidEd25519SignatureLength bytes.length)
    else .ok ⟨copyFromSlice 64 bytes⟩
  currentPeriodOfSigningKey _ := 0

/-! ## The sum of two subtrees -/

/-- The key of the live subtree; `r1Seed` is the right subtree's seed while the left one is live. -/
structure SumSigningKey (Child : Type) where
  skChild : Child
  r1Seed : Option KesSeed
  vk0 : VerificationKey
  vk1 : VerificationKey

structure SumSignature (Child : Type) where
  sigma : Child
  vk0 : VerificationKey
  vk1 : VerificationKey

namespace SumKes

variable (D : KesAlgorithm)

def outOfRange (period : UInt32) : KesError := .periodOutOfRange period (2 * D.totalPeriods - 1)

def genKeyKesFromSeedBytes (seed : Bytes) : Except KesError (SumSigningKey D.SigningKey) :=
  if seed.length ≠ D.seedSize then .error (.invalidSeedLength D.seedSize seed.length)
  else do
    let (leftSeed, rightSeed) := primitives.expandSeed (copyFromSlice 32 seed)
    let skLeft ← D.genKeyKesFromSeedBytes leftSeed.toList
    let skRight ← D.genKeyKesFromSeedBytes rightSeed.toList
    return {
      skChild := skLeft
      r1Seed := some rightSeed
      vk0 := D.deriveVerificationKey skLeft
      vk1 := D.deriveVerificationKey skRight }

def deriveVerificationKey (key : SumSigningKey D.SigningKey) : VerificationKey :=
  primitives.hashConcatVk key.vk0 key.vk1

def childPeriod (period : UInt32) : UInt32 :=
  if period < D.totalPeriods then period else period - D.totalPeriods

def signKes (key : SumSigningKey D.SigningKey) (period : UInt32) (msg : Bytes) :
    Except KesError (SumSignature D.Signature) :=
  if period ≥ 2 * D.totalPeriods then .error (outOfRange D period)
  else do
    let sigma ← D.signKes key.skChild (childPeriod D period) msg
    return ⟨sigma, key.vk0, key.vk1⟩

def verifyKes (vk : VerificationKey) (period : UInt32) (msg : Bytes)
    (sig : SumSignature D.Signature) : Except KesError Unit :=
  if period ≥ 2 * D.totalPeriods then .error (outOfRange D period)
  else if primitives.hashConcatVk sig.vk0 sig.vk1 ≠ vk then .error .verificationFailed
  else
    let childVk := if period < D.totalPeriods then sig.vk0 else sig.vk1
    D.verifyKes childVk (childPeriod D period) msg sig.sigma

def updateKes (key : SumSigningKey D.SigningKey) (period : UInt32) :
    Except KesError (Option (SumSigningKey D.SigningKey)) :=
  let tHalf := D.totalPeriods
  let total := 2 * tHalf
  if period ≥ total then .error (outOfRange D period)
  else
    let nextPeriod := period + 1
    if nextPeriod = total then .ok none
    else if nextPeriod = tHalf then
      match key.r1Seed with
      | none => .error .keyExpired
      | some seed => do
          let skRight ← D.genKeyKesFromSeedBytes seed.toList
          return some { key with skChild := skRight, r1Seed := none }
    else if nextPeriod < tHalf then do
      match ← D.updateKes key.skChild period with
      | some updated => return some { key with skChild := updated }
      | none => return none
    else do
      match ← D.updateKes key.skChild (period - tHalf) with
      | some updated => return some { key with skChild := updated, r1Seed := none }
      | none => return none

def rawSerializeSigningKeyKes (key : SumSigningKey D.SigningKey) : Bytes :=
  D.rawSerializeSigningKeyKes key.skChild ++
    (match key.r1Seed with
      | some seed => seed.toList
      | none => List.replicate 32 0) ++
    key.vk0.toList ++ key.vk1.toList

def rawDeserializeSigningKeyKes (bytes : Bytes) :
    Except KesParseError (SumSigningKey D.SigningKey) :=
  if bytes.length ≠ D.signingKeySize + 96 then .error (.wrongPayloadSize bytes.length)
  else do
    let childEnd := D.signingKeySize
    let skChild ← D.rawDeserializeSigningKeyKes (bytes.take childEnd)
    let seed := copyFromSlice 32 ((bytes.drop childEnd).take 32)
    let vkLeft := copyFromSlice 32 ((bytes.drop (childEnd + 32)).take 32)
    let vkRight := copyFromSlice 32 ((bytes.drop (childEnd + 64)).take 32)
    let vkOfChild := D.deriveVerificationKey skChild
    if ¬ allZero seed.toList then
      if vkOfChild ≠ vkLeft then throw (.inconsistentSubtreeVkLeft (D.level + 1))
      match D.genKeyKesFromSeedBytes seed.toList with
      | .error _ => throw (.inconsistentSubtreeVkRight (D.level + 1))
      | .ok skRight =>
          if D.deriveVerificationKey skRight ≠ vkRight then
            throw (.inconsistentSubtreeVkRight (D.level + 1))
          return ⟨skChild, some seed, vkLeft, vkRight⟩
    else
      if vkOfChild ≠ vkRight then throw (.inconsistentSubtreeVkRight (D.level + 1))
      return ⟨skChild, none, vkLeft, vkRight⟩

def rawSerializeSignatureKes (sig : SumSignature D.Signature) : Bytes :=
  D.rawSerializeSignatureKes sig.sigma ++ sig.vk0.toList ++ sig.vk1.toList

def rawDeserializeSignatureKes (bytes : Bytes) :
    Except KesParseError (SumSignature D.Signature) :=
  if bytes.length ≠ D.signatureSize + 64 then .error (.wrongPayloadSize bytes.length)
  else do
    let sigmaEnd := D.signatureSize
    let sigma ← D.rawDeserializeSignatureKes (bytes.take sigmaEnd)
    return ⟨sigma, copyFromSlice 32 ((bytes.drop sigmaEnd).take 32),
      copyFromSlice 32 ((bytes.drop (sigmaEnd + 32)).take 32)⟩

def currentPeriodOfSigningKey (key : SumSigningKey D.SigningKey) : UInt32 :=
  let childPeriod := D.currentPeriodOfSigningKey key.skChild
  match key.r1Seed with
  | some _ => childPeriod
  | none => D.totalPeriods + childPeriod

end SumKes

def SumKes (D : KesAlgorithm) : KesAlgorithm where
  SigningKey := SumSigningKey D.SigningKey
  Signature := SumSignature D.Signature
  level := D.level + 1
  seedSize := D.seedSize
  signingKeySize := D.signingKeySize + 96
  signatureSize := D.signatureSize + 64
  totalPeriods := 2 * D.totalPeriods
  genKeyKesFromSeedBytes := SumKes.genKeyKesFromSeedBytes primitives D
  deriveVerificationKey := SumKes.deriveVerificationKey primitives D
  updateKes := SumKes.updateKes D
  signKes := SumKes.signKes D
  verifyKes := SumKes.verifyKes primitives D
  rawSerializeSigningKeyKes := SumKes.rawSerializeSigningKeyKes D
  rawDeserializeSigningKeyKes := SumKes.rawDeserializeSigningKeyKes D
  rawSerializeSignatureKes := SumKes.rawSerializeSignatureKes D
  rawDeserializeSignatureKes := SumKes.rawDeserializeSignatureKes D
  currentPeriodOfSigningKey := SumKes.currentPeriodOfSigningKey D

/-- `Sum0Kes`, `Sum1Kes`, and so on. -/
def sumKes : Nat → KesAlgorithm
  | 0 => Sum0Kes primitives
  | level + 1 => SumKes primitives (sumKes level)

/-! ## A key over its life -/

/-- The key after `steps` updates, if it lasts that long. -/
def keyAfter (D : KesAlgorithm) (seed : KesSeed) : Nat → Except KesError (Option D.SigningKey)
  | 0 => do return some (← D.genKeyKesFromSeedBytes seed.toList)
  | steps + 1 => do
      match ← keyAfter D seed steps with
      | some key => D.updateKes key (UInt32.ofNat steps)
      | none => return none

/-- The seeds in a key: of its leaf, and of the subtrees still to come. -/
def storedSeeds : (level : Nat) → (sumKes primitives level).SigningKey → List KesSeed
  | 0, key => [Sum0SigningKey.seed key]
  | level + 1, key =>
      storedSeeds level (SumSigningKey.skChild key) ++ (SumSigningKey.r1Seed key).toList

/-- Below `root`, at the given level, `seed` belongs to the subtree of the `2 ^ height` periods from
`first` on. -/
inductive SubtreeSeed : (level : Nat) → (root : KesSeed) → (height first : Nat) → KesSeed → Prop
  | root (level : Nat) (root : KesSeed) : SubtreeSeed level root level 0 root
  | left {level : Nat} {root : KesSeed} {height first : Nat} {seed : KesSeed}
      (below : SubtreeSeed level (primitives.expandSeed root).1 height first seed) :
      SubtreeSeed (level + 1) root height first seed
  | right {level : Nat} {root : KesSeed} {height first : Nat} {seed : KesSeed}
      (below : SubtreeSeed level (primitives.expandSeed root).2 height first seed) :
      SubtreeSeed (level + 1) root height (2 ^ level + first) seed

/-- Signing and verification fit together. -/
def Primitives.Ed25519Correct : Prop :=
  ∀ seed msg, primitives.isPoint (primitives.verifyingKey seed) = true ∧
    primitives.verify (primitives.verifyingKey seed) msg (primitives.sign seed msg) = true

def Primitives.ExpandsNonzero : Prop :=
  ∀ seed, allZero (primitives.expandSeed seed).1.toList = false ∧
    allZero (primitives.expandSeed seed).2.toList = false

end Ade.Crypto
