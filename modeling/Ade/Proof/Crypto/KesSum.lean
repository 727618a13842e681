import Ade.Crypto.KesSum
import Ade.Library.Except

/-! Keys of the sum construction over all of their periods, by induction on the level. -/

namespace Ade.Proof.Crypto
open Library Ade.Crypto

variable {primitives : Primitives} {D : KesAlgorithm} {level : Nat}

/-! ## Slices -/

@[simp] theorem copyFromSlice_toList {size : Nat} (v : Vector UInt8 size) :
    copyFromSlice size v.toList = v := by
  apply Vector.ext
  intro i inside
  rw [copyFromSlice, Vector.getElem_ofFn]
  simp [List.getD_eq_getElem?_getD, inside]

theorem drop_take_segment {before segment after : Bytes} {start length : Nat}
    (starts : before.length = start) (sized : segment.length = length) :
    ((before ++ segment ++ after).drop start).take length = segment := by
  subst starts
  subst sized
  rw [List.append_assoc, List.drop_left, List.take_left]

/-! ## Periods -/

/-- How many periods an algorithm has, and what its keys are like in each of them. -/
structure KeyAt (D : KesAlgorithm) (level : Nat) (seed : KesSeed) (t : Nat) (key : D.SigningKey) :
    Prop where
  vk : ∀ first, D.genKeyKesFromSeedBytes seed.toList = .ok first →
    D.deriveVerificationKey key = D.deriveVerificationKey first
  signs : ∀ msg, ∃ sig, D.signKes key (UInt32.ofNat t) msg = .ok sig ∧
    D.verifyKes (D.deriveVerificationKey key) (UInt32.ofNat t) msg sig = .ok ()
  period : D.currentPeriodOfSigningKey key = UInt32.ofNat t
  size : (D.rawSerializeSigningKeyKes key).length = D.signingKeySize
  restores : (level = 0 → allZero seed.toList = false) →
    D.rawDeserializeSigningKeyKes (D.rawSerializeSigningKeyKes key) = .ok key
  expires : t + 1 = 2 ^ level → D.updateKes key (UInt32.ofNat t) = .ok none

structure Lawful (D : KesAlgorithm) (level : Nat) : Prop where
  seedSize : D.seedSize = 32
  periods : D.totalPeriods.toNat = 2 ^ level
  generates : ∀ seed : KesSeed, ∃ key, D.genKeyKesFromSeedBytes seed.toList = .ok key
  lives : ∀ seed t, t < 2 ^ level → ∃ key, keyAfter D seed t = .ok (some key) ∧
    KeyAt D level seed t key

theorem keyAfter_succ {seed : KesSeed} {t : Nat} {next : D.SigningKey} :
    keyAfter D seed (t + 1) = .ok (some next) ↔ ∃ key, keyAfter D seed t = .ok (some key) ∧
      D.updateKes key (UInt32.ofNat t) = .ok (some next) := by
  rw [keyAfter, bind_eq_ok]
  constructor
  · rintro ⟨_ | key, kept, ran⟩
    · cases ran
    · exact ⟨key, kept, ran⟩
  · rintro ⟨key, kept, ran⟩
    exact ⟨some key, kept, ran⟩

theorem keyAfter_zero {seed : KesSeed} {key : D.SigningKey} :
    keyAfter D seed 0 = .ok (some key) ↔ D.genKeyKesFromSeedBytes seed.toList = .ok key := by
  rw [keyAfter, bind_eq_ok]
  constructor
  · rintro ⟨first, generated, same⟩
    cases same
    exact generated
  · exact fun generated => ⟨key, generated, rfl⟩

theorem ofNat_toNat {t : Nat} (small : t < 2 ^ 32) : (UInt32.ofNat t).toNat = t :=
  UInt32.toNat_ofNat_of_lt' small

/-! ## The leaf -/

theorem fromSeed_toList (seed : KesSeed) : Sum0SigningKey.fromSeed seed.toList = .ok ⟨seed⟩ := by
  simp [Sum0SigningKey.fromSeed]

theorem sum0_keyAt (correct : primitives.Ed25519Correct) (seed : KesSeed) :
    KeyAt (Sum0Kes primitives) 0 seed 0 ⟨seed⟩ where
  vk first generated := by
    cases (fromSeed_toList seed).symm.trans generated
    rfl
  signs msg := by
    refine ⟨⟨primitives.sign seed msg⟩, rfl, ?_⟩
    simp [Sum0Kes, (correct seed msg).1, (correct seed msg).2]
  period := rfl
  size := by simp [Sum0Kes]
  restores nonzero := by simp [Sum0Kes, nonzero rfl]
  expires _ := rfl

theorem sum0_lawful (correct : primitives.Ed25519Correct) : Lawful (Sum0Kes primitives) 0 where
  seedSize := rfl
  periods := rfl
  generates seed := ⟨⟨seed⟩, fromSeed_toList seed⟩
  lives seed t early := by
    obtain rfl : t = 0 := Nat.lt_one_iff.mp early
    exact ⟨⟨seed⟩, keyAfter_zero.mpr (fromSeed_toList seed), sum0_keyAt correct seed⟩

/-! ## The period arithmetic of one level -/

section Level

theorem half_small (small : level + 1 ≤ 31) : 2 ^ level ≤ 2 ^ 30 :=
  Nat.pow_le_pow_right (by decide) (by omega)

theorem next_toNat (small : level + 1 ≤ 31) {t : Nat} (inside : t < 2 * 2 ^ level) :
    (UInt32.ofNat t + 1).toNat = t + 1 := by
  have half := half_small small
  have one : (1 : UInt32).toNat = 1 := rfl
  rw [UInt32.toNat_add, ofNat_toNat (by omega), one, Nat.mod_eq_of_lt (by omega)]

variable (lawful : Lawful D level) (small : level + 1 ≤ 31)
include lawful small

theorem total_toNat : (2 * D.totalPeriods).toNat = 2 * 2 ^ level := by
  have half := half_small small
  have two : (2 : UInt32).toNat = 2 := rfl
  rw [UInt32.toNat_mul, lawful.periods, two, Nat.mod_eq_of_lt (by omega)]

theorem inside_total {t : Nat} (inside : t < 2 * 2 ^ level) :
    ¬ UInt32.ofNat t ≥ 2 * D.totalPeriods := by
  have half := half_small small
  rw [ge_iff_le, UInt32.le_iff_toNat_le, total_toNat lawful small, ofNat_toNat (by omega)]
  omega

theorem before_half {t : Nat} (inside : t < 2 * 2 ^ level) :
    UInt32.ofNat t < D.totalPeriods ↔ t < 2 ^ level := by
  have half := half_small small
  rw [UInt32.lt_iff_toNat_lt, lawful.periods, ofNat_toNat (by omega)]

theorem next_eq_total {t : Nat} (inside : t < 2 * 2 ^ level) :
    UInt32.ofNat t + 1 = 2 * D.totalPeriods ↔ t + 1 = 2 * 2 ^ level := by
  rw [← UInt32.toNat_inj, next_toNat small inside, total_toNat lawful small]

theorem next_eq_half {t : Nat} (inside : t < 2 * 2 ^ level) :
    UInt32.ofNat t + 1 = D.totalPeriods ↔ t + 1 = 2 ^ level := by
  rw [← UInt32.toNat_inj, next_toNat small inside, lawful.periods]

theorem next_lt_half {t : Nat} (inside : t < 2 * 2 ^ level) :
    UInt32.ofNat t + 1 < D.totalPeriods ↔ t + 1 < 2 ^ level := by
  rw [UInt32.lt_iff_toNat_lt, next_toNat small inside, lawful.periods]

theorem after_half {u : Nat} (inside : u < 2 ^ level) :
    UInt32.ofNat (2 ^ level + u) - D.totalPeriods = UInt32.ofNat u := by
  have half := half_small small
  have behind : D.totalPeriods ≤ UInt32.ofNat (2 ^ level + u) := by
    rw [UInt32.le_iff_toNat_le, lawful.periods, ofNat_toNat (by omega)]
    omega
  rw [← UInt32.toNat_inj, UInt32.toNat_sub_of_le _ _ behind, lawful.periods, ofNat_toNat (by omega),
    ofNat_toNat (by omega)]
  omega

theorem half_add {u : Nat} (inside : u < 2 ^ level) :
    D.totalPeriods + UInt32.ofNat u = UInt32.ofNat (2 ^ level + u) := by
  have half := half_small small
  rw [← UInt32.toNat_inj, UInt32.toNat_add, lawful.periods, ofNat_toNat (by omega),
    ofNat_toNat (by omega), Nat.mod_eq_of_lt (by omega)]

/-! ## One update -/

variable {key : SumSigningKey D.SigningKey}

theorem updateKes_left {t : Nat} {child : D.SigningKey} (early : t + 1 < 2 ^ level)
    (updated : D.updateKes key.skChild (UInt32.ofNat t) = .ok (some child)) :
    SumKes.updateKes D key (UInt32.ofNat t) = .ok (some { key with skChild := child }) := by
  have inside : t < 2 * 2 ^ level := by omega
  unfold SumKes.updateKes
  dsimp only
  rw [if_neg (inside_total lawful small inside),
    if_neg (mt (next_eq_total lawful small inside).mp (by omega)),
    if_neg (mt (next_eq_half lawful small inside).mp (by omega)),
    if_pos ((next_lt_half lawful small inside).mpr early), updated]
  rfl

theorem updateKes_cross {t : Nat} {seed : KesSeed} {right : D.SigningKey} (last : t + 1 = 2 ^ level)
    (kept : key.r1Seed = some seed) (generated : D.genKeyKesFromSeedBytes seed.toList = .ok right) :
    SumKes.updateKes D key (UInt32.ofNat t) =
      .ok (some { key with skChild := right, r1Seed := none }) := by
  have inside : t < 2 * 2 ^ level := by omega
  unfold SumKes.updateKes
  dsimp only
  rw [if_neg (inside_total lawful small inside),
    if_neg (mt (next_eq_total lawful small inside).mp (by omega)),
    if_pos ((next_eq_half lawful small inside).mpr last), kept]
  dsimp only
  rw [generated]
  rfl

theorem updateKes_right {u : Nat} {child : D.SigningKey} (early : u + 1 < 2 ^ level)
    (updated : D.updateKes key.skChild (UInt32.ofNat u) = .ok (some child)) :
    SumKes.updateKes D key (UInt32.ofNat (2 ^ level + u)) =
      .ok (some { key with skChild := child, r1Seed := none }) := by
  have inside : 2 ^ level + u < 2 * 2 ^ level := by omega
  unfold SumKes.updateKes
  dsimp only
  rw [if_neg (inside_total lawful small inside),
    if_neg (mt (next_eq_total lawful small inside).mp (by omega)),
    if_neg (mt (next_eq_half lawful small inside).mp (by omega)),
    if_neg (mt (next_lt_half lawful small inside).mp (by omega)),
    after_half lawful small (by omega), updated]
  rfl

theorem updateKes_last {t : Nat} (last : t + 1 = 2 * 2 ^ level) :
    SumKes.updateKes D key (UInt32.ofNat t) = .ok none := by
  have inside : t < 2 * 2 ^ level := by omega
  unfold SumKes.updateKes
  dsimp only
  rw [if_neg (inside_total lawful small inside),
    if_pos ((next_eq_total lawful small inside).mpr last)]

end Level

/-! ## A key of the next level is a key of the live subtree -/

section Subtrees

variable {seed : KesSeed} {skLeft skRight : D.SigningKey}
  (lawful : Lawful D level) (small : level + 1 ≤ 31)
  (leftKey : D.genKeyKesFromSeedBytes (primitives.expandSeed seed).1.toList = .ok skLeft)
  (rightKey : D.genKeyKesFromSeedBytes (primitives.expandSeed seed).2.toList = .ok skRight)

include lawful leftKey rightKey in
theorem sum_generates : (SumKes primitives D).genKeyKesFromSeedBytes seed.toList =
    .ok (⟨skLeft, some (primitives.expandSeed seed).2, D.deriveVerificationKey skLeft,
      D.deriveVerificationKey skRight⟩ : SumSigningKey D.SigningKey) := by
  show SumKes.genKeyKesFromSeedBytes primitives D seed.toList = _
  unfold SumKes.genKeyKesFromSeedBytes
  rw [if_neg (by simp [lawful.seedSize]), copyFromSlice_toList]
  dsimp only
  rw [leftKey, rightKey]
  rfl

include lawful small leftKey rightKey

theorem keyAfter_left {t : Nat} (early : t < 2 ^ level) {child : D.SigningKey}
    (kept : keyAfter D (primitives.expandSeed seed).1 t = .ok (some child)) :
    keyAfter (SumKes primitives D) seed t =
      .ok (some (⟨child, some (primitives.expandSeed seed).2, D.deriveVerificationKey skLeft,
        D.deriveVerificationKey skRight⟩ : SumSigningKey D.SigningKey)) := by
  induction t generalizing child with
  | zero =>
      cases leftKey.symm.trans (keyAfter_zero.mp kept)
      exact keyAfter_zero.mpr (sum_generates lawful leftKey rightKey)
  | succ t ih =>
      obtain ⟨before, earlier, updated⟩ := keyAfter_succ.mp kept
      exact keyAfter_succ.mpr ⟨_, ih (by omega) earlier, updateKes_left lawful small early updated⟩

theorem keyAfter_right {u : Nat} (early : u < 2 ^ level) {child : D.SigningKey}
    (kept : keyAfter D (primitives.expandSeed seed).2 u = .ok (some child)) :
    keyAfter (SumKes primitives D) seed (2 ^ level + u) =
      .ok (some (⟨child, none, D.deriveVerificationKey skLeft, D.deriveVerificationKey skRight⟩ :
        SumSigningKey D.SigningKey)) := by
  induction u generalizing child with
  | zero =>
      -- The last key of the left subtree gives way to the first of the right one.
      have positive : 2 ^ level - 1 + 1 = 2 ^ level := Nat.sub_add_cancel Nat.one_le_two_pow
      obtain ⟨before, earlier, -⟩ := lawful.lives (primitives.expandSeed seed).1 (2 ^ level - 1)
        (by omega)
      have last := keyAfter_left lawful small leftKey rightKey (by omega) earlier
      rw [Nat.add_zero, ← positive]
      exact keyAfter_succ.mpr ⟨_, last,
        updateKes_cross lawful small positive rfl (keyAfter_zero.mp kept)⟩
  | succ u ih =>
      obtain ⟨before, earlier, updated⟩ := keyAfter_succ.mp kept
      exact keyAfter_succ.mpr ⟨_, ih (by omega) earlier, updateKes_right lawful small early updated⟩

end Subtrees

/-! ## What a key of the next level can do -/

section Keys

variable {seed : KesSeed} {skLeft skRight child : D.SigningKey} {r1Seed : Option KesSeed}
  {vk0 vk1 : VerificationKey}

/-- A key signs for the live subtree, whose verification key is the one its half is checked with. -/
theorem sum_signs (lawful : Lawful D level) (small : level + 1 ≤ 31) {t u : Nat} {root : KesSeed}
    (inside : t < 2 * 2 ^ level) (childKey : KeyAt D level root u child)
    (live : SumKes.childPeriod D (UInt32.ofNat t) = UInt32.ofNat u)
    (half : (if UInt32.ofNat t < D.totalPeriods then vk0 else vk1) = D.deriveVerificationKey child)
    (msg : Bytes) :
    ∃ sig, SumKes.signKes D ⟨child, r1Seed, vk0, vk1⟩ (UInt32.ofNat t) msg = .ok sig ∧
      SumKes.verifyKes primitives D (primitives.hashConcatVk vk0 vk1) (UInt32.ofNat t) msg sig =
        .ok () := by
  obtain ⟨sigma, signed, verified⟩ := childKey.signs msg
  refine ⟨⟨sigma, vk0, vk1⟩, ?_, ?_⟩
  · unfold SumKes.signKes
    rw [if_neg (inside_total lawful small inside), live, signed]
    rfl
  · unfold SumKes.verifyKes
    rw [if_neg (inside_total lawful small inside), if_neg (not_not.mpr rfl)]
    dsimp only
    rw [half, live]
    exact verified

theorem length_sum {middle : Bytes} (sized : middle.length = 32)
    (childSize : (D.rawSerializeSigningKeyKes child).length = D.signingKeySize) :
    (D.rawSerializeSigningKeyKes child ++ middle ++ vk0.toList ++ vk1.toList).length =
      D.signingKeySize + 96 := by
  simp only [List.length_append, childSize, sized, Vector.length_toList]

theorem allZero_replicate (size : Nat) : allZero (List.replicate size 0) = true := by
  simp [allZero]

theorem copyFromSlice_zeros (size : Nat) :
    (copyFromSlice size (List.replicate size 0)).toList = List.replicate size 0 := by
  have zeros : (Vector.replicate size (0 : UInt8)).toList = List.replicate size 0 := by
    simp
  rw [← zeros, copyFromSlice_toList]

/-- The four parts of a written key are found again. -/
theorem deserialize_parts {middle : Bytes} (sized : middle.length = 32)
    (childSize : (D.rawSerializeSigningKeyKes child).length = D.signingKeySize)
    (restored : D.rawDeserializeSigningKeyKes (D.rawSerializeSigningKeyKes child) = .ok child) :
    SumKes.rawDeserializeSigningKeyKes D
        (D.rawSerializeSigningKeyKes child ++ middle ++ vk0.toList ++ vk1.toList) =
      if ¬ allZero (copyFromSlice 32 middle).toList then
        if D.deriveVerificationKey child ≠ vk0 then .error (.inconsistentSubtreeVkLeft (D.level + 1))
        else match D.genKeyKesFromSeedBytes (copyFromSlice 32 middle).toList with
          | .error _ => .error (.inconsistentSubtreeVkRight (D.level + 1))
          | .ok skRight =>
              if D.deriveVerificationKey skRight ≠ vk1 then
                .error (.inconsistentSubtreeVkRight (D.level + 1))
              else .ok ⟨child, some (copyFromSlice 32 middle), vk0, vk1⟩
      else if D.deriveVerificationKey child ≠ vk1 then
        .error (.inconsistentSubtreeVkRight (D.level + 1))
      else .ok ⟨child, none, vk0, vk1⟩ := by
  have whole := @length_sum D child vk0 vk1 middle sized childSize
  have first : (D.rawSerializeSigningKeyKes child ++ middle ++ vk0.toList ++ vk1.toList).take
      D.signingKeySize = D.rawSerializeSigningKeyKes child := by
    rw [List.append_assoc, List.append_assoc, ← childSize, List.take_left]
  have second : ((D.rawSerializeSigningKeyKes child ++ middle ++ vk0.toList ++ vk1.toList).drop
      D.signingKeySize).take 32 = middle := by
    rw [List.append_assoc (_ ++ middle)]
    exact drop_take_segment childSize sized
  have third : ((D.rawSerializeSigningKeyKes child ++ middle ++ vk0.toList ++ vk1.toList).drop
      (D.signingKeySize + 32)).take 32 = vk0.toList :=
    drop_take_segment (by rw [List.length_append, childSize, sized]) (Vector.length_toList ..)
  have fourth : ((D.rawSerializeSigningKeyKes child ++ middle ++ vk0.toList ++ vk1.toList).drop
      (D.signingKeySize + 64)).take 32 = vk1.toList := by
    have found := @drop_take_segment (D.rawSerializeSigningKeyKes child ++ middle ++ vk0.toList)
      vk1.toList [] (D.signingKeySize + 64) 32
      (by simp only [List.length_append, childSize, sized, Vector.length_toList])
      (Vector.length_toList ..)
    rwa [List.append_nil] at found
  unfold SumKes.rawDeserializeSigningKeyKes
  rw [if_neg (not_not.mpr whole)]
  dsimp only
  rw [first, second, third, fourth, restored, copyFromSlice_toList, copyFromSlice_toList]
  generalize copyFromSlice 32 middle = stored
  dsimp only [bind, Except.bind]
  split_ifs <;> rfl

end Keys

section Sum

variable {seed : KesSeed} {skLeft skRight child : D.SigningKey}
  (lawful : Lawful D level) (small : level + 1 ≤ 31) (nonzero : primitives.ExpandsNonzero)
  (leftKey : D.genKeyKesFromSeedBytes (primitives.expandSeed seed).1.toList = .ok skLeft)
  (rightKey : D.genKeyKesFromSeedBytes (primitives.expandSeed seed).2.toList = .ok skRight)

include lawful leftKey rightKey in
theorem sum_vk {first : SumSigningKey D.SigningKey}
    (generated : (SumKes primitives D).genKeyKesFromSeedBytes seed.toList = .ok first) :
    primitives.hashConcatVk (D.deriveVerificationKey skLeft) (D.deriveVerificationKey skRight) =
      (SumKes primitives D).deriveVerificationKey first := by
  cases (sum_generates lawful leftKey rightKey).symm.trans generated
  rfl

include lawful small nonzero leftKey rightKey

theorem keyAt_left {t : Nat} (early : t < 2 ^ level)
    (childKey : KeyAt D level (primitives.expandSeed seed).1 t child) :
    KeyAt (SumKes primitives D) (level + 1) seed t
      (⟨child, some (primitives.expandSeed seed).2, D.deriveVerificationKey skLeft,
        D.deriveVerificationKey skRight⟩ : SumSigningKey D.SigningKey) where
  vk first generated := sum_vk lawful leftKey rightKey generated
  signs := by
    have inside : t < 2 * 2 ^ level := by omega
    have live : UInt32.ofNat t < D.totalPeriods := (before_half lawful small inside).mpr early
    apply sum_signs lawful small inside childKey (if_pos live)
    rw [if_pos live]
    exact (childKey.vk skLeft leftKey).symm
  period := childKey.period
  size := length_sum (Vector.length_toList ..) childKey.size
  restores _ := by
    have restored := childKey.restores fun _ => (nonzero seed).1
    show SumKes.rawDeserializeSigningKeyKes D _ = _
    refine (deserialize_parts (Vector.length_toList ..) childKey.size restored).trans ?_
    rw [copyFromSlice_toList, (nonzero seed).2, if_pos Bool.false_ne_true,
      if_neg (not_not.mpr (childKey.vk skLeft leftKey)), rightKey]
    exact if_neg (not_not.mpr rfl)
  expires last := by
    rw [Nat.pow_succ] at last
    omega

theorem keyAt_right {u : Nat} (early : u < 2 ^ level)
    (childKey : KeyAt D level (primitives.expandSeed seed).2 u child) :
    KeyAt (SumKes primitives D) (level + 1) seed (2 ^ level + u)
      (⟨child, none, D.deriveVerificationKey skLeft, D.deriveVerificationKey skRight⟩ :
        SumSigningKey D.SigningKey) where
  vk first generated := sum_vk lawful leftKey rightKey generated
  signs := by
    have inside : 2 ^ level + u < 2 * 2 ^ level := by omega
    have passed : ¬ UInt32.ofNat (2 ^ level + u) < D.totalPeriods :=
      mt (before_half lawful small inside).mp (by omega)
    have live : SumKes.childPeriod D (UInt32.ofNat (2 ^ level + u)) = UInt32.ofNat u := by
      rw [SumKes.childPeriod, if_neg passed, after_half lawful small early]
    apply sum_signs lawful small inside childKey live
    rw [if_neg passed]
    exact (childKey.vk skRight rightKey).symm
  period := by
    show D.totalPeriods + D.currentPeriodOfSigningKey child = _
    rw [childKey.period, half_add lawful small early]
  size := length_sum (List.length_replicate ..) childKey.size
  restores _ := by
    have restored := childKey.restores fun _ => (nonzero seed).2
    show SumKes.rawDeserializeSigningKeyKes D _ = _
    refine (deserialize_parts (List.length_replicate ..) childKey.size restored).trans ?_
    rw [copyFromSlice_zeros, allZero_replicate, if_neg (not_not.mpr rfl)]
    exact if_neg (not_not.mpr (childKey.vk skRight rightKey))
  expires last := by
    rw [Nat.pow_succ] at last
    exact updateKes_last lawful small (by omega)

end Sum

theorem sum_lawful (lawful : Lawful D level) (small : level + 1 ≤ 31)
    (nonzero : primitives.ExpandsNonzero) : Lawful (SumKes primitives D) (level + 1) where
  seedSize := lawful.seedSize
  periods := by
    rw [Nat.pow_succ, Nat.mul_comm]
    exact total_toNat lawful small
  generates seed := by
    obtain ⟨skLeft, leftKey⟩ := lawful.generates (primitives.expandSeed seed).1
    obtain ⟨skRight, rightKey⟩ := lawful.generates (primitives.expandSeed seed).2
    exact ⟨_, sum_generates lawful leftKey rightKey⟩
  lives seed t inside := by
    obtain ⟨skLeft, leftKey⟩ := lawful.generates (primitives.expandSeed seed).1
    obtain ⟨skRight, rightKey⟩ := lawful.generates (primitives.expandSeed seed).2
    rw [Nat.pow_succ] at inside
    by_cases early : t < 2 ^ level
    · obtain ⟨child, kept, childKey⟩ := lawful.lives (primitives.expandSeed seed).1 t early
      exact ⟨_, keyAfter_left lawful small leftKey rightKey early kept,
        keyAt_left lawful small nonzero leftKey rightKey early childKey⟩
    · obtain ⟨u, rfl⟩ := Nat.exists_eq_add_of_le (Nat.le_of_not_lt early)
      have late : u < 2 ^ level := by omega
      obtain ⟨child, kept, childKey⟩ := lawful.lives (primitives.expandSeed seed).2 u late
      exact ⟨_, keyAfter_right lawful small leftKey rightKey late kept,
        keyAt_right lawful small nonzero leftKey rightKey late childKey⟩

theorem sumKes_lawful (correct : primitives.Ed25519Correct) (nonzero : primitives.ExpandsNonzero)
    (small : level ≤ 31) : Lawful (sumKes primitives level) level := by
  induction level with
  | zero => exact sum0_lawful correct
  | succ level ih => exact sum_lawful (ih (by omega)) small nonzero

/-! ## Forward security -/

/-- Every seed in the key belongs to a subtree of periods that are not over. -/
theorem storedSeeds_later (correct : primitives.Ed25519Correct)
    (nonzero : primitives.ExpandsNonzero) (small : level ≤ 31) {seed : KesSeed} {t : Nat}
    (inside : t < 2 ^ level) {key : (sumKes primitives level).SigningKey}
    (kept : keyAfter (sumKes primitives level) seed t = .ok (some key)) :
    ∀ stored ∈ storedSeeds primitives level key, ∃ height first,
      SubtreeSeed primitives level seed height first stored ∧ t ≤ first := by
  induction level generalizing seed t with
  | zero =>
      intro stored member
      obtain rfl : t = 0 := Nat.lt_one_iff.mp inside
      cases (fromSeed_toList seed).symm.trans (keyAfter_zero.mp kept)
      have only : stored = seed := List.mem_singleton.mp member
      subst only
      exact ⟨0, 0, .root 0 _, Nat.le_refl 0⟩
  | succ level ih =>
      have lawful := @sumKes_lawful primitives level correct nonzero (by omega)
      obtain ⟨skLeft, leftKey⟩ := lawful.generates (primitives.expandSeed seed).1
      obtain ⟨skRight, rightKey⟩ := lawful.generates (primitives.expandSeed seed).2
      intro stored member
      rw [Nat.pow_succ] at inside
      by_cases early : t < 2 ^ level
      · obtain ⟨child, childKept, -⟩ := lawful.lives (primitives.expandSeed seed).1 t early
        cases (keyAfter_left lawful small leftKey rightKey early childKept).symm.trans kept
        rcases List.mem_append.mp member with below | own
        · obtain ⟨height, first, subtree, later⟩ := ih (by omega) early childKept stored below
          exact ⟨height, first, .left subtree, later⟩
        · rw [Option.mem_toList] at own
          cases own
          exact ⟨level, 2 ^ level + 0, .right (.root level _), by omega⟩
      · obtain ⟨u, rfl⟩ := Nat.exists_eq_add_of_le (Nat.le_of_not_lt early)
        have late : u < 2 ^ level := by omega
        obtain ⟨child, childKept, -⟩ := lawful.lives (primitives.expandSeed seed).2 u late
        cases (keyAfter_right lawful small leftKey rightKey late childKept).symm.trans kept
        rcases List.mem_append.mp member with below | own
        · obtain ⟨height, first, subtree, later⟩ := ih (by omega) late childKept stored below
          exact ⟨height, 2 ^ level + first, .right subtree, by omega⟩
        · cases own

/-! ## Written signatures -/

def SignaturesRestored (D : KesAlgorithm) : Prop :=
  ∀ sig, (D.rawSerializeSignatureKes sig).length = D.signatureSize ∧
    D.rawDeserializeSignatureKes (D.rawSerializeSignatureKes sig) = .ok sig

theorem sum_signaturesRestored (restored : SignaturesRestored D) :
    SignaturesRestored (SumKes primitives D) := by
  rintro ⟨sigma, vk0, vk1⟩
  obtain ⟨sized, same⟩ := restored sigma
  have first : (D.rawSerializeSignatureKes sigma ++ vk0.toList ++ vk1.toList).take
      D.signatureSize = D.rawSerializeSignatureKes sigma := by
    rw [List.append_assoc, ← sized, List.take_left]
  have second : ((D.rawSerializeSignatureKes sigma ++ vk0.toList ++ vk1.toList).drop
      D.signatureSize).take 32 = vk0.toList := drop_take_segment sized (Vector.length_toList ..)
  have third : ((D.rawSerializeSignatureKes sigma ++ vk0.toList ++ vk1.toList).drop
      (D.signatureSize + 32)).take 32 = vk1.toList := by
    have found := @drop_take_segment (D.rawSerializeSignatureKes sigma ++ vk0.toList) vk1.toList []
      (D.signatureSize + 32) 32 (by rw [List.length_append, sized, Vector.length_toList])
      (Vector.length_toList ..)
    rwa [List.append_nil] at found
  have whole : (D.rawSerializeSignatureKes sigma ++ vk0.toList ++ vk1.toList).length =
      D.signatureSize + 64 := by
    simp only [List.length_append, sized, Vector.length_toList]
  refine ⟨whole, ?_⟩
  show SumKes.rawDeserializeSignatureKes D (SumKes.rawSerializeSignatureKes D ⟨sigma, vk0, vk1⟩) = _
  unfold SumKes.rawDeserializeSignatureKes SumKes.rawSerializeSignatureKes
  dsimp only
  rw [if_neg (not_not.mpr whole), first, second, third, same, copyFromSlice_toList,
    copyFromSlice_toList]
  rfl

theorem sumKes_signaturesRestored : SignaturesRestored (sumKes primitives level) := by
  induction level with
  | zero =>
      intro sig
      refine ⟨Vector.length_toList .., ?_⟩
      simp [sumKes, Sum0Kes]
      rfl
  | succ level ih => exact sum_signaturesRestored ih

/-- In each of its periods a key verifies, signs, tells its period, is restored from its bytes and has
forgotten what came before. A written leaf alone is not restored if its seed is zero. -/
theorem kes_key_of_period (primitives : Primitives) (correct : primitives.Ed25519Correct)
    (nonzero : primitives.ExpandsNonzero) (level : Nat) (small : level ≤ 31) (seed : KesSeed) :
    ∃ first, (sumKes primitives level).genKeyKesFromSeedBytes seed.toList = .ok first ∧
    ∀ t, t < 2 ^ level → ∃ key, keyAfter (sumKes primitives level) seed t = .ok (some key) ∧
      (sumKes primitives level).deriveVerificationKey key =
        (sumKes primitives level).deriveVerificationKey first ∧
      (∀ msg, ∃ sig, (sumKes primitives level).signKes key (UInt32.ofNat t) msg = .ok sig ∧
        (sumKes primitives level).verifyKes ((sumKes primitives level).deriveVerificationKey first)
          (UInt32.ofNat t) msg sig = .ok ()) ∧
      (sumKes primitives level).currentPeriodOfSigningKey key = UInt32.ofNat t ∧
      ((level = 0 → allZero seed.toList = false) →
        (sumKes primitives level).rawDeserializeSigningKeyKes
          ((sumKes primitives level).rawSerializeSigningKeyKes key) = .ok key) ∧
      (t = 2 ^ level - 1 → (sumKes primitives level).updateKes key (UInt32.ofNat t) = .ok none) ∧
      ∀ stored ∈ storedSeeds primitives level key, ∃ height first,
        SubtreeSeed primitives level seed height first stored ∧ t ≤ first := by
  have lawful := sumKes_lawful correct nonzero small
  obtain ⟨first, generated⟩ := lawful.generates seed
  refine ⟨first, generated, fun t inside => ?_⟩
  obtain ⟨key, kept, keyAt⟩ := lawful.lives seed t inside
  have sameVk := keyAt.vk first generated
  refine ⟨key, kept, sameVk, ?_, keyAt.period, keyAt.restores, ?_,
    storedSeeds_later correct nonzero small inside kept⟩
  · rw [← sameVk]
    exact keyAt.signs
  · exact fun last => keyAt.expires (by omega)

/-! ## Samples -/

/-- A curve whose signatures copy the seed and the beginning of the message. -/
def samplePrimitives : Primitives where
  expandSeed seed := (seed.set 0 1, seed.set 0 2)
  hashConcatVk vk0 vk1 := Vector.zipWith (· + ·) vk0 vk1
  verifyingKey seed := seed
  sign seed msg := seed ++ copyFromSlice 32 msg
  isPoint _ := true
  verify vk msg sig := sig = vk ++ copyFromSlice 32 msg

theorem samplePrimitives_correct : samplePrimitives.Ed25519Correct := by
  intro seed msg
  simp [samplePrimitives]

theorem allZero_set (seed : KesSeed) {byte : UInt8} (nonzero : byte ≠ 0) :
    allZero (seed.set 0 byte).toList = false := by
  rw [Bool.eq_false_iff]
  intro zeros
  have member : byte ∈ (seed.set 0 byte).toList := by
    rw [Vector.toList_set]
    exact List.mem_set (by simp) byte
  exact nonzero (by simpa using List.all_eq_true.mp zeros byte member)

theorem samplePrimitives_nonzero : samplePrimitives.ExpandsNonzero :=
  fun seed => ⟨allZero_set seed (by decide), allZero_set seed (by decide)⟩

def sampleSeed : KesSeed := Vector.replicate 32 7

theorem kes_key_of_period_five :
    ∃ key, keyAfter (sumKes samplePrimitives 3) sampleSeed 5 = .ok (some key) ∧
      (sumKes samplePrimitives 3).currentPeriodOfSigningKey key = 5 := by
  obtain ⟨first, -, each⟩ := kes_key_of_period samplePrimitives samplePrimitives_correct
    samplePrimitives_nonzero 3 (by decide) sampleSeed
  obtain ⟨key, kept, -, -, period, -⟩ := each 5 (by decide)
  exact ⟨key, kept, period⟩

def zeroSeed : KesSeed := Vector.replicate 32 0

/-- The seed of a single leaf is not an expanded one. -/
theorem zero_leaf_not_restored :
    samplePrimitives.Ed25519Correct ∧ samplePrimitives.ExpandsNonzero ∧
    ∃ key, keyAfter (sumKes samplePrimitives 0) zeroSeed 0 = .ok (some key) ∧
      (sumKes samplePrimitives 0).rawDeserializeSigningKeyKes
        ((sumKes samplePrimitives 0).rawSerializeSigningKeyKes key) =
          .error .leafSignKeyAllZero := by
  have generated : Sum0SigningKey.fromSeed zeroSeed.toList = .ok ⟨zeroSeed⟩ := fromSeed_toList _
  have kept : keyAfter (Sum0Kes samplePrimitives) zeroSeed 0 =
      .ok (some (⟨zeroSeed⟩ : Sum0SigningKey)) := keyAfter_zero.mpr generated
  exact ⟨samplePrimitives_correct, samplePrimitives_nonzero, _, kept, rfl⟩

end Ade.Proof.Crypto
