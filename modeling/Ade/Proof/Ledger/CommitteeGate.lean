import Ade.Ledger.Thresholds
import Ade.Proof.Ledger.Rational

/-! Whose votes the committee's approval counts. -/

namespace Ade.Proof.Ledger
open Std Library Ade.Ledger

namespace RatificationInputs

variable (inputs : RatificationInputs) (p : GovActionState)

/-- The unexpired member that a yes vote resolves to. -/
def resolvedMember (entry : StakeCredential × Vote) : Option StakeCredential :=
  if entry.2 = .yes then
    (inputs.committeeHotKeys[entry.1]?).filter fun cold =>
      inputs.activeMembers.any fun member => member.1 = cold
  else none

def yesMembers : List StakeCredential := p.committeeVotes.filterMap (resolvedMember inputs)

/-- The unexpired members with an authorized hot credential that votes yes. -/
def approvingMembers : List StakeCredential :=
  (inputs.activeMembers.map Prod.fst).filter fun cold =>
    p.committeeVotes.any fun entry =>
      entry.2 = .yes ∧ inputs.committeeHotKeys[entry.1]? = some cold

def isUnauthorized (entry : StakeCredential × Vote) : Bool :=
  entry.2 = .yes ∧ inputs.committeeHotKeys[entry.1]? = none

/-- The yes votes of hot credentials that no member authorized. -/
def unauthorizedVotes : List (StakeCredential × Vote) :=
  p.committeeVotes.filter (isUnauthorized inputs)

theorem nodup_activeMembers : (inputs.activeMembers.map Prod.fst).Nodup := by
  have distinct : inputs.activeMembers.Pairwise fun a b => ¬ compare a.1 b.1 = .eq :=
    ExtTreeMap.distinct_keys_toList.filter _
  rw [List.Nodup, List.pairwise_map]
  exact distinct.imp fun differ same => differ (LawfulEqOrd.compare_eq_iff_eq.mpr same)

/-! ## The count of the gate -/

/-- A counted vote either resolves to a member or is not authorized at all. -/
theorem countsAsYes_split (entry : StakeCredential × Vote) :
    (inputs.countsAsYes entry).toNat =
      (resolvedMember inputs entry).toList.length + (isUnauthorized inputs entry).toNat := by
  unfold RatificationInputs.countsAsYes resolvedMember isUnauthorized
  by_cases yes : entry.2 = .yes
  · rw [if_neg (not_not.mpr yes), if_pos yes]
    cases authorized : inputs.committeeHotKeys[entry.1]? with
    | none => simp [yes]
    | some cold =>
        dsimp only
        cases active : inputs.activeMembers.any fun member => member.1 = cold with
        | false => simp [Option.filter, active]
        | true => simp [Option.filter, active]
  · simp [yes]

theorem countsAsYes_length : (p.committeeVotes.filter inputs.countsAsYes).length =
    (yesMembers inputs p).length + (unauthorizedVotes inputs p).length := by
  unfold yesMembers unauthorizedVotes
  induction p.committeeVotes with
  | nil => rfl
  | cons entry votes ih =>
      have split := countsAsYes_split inputs entry
      rw [List.filter_cons, List.filterMap_cons, List.filter_cons]
      cases counted : inputs.countsAsYes entry <;>
        cases resolved : resolvedMember inputs entry <;>
          cases loose : isUnauthorized inputs entry <;>
            simp_all <;> omega

/-- Where no two votes resolve to one member, they are as many as the members that approve. -/
theorem yesMembers_length {inputs : RatificationInputs} {p : GovActionState}
    (distinct : (yesMembers inputs p).Nodup) :
    (yesMembers inputs p).length = (approvingMembers inputs p).length := by
  apply List.Perm.length_eq
  refine (List.perm_ext_iff_of_nodup distinct ((nodup_activeMembers inputs).filter _)).mpr ?_
  intro cold
  unfold yesMembers resolvedMember
  simp only [List.mem_filterMap, List.mem_filter, List.any_eq_true, List.mem_map, decide_eq_true_eq]
  constructor
  · rintro ⟨entry, voted, resolved⟩
    split_ifs at resolved with yes
    obtain ⟨authorized, active⟩ := Option.filter_eq_some_iff.mp resolved
    exact ⟨by simpa using active, entry, voted, yes, authorized⟩
  · rintro ⟨⟨member, active, rfl⟩, entry, voted, yes, authorized⟩
    refine ⟨entry, voted, ?_⟩
    rw [if_pos yes, authorized]
    exact Option.filter_eq_some_iff.mpr ⟨rfl, by simpa using ⟨_, active⟩⟩

/-! ## The quorum -/

/-- The sizes that memory allows, and a quorum made of two `u64`. -/
structure Sized : Prop where
  votes : p.committeeVotes.length < 2 ^ 63
  members : inputs.committeeMembers.size < 2 ^ 63
  quorum : ∃ ratio, inputs.committeeQuorum = committeeQuorum ratio

theorem committeeQuorum_natAbs_le (ratio : UInt64 × UInt64) :
    (committeeQuorum ratio).num.natAbs < 2 ^ 64 ∧ (committeeQuorum ratio).den.natAbs < 2 ^ 64 := by
  have atLeast : (1 : UInt64) ≤ max ratio.2 1 := by
    show (1 : UInt64) ≤ if ratio.2 ≤ 1 then 1 else ratio.2
    split_ifs with low
    · exact UInt64.le_refl 1
    · exact UInt64.le_of_lt (UInt64.not_le.mp low)
  have positive : asI128 (max ratio.2 1) ≠ 0 := by
    rw [UInt64.le_iff_toNat_le] at atLeast
    have one : (1 : UInt64).toNat = 1 := rfl
    unfold asI128
    omega
  unfold committeeQuorum
  rw [Rational.new_of_ne positive, Option.getD_some]
  obtain ⟨num, den⟩ := @Rational.reduce_natAbs_le (asI128 ratio.1) _ positive
  exact ⟨num.trans_lt ratio.1.toNat_lt, den.trans_lt (max ratio.2 1).toNat_lt⟩

/-- Where no product leaves 128 bits, the gate compares the values. -/
theorem cross_lt_iff {a b : Rational} (aNum : a.num.natAbs < 2 ^ 63) (aDen : a.den.natAbs < 2 ^ 63)
    (bNum : b.num.natAbs < 2 ^ 64) (bDen : b.den.natAbs < 2 ^ 64) :
    wrappingMulI128 a.numerator b.denominator < wrappingMulI128 b.numerator a.denominator ↔
      a.value < b.value := by
  have aFits : a.Fits := ⟨aNum.trans (by decide), aDen.trans (by decide)⟩
  have bFits : b.Fits := ⟨bNum.trans (by decide), bDen.trans (by decide)⟩
  have within : ∀ x y : Int, x.natAbs < 2 ^ 63 → y.natAbs < 2 ^ 64 →
      -2 ^ 127 ≤ x * y ∧ x * y < 2 ^ 127 := by
    intro x y xSmall ySmall
    have product : (x * y).natAbs < 2 ^ 127 := by
      rw [Int.natAbs_mul]
      calc x.natAbs * y.natAbs < 2 ^ 63 * 2 ^ 64 := Nat.mul_lt_mul'' xSmall ySmall
        _ = 2 ^ 127 := by norm_num
    omega
  have left := within a.num b.den aNum bDen
  have right := within a.den b.num aDen bNum
  rw [Int.mul_comm] at right
  rw [aFits.numerator, aFits.denominator, bFits.numerator, bFits.denominator,
    wrappingMulI128_of_mem left.1 left.2, wrappingMulI128_of_mem right.1 right.2,
    Rational.lt_iff_cross]

theorem committeeAccepts_iff {inputs : RatificationInputs} {p : GovActionState}
    (sized : Sized inputs p) (needs : RatificationInputs.needsCommittee p.govAction = true)
    (active : inputs.activeMembers ≠ []) :
    inputs.committeeAccepts p = true ↔
      inputs.committeeQuorum.value * inputs.activeMembers.length ≤
        ((yesMembers inputs p).length + (unauthorizedVotes inputs p).length : Nat) := by
  obtain ⟨ratio, quorum⟩ := sized.quorum
  obtain ⟨quorumNum, quorumDen⟩ := committeeQuorum_natAbs_le ratio
  rw [← quorum] at quorumNum quorumDen
  have nonempty : inputs.committeeMembers.isEmpty = false := by
    rw [← ExtTreeMap.isEmpty_toList]
    by_contra empty
    rw [Bool.not_eq_false, List.isEmpty_iff] at empty
    exact active (by rw [RatificationInputs.activeMembers, empty, List.filter_nil])
  have counted : (p.committeeVotes.filter inputs.countsAsYes).length < 2 ^ 63 :=
    (List.length_filter_le _ _).trans_lt sized.votes
  have seated : inputs.activeMembers.length < 2 ^ 63 := by
    refine (List.length_filter_le _ _).trans_lt ?_
    rw [ExtTreeMap.length_toList]
    exact sized.members
  have positive : 0 < inputs.activeMembers.length := List.length_pos_iff.mpr active
  have nonzero : (inputs.activeMembers.length : Int) ≠ 0 := by omega
  unfold RatificationInputs.committeeAccepts
  rw [if_pos ⟨needs, by simp [nonempty]⟩, if_neg (by simpa using active)]
  dsimp only
  rw [Rational.new_of_ne nonzero, Option.getD_some]
  obtain ⟨num, den⟩ := @Rational.reduce_natAbs_le
    (p.committeeVotes.filter inputs.countsAsYes).length _ nonzero
  rw [decide_eq_true_eq, cross_lt_iff (num.trans_lt counted) (den.trans_lt seated) quorumNum quorumDen,
    Rational.value_reduce, Rat.not_lt, ← countsAsYes_length]
  rw [Int.cast_natCast, Int.cast_natCast, le_div_iff₀ (by exact_mod_cast positive)]

/-! ## Approval -/

/-- The members that approve are at least the quorum of the unexpired ones, `spare` aside. -/
def MeetsQuorum (spare : Nat) : Prop :=
  inputs.committeeQuorum.value * inputs.activeMembers.length ≤
    ((approvingMembers inputs p).length + spare : Nat)

theorem committee_of_checkRatification {inputs : RatificationInputs} {p : GovActionState}
    {actionThresholds : Option Nat × Option Nat}
    (ratified : checkRatification p actionThresholds inputs = true) :
    inputs.committeeAccepts p = true := by
  unfold checkRatification at ratified
  split_ifs at ratified with accepted
  exact accepted

/-- Where no member is resolved to by two yes votes, a ratified proposal has the quorum of the
unexpired members, a vote that nobody authorized counting as one more. -/
theorem ratified_meets_quorum {inputs : RatificationInputs} {p : GovActionState}
    {actionThresholds : Option Nat × Option Nat} (sized : Sized inputs p)
    (needs : RatificationInputs.needsCommittee p.govAction = true)
    (active : inputs.activeMembers ≠ []) (distinct : (yesMembers inputs p).Nodup)
    (ratified : checkRatification p actionThresholds inputs = true) :
    MeetsQuorum inputs p (unauthorizedVotes inputs p).length := by
  have accepted := committee_of_checkRatification ratified
  rw [committeeAccepts_iff sized needs active, yesMembers_length distinct] at accepted
  exact accepted

/-! ### A committee of one -/

section Samples

def sampleCold : StakeCredential := .keyHash (Vector.replicate 28 1)

def sampleHot : StakeCredential := .keyHash (Vector.replicate 28 2)

def sampleCommittee (hotKeys : BTreeMap StakeCredential StakeCredential) : RatificationInputs where
  totalDRepActiveStake := 0
  drepStake := ∅
  poolStake := ∅
  committeeMembers := (∅ : BTreeMap StakeCredential UInt64).insert sampleCold 10
  committeeQuorum := committeeQuorum (1, 1)
  poolThresholds := []
  drepThresholds := []
  currentEpoch := 5
  committeeHotKeys := hotKeys

/-- A change that the hot credential votes for. -/
def sampleApproved : GovActionState where
  actionId := ⟨Vector.replicate 32 0, 0⟩
  committeeVotes := [(sampleHot, .yes)]
  drepVotes := []
  spoVotes := []
  deposit := 0
  returnAddr := []
  govAction := .parameterChange none [] none
  proposedIn := 0
  expiresAfter := 10

def sampleAuthorized : RatificationInputs :=
  sampleCommittee ((∅ : BTreeMap StakeCredential StakeCredential).insert sampleHot sampleCold)

theorem sampleCommittee_sized (hotKeys : BTreeMap StakeCredential StakeCredential) :
    Sized (sampleCommittee hotKeys) sampleApproved := by
  have members : ((∅ : BTreeMap StakeCredential UInt64).insert sampleCold 10).size < 2 ^ 63 := by
    decide
  exact ⟨by decide, members, (1, 1), rfl⟩

theorem ratified_meets_quorum_of_authorized :
    MeetsQuorum sampleAuthorized sampleApproved
      (unauthorizedVotes sampleAuthorized sampleApproved).length :=
  ratified_meets_quorum (sampleCommittee_sized _) rfl (by decide) (by decide +kernel)
    (show checkRatification sampleApproved (some 4, some 5) sampleAuthorized = true by decide +kernel)

/-- The vote of a hot credential that the only member never authorized. -/
theorem unauthorized_vote_ratifies :
    checkRatification sampleApproved (govActionThresholdIndex sampleApproved.govAction)
        (sampleCommittee ∅) = true ∧
      ¬ MeetsQuorum (sampleCommittee ∅) sampleApproved 0 := by
  refine ⟨by decide, ?_⟩
  have seated : (sampleCommittee ∅).activeMembers.length = 1 := by decide
  have approving : (approvingMembers (sampleCommittee ∅) sampleApproved).length = 0 := by
    decide
  have quorum : (sampleCommittee ∅).committeeQuorum = .one := by decide
  unfold MeetsQuorum
  rw [seated, approving, quorum, Rational.value_one]
  norm_num

end Samples

end RatificationInputs

end Ade.Proof.Ledger
