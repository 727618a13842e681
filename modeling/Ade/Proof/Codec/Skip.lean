import Ade.Codec.Skip

namespace Ade.Proof.Codec
open Library Ade.Codec

variable {data : Bytes}

/-! ## The recursive formulation is the walk with map entries -/

def unexpectedBreak (offset : Nat) : CodecError :=
  .invalidCborStructure offset "unexpected break code outside indefinite container"

/-- What the recursive formulation returns where the walk stops. -/
def verdict : Walk → Outcome Unit
  | .done offset => (.ok (), offset)
  | .failed failure offset => (.error failure, offset)
  | .valueBreak offset => (.error (unexpectedBreak offset), offset + 1)

def andThen (outcome : Outcome Unit) (next : Nat → Outcome Unit) : Outcome Unit :=
  match outcome with
  | (.ok (), after) => next after
  | (.error failure, after) => (.error failure, after)

/-- The walk from between two items on. -/
def walkRest (data : Bytes) (frames : List Frame) (offset : Nat) : Outcome Unit :=
  match advance data frames offset with
  | .error stopped => verdict stopped
  | .ok (next, final) => verdict (walkLoop data next final)

theorem verdict_walkLoop (frames : List Frame) (offset : Nat) :
    verdict (walkLoop data frames offset) =
      match (readHead data).runAt offset with
      | (.error failure, after) => (.error failure, after)
      | (.ok head, after) => walkRest data (framesOf head ++ frames) after := by
  rw [walkLoop]
  split
  · rename_i failure after ran
    rw [ran]
    rfl
  · rename_i head after ran
    rw [ran]
    unfold walkRest
    dsimp only
    split
    · rename_i stopped advanced
      rw [advanced]
    · rename_i next final advanced
      rw [advanced]

theorem readHead_end {offset : Nat} (ended : data.length ≤ offset) :
    (readHead data).runAt offset = (.error (.unexpectedEof offset 1), offset) := by
  rw [readHead_runAt, List.getElem?_eq_none ended]

theorem readHead_break {offset : Nat} (broken : peekByte data offset = .ok breakByte) :
    (readHead data).runAt offset = (.error (unexpectedBreak offset), offset + 1) := by
  have found : data[offset]? = some breakByte := by
    unfold peekByte at broken
    split at broken
    · cases broken
      assumption
    · cases broken
  rw [readHead_runAt, found]
  rfl

/-- A break byte in place of a value stops the walk as the recursive call on it would. -/
theorem walkRest_value (frames : List Frame) (offset : Nat) :
    walkRest data (.value :: frames) offset = verdict (walkLoop data (.key :: frames) offset) := by
  unfold walkRest advance
  cases peeked : peekByte data offset with
  | error failure =>
      have ended : failure = .unexpectedEof offset 1 ∧ data.length ≤ offset := by
        unfold peekByte at peeked
        split at peeked
        · cases peeked
        · cases peeked
          exact ⟨rfl, List.getElem?_eq_none_iff.mp (by assumption)⟩
      rw [verdict_walkLoop, readHead_end ended.2, ended.1]
      rfl
  | ok byte =>
      dsimp only
      split_ifs with broken
      · rw [broken] at peeked
        rw [verdict_walkLoop, readHead_break peeked]
        rfl
      · rfl

/-- The walk over the item at the offset is the call of `skip` and then the rest. -/
structure Simulates (data : Bytes) (skip : Nat → Outcome Unit) (offset : Nat) : Prop where
  walks : ∀ frames, verdict (walkLoop data frames offset) =
    andThen (skip offset) (walkRest data frames)
  progress : ∀ after, skip offset = (.ok (), after) → offset < after

section Loops

variable {skip : Nat → Outcome Unit} {from_ : Nat}
  (simulates : ∀ offset, from_ ≤ offset → Simulates data skip offset)

include simulates

theorem walkRest_items (frames : List Frame) (count : Nat) {offset : Nat} (reached : from_ ≤ offset) :
    walkRest data (.items count :: frames) offset =
      andThen (repeatSkip skip count offset) (walkRest data frames) := by
  induction count generalizing offset with
  | zero => rfl
  | succ count ih =>
      have step := (simulates offset reached).walks (.items count :: frames)
      show verdict (walkLoop data (.items count :: frames) offset) = _
      rw [step, repeatSkip]
      rcases ran : skip offset with ⟨failure | done, after⟩
      · rfl
      · have passed := (simulates offset reached).progress after ran
        exact ih (by omega)

theorem walkRest_untilBreak (frames : List Frame) {left offset : Nat} (reached : from_ ≤ offset)
    (enough : data.length ≤ offset + left) :
    walkRest data (.untilBreak :: frames) offset =
      andThen (skipUntilBreak skip data left offset) (walkRest data frames) := by
  induction left generalizing offset with
  | zero =>
      have ended : data[offset]? = none := List.getElem?_eq_none enough
      simp [walkRest, advance, peekByte, ended, skipUntilBreak, andThen, verdict]
  | succ left ih =>
      have step := (simulates offset reached).walks (.untilBreak :: frames)
      rw [skipUntilBreak, walkRest, advance]
      cases peeked : peekByte data offset with
      | error failure => rfl
      | ok byte =>
          dsimp only
          split_ifs with broken
          · rfl
          · show verdict (walkLoop data (.untilBreak :: frames) offset) = _
            rw [step]
            rcases ran : skip offset with ⟨failure | done, after⟩
            · rfl
            · have passed := (simulates offset reached).progress after ran
              exact ih (by omega) (by omega)

theorem walkRest_key (frames : List Frame) {left offset : Nat} (reached : from_ ≤ offset)
    (enough : data.length ≤ offset + left) :
    walkRest data (.key :: frames) offset =
      andThen (skipUntilBreak (skipPair skip) data left offset) (walkRest data frames) := by
  induction left generalizing offset with
  | zero =>
      have ended : data[offset]? = none := List.getElem?_eq_none enough
      simp [walkRest, advance, peekByte, ended, skipUntilBreak, andThen, verdict]
  | succ left ih =>
      have key := (simulates offset reached).walks (.value :: frames)
      rw [skipUntilBreak, walkRest, advance]
      cases peeked : peekByte data offset with
      | error failure => rfl
      | ok byte =>
          dsimp only
          split_ifs with broken
          · rfl
          · show verdict (walkLoop data (.value :: frames) offset) = _
            rw [key, skipPair]
            rcases ran : skip offset with ⟨failure | done, middle⟩
            · rfl
            · have passed := (simulates offset reached).progress middle ran
              have value := (simulates middle (by omega)).walks (.key :: frames)
              show walkRest data (.value :: frames) middle = _
              rw [walkRest_value, value]
              rcases ranValue : skip middle with ⟨failure | done, after⟩
              · simp [andThen, ranValue]
              · have passedValue := (simulates middle (by omega)).progress after ranValue
                simp only [andThen, ranValue]
                exact ih (by omega) (by omega)

theorem repeatSkip_forward {count offset after : Nat} (reached : from_ ≤ offset)
    (returned : repeatSkip skip count offset = (.ok (), after)) : offset ≤ after := by
  induction count generalizing offset with
  | zero =>
      cases returned
      exact Nat.le_refl _
  | succ count ih =>
      rw [repeatSkip] at returned
      rcases ran : skip offset with ⟨failure | done, middle⟩
      · simp [ran] at returned
      · have passed := (simulates offset reached).progress middle ran
        simp only [ran] at returned
        exact Nat.le_of_lt (Nat.lt_of_lt_of_le passed (ih (by omega) returned))

theorem skipPair_forward {offset after : Nat} (reached : from_ ≤ offset)
    (returned : skipPair skip offset = (.ok (), after)) : offset < after := by
  rw [skipPair] at returned
  rcases ran : skip offset with ⟨failure | done, middle⟩
  · simp [ran] at returned
  · have passed := (simulates offset reached).progress middle ran
    simp only [ran] at returned
    exact Nat.lt_trans passed ((simulates middle (by omega)).progress after returned)

end Loops

theorem skipUntilBreak_forward {skip : Nat → Outcome Unit} {least : Nat}
    (progress : ∀ offset after, least ≤ offset → skip offset = (.ok (), after) → offset < after)
    {left offset after : Nat} (reached : least ≤ offset)
    (returned : skipUntilBreak skip data left offset = (.ok (), after)) : offset ≤ after := by
  induction left generalizing offset with
  | zero => cases returned
  | succ left ih =>
      rw [skipUntilBreak] at returned
      cases peeked : peekByte data offset with
      | error failure => simp [peeked] at returned
      | ok byte =>
          simp only [peeked] at returned
          split_ifs at returned with broken
          · cases returned
            exact Nat.le_succ _
          · rcases ran : skip offset with ⟨failure | done, middle⟩
            · simp [ran] at returned
            · have passed := progress offset middle reached ran
              simp only [ran] at returned
              exact Nat.le_of_lt (Nat.lt_of_lt_of_le passed (ih (by omega) returned))

theorem repeatSkip_pairs (skip : Nat → Outcome Unit) (count offset : Nat) :
    repeatSkip (skipPair skip) count offset = repeatSkip skip (count * 2) offset := by
  induction count generalizing offset with
  | zero => rfl
  | succ count ih =>
      rw [Nat.succ_mul, repeatSkip, repeatSkip, skipPair]
      rcases skip offset with ⟨failure | done, middle⟩
      · rfl
      · dsimp only
        rw [repeatSkip]
        rcases skip middle with ⟨failure | done, after⟩
        · rfl
        · exact ih after

theorem repeatSkip_one (skip : Nat → Outcome Unit) (offset : Nat) :
    repeatSkip skip 1 offset = skip offset := by
  rw [repeatSkip]
  rcases skip offset with ⟨failure | done, after⟩ <;> rfl

/-- What the recursive formulation does with the contents announced by a head. -/
def skipContents (data : Bytes) (skip : Nat → Outcome Unit) (left : Nat) (head : ItemHead)
    (offset : Nat) : Outcome Unit :=
  match head with
  | .leaf => (.ok (), offset)
  | .array count => repeatSkip skip count.toNat offset
  | .map count => repeatSkip (skipPair skip) count.toNat offset
  | .indefinite => skipUntilBreak skip data left offset
  | .indefiniteMap => skipUntilBreak (skipPair skip) data left offset
  | .tag => skip offset

theorem skipReferenceWithin_succ (left offset : Nat) :
    skipReferenceWithin data (left + 1) offset =
      match (readHead data).runAt offset with
      | (.error failure, after) => (.error failure, after)
      | (.ok head, after) => skipContents data (skipReferenceWithin data left) left head after := by
  rw [skipReferenceWithin]
  rcases (readHead data).runAt offset with ⟨failure | head, after⟩
  · rfl
  · cases head <;> rfl

theorem walkRest_contents {skip : Nat → Outcome Unit} {offset left : Nat}
    (simulates : ∀ later, offset ≤ later → Simulates data skip later)
    (enough : data.length ≤ offset + left) (head : ItemHead) (frames : List Frame) :
    walkRest data (framesOf head ++ frames) offset =
      andThen (skipContents data skip left head offset) (walkRest data frames) := by
  have here := Nat.le_refl offset
  cases head with
  | leaf => rfl
  | array count => exact walkRest_items simulates frames _ here
  | map count =>
      rw [skipContents, repeatSkip_pairs]
      exact walkRest_items simulates frames _ here
  | indefinite => exact walkRest_untilBreak simulates frames here enough
  | indefiniteMap => exact walkRest_key simulates frames here enough
  | tag =>
      rw [skipContents, ← repeatSkip_one skip]
      exact walkRest_items simulates frames 1 here

theorem skipContents_forward {skip : Nat → Outcome Unit} {offset left after : Nat}
    (simulates : ∀ later, offset ≤ later → Simulates data skip later) {head : ItemHead}
    (returned : skipContents data skip left head offset = (.ok (), after)) : offset ≤ after := by
  have here := Nat.le_refl offset
  cases head with
  | leaf =>
      cases returned
      exact here
  | array count => exact repeatSkip_forward simulates here returned
  | map count =>
      rw [skipContents, repeatSkip_pairs] at returned
      exact repeatSkip_forward simulates here returned
  | indefinite =>
      apply skipUntilBreak_forward _ here returned
      intro later final reached
      exact (simulates later reached).progress final
  | indefiniteMap =>
      apply skipUntilBreak_forward _ here returned
      intro later final reached
      exact skipPair_forward simulates reached
  | tag => exact Nat.le_of_lt ((simulates offset here).progress after returned)

theorem reference_simulates (left : Nat) {offset : Nat} (enough : data.length ≤ offset + left) :
    Simulates data (skipReferenceWithin data left) offset := by
  induction left generalizing offset with
  | zero =>
      constructor
      · intro frames
        have ended : data.length ≤ offset := enough
        rw [verdict_walkLoop, readHead_end ended]
        rfl
      · intro after returned
        cases returned
  | succ left ih =>
      constructor
      · intro frames
        rw [verdict_walkLoop, skipReferenceWithin_succ]
        rcases ran : (readHead data).runAt offset with ⟨failure | head, after⟩
        · rfl
        · have passed := (readHead_ok ran).2
          exact walkRest_contents (fun later reached => ih (by omega)) (by omega) head frames
      · intro after returned
        rw [skipReferenceWithin_succ] at returned
        rcases ran : (readHead data).runAt offset with ⟨failure | head, middle⟩
        · simp [ran] at returned
        · have passed := (readHead_ok ran).2
          simp only [ran] at returned
          have forward := skipContents_forward (fun later reached => ih (by omega)) returned
          omega

/-- The recursive formulation returns where the walk stops. -/
theorem skipReferenceWithin_eq_verdict (data : Bytes) (offset : Nat) :
    skipReferenceWithin data (data.length - offset) offset = verdict (walkLoop data [] offset) := by
  have simulates := @reference_simulates data (data.length - offset) offset (by omega)
  rw [simulates.walks []]
  rcases skipReferenceWithin data (data.length - offset) offset with ⟨failure | done, after⟩
  · rfl
  · rfl

/-! ## The iterative walker is the walk without map entries -/

def erase : Frame → Option Nat
  | .items count => some count
  | .untilBreak | .key | .value => none

theorem owedBy_eq_erase (head : ItemHead) : owedBy head = (framesOf head).map erase := by
  cases head <;> rfl

/-- The iterative walker from between two items on. -/
def skipRest (data : Bytes) (owed : List (Option Nat)) (offset : Nat) : Outcome Unit :=
  match settle data owed offset with
  | (.error failure, final) => (.error failure, final)
  | (.ok none, final) => (.ok (), final)
  | (.ok (some next), final) => skipLoop data next final

theorem skipLoop_eq (owed : List (Option Nat)) (offset : Nat) :
    skipLoop data owed offset =
      match (readHead data).runAt offset with
      | (.error failure, after) => (.error failure, after)
      | (.ok head, after) => skipRest data (owedBy head ++ owed) after := by
  rw [skipLoop]
  split
  · rename_i failure after ran
    rw [ran]
  · rename_i head after ran
    rw [ran]
    unfold skipRest
    dsimp only
    split
    · rename_i failure final settled
      rw [settled]
    · rename_i final settled
      rw [settled]
    · rename_i next final settled
      rw [settled]

/-- Where the walk stops for good the iterative walker does too. At a break byte in place of a value
it closes the map and goes on. -/
def Matches (data : Bytes) (outcome : Outcome Unit) : Walk → Prop
  | .done offset => outcome = (.ok (), offset)
  | .failed failure offset => outcome = (.error failure, offset)
  | .valueBreak offset => ∃ owed, outcome = skipRest data owed (offset + 1)

theorem skipRest_break {owed : List (Option Nat)} {offset : Nat}
    (broken : peekByte data offset = .ok breakByte) :
    skipRest data (none :: owed) offset = skipRest data owed (offset + 1) := by
  simp [skipRest, settle, broken]

theorem skipRest_matches (frames : List Frame) (offset : Nat) :
    match advance data frames offset with
    | .error stopped => Matches data (skipRest data (frames.map erase) offset) stopped
    | .ok (next, final) =>
        skipRest data (frames.map erase) offset = skipLoop data (next.map erase) final := by
  induction frames generalizing offset with
  | nil => rfl
  | cons frame frames ih =>
      cases frame with
      | items count =>
          cases count with
          | zero => exact ih offset
          | succ count => rfl
      | untilBreak =>
          rw [advance, List.map_cons]
          cases peeked : peekByte data offset with
          | error failure => simp [Matches, skipRest, settle, peeked, erase]
          | ok byte =>
              dsimp only
              by_cases broken : byte = breakByte
              · rw [if_pos broken]
                rw [broken] at peeked
                rw [show erase .untilBreak = none from rfl, skipRest_break peeked]
                exact ih (offset + 1)
              · simp [broken, skipRest, settle, peeked, erase]
      | key =>
          rw [advance, List.map_cons]
          cases peeked : peekByte data offset with
          | error failure => simp [Matches, skipRest, settle, peeked, erase]
          | ok byte =>
              dsimp only
              by_cases broken : byte = breakByte
              · rw [if_pos broken]
                rw [broken] at peeked
                rw [show erase .key = none from rfl, skipRest_break peeked]
                exact ih (offset + 1)
              · simp [broken, skipRest, settle, peeked, erase]
      | value =>
          rw [advance, List.map_cons]
          cases peeked : peekByte data offset with
          | error failure => simp [Matches, skipRest, settle, peeked, erase]
          | ok byte =>
              dsimp only
              by_cases broken : byte = breakByte
              · rw [if_pos broken]
                rw [broken] at peeked
                rw [show erase .value = none from rfl, skipRest_break peeked]
                exact ⟨_, rfl⟩
              · simp [broken, skipRest, settle, peeked, erase]

theorem skipLoop_matches (frames : List Frame) (offset : Nat) :
    Matches data (skipLoop data (frames.map erase) offset) (walkLoop data frames offset) := by
  fun_induction walkLoop data frames offset with
  | case1 frames offset failure after ran =>
      rw [skipLoop_eq, ran]
      rfl
  | case2 frames offset head after ran stopped advanced =>
      have step := @skipRest_matches data (framesOf head ++ frames) after
      rw [advanced, List.map_append, ← owedBy_eq_erase] at step
      rw [skipLoop_eq, ran]
      exact step
  | case3 frames offset head after ran next final advanced ih =>
      have step := @skipRest_matches data (framesOf head ++ frames) after
      rw [advanced, List.map_append, ← owedBy_eq_erase] at step
      rw [skipLoop_eq, ran]
      dsimp only at step ⊢
      rw [step]
      exact ih

/-! ## Beyond the break byte -/

theorem readHead_points {offset after : Nat} {failure : CodecError}
    (ran : (readHead data).runAt offset = (.error failure, after)) : PointsFrom offset failure := by
  rw [readHead_runAt] at ran
  cases found : data[offset]? with
  | none =>
      simp only [found, Prod.mk.injEq, Except.error.injEq] at ran
      rw [← ran.1]
      exact pointsFrom_eof _ _
  | some byte =>
      simp only [found] at ran
      have tail := @readHeadTail_forward data offset (offset + 1) (byte.toNat / 32)
        (byte.toNat % 32) (offset + 1) (Nat.le_refl _)
      rw [ran] at tail
      exact tail.2 failure rfl

theorem settle_points {owed : List (Option Nat)} {offset final start : Nat} {failure : CodecError}
    (settled : settle data owed offset = (.error failure, final)) : PointsFrom start failure := by
  fun_induction settle data owed offset with
  | case1 | case3 | case6 => cases settled
  | case2 offset owed ih => exact ih settled
  | case4 offset owed reason peeked =>
      cases settled
      unfold peekByte at peeked
      split at peeked
      · cases peeked
      · cases peeked
        exact pointsFrom_eof _ _
  | case5 offset owed peeked ih => exact ih settled

theorem pointsFrom_mono {start later : Nat} {failure : CodecError} (ordered : start ≤ later)
    (points : PointsFrom later failure) : PointsFrom start failure := by
  intro offset detail same
  exact Nat.le_trans ordered (points offset detail same)

theorem skipLoop_points {owed : List (Option Nat)} {offset final : Nat} {failure : CodecError}
    (returned : skipLoop data owed offset = (.error failure, final)) :
    PointsFrom offset failure := by
  fun_induction skipLoop data owed offset with
  | case1 owed offset reason after ran =>
      cases returned
      exact readHead_points ran
  | case2 owed offset head after ran reason stop settled =>
      cases returned
      exact settle_points settled
  | case3 => cases returned
  | case4 owed offset head after ran next stop settled ih =>
      have taken := (readHead_ok ran).2
      have forward := @settle_forward data (owedBy head ++ owed) after
      rw [settled] at forward
      exact pointsFrom_mono (Nat.le_trans (Nat.le_of_lt taken) forward) (ih returned)

theorem skipRest_points {owed : List (Option Nat)} {offset final : Nat} {failure : CodecError}
    (returned : skipRest data owed offset = (.error failure, final)) :
    PointsFrom offset failure := by
  unfold skipRest at returned
  split at returned
  · rename_i reason stop settled
    cases returned
    exact settle_points settled
  · cases returned
  · rename_i next stop settled
    have forward := @settle_forward data owed offset
    rw [settled] at forward
    exact pointsFrom_mono forward (skipLoop_points returned)

theorem itemRange_injective {offset : Nat} {first second : Outcome Unit}
    (same : itemRange offset first = itemRange offset second) : first = second := by
  rcases first with ⟨failure | done, after⟩
  · rcases second with ⟨failure' | done', after'⟩
    · simpa [itemRange, Except.map] using same
    · simp [itemRange, Except.map] at same
  · rcases second with ⟨failure' | done', after'⟩
    · simp [itemRange, Except.map] at same
    · simpa [itemRange, Except.map] using same

/-- The iterative walker agrees with the recursive formulation on result and offset exactly when
no break byte stands where the value of an entry of an indefinite map is due. -/
theorem skipItem_eq_reference_iff (data : Bytes) (offset : Nat) :
    skipItem data offset = skipItemReference data offset ↔ meetsValueBreak data offset = false := by
  have iterative := @skipLoop_matches data [] offset
  unfold skipItem skipItemReference meetsValueBreak
  rw [skipReferenceWithin_eq_verdict]
  cases walk : walkLoop data [] offset with
  | done final =>
      rw [walk] at iterative
      rw [show skipLoop data [] offset = _ from iterative]
      exact iff_of_true rfl rfl
  | failed failure final =>
      rw [walk] at iterative
      rw [show skipLoop data [] offset = _ from iterative]
      exact iff_of_true rfl rfl
  | valueBreak position =>
      rw [walk] at iterative
      obtain ⟨owed, continued⟩ := iterative
      apply iff_of_false _ (by simp)
      intro same
      have returned := itemRange_injective same
      have continued' : skipLoop data [] offset = skipRest data owed (position + 1) := continued
      rw [continued'] at returned
      have points := skipRest_points returned
      exact Nat.not_succ_le_self position (points position _ rfl)

/-- A map of one key and no value. -/
theorem skipItem_accepts_missing_value :
    skipItem [0xbf, 0x01, 0xff] 0 = (.ok (0, 3), 3) ∧
      skipItemReference [0xbf, 0x01, 0xff] 0 =
        (.error (.invalidCborStructure 2 "unexpected break code outside indefinite container"), 3) := by
  constructor <;> decide +kernel

end Ade.Proof.Codec
