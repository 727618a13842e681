import Mathlib

/-!
# Incremental consumers

A consumer holds the symbols that have come in and acts on them as soon as there are enough. What it
does must not depend on how the symbols are cut into chunks.
-/

namespace Ade.Library

/-- A state and what was produced on the way to it. -/
abbrev Progress (ε σ ω : Type) := Except ε (σ × List ω)

namespace Progress

variable {ε σ ω τ : Type}

def still (state : σ) : Progress ε σ ω := .ok (state, [])

/-- What comes next produces behind what was produced before. -/
def followedBy (first : Progress ε σ ω) (next : σ → Progress ε σ ω) : Progress ε σ ω :=
  match first with
  | .ok (middle, produced) => (next middle).map fun last => (last.1, produced ++ last.2)
  | .error failure => .error failure

@[simp] theorem followedBy_error (failure : ε) (next : σ → Progress ε σ ω) :
    followedBy (.error failure) next = .error failure := rfl

@[simp] theorem still_followedBy (state : σ) (next : σ → Progress ε σ ω) :
    followedBy (still state) next = next state := by
  simp only [followedBy, still]
  rcases next state with failure | ⟨last, produced⟩ <;> rfl

@[simp] theorem followedBy_still (first : Progress ε σ ω) : followedBy first still = first := by
  unfold followedBy still
  rcases first with failure | ⟨state, produced⟩ <;> simp [Except.map]

theorem followedBy_assoc (first : Progress ε σ ω) (second third : σ → Progress ε σ ω) :
    followedBy (followedBy first second) third =
      followedBy first fun state => followedBy (second state) third := by
  rcases first with failure | ⟨state, produced⟩
  · rfl
  · simp only [followedBy]
    rcases second state with failure | ⟨middle, produced'⟩
    · rfl
    · simp only [Except.map]
      rcases third middle with failure | ⟨last, produced''⟩ <;> simp [List.append_assoc]

theorem followedBy_ok {first : Progress ε σ ω} {next : σ → Progress ε σ ω} {last : σ}
    {produced : List ω} (ok : followedBy first next = .ok (last, produced)) :
    ∃ middle before after, first = .ok (middle, before) ∧ next middle = .ok (last, after) ∧
      produced = before ++ after := by
  rcases first with failure | ⟨middle, before⟩
  · cases ok
  · simp only [followedBy] at ok
    rcases reached : next middle with failure | ⟨last', after⟩
    · rw [reached] at ok
      cases ok
    · rw [reached] at ok
      cases ok
      exact ⟨middle, before, after, rfl, reached, rfl⟩

/-- One chunk after the other. -/
def feedAll (feed : σ → List τ → Progress ε σ ω) : σ → List (List τ) → Progress ε σ ω
  | state, [] => still state
  | state, chunk :: chunks => followedBy (feed state chunk) fun next => feedAll feed next chunks

/-- A chunk may be cut in two. -/
def Divisible (feed : σ → List τ → Progress ε σ ω) : Prop :=
  ∀ state first second, feed state (first ++ second) =
    followedBy (feed state first) fun next => feed next second

theorem feedAll_flatten {feed : σ → List τ → Progress ε σ ω} (divisible : Divisible feed) (state : σ)
    {chunks : List (List τ)} (some_ : chunks ≠ []) :
    feedAll feed state chunks = feed state chunks.flatten := by
  induction chunks generalizing state with
  | nil => exact absurd rfl some_
  | cons chunk chunks ih =>
      rw [List.flatten_cons, divisible, feedAll]
      cases chunks with
      | nil =>
          have last := divisible state chunk []
          rw [List.append_nil] at last
          simp only [feedAll, followedBy_still, List.flatten_nil]
          exact last
      | cons next rest =>
          congr 1
          funext middle
          exact ih middle (List.cons_ne_nil _ _)

end Progress

open Progress

/-- One action at a time, each of which takes something away. -/
structure Consumer (ε σ ω : Type) where
  act : σ → Option (Progress ε σ ω)
  size : σ → Nat
  shrinks : ∀ {state next produced}, act state = some (.ok (next, produced)) →
    size next < size state

namespace Consumer

variable {ε σ ω τ : Type} (consumer : Consumer ε σ ω)

def drainWithin : Nat → σ → Progress ε σ ω
  | 0, state => still state
  | left + 1, state =>
      match consumer.act state with
      | none => still state
      | some result => followedBy result (drainWithin left)

/-- Act until there is nothing to do. -/
def drain (state : σ) : Progress ε σ ω := consumer.drainWithin (consumer.size state + 1) state

variable {consumer}

theorem drainWithin_enough {left left' : Nat} {state : σ} (enough : consumer.size state < left)
    (enough' : consumer.size state < left') :
    consumer.drainWithin left state = consumer.drainWithin left' state := by
  induction left generalizing left' state with
  | zero => exact absurd enough (Nat.not_lt_zero _)
  | succ left ih =>
      cases left' with
      | zero => exact absurd enough' (Nat.not_lt_zero _)
      | succ left' =>
          rw [drainWithin, drainWithin]
          rcases acted : consumer.act state with _ | failure | ⟨next, produced⟩
          · rfl
          · rfl
          · have smaller := consumer.shrinks acted
            simp only [followedBy]
            rw [ih (Nat.lt_of_lt_of_le smaller (Nat.le_of_lt_succ enough))
              (Nat.lt_of_lt_of_le smaller (Nat.le_of_lt_succ enough'))]

theorem drain_idle {state : σ} (idle : consumer.act state = none) :
    consumer.drain state = still state := by
  rw [drain, drainWithin, idle]

theorem drain_act {state : σ} {result : Progress ε σ ω} (acted : consumer.act state = some result) :
    consumer.drain state = followedBy result consumer.drain := by
  rw [drain, drainWithin, acted]
  rcases result with failure | ⟨next, produced⟩
  · rfl
  · have smaller := consumer.shrinks acted
    simp only [followedBy]
    rw [drain, drainWithin_enough smaller (Nat.lt_succ_self _)]

/-- Case analysis and induction on what is left to do. -/
theorem drain_induct {holds : σ → Prop} (idle : ∀ state, consumer.act state = none → holds state)
    (fails : ∀ state failure, consumer.act state = some (.error failure) → holds state)
    (acts : ∀ state next produced, consumer.act state = some (.ok (next, produced)) → holds next →
      holds state) (state : σ) : holds state := by
  induction size : consumer.size state using Nat.strong_induction_on generalizing state with
  | _ size ih =>
      subst size
      rcases acted : consumer.act state with _ | failure | ⟨next, produced⟩
      · exact idle state acted
      · exact fails state failure acted
      · exact acts state next produced acted (ih _ (consumer.shrinks acted) next rfl)

/-- More input changes no action that can already be taken. -/
structure Stable (consumer : Consumer ε σ ω) (append : σ → List τ → σ) : Prop where
  append_append : ∀ state first second, append (append state first) second =
    append state (first ++ second)
  act_append : ∀ {state result} chunk, consumer.act state = some result →
    consumer.act (append state chunk) = some (result.map fun last => (append last.1 chunk, last.2))

variable {append : σ → List τ → σ}

theorem drain_append (stable : Stable consumer append) (state : σ) (chunk : List τ) :
    consumer.drain (append state chunk) =
      followedBy (consumer.drain state) fun next => consumer.drain (append next chunk) := by
  induction state using @drain_induct ε σ ω consumer with
  | idle state idle => rw [drain_idle idle, still_followedBy]
  | fails state failure acted =>
      rw [drain_act acted, drain_act (stable.act_append chunk acted)]
      rfl
  | acts state next produced acted ih =>
      rw [drain_act acted, drain_act (stable.act_append chunk acted), followedBy_assoc]
      simp only [Except.map, followedBy]
      rw [ih]
      rfl

/-- Chunks may be cut anywhere. -/
theorem feed_divisible (stable : Stable consumer append) :
    Divisible fun state chunk => consumer.drain (append state chunk) := by
  intro state first second
  dsimp only
  rw [← stable.append_append, drain_append stable]

end Consumer

end Ade.Library
