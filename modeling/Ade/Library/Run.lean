import Mathlib

/-! # Runs of a labelled transition relation -/

namespace Ade.Library

variable {σ ι : Type}

inductive Run (step : σ → ι → σ → Prop) : σ → List ι → σ → Prop
  | nil (state : σ) : Run step state [] state
  | cons {before middle after : σ} {label : ι} {labels : List ι}
      (head : step before label middle) (tail : Run step middle labels after) :
      Run step before (label :: labels) after

namespace Run

variable {step : σ → ι → σ → Prop} {before after : σ} {labels : List ι}

theorem invariant {holds : σ → Prop}
    (preserved : ∀ state label next, step state label next → holds state → holds next)
    (run : Run step before labels after) (initially : holds before) : holds after := by
  induction run with
  | nil => exact initially
  | cons head tail ih => exact ih (preserved _ _ _ head initially)

theorem append {middle : σ} {earlier later : List ι} (first : Run step before earlier middle)
    (rest : Run step middle later after) : Run step before (earlier ++ later) after := by
  induction first with
  | nil => exact rest
  | cons head _ ih => exact .cons head (ih rest)

theorem of_append {earlier later : List ι} (run : Run step before (earlier ++ later) after) :
    ∃ middle, Run step before earlier middle ∧ Run step middle later after := by
  induction earlier generalizing before with
  | nil => exact ⟨before, .nil before, run⟩
  | cons label earlier ih =>
      cases run with
      | cons head tail =>
          obtain ⟨middle, first, rest⟩ := ih tail
          exact ⟨middle, .cons head first, rest⟩

end Run

/-! ## Machines that answer -/

section
variable {τ ω : Type}

/-- The last state, and the answer to each input. -/
def answers (step : σ → ι → σ × ω) : σ → List ι → σ × List ω
  | state, [] => (state, [])
  | state, input :: inputs =>
      let (next, answer) := step state input
      let (last, rest) := answers step next inputs
      (last, answer :: rest)

theorem answers_append (step : σ → ι → σ × ω) (state : σ) (earlier later : List ι) :
    (answers step state (earlier ++ later)).1 =
      (answers step (answers step state earlier).1 later).1 := by
  induction earlier generalizing state with
  | nil => rfl
  | cons input earlier ih => exact ih _

/-- Related machines that answer alike at each step answer alike. -/
theorem answers_related {step : σ → ι → σ × ω} {step' : τ → ι → τ × ω} {related : σ → τ → Prop}
    (simulated : ∀ state state' input, related state state' →
      related (step state input).1 (step' state' input).1 ∧
        (step state input).2 = (step' state' input).2)
    {state : σ} {state' : τ} (initially : related state state') (inputs : List ι) :
    related (answers step state inputs).1 (answers step' state' inputs).1 ∧
      (answers step state inputs).2 = (answers step' state' inputs).2 := by
  induction inputs generalizing state state' with
  | nil => exact ⟨initially, rfl⟩
  | cons input inputs ih =>
      obtain ⟨next, same⟩ := simulated state state' input initially
      obtain ⟨last, rest⟩ := ih next
      exact ⟨last, congrArg₂ List.cons same rest⟩

end

end Ade.Library
