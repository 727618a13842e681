import Mathlib

/-! # Loops that may fail -/

namespace Ade.Library

theorem bind_ok {ε α β : Type} {x : Except ε α} {f : α → Except ε β} {result : β}
    (returned : (x >>= f) = .ok result) : ∃ value, x = .ok value ∧ f value = .ok result := by
  cases x with
  | error failure => cases returned
  | ok value => exact ⟨value, rfl, returned⟩

theorem bind_eq_ok {ε α β : Type} {x : Except ε α} {f : α → Except ε β} {result : β} :
    (x >>= f) = .ok result ↔ ∃ value, x = .ok value ∧ f value = .ok result := by
  refine ⟨bind_ok, ?_⟩
  rintro ⟨value, rfl, returned⟩
  exact returned

theorem map_ok {ε α β : Type} {x : Except ε α} {f : α → β} {result : β}
    (returned : x.map f = .ok result) : ∃ value, x = .ok value ∧ f value = result := by
  cases x with
  | error failure => cases returned
  | ok value => exact ⟨value, rfl, Except.ok.inj returned⟩

theorem mapError_ok {ε ε' α : Type} {x : Except ε α} {f : ε → ε'} {value : α}
    (returned : x.mapError f = .ok value) : x = .ok value := by
  cases x with
  | error failure => cases returned
  | ok result =>
      cases returned
      rfl

theorem mapError_eq_ok {ε ε' α : Type} {x : Except ε α} {f : ε → ε'} {value : α} :
    x.mapError f = .ok value ↔ x = .ok value := by
  refine ⟨mapError_ok, ?_⟩
  rintro rfl
  rfl

theorem foldlM_invariant {σ ι ε : Type} {step : σ → ι → Except ε σ} {items : List ι}
    {holds : σ → Prop} {state last : σ}
    (preserved : ∀ before item after, item ∈ items → step before item = .ok after →
      holds before → holds after)
    (ran : items.foldlM step state = .ok last) (initially : holds state) : holds last := by
  induction items generalizing state with
  | nil =>
      cases ran
      exact initially
  | cons item items ih =>
      rw [List.foldlM_cons] at ran
      obtain ⟨next, stepped, rest⟩ := bind_ok ran
      apply ih _ rest (preserved state item next (List.mem_cons_self ..) stepped initially)
      exact fun before other after member => preserved before other after
        (List.mem_cons_of_mem _ member)

/-- A run simulates another one where each of its steps does. -/
theorem foldlM_simulates {σ τ ι κ ε : Type} {step : σ → ι → Except ε σ} {simple : τ → κ → Except ε τ}
    {view : σ → τ} {label : ι → κ} {holds : σ → Prop}
    (simulates : ∀ state item, holds state →
      (step state item).map view = simple (view state) (label item))
    (preserved : ∀ state item next, step state item = .ok next → holds state → holds next)
    (items : List ι) {state : σ} (initially : holds state) :
    (items.foldlM step state).map view = (items.map label).foldlM simple (view state) := by
  induction items generalizing state with
  | nil => rfl
  | cons item items ih =>
      have first := simulates state item initially
      rw [List.map_cons, List.foldlM_cons, List.foldlM_cons, ← first]
      cases taken : step state item with
      | error failure => rfl
      | ok next => exact ih (preserved state item next taken initially)

/-- A loop whose steps never fail in a certain way does not fail that way. -/
theorem foldlM_ne_error {σ ι ε : Type} {step : σ → ι → Except ε σ} {items : List ι} {failure : ε}
    (avoids : ∀ state, ∀ item ∈ items, step state item ≠ .error failure) (state : σ) :
    items.foldlM step state ≠ .error failure := by
  induction items generalizing state with
  | nil => exact fun failed => by cases failed
  | cons item items ih =>
      rw [List.foldlM_cons]
      cases stepped : step state item with
      | error other =>
          intro failed
          exact avoids state item (List.mem_cons_self ..) (stepped.trans failed)
      | ok next => exact ih (fun state other member =>
          avoids state other (List.mem_cons_of_mem _ member)) next

theorem forM_ok {ι ε : Type} {check : ι → Except ε Unit} {items : List ι}
    (passes : ∀ item ∈ items, check item = .ok ()) : items.forM check = .ok () := by
  induction items with
  | nil => rfl
  | cons item items ih =>
      rw [List.forM_eq_forM, List.forM_cons, passes item (List.mem_cons_self ..)]
      exact ih fun other member => passes other (List.mem_cons_of_mem _ member)

theorem of_forM_ok {ι ε : Type} {check : ι → Except ε Unit} {items : List ι}
    (passed : items.forM check = .ok ()) : ∀ item ∈ items, check item = .ok () := by
  induction items with
  | nil => simp
  | cons item items ih =>
      rw [List.forM_eq_forM, List.forM_cons] at passed
      obtain ⟨done, first, rest⟩ := bind_ok passed
      intro other member
      rcases List.mem_cons.mp member with rfl | member
      · exact first
      · exact ih rest other member

theorem mapM_ok {ι ε β : Type} {f : ι → Except ε β} (g : ι → β) (items : List ι)
    (returns : ∀ item ∈ items, f item = .ok (g item)) : items.mapM f = .ok (items.map g) := by
  induction items with
  | nil => rfl
  | cons item items ih =>
      rw [List.mapM_cons, returns item (List.mem_cons_self ..),
        ih fun other member => returns other (List.mem_cons_of_mem _ member)]
      rfl

theorem forall₂_of_mapM_ok {ι ε β : Type} {f : ι → Except ε β} {items : List ι} {results : List β}
    (ran : items.mapM f = .ok results) :
    List.Forall₂ (fun item result => f item = .ok result) items results := by
  induction items generalizing results with
  | nil =>
      cases ran
      exact .nil
  | cons item items ih =>
      rw [List.mapM_cons] at ran
      obtain ⟨first, applied, ran⟩ := bind_ok ran
      obtain ⟨rest, mapped, returned⟩ := bind_ok ran
      cases returned
      exact .cons applied (ih mapped)

/-! ## What a computation may raise -/

def Raises {ε α : Type} (allowed : ε → Prop) (x : Except ε α) : Prop :=
  ∀ failure, x = .error failure → allowed failure

namespace Raises

variable {ε α β : Type} {allowed : ε → Prop}

theorem ok (value : α) : Raises allowed (.ok value : Except ε α) := by
  intro failure failed
  cases failed

theorem error {failure : ε} (permitted : allowed failure) :
    Raises allowed (.error failure : Except ε α) := by
  intro other failed
  cases failed
  exact permitted

theorem bind_of_ok {x : Except ε α} {f : α → Except ε β} (first : Raises allowed x)
    (rest : ∀ value, x = .ok value → Raises allowed (f value)) : Raises allowed (x >>= f) := by
  cases x with
  | error failure => exact error (first failure rfl)
  | ok value => exact rest value rfl

theorem bind {x : Except ε α} {f : α → Except ε β} (first : Raises allowed x)
    (rest : ∀ value, Raises allowed (f value)) : Raises allowed (x >>= f) :=
  bind_of_ok first fun value _ => rest value

theorem map {x : Except ε α} {f : α → β} (raised : Raises allowed x) :
    Raises allowed (x.map f) := by
  cases x with
  | error failure => exact error (raised failure rfl)
  | ok value => exact ok (f value)

theorem foldlM {σ ι : Type} {step : σ → ι → Except ε σ} (items : List ι)
    (each : ∀ state item, Raises allowed (step state item)) (state : σ) :
    Raises allowed (items.foldlM step state) := by
  induction items generalizing state with
  | nil => exact ok state
  | cons item items ih =>
      rw [List.foldlM_cons]
      exact bind (each state item) ih

theorem forM {ι : Type} {check : ι → Except ε Unit} (items : List ι)
    (each : ∀ item, Raises allowed (check item)) : Raises allowed (items.forM check) := by
  induction items with
  | nil => exact ok ()
  | cons item items ih =>
      rw [List.forM_eq_forM, List.forM_cons]
      exact bind (each item) fun _ => ih

theorem mapM {ι : Type} {f : ι → Except ε β} (items : List ι)
    (each : ∀ item, Raises allowed (f item)) : Raises allowed (items.mapM f) := by
  induction items with
  | nil => exact ok []
  | cons item items ih =>
      rw [List.mapM_cons]
      exact bind (each item) fun first => bind ih fun rest => ok (first :: rest)

end Raises

end Ade.Library
