import Mathlib.Order.Basic

/-! # Loops with an early exit

A loop body either asks for another iteration or ends the loop with a result. Fuel bounds
the number of iterations; a measure that every iteration lowers says how much is enough.
-/

namespace RouteSmith.Control

inductive Flow (σ ρ : Type*) where
  | next (s : σ)
  | done (r : ρ)

section

variable {σ ρ : Type*} {body : σ → Flow σ ρ} {s t : σ}

/-- Run the body until it ends the loop, for at most `fuel` iterations. -/
def iterate (body : σ → Flow σ ρ) : (fuel : ℕ) → σ → Option ρ
  | 0, _ => none
  | fuel + 1, s =>
    match body s with
    | .next s => iterate body fuel s
    | .done r => some r

/-- The states a loop started in `s` enters an iteration with. -/
inductive Enters (body : σ → Flow σ ρ) (s : σ) : σ → Prop where
  | refl : Enters body s s
  | next {t u : σ} : Enters body s t → body t = .next u → Enters body s u

theorem Enters.head {u : σ} (hstep : body s = .next u) (h : Enters body u t) :
    Enters body s t := by
  induction h with
  | refl => exact .next .refl hstep
  | next _ hnext ih => exact ih.next hnext

theorem enters_iff_of_next {u : σ} (hstep : body s = .next u) :
    Enters body s t ↔ t = s ∨ Enters body u t := by
  constructor
  · intro h
    induction h with
    | refl => exact .inl rfl
    | next _ hnext ih =>
      rcases ih with rfl | ih
      · cases hstep.symm.trans hnext
        exact .inr .refl
      · exact .inr (ih.next hnext)
  · rintro (rfl | h)
    · exact .refl
    · exact h.head hstep

theorem enters_iff_of_done {r : ρ} (hstep : body s = .done r) : Enters body s t ↔ t = s := by
  constructor
  · intro h
    induction h with
    | refl => rfl
    | next _ hnext ih =>
      cases ih
      cases hstep.symm.trans hnext
  · rintro rfl
    exact .refl

/-- A property of the first state that every iteration keeps holds at every iteration. -/
theorem Enters.invariant {I : σ → Prop} (h : Enters body s t) (hs : I s)
    (hstep : ∀ t u, Enters body s t → I t → body t = .next u → I u) : I t := by
  induction h with
  | refl => exact hs
  | next ht hnext ih => exact hstep _ _ ht ih hnext

theorem exists_done_of_iterate {fuel : ℕ} {r : ρ} (h : iterate body fuel s = some r) :
    ∃ t, Enters body s t ∧ body t = .done r := by
  induction fuel generalizing s with
  | zero => cases h
  | succ fuel ih =>
    rw [iterate] at h
    split at h
    · next u hstep =>
      obtain ⟨t, ht, hdone⟩ := ih h
      exact ⟨t, ht.head hstep, hdone⟩
    · next r' hstep =>
      cases h
      exact ⟨s, .refl, hstep⟩

theorem exists_iterate_eq_some (m : σ → ℕ)
    (hdec : ∀ t u, body t = .next u → m u < m t) {fuel : ℕ} (hfuel : m s < fuel) :
    ∃ r, iterate body fuel s = some r := by
  induction fuel generalizing s with
  | zero => omega
  | succ fuel ih =>
    rw [iterate]
    split
    · next u hstep =>
      have := hdec _ _ hstep
      exact ih (by omega)
    · next r _ => exact ⟨r, rfl⟩

end

/-! ## What a loop logs -/

/-- The state an iteration leaves, in a loop that ends in a state. -/
def Flow.state {σ : Type*} : Flow σ σ → σ
  | next s => s
  | done s => s

/-- A loop whose iterations each append to a log has logged, in the end, what the iterations
it entered have appended. -/
theorem mem_log_iff {σ τ : Type*} {body : σ → Flow σ σ} {log emit : σ → List τ}
    (hlog : ∀ t, log (body t).state = log t ++ emit t) {fuel : ℕ} {s r : σ} {x : τ}
    (h : iterate body fuel s = some r) :
    x ∈ log r ↔ x ∈ log s ∨ ∃ t, Enters body s t ∧ x ∈ emit t := by
  induction fuel generalizing s with
  | zero => cases h
  | succ fuel ih =>
    have hs := hlog s
    rw [iterate] at h
    split at h
    · next u hstep =>
      rw [hstep] at hs
      simp only [Flow.state] at hs
      rw [ih h, hs, List.mem_append, or_assoc]
      simp [enters_iff_of_next hstep]
    · next r' hstep =>
      cases h
      rw [hstep] at hs
      simp only [Flow.state] at hs
      rw [hs]
      simp [enters_iff_of_done hstep]

end RouteSmith.Control
