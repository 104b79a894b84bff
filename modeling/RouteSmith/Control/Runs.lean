import Mathlib.Logic.Function.Basic
import Mathlib.Data.Nat.Init
import Mathlib.Order.Defs.LinearOrder

/-! # Runs of a machine

A machine takes actions one after the other. What a run preserves follows from what one action
preserves, if need be under a condition on the state that the action is taken in.
-/

namespace RouteSmith.Control

section

variable {σ α : Type*} {step : σ → α → σ} {C : σ → α → Prop} {I : σ → Prop} {s : σ}
  {actions : List α}

/-- The state after a run. -/
def runs (step : σ → α → σ) (s : σ) (actions : List α) : σ := actions.foldl step s

/-- Every action of a run meets a condition in the state that it is taken in. -/
def Meets (step : σ → α → σ) (C : σ → α → Prop) : σ → List α → Prop
  | _, [] => True
  | s, a :: actions => C s a ∧ Meets step C (step s a) actions

theorem runs_cons (a : α) : runs step s (a :: actions) = runs step (step s a) actions := rfl

theorem runs_append (more : List α) :
    runs step s (actions ++ more) = runs step (runs step s actions) more :=
  List.foldl_append

theorem meets_append (more : List α) : Meets step C s (actions ++ more) ↔
      Meets step C s actions ∧ Meets step C (runs step s actions) more := by
  induction actions generalizing s with
  | nil => exact (iff_of_eq (true_and _)).symm
  | cons _ _ ih => exact (and_congr_right fun _ => ih).trans and_assoc.symm

theorem runs_invariant_of_meets (hstep : ∀ s a, C s a → I s → I (step s a))
    (hmeets : Meets step C s actions) (h : I s) : I (runs step s actions) := by
  induction actions generalizing s with
  | nil => exact h
  | cons a _ ih => exact ih hmeets.2 (hstep s a hmeets.1 h)

theorem runs_invariant (hstep : ∀ s a, I s → I (step s a)) (h : I s) : I (runs step s actions) := by
  induction actions generalizing s with
  | nil => exact h
  | cons a _ ih => exact ih (hstep s a h)

/-! ## Runs without end -/

/-- The state after some actions of a run that goes on for ever. -/
def path (step : σ → α → σ) (s : σ) (actions : ℕ → α) : ℕ → σ
  | 0 => s
  | k + 1 => step (path step s actions k) (actions k)

/-- Every action of a run without end meets a condition in the state that it is taken in. -/
def MeetsForever (step : σ → α → σ) (C : σ → α → Prop) (s : σ) (actions : ℕ → α) : Prop :=
  ∀ k, C (path step s actions k) (actions k)

variable {J : σ → Prop} {plan : ℕ → α} {m : ℕ}

/-- What each action keeps or ends for a goal is kept until the goal is reached. -/
theorem path_unless (hstep : ∀ s a, C s a → I s → J (step s a) ∨ I (step s a))
    (hmeets : MeetsForever step C s plan) (h : I (path step s plan m)) {k : ℕ} (hk : m ≤ k) :
    (∃ l, m ≤ l ∧ J (path step s plan l)) ∨ I (path step s plan k) := by
  induction k, hk using Nat.le_induction with
  | base => exact .inr h
  | succ k hk ih =>
    rcases ih with hgoal | hk'
    · exact .inl hgoal
    · rcases hstep _ _ (hmeets k) hk' with hgoal | hkept
      · exact .inl ⟨k + 1, by omega, hgoal⟩
      · exact .inr hkept

/-- If a rank never rises and falls with every turn, a run that takes turns again and again reaches
its goal. -/
theorem path_leadsTo (rank : σ → ℕ) (turn : α → Prop) (hstep : ∀ s a, C s a → I s → J (step s a) ∨
      I (step s a) ∧ rank (step s a) ≤ rank s ∧ (turn a → rank (step s a) < rank s))
    (hmeets : MeetsForever step C s plan) (hfair : ∀ m, ∃ k, m ≤ k ∧ turn (plan k))
    (h : I (path step s plan m)) : ∃ l, m ≤ l ∧ J (path step s plan l) := by
  induction hrank : rank (path step s plan m) using Nat.strongRecOn generalizing m with
  | _ r ih =>
    obtain ⟨k, hmk, hturn⟩ := hfair m
    have hbelow := path_unless (I := fun t => I t ∧ rank t ≤ r) (J := J) (fun t a hC ht => by
      rcases hstep t a hC ht.1 with hgoal | ⟨hkept, hle, -⟩
      · exact .inl hgoal
      · exact .inr ⟨hkept, Nat.le_trans hle ht.2⟩) hmeets ⟨h, Nat.le_of_eq hrank⟩ hmk
    rcases hbelow with hgoal | ⟨hk, hle⟩
    · exact hgoal
    · rcases hstep _ _ (hmeets k) hk with hgoal | ⟨hkept, -, hlt⟩
      · exact ⟨k + 1, by omega, hgoal⟩
      · have hnext : I (path step s plan (k + 1)) := hkept
        obtain ⟨l, hl, hgoal⟩ := ih _ (Nat.lt_of_lt_of_le (hlt hturn) hle) hnext rfl
        exact ⟨l, by omega, hgoal⟩

end

end RouteSmith.Control
