import Mathlib.Data.List.Basic
import Mathlib.Data.List.Pairwise
import Mathlib.Order.Defs.LinearOrder

/-! # Sliding windows

A limiter remembers when the requests of each key were admitted, and admits a request unless one of
its keys was admitted as often as its limit allows within the window that ends now.
-/

namespace RouteSmith.Control

open List

namespace SlidingWindow

variable {κ : Type*} [DecidableEq κ]

structure Request (κ : Type*) where
  now : ℕ
  keys : List κ

/-- When the requests of each key were admitted. -/
abbrev Log (κ : Type*) := κ → List ℕ

/-- The times in the window that ends now. -/
def recent (width now : ℕ) (times : List ℕ) : List ℕ := times.filter (now - width ≤ ·)

variable (limit : κ → ℕ) (width : ℕ)

/-- The key has used up its limit; a limit of zero is none. -/
def full (log : Log κ) (now : ℕ) (k : κ) : Bool :=
  0 < limit k && limit k ≤ (recent width now (log k)).length

def admits (log : Log κ) (r : Request κ) : Bool := r.keys.all fun k => !full limit width log r.now k

def next (log : Log κ) (r : Request κ) : Log κ :=
  if admits limit width log r then fun k => if k ∈ r.keys then log k ++ [r.now] else log k
  else log

/-- The log after some requests. -/
def logAfter (log : Log κ) (requests : List (Request κ)) : Log κ :=
  requests.foldl (next limit width) log

/-- The times of each key stand in order and are past. -/
def Ordered (log : Log κ) (now : ℕ) : Prop := ∀ k, (log k).Pairwise (· ≤ ·) ∧ ∀ t ∈ log k, t ≤ now

/-- No key was admitted more often than allowed in an interval as long as the window. -/
def Bounded (log : Log κ) : Prop :=
  ∀ k, 0 < limit k → ∀ t, ((log k).filter fun time => t ≤ time && time ≤ t + width).length ≤ limit k

variable {limit width} {log : Log κ} {r : Request κ}

omit [DecidableEq κ] in
theorem Ordered.mono {now later : ℕ} (h : Ordered log now) (hle : now ≤ later) :
    Ordered log later :=
  fun k => ⟨(h k).1, fun t ht => Nat.le_trans ((h k).2 t ht) hle⟩

theorem Ordered.next (h : Ordered log r.now) : Ordered (next limit width log r) r.now := by
  unfold SlidingWindow.next
  split_ifs
  · intro k
    dsimp only
    split_ifs
    · refine ⟨pairwise_append.mpr ⟨(h k).1, pairwise_singleton _ _, fun t ht => ?_⟩,
        forall_mem_append.mpr ⟨(h k).2, forall_mem_singleton.mpr (Nat.le_refl _)⟩⟩
      exact forall_mem_singleton.mpr ((h k).2 t ht)
    · exact h k
  · exact h

/-- An interval that holds the present lies in the window before it. -/
theorem Bounded.next (h : Bounded limit width log) :
    Bounded limit width (next limit width log r) := by
  intro k hlimit t
  unfold SlidingWindow.next
  split_ifs with hadmits
  · dsimp only
    split_ifs with hk
    · rw [filter_append, length_append]
      by_cases hnow : t ≤ r.now ∧ r.now ≤ t + width
      · have hfree : (recent width r.now (log k)).length < limit k := by
          have hfull := all_eq_true.mp hadmits k hk
          simp only [full, Bool.not_eq_true', Bool.and_eq_false_imp, decide_eq_true_eq,
            decide_eq_false_iff_not, Nat.not_le] at hfull
          exact hfull hlimit
        have hsub : ((log k).filter fun time => t ≤ time && time ≤ t + width).length ≤
            (recent width r.now (log k)).length := by
          refine (monotone_filter_right _ fun time htime => ?_).length_le
          simp only [Bool.and_eq_true, decide_eq_true_eq] at htime ⊢
          omega
        have hone := length_filter_le (fun time => t ≤ time && time ≤ t + width) [r.now]
        simp only [length_singleton] at hone
        omega
      · have hnone : ([r.now].filter fun time => t ≤ time && time ≤ t + width) = [] := by
          simpa using hnow
        rw [hnone]
        exact h k hlimit t
    · exact h k hlimit t
  · exact h k hlimit t

/-- No interval as long as the window holds more admitted requests of a key than its limit. -/
theorem bounded_logAfter (h : Bounded limit width log) (requests : List (Request κ)) :
    Bounded limit width (logAfter limit width log requests) := by
  induction requests generalizing log with
  | nil => exact h
  | cons _ _ ih => exact ih h.next

/-! ## Windows as lists in order -/

theorem dropWhile_eq_filter {times : List ℕ} (h : times.Pairwise (· ≤ ·)) (start : ℕ) :
    times.dropWhile (· < start) = times.filter (start ≤ ·) := by
  induction times with
  | nil => rfl
  | cons t times ih =>
    obtain ⟨hle, hrest⟩ := pairwise_cons.mp h
    by_cases ht : t < start
    · rw [dropWhile_cons_of_pos (by simpa using ht), filter_cons_of_neg (by simpa using ht),
        ih hrest]
    · rw [dropWhile_cons_of_neg (by simpa using ht), filter_eq_self.mpr]
      exact forall_mem_cons.mpr ⟨by simpa using ht,
        fun u hu => decide_eq_true (Nat.le_trans (Nat.not_lt.mp ht) (hle u hu))⟩

theorem dropWhile_filter {times : List ℕ} (h : times.Pairwise (· ≤ ·)) {start later : ℕ}
    (hle : start ≤ later) :
    (times.filter (start ≤ ·)).dropWhile (· < later) = times.filter (later ≤ ·) := by
  rw [dropWhile_eq_filter (h.sublist filter_sublist), filter_filter]
  refine filter_congr fun t _ => ?_
  simp only [Bool.and_eq_decide, decide_eq_decide, decide_eq_true_eq]
  omega

omit [DecidableEq κ] in
/-- A key that is at its limit later is so now, and its oldest time is still in the window. -/
theorem full_later (hbounded : Bounded limit width log) {now later : ℕ} (hlog : Ordered log now)
    (hle : now ≤ later) {k : κ} :
    full limit width log later k ↔ full limit width log now k ∧
      ∃ oldest ∈ (recent width now (log k)).head?, later ≤ oldest + width := by
  have hlater : recent width later (log k) =
      (recent width now (log k)).dropWhile (· < later - width) :=
    (dropWhile_filter (hlog k).1 (Nat.sub_le_sub_right hle _)).symm
  have hmost : 0 < limit k → (recent width now (log k)).length ≤ limit k := by
    intro hpos
    convert hbounded k hpos (now - width) using 2
    refine filter_congr fun t ht => ?_
    have hpast := (hlog k).2 t ht
    simp only [Bool.eq_self_and, decide_eq_true_eq]
    omega
  simp only [full, hlater, Bool.and_eq_true, decide_eq_true_eq]
  cases hrecent : recent width now (log k) with
  | nil =>
    simp
    omega
  | cons oldest rest =>
    rw [hrecent, length_cons] at hmost
    by_cases hold : oldest < later - width
    · have hrest := (dropWhile_sublist (l := rest) (· < later - width)).length_le
      rw [dropWhile_cons_of_pos (by simpa using hold)]
      refine iff_of_false (fun h => ?_) fun h => ?_
      · have := hmost h.1
        omega
      · simp at h
        omega
    · rw [dropWhile_cons_of_neg (by simpa using hold)]
      simp
      omega

end SlidingWindow

end RouteSmith.Control
