import Mathlib.Algebra.GroupWithZero.Nat
import RouteSmith.Store.NameMap

/-! # Counters by name -/

namespace RouteSmith.Store

/-- How many of something each name has. A name that does not occur has none. -/
abbrev Counters := NameMap ℕ

namespace Counters

variable (m : Counters) (k : String)

def count : ℕ := (m.lookup k).getD 0

def total : ℕ := (NameMap.values m).sum

/-- The counters with an entry for the name. -/
def orDefault : Counters := if k ∈ m then m else m.insert k 0

def raise : Counters := m.insert k (m.count k + 1)

/-- One less for the name; an entry that comes to nothing goes. -/
def lower : Counters :=
  match m.lookup k with
  | none => m
  | some n => if n - 1 = 0 then m.erase k else m.insert k (n - 1)

@[simp] theorem count_empty : count ∅ k = 0 := by simp [count]

theorem count_insert (n : ℕ) (k' : String) :
    count (m.insert k n) k' = if k' = k then n else m.count k' := by
  by_cases h : k' = k
  · subst h
    simp [count]
  · simp [count, h]

@[simp] theorem count_orDefault (k' : String) : (m.orDefault k).count k' = m.count k' := by
  rw [orDefault]
  split_ifs with h
  · rfl
  · rw [count_insert]
    split_ifs with hk
    · rw [hk, count, AList.lookup_eq_none.mpr h]
      rfl
    · rfl

theorem count_raise (k' : String) :
    (m.raise k).count k' = m.count k' + if k' = k then 1 else 0 := by
  rw [raise, count_insert]
  split_ifs with h
  · rw [h]
  · rfl

theorem count_lower (k' : String) :
    (m.lower k).count k' = m.count k' - if k' = k then 1 else 0 := by
  by_cases hk : k' = k
  · subst hk
    rw [lower]
    cases h : m.lookup k' with
    | none => simp [count, h]
    | some n =>
      by_cases hn : n - 1 = 0
      · simp [count, h, hn]
      · simp [count, h, hn]
  · rw [lower, if_neg hk]
    cases h : m.lookup k with
    | none => rfl
    | some n =>
      by_cases hn : n - 1 = 0
      · simp [count, hn, AList.lookup_erase_ne hk]
      · simp only [hn, if_false, count_insert, if_neg hk]
        rfl

end Counters

end RouteSmith.Store
