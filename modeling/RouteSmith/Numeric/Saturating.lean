import Mathlib.Algebra.Group.Defs
import Mathlib.Algebra.Group.Nat.Defs
import Mathlib.Order.MinMax

/-! # Saturating counters -/

namespace RouteSmith.Numeric

/-- A counter that holds at most `max` and stays there when a sum exceeds it. -/
@[ext] structure Saturating (max : ℕ) where
  val : ℕ
  le_max : val ≤ max
  deriving DecidableEq

namespace Saturating

variable {max : ℕ}

/-- The counter nearest to `n`. -/
def ofNat (max n : ℕ) : Saturating max := ⟨min n max, min_le_right n max⟩

instance : Zero (Saturating max) := ⟨⟨0, Nat.zero_le max⟩⟩

instance : Inhabited (Saturating max) := ⟨0⟩

instance : Add (Saturating max) := ⟨fun a b => ofNat max (a.val + b.val)⟩

@[simp] theorem val_zero : (0 : Saturating max).val = 0 := rfl

@[simp] theorem val_add (a b : Saturating max) : (a + b).val = min (a.val + b.val) max := rfl

/-- Saturating addition loses the excess, never the order of the summands. -/
instance : AddCommMonoid (Saturating max) where
  add_assoc a b c := by
    ext
    simp only [val_add]
    omega
  zero_add a := by
    ext
    have := a.le_max
    simp only [val_add, val_zero]
    omega
  add_zero a := by
    ext
    have := a.le_max
    simp only [val_add, val_zero]
    omega
  add_comm a b := by
    ext
    simp only [val_add]
    omega
  nsmul := nsmulRec

instance : Max (Saturating max) := ⟨fun a b => if a.val ≤ b.val then b else a⟩

/-- Subtraction that stops at zero. -/
instance : Sub (Saturating max) :=
  ⟨fun a b => ⟨a.val - b.val, (Nat.sub_le a.val b.val).trans a.le_max⟩⟩

end Saturating

/-- The source's `u64`, in the places where its additions saturate. -/
abbrev U64 := Saturating (2 ^ 64 - 1)

end RouteSmith.Numeric
