import Mathlib.Data.List.AList
import Mathlib.Algebra.BigOperators.Group.List.Basic
import Mathlib.Algebra.Group.Prod
import Mathlib.Algebra.Order.BigOperators.Group.List
import Mathlib.Tactic.Abel

/-! # Row stores

A store maps keys to rows, with the row type depending on the key, so that one store
holds all the tables of a database. A write set is a store as well; laid over a
committed store by `∪` it gives what its owner sees.
-/

namespace RouteSmith.Store

open List

variable {K : Type*} {β : K → Type*} {M : Type*} [AddCommGroup M]

/-- The total of a measure over all the rows of a store. -/
def sumBy (f : ∀ k, β k → M) (s : AList β) : M :=
  (s.entries.map fun e => f e.1 e.2).sum

/-- The measure of a row that may be absent. -/
def measure (f : ∀ k, β k → M) (k : K) (row : Option (β k)) : M :=
  row.elim 0 (f k)

@[simp] theorem measure_none (f : ∀ k, β k → M) (k : K) : measure f k none = 0 := rfl

@[simp] theorem measure_some (f : ∀ k, β k → M) (k : K) (row : β k) :
    measure f k (some row) = f k row := rfl

variable {k : K} {s s' w : AList β}

variable {f : ∀ k, β k → M} {row : β k} {u : AList β} {k' : K}

theorem measure_eq_zero (hf : ∀ row, f k row = 0) (row : Option (β k)) : measure f k row = 0 := by
  cases row with
  | none => rfl
  | some row => exact hf row

@[simp] theorem sumBy_empty (f : ∀ k, β k → M) : sumBy f (∅ : AList β) = 0 := rfl

theorem sumBy_sub (f g : ∀ k, β k → M) (s : AList β) :
    sumBy (fun k row => f k row - g k row) s = sumBy f s - sumBy g s := by
  unfold sumBy
  induction s.entries with
  | nil => simp
  | cons e l ih =>
    simp only [map_cons, sum_cons, ih]
    abel

theorem sumBy_prodMk {N : Type*} [AddCommGroup N] (f : ∀ k, β k → M) (g : ∀ k, β k → N)
    (s : AList β) : sumBy (fun k row => (f k row, g k row)) s = (sumBy f s, sumBy g s) := by
  unfold sumBy
  induction s.entries with
  | nil => rfl
  | cons e l ih => simp only [map_cons, sum_cons, ih, Prod.mk_add_mk]

variable [DecidableEq K]

/-- The change of the total when the write set `w` is laid over `s`. -/
def deltaBy (f : ∀ k, β k → M) (w s : AList β) : M :=
  (w.entries.map fun e => f e.1 e.2 - measure f e.1 (s.lookup e.1)).sum

@[simp] theorem deltaBy_empty (f : ∀ k, β k → M) (s : AList β) : deltaBy f ∅ s = 0 := rfl

@[simp] theorem deltaBy_singleton (f : ∀ k, β k → M) (k : K) (row : β k) (s : AList β) :
    deltaBy f (AList.singleton k row) s = f k row - measure f k (s.lookup k) := by
  simp [deltaBy]

theorem deltaBy_singleton_eq_zero (hf : ∀ row, f k row = 0) (row : β k) (s : AList β) :
    deltaBy f (.singleton k row) s = 0 := by
  rw [deltaBy_singleton, hf, measure_eq_zero hf, sub_zero]

/-- A measure that vanishes at all keys but one is measured at that key. -/
theorem sumBy_eq_measure (hf : ∀ k' row, k' ≠ k → f k' row = 0) (s : AList β) :
    sumBy f s = measure f k (s.lookup k) := by
  obtain ⟨l, hl⟩ := s
  change (l.map fun e => f e.1 e.2).sum = measure f k (dlookup k l)
  induction l with
  | nil => rfl
  | cons e l ih =>
    obtain ⟨he, hl⟩ := nodupKeys_cons.mp hl
    rw [map_cons, sum_cons, ih hl]
    by_cases hk : k = e.1
    · cases hk
      rw [dlookup_cons_eq, dlookup_eq_none.mpr he]
      simp
    · rw [hf _ _ (symm hk), dlookup_cons_ne _ _ hk, zero_add]

/-- One row of a nonnegative measure is no more than the total. -/
theorem le_sumBy {N : Type*} [AddCommGroup N] [Preorder N] [IsOrderedAddMonoid N] {f : ∀ k, β k → N}
    (hf : ∀ k row, s.lookup k = some row → 0 ≤ f k row) (h : s.lookup k = some row) :
    f k row ≤ sumBy f s := by
  have hmem := AList.mem_lookup_iff.mp h
  refine single_le_sum (fun x hx => ?_) _ (mem_map_of_mem hmem)
  obtain ⟨e, he, rfl⟩ := mem_map.mp hx
  exact hf _ _ (AList.mem_lookup_iff.mpr he)

/-! ## Totals of a union -/

theorem sum_kerase (f : ∀ k, β k → M) (k : K) (l : List (Sigma β)) :
    ((kerase k l).map fun e => f e.1 e.2).sum =
      (l.map fun e => f e.1 e.2).sum - measure f k (dlookup k l) := by
  induction l with
  | nil => simp
  | cons e l ih =>
    by_cases h : k = e.1
    · obtain ⟨a, _⟩ := e
      cases h
      simp [kerase_cons_eq]
    · rw [kerase_cons_ne h, map_cons, sum_cons, ih,
        dlookup_cons_ne _ _ h]
      simp [add_sub_assoc]

theorem sum_kunion (f : ∀ k, β k → M) (l s : List (Sigma β)) (hl : l.NodupKeys) :
    ((kunion l s).map fun e => f e.1 e.2).sum = (s.map fun e => f e.1 e.2).sum +
        (l.map fun e => f e.1 e.2 - measure f e.1 (dlookup e.1 s)).sum := by
  induction l generalizing s with
  | nil => simp
  | cons e l ih =>
    obtain ⟨he, hl⟩ := nodupKeys_cons.mp hl
    rw [kunion_cons, map_cons, sum_cons, ih _ hl, sum_kerase]
    -- the rows of the tail lie at other keys, where erasing `e.1` changes nothing
    have htail : (l.map fun e' => f e'.1 e'.2 -
          measure f e'.1 (dlookup e'.1 (kerase e.1 s))) =
        l.map fun e' => f e'.1 e'.2 - measure f e'.1 (dlookup e'.1 s) := by
      refine map_congr_left fun e' he' => ?_
      have hne : e'.1 ≠ e.1 := fun h => he (h ▸ mem_keys_of_mem he')
      rw [dlookup_kerase_ne hne]
    rw [htail]
    simp only [map_cons, sum_cons]
    abel

theorem sumBy_union (f : ∀ k, β k → M) (w s : AList β) :
    sumBy f (w ∪ s) = sumBy f s + deltaBy f w s :=
  sum_kunion f _ _ w.nodupKeys

/-! ## Write sets seen from outside -/

/-- What `s` may become while the keys of `w` are held: the rows there stay as they are, and
no row disappears. -/
structure Evolves (w s s' : AList β) : Prop where
  lookup_eq : ∀ k ∈ w, s'.lookup k = s.lookup k
  mem : ∀ k ∈ s, k ∈ s'

theorem Evolves.refl (w s : AList β) : Evolves w s s := ⟨fun _ _ => rfl, fun _ hk => hk⟩

theorem Evolves.trans {s'' : AList β} (h : Evolves w s s') (h' : Evolves w s' s'') :
    Evolves w s s'' :=
  ⟨fun k hk => (h'.lookup_eq k hk).trans (h.lookup_eq k hk), fun k hk => h'.mem k (h.mem k hk)⟩

/-- A disjoint write set leaves the rows at the keys of `w` as they were. -/
theorem Evolves.of_disjoint (h : ∀ k ∈ w, k ∉ u) (s : AList β) : Evolves w s (u ∪ s) :=
  ⟨fun k hk => AList.lookup_union_right (h k hk), fun _ hk => AList.mem_union.mpr (.inr hk)⟩

theorem Evolves.deltaBy_eq (h : Evolves w s s') (f : ∀ k, β k → M) :
    deltaBy f w s' = deltaBy f w s := by
  unfold deltaBy
  congr 1
  refine map_congr_left fun e he => ?_
  rw [h.lookup_eq _ (mem_keys_of_mem he)]

theorem lookup_union (k : K) (w s : AList β) : (w ∪ s).lookup k = (w.lookup k).or (s.lookup k) := by
  by_cases hk : k ∈ w
  · obtain ⟨_, hrow⟩ := Option.isSome_iff_exists.mp (AList.lookup_isSome.mpr hk)
    rw [AList.lookup_union_left hk, hrow]
    rfl
  · rw [AList.lookup_union_right hk, AList.lookup_eq_none.mpr hk]
    rfl

theorem lookup_layer_of_notMem (h : k ∉ u) (w s : AList β) :
    ((u ∪ w) ∪ s).lookup k = (w ∪ s).lookup k := by
  rw [lookup_union, AList.lookup_union_right h, ← lookup_union]

/-- Two layers of writes change the total by the sum of what each changes over the
layers below it. -/
theorem deltaBy_union (f : ∀ k, β k → M) (u w s : AList β) :
    deltaBy f (u ∪ w) s = deltaBy f w s + deltaBy f u (w ∪ s) := by
  have hperm : ((u ∪ w) ∪ s).entries.Perm (u ∪ (w ∪ s)).entries := AList.union_assoc
  have hsum : sumBy f ((u ∪ w) ∪ s) = sumBy f (u ∪ (w ∪ s)) := (hperm.map _).sum_eq
  simp only [sumBy_union] at hsum
  rw [add_assoc] at hsum
  exact add_left_cancel hsum

omit [DecidableEq K] in
@[simp] theorem mem_row_singleton : k' ∈ AList.singleton k row ↔ k' = k := by
  simp [AList.mem_keys]

@[simp] theorem lookup_singleton_self (k : K) (row : β k) :
    (AList.singleton k row).lookup k = some row :=
  dlookup_cons_eq [] k row

theorem lookup_layer_singleton_self (k : K) (row : β k) (w s : AList β) :
    ((AList.singleton k row ∪ w) ∪ s).lookup k = some row := by
  rw [lookup_union, lookup_union, lookup_singleton_self]
  rfl

/-- The change of the total by a row written over a layer of writes. -/
theorem Evolves.deltaBy_put (h : Evolves (AList.singleton k row ∪ w) s s') (f : ∀ k, β k → M) :
    deltaBy f (AList.singleton k row ∪ w) s' =
      deltaBy f w s + (f k row - measure f k ((w ∪ s).lookup k)) := by
  rw [h.deltaBy_eq, deltaBy_union, deltaBy_singleton]

theorem Evolves.deltaBy_put_held {old : β k} (h : Evolves (.singleton k row ∪ w) s s')
    (hheld : w.lookup k = some old) (f : ∀ k, β k → M) :
    deltaBy f (.singleton k row ∪ w) s' = deltaBy f w s + (f k row - f k old) := by
  rw [h.deltaBy_put, lookup_union, hheld, Option.some_or, measure_some]

theorem lookup_singleton {row' : β k'} (h : (AList.singleton k row).lookup k' = some row') :
    ∃ hk : k = k', hk ▸ row = row' := by
  by_cases hk : k = k'
  · subst hk
    exact ⟨rfl, by simpa using h⟩
  · have hn : k' ∉ AList.singleton k row := by simpa using Ne.symm hk
    rw [AList.lookup_eq_none.mpr hn] at h
    cases h

theorem lookup_eq_or (u w : AList β) (h : (u ∪ w).lookup k = some row) :
    u.lookup k = some row ∨ (u.lookup k = none ∧ w.lookup k = some row) := by
  rw [lookup_union] at h
  cases hu : u.lookup k with
  | none => exact .inr ⟨rfl, by simpa [hu] using h⟩
  | some => exact .inl (by simpa [hu] using h)

end RouteSmith.Store
