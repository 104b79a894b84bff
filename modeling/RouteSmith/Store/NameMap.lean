import Mathlib.Data.List.AList
import Mathlib.Data.List.Sort
import Mathlib.Data.String.Basic

/-! # Maps keyed by names

Finite maps as association lists with distinct keys; the entries stand in the order in which a
program visits them.
-/

namespace RouteSmith.Store

open List
open AList hiding keys lookup

abbrev NameMap (α : Type) := AList fun _ : String => α

namespace NameMap

variable {α β : Type}

def values (m : NameMap α) : List α := m.entries.map Sigma.snd

/-- The map with each value replaced. -/
def mapValues (m : NameMap α) (f : String → α → β) : NameMap β where
  entries := m.entries.map fun e => ⟨e.1, f e.1 e.2⟩
  nodupKeys := by
    rw [List.NodupKeys, List.keys, List.map_map]
    exact m.nodupKeys

@[simp] theorem lookup_mapValues (m : NameMap α) (f : String → α → β) (k : String) :
    (m.mapValues f).lookup k = (m.lookup k).map (f k) :=
  dlookup_map₂ (γ := fun _ => α) (δ := fun _ => β) k

/-- The values whose keys occur in `changes`, each changed by what stands there. -/
def adjustEach (m : NameMap α) (changes : NameMap β) (f : β → α → α) : NameMap α :=
  m.mapValues fun k a => (changes.lookup k).elim a fun b => f b a

theorem lookup_adjustEach (m : NameMap α) (changes : NameMap β) (f : β → α → α) (k : String) :
    (m.adjustEach changes f).lookup k =
      (m.lookup k).map fun a => (changes.lookup k).elim a fun b => f b a :=
  lookup_mapValues m _ k

variable {m : NameMap α} {k : String} {a : α}

theorem mem_iff_exists_lookup : k ∈ m ↔ ∃ a, m.lookup k = some a := by
  rw [← lookup_isSome, Option.isSome_iff_exists]

@[simp] theorem mem_mapValues {f : String → α → β} : k ∈ m.mapValues f ↔ k ∈ m := by
  simp [← lookup_isSome]

@[simp] theorem mem_adjustEach {changes : NameMap β} {f : β → α → α} :
    k ∈ m.adjustEach changes f ↔ k ∈ m :=
  mem_mapValues

/-- The map without some of its keys. -/
def eraseEach (m : NameMap α) (ks : List String) : NameMap α := ks.foldl (fun m k => m.erase k) m

@[simp] theorem mem_eraseEach {ks : List String} : k ∈ m.eraseEach ks ↔ k ∈ m ∧ k ∉ ks := by
  induction ks generalizing m with
  | nil => simp [eraseEach]
  | cons k' ks ih =>
    rw [eraseEach, foldl_cons]
    refine ih.trans ?_
    simp only [mem_erase, mem_cons, not_or]
    tauto

/-- The entries that pass a test. -/
def retain (m : NameMap α) (keep : String → α → Bool) : NameMap α where
  entries := m.entries.filter fun e => keep e.1 e.2
  nodupKeys := m.nodupKeys.sublist List.filter_sublist

theorem lookup_retain (m : NameMap α) (keep : String → α → Bool) (k : String) :
    (m.retain keep).lookup k = (m.lookup k).filter (keep k) := by
  ext a
  rw [Option.filter_eq_some_iff, ← Option.mem_def, ← Option.mem_def, mem_lookup_iff,
    mem_lookup_iff, retain, mem_filter]

/-- The map of the pairs read off some items; of two pairs with one key the later one counts. -/
def collect {ι : Type} (pair : ι → String × α) (items : List ι) : NameMap α :=
  items.foldl (fun m item => m.insert (pair item).1 (pair item).2) ∅

/-- The entries in the order of their keys. -/
def ordered (m : NameMap α) : List (String × α) :=
  (m.entries.map fun e => (e.1, e.2)).insertionSort fun a b => a.1 ≤ b.1

theorem mem_ordered : (k, a) ∈ m.ordered ↔ m.lookup k = some a := by
  rw [ordered, mem_insertionSort, mem_map]
  constructor
  · rintro ⟨e, he, heq⟩
    cases heq
    exact mem_dlookup m.nodupKeys he
  · intro h
    exact ⟨⟨k, a⟩, of_mem_dlookup h, rfl⟩

theorem pairwise_ordered (m : NameMap α) : m.ordered.Pairwise fun a b => a.1 < b.1 := by
  have hperm : m.ordered.Perm (m.entries.map fun e => (e.1, e.2)) := perm_insertionSort _ _
  have hkeys : (m.ordered.map Prod.fst).Nodup := by
    rw [(hperm.map Prod.fst).nodup_iff, map_map]
    exact m.keys_nodup
  have hle : m.ordered.Pairwise fun a b => a.1 ≤ b.1 := pairwise_insertionSort _ _
  exact (hle.and (pairwise_map.mp hkeys)).imp fun h => lt_of_le_of_ne h.1 h.2

/-- Replacing a value by one that looks the same leaves the looks in order as they are. -/
theorem map_ordered_insert {b : α} {f : α → β} (ha : m.lookup k = some a) (hf : f b = f a) :
    (ordered (m.insert k b)).map (.map id f) = m.ordered.map (Prod.map id f) := by
  have hsorted : ∀ m : NameMap α,
      (m.ordered.map (Prod.map id f)).Pairwise fun a b => a.1 < b.1 := fun m =>
    pairwise_map.mpr m.pairwise_ordered
  have hnodup := fun m =>
    Pairwise.imp (fun h => ne_of_apply_ne Prod.fst (ne_of_lt h)) (hsorted m)
  refine Perm.eq_of_pairwise (fun x y _ _ hxy hyx => absurd hxy (lt_asymm hyx))
    (hsorted _) (hsorted _) ((perm_ext_iff_of_nodup (hnodup _) (hnodup _)).mpr ?_)
  rintro ⟨k', c⟩
  simp only [mem_map, Prod.exists, Prod.map_apply, id_eq, Prod.mk.injEq, mem_ordered]
  by_cases hk : k' = k
  · subst hk
    constructor
    · rintro ⟨_, v, hv, rfl, rfl⟩
      rw [lookup_insert] at hv
      cases hv
      exact ⟨_, a, ha, rfl, hf.symm⟩
    · rintro ⟨_, v, hv, rfl, rfl⟩
      rw [ha] at hv
      cases hv
      exact ⟨_, b, lookup_insert _, rfl, hf⟩
  · constructor
    · rintro ⟨_, v, hv, rfl, rfl⟩
      exact ⟨_, v, by rwa [lookup_insert_ne hk] at hv, rfl, rfl⟩
    · rintro ⟨_, v, hv, rfl, rfl⟩
      exact ⟨_, v, by rwa [lookup_insert_ne hk], rfl, rfl⟩

theorem length_retain_le (m : NameMap α) (keep : String → α → Bool) :
    (m.retain keep).entries.length ≤ m.entries.length :=
  length_filter_le _ _

theorem mem_values : a ∈ m.values ↔ ∃ k, m.lookup k = some a := by
  simp only [values, mem_map, ← Option.mem_def, mem_lookup_iff]
  constructor
  · rintro ⟨e, he, rfl⟩
    exact ⟨e.1, he⟩
  · rintro ⟨k, hk⟩
    exact ⟨⟨k, a⟩, hk, rfl⟩

theorem lookup_foldl_insert {ι : Type} {pair : ι → String × α} {items : List ι}
    (h : (items.foldl (fun m item => m.insert (pair item).1 (pair item).2) m).lookup k = some a) :
    m.lookup k = some a ∨ ∃ item ∈ items, pair item = (k, a) := by
  induction items generalizing m with
  | nil => exact .inl h
  | cons item items ih =>
    rcases ih h with hm | ⟨other, hother, heq⟩
    · by_cases hk : k = (pair item).1
      · subst hk
        rw [lookup_insert] at hm
        exact .inr ⟨item, mem_cons_self, Prod.ext rfl (Option.some.inj hm)⟩
      · exact .inl (by rwa [lookup_insert_ne hk] at hm)
    · exact .inr ⟨other, mem_cons_of_mem _ hother, heq⟩

theorem exists_of_lookup_collect {ι : Type} {pair : ι → String × α} {items : List ι}
    (h : (collect pair items).lookup k = some a) : ∃ item ∈ items, pair item = (k, a) := by
  rcases lookup_foldl_insert h with hm | hitem
  · simp at hm
  · exact hitem

theorem mem_foldl_insert {ι : Type} {pair : ι → String × α} {items : List ι} :
    k ∈ items.foldl (fun m item => m.insert (pair item).1 (pair item).2) m ↔
      k ∈ m ∨ ∃ item ∈ items, (pair item).1 = k := by
  induction items generalizing m with
  | nil => simp
  | cons item items ih =>
    rw [foldl_cons, ih, mem_insert]
    simp only [mem_cons, exists_eq_or_imp]
    tauto

theorem mem_collect {ι : Type} {pair : ι → String × α} {items : List ι} :
    k ∈ collect pair items ↔ ∃ item ∈ items, (pair item).1 = k := by
  rw [collect, mem_foldl_insert]
  simp

/-! ## What holds of every entry -/

def Each (P : String → α → Prop) (m : NameMap α) : Prop := ∀ k a, m.lookup k = some a → P k a

namespace Each

variable {P : String → α → Prop} {m : NameMap α}

theorem empty : Each P (∅ : NameMap α) := by
  intro k a h
  simp at h

theorem insert (h : m.Each P) {k : String} {a : α} (ha : P k a) : Each P (m.insert k a) := by
  intro k' a' h'
  by_cases hk : k' = k
  · subst hk
    rw [lookup_insert] at h'
    cases h'
    exact ha
  · rw [lookup_insert_ne hk] at h'
    exact h k' a' h'

theorem erase (h : m.Each P) (k : String) : Each P (m.erase k) := by
  intro k' a' h'
  by_cases hk : k' = k
  · subst hk
    rw [lookup_erase] at h'
    cases h'
  · rw [lookup_erase_ne hk] at h'
    exact h k' a' h'

theorem mapValues (h : m.Each P) {f : String → α → α} (hf : ∀ k a, P k a → P k (f k a)) :
    Each P (m.mapValues f) := by
  intro k a ha
  rw [lookup_mapValues, Option.map_eq_some_iff] at ha
  obtain ⟨a', ha', rfl⟩ := ha
  exact hf k a' (h k a' ha')

theorem retain (h : m.Each P) (keep : String → α → Bool) : Each P (m.retain keep) := by
  intro k a ha
  rw [lookup_retain, Option.filter_eq_some_iff] at ha
  exact h k a ha.1

theorem collect {ι : Type} {pair : ι → String × α} {items : List ι}
    (h : ∀ item ∈ items, P (pair item).1 (pair item).2) : Each P (.collect pair items) := by
  intro k a ha
  obtain ⟨item, hitem, heq⟩ := exists_of_lookup_collect ha
  simpa [heq] using h item hitem

end Each

/-! ## What no two entries share -/

/-- No two entries are related. -/
def Apart (R : α → α → Prop) (m : NameMap α) : Prop :=
  ∀ k k' a a', m.lookup k = some a → m.lookup k' = some a' → R a a' → k = k'

namespace Apart

variable {R : α → α → Prop} {m : NameMap α} {k : String} {a b : α}

theorem insert (h : m.Apart R) (hsymm : ∀ a b, R a b → R b a)
    (hnew : ∀ k' a', k' ≠ k → m.lookup k' = some a' → ¬R a a') : Apart R (m.insert k a) := by
  intro k₁ k₂ a₁ a₂ h₁ h₂ hR
  by_cases hk₁ : k₁ = k <;> by_cases hk₂ : k₂ = k
  · rw [hk₁, hk₂]
  · rw [hk₁, lookup_insert] at h₁
    rw [lookup_insert_ne hk₂] at h₂
    cases h₁
    exact absurd hR (hnew k₂ a₂ hk₂ h₂)
  · rw [lookup_insert_ne hk₁] at h₁
    rw [hk₂, lookup_insert] at h₂
    cases h₂
    exact absurd (hsymm _ _ hR) (hnew k₁ a₁ hk₁ h₁)
  · rw [lookup_insert_ne hk₁] at h₁
    rw [lookup_insert_ne hk₂] at h₂
    exact h k₁ k₂ a₁ a₂ h₁ h₂ hR

/-- A value may take the place of one that is related to the same others. -/
theorem replace (h : m.Apart R) (hsymm : ∀ a b, R a b → R b a) (hb : m.lookup k = some b)
    (hsame : ∀ c, R a c → R b c) : Apart R (m.insert k a) := by
  refine h.insert hsymm ?_
  intro k' a' hk ha' hR
  exact hk (h k k' b a' hb ha' (hsame a' hR)).symm

theorem erase (h : m.Apart R) (k : String) : Apart R (m.erase k) := by
  have hold : ∀ k' a', (m.erase k).lookup k' = some a' → m.lookup k' = some a' :=
    Each.erase (fun _ _ h => h) k
  intro k₁ k₂ a₁ a₂ h₁ h₂ hR
  exact h k₁ k₂ a₁ a₂ (hold k₁ a₁ h₁) (hold k₂ a₂ h₂) hR

end Apart

/-- With more than one value of a kind there is one under another key. -/
theorem exists_ne_of_one_lt_countP {p : α → Bool} (h : 1 < m.values.countP p) (k : String) :
    ∃ k' a, k' ≠ k ∧ m.lookup k' = some a ∧ p a = true := by
  by_contra hnone
  push Not at hnone
  have honly : ∀ e ∈ m.entries, p e.2 = true → (e.1 == k) = true := by
    intro e he hp
    by_contra hne
    exact hnone _ _ (by simpa using hne) (mem_lookup_iff.mpr he) hp
  have hcount : m.values.countP p ≤ m.entries.countP fun e => e.1 == k := by
    rw [values, countP_map]
    exact countP_mono_left honly
  have hkeys : m.entries.countP (fun e => e.1 == k) = m.keys.count k := by
    rw [AList.keys, keys, count, countP_map]
    rfl
  have hle := nodup_iff_count_le_one.mp m.keys_nodup k
  omega

theorem lookup_collect_of_nodup {ι : Type} (pair : ι → String × α) {items : List ι}
    (hnodup : (items.map fun item => (pair item).1).Nodup) {item : ι} (hitem : item ∈ items) :
    (collect pair items).lookup (pair item).1 = some (pair item).2 := by
  have hmem : (pair item).1 ∈ collect pair items := mem_collect.mpr ⟨item, hitem, rfl⟩
  obtain ⟨a, ha⟩ := mem_iff_exists_lookup.mp hmem
  obtain ⟨other, hother, heq⟩ := exists_of_lookup_collect ha
  have hkey : (pair other).1 = (pair item).1 := by rw [heq]
  have hsame : other = item := inj_on_of_nodup_map hnodup hother hitem hkey
  rw [ha, ← hsame, heq]

end NameMap

end RouteSmith.Store
