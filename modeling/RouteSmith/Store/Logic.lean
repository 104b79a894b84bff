import RouteSmith.Store.ReadCommitted

/-! # Program logics for interleaved transactions

Three ways to reason about one transaction at a time and conclude about every run:
* `Respects` follows each row through the writes made to it;
* `Tally` follows the total of a measure over all rows;
* `Wp` follows the whole write set, with the committed rows free to change between two
  statements wherever the transaction holds no lock.
-/

namespace RouteSmith.Store

open Server AList

variable {K Op : Type} [DecidableEq K] {β : K → Type} {ε α γ : Type}

/-- What may be said of a result, the rows written and the rows committed. -/
abbrev Post (β : K → Type) (α : Type) := α → AList β → AList β → Prop

namespace Txn

/-! ## Row transitions -/

/-- Every row a statement of the transaction writes stands in `S` to the row it replaces. -/
def Respects (S : ∀ k, Option (β k) → β k → Prop) : Txn β ε α → Prop
  | done _ => True
  | raise _ => True
  | stmt exec next => ∀ v u x, exec v = .ok (u, x) →
      (∀ k row, u.lookup k = some row → S k (v.lookup k) row) ∧ (next x).Respects S

variable {S : ∀ k, Option (β k) → β k → Prop} {constraint : Constraint β ε}

/-- The rows written stand in `S` to the rows they replace. -/
abbrev Moves (S : ∀ k, Option (β k) → β k → Prop) (u v : AList β) : Prop :=
  ∀ k row, u.lookup k = some row → S k (v.lookup k) row

theorem respects_pure (a : α) : Respects S (Pure.pure a : Txn β ε α) := trivial

theorem respects_raise (e : ε) : Respects S (raise e : Txn β ε α) := trivial

variable {σ : Type} {exec : AList β → Except ε (AList β × σ)} {next : σ → Txn β ε α}

theorem respects_stmt : (stmt exec next).Respects S ↔
    ∀ v u x, exec v = .ok (u, x) → Moves S u v ∧ (next x).Respects S := Iff.rfl

variable {t : Txn β ε α} {duplicate : ε} {k : K} {Q Q' : Post β α}

theorem respects_bind {f : α → Txn β ε γ} (ht : t.Respects S) (hf : ∀ a, (f a).Respects S) :
    (t >>= f).Respects S := by
  induction t with
  | done a => exact hf a
  | raise => trivial
  | stmt _ _ ih => exact fun v u x h => ⟨(ht v u x h).1, ih x (ht v u x h).2⟩

theorem respects_found {t : Txn β ε (Option α)} {f : Option α → Txn β ε γ} (ht : t.Respects S)
    (hnone : (f none).Respects S) (hsome : ∀ a, (f (some a)).Respects S) :
    (t >>= f).Respects S := by
  refine respects_bind ht fun found => ?_
  cases found with
  | none => exact hnone
  | some a => exact hsome a

theorem respects_ofExcept (x : Except ε α) : (ofExcept x : Txn β ε α).Respects S := by
  cases x <;> trivial

theorem respects_query (q : AList β → σ) : (query q : Txn β ε σ).Respects S := by
  intro v u x h
  cases h
  exact ⟨by simp, trivial⟩

theorem respects_statement (h : ∀ v u x, exec v = .ok (u, x) → Moves S u v) :
    (statement exec).Respects S :=
  fun v u x hx => ⟨h v u x hx, trivial⟩

variable {row : β k} {change : β k → Except ε (Option (β k))} {x : Except ε α}
  {E' : Post β ε}

theorem respects_insertNew (hS : ∀ v, constraint v k row = none → S k none row) :
    (insertNew constraint duplicate k row).Respects S := by
  intro v u x h
  obtain ⟨hnone, hc, rfl⟩ := insertNewExec_ok h
  refine ⟨fun k' row' hrow => ?_, trivial⟩
  obtain ⟨rfl, rfl⟩ := lookup_singleton hrow
  exact hnone ▸ hS v hc

theorem respects_insertIgnore (hS : ∀ v, constraint v k row = none → S k none row) :
    (insertIgnore constraint k row).Respects S := by
  intro v u x h
  rcases insertIgnoreExec_ok h with ⟨-, rfl, -⟩ | ⟨hnone, hc, rfl, -⟩
  · exact ⟨by simp, trivial⟩
  · refine ⟨fun k' row' hrow => ?_, trivial⟩
    obtain ⟨rfl, rfl⟩ := lookup_singleton hrow
    exact hnone ▸ hS v hc

theorem respects_update
    (hS : ∀ v old row, change old = .ok (some row) → constraint v k row = none → S k (some old) row)
    : (update constraint k change).Respects S := by
  intro v u x h
  rcases updateExec_ok h with ⟨-, rfl, -⟩ | ⟨old, row, hold, hrow, hc, rfl, -⟩
  · exact ⟨by simp, trivial⟩
  · refine ⟨fun k' row' hlookup => ?_, trivial⟩
    obtain ⟨rfl, rfl⟩ := lookup_singleton hlookup
    rw [hold]
    exact hS v old row hrow hc

theorem respects_selectForUpdate (hS : ∀ row, S k (some row) row) :
    (selectForUpdate k : Txn β ε (Option (β k))).Respects S := by
  intro v u x h
  rcases selectForUpdateExec_ok h with ⟨-, rfl, -⟩ | ⟨row, hrow, rfl, -⟩
  · exact ⟨by simp, trivial⟩
  · refine ⟨fun k' row' hlookup => ?_, trivial⟩
    obtain ⟨rfl, rfl⟩ := lookup_singleton hlookup
    exact hrow ▸ hS row

variable {ι : Type} {key : ι → K} {changes : ∀ i, β (key i) → Except ε (Option (β (key i)))}

theorem respects_updateEach (hS : ∀ i v old row, changes i old = .ok (some row) →
      constraint v (key i) row = none → S (key i) (some old) row) (l : List ι) :
    (updateEach constraint key changes l).Respects S := by
  induction l with
  | nil => trivial
  | cons i l ih =>
    exact respects_bind (respects_update (hS i)) fun _ => respects_bind ih fun _ => trivial

theorem respects_forM {f : ι → Txn β ε PUnit} (hf : ∀ i, (f i).Respects S)
    (l : List ι) : (l.forM f).Respects S := by
  induction l with
  | nil => trivial
  | cons i l ih => exact respects_bind (hf i) fun _ => ih

-- the rules above say all there is to say; unfolding would run the transaction
attribute [irreducible] Respects

/-! ## Totals -/

/-- `Q` holds of the result and of `c` plus all that the statements add to the total. -/
def Tally {M : Type*} [AddCommGroup M] (f : ∀ k, β k → M) :
    Txn β ε α → (α → M → Prop) → M → Prop
  | done a, Q, c => Q a c
  | raise _, _, _ => True
  | stmt exec next, Q, c => ∀ v u x, exec v = .ok (u, x) → (next x).Tally f Q (c + deltaBy f u v)

variable {M : Type*} [AddCommGroup M] {f : ∀ k, β k → M} {c : M}

@[simp] theorem tally_pure (a : α) (Q : α → M → Prop) :
    Tally f (Pure.pure a : Txn β ε α) Q c ↔ Q a c := Iff.rfl

@[simp] theorem tally_raise (e : ε) (Q : α → M → Prop) :
    Tally f (raise e : Txn β ε α) Q c := trivial

theorem tally_stmt {Q : α → M → Prop} : (stmt exec next).Tally f Q c ↔
      ∀ v u x, exec v = .ok (u, x) → (next x).Tally f Q (c + deltaBy f u v) := Iff.rfl

@[simp] theorem tally_bind (t : Txn β ε α) (g : α → Txn β ε γ) (Q : γ → M → Prop) :
    (t >>= g).Tally f Q c ↔ t.Tally f (fun a c => (g a).Tally f Q c) c := by
  induction t generalizing c with
  | done | raise => exact Iff.rfl
  | stmt _ _ ih =>
    exact forall₄_congr fun v u x _ => ih x

theorem tally_ofExcept {Q : α → M → Prop} (h : ∀ a, x = .ok a → Q a c) :
    (ofExcept x : Txn β ε α).Tally f Q c := by
  cases x with
  | error => trivial
  | ok a => exact h a rfl

theorem tally_query {q : AList β → σ} {Q : σ → M → Prop}
    (h : ∀ v, Q (q v) c) : (query q : Txn β ε σ).Tally f Q c := by
  intro v u x hx
  cases hx
  simpa [Tally] using h v

theorem tally_statement {Q : σ → M → Prop}
    (h : ∀ v u x, exec v = .ok (u, x) → Q x (c + deltaBy f u v)) : (statement exec).Tally f Q c := h

theorem tally_insertNew {Q : Unit → M → Prop} (h : Q () (c + f k row)) :
    (insertNew constraint duplicate k row).Tally f Q c := by
  intro v u x hx
  obtain ⟨hnone, -, rfl⟩ := insertNewExec_ok hx
  simpa [Tally, hnone] using h

theorem tally_insertIgnore {Q : Bool → M → Prop} (hfalse : Q false c)
    (htrue : Q true (c + f k row)) : (insertIgnore constraint k row).Tally f Q c := by
  intro v u x hx
  rcases insertIgnoreExec_ok hx with ⟨-, rfl, rfl⟩ | ⟨hnone, -, rfl, rfl⟩
  · simpa [Tally] using hfalse
  · simpa [Tally, hnone] using htrue

theorem tally_update {Q : Option (β k) → M → Prop} (hnone : Q none c)
    (hsome : ∀ old row, change old = .ok (some row) → Q (some row) (c + (f k row - f k old))) :
    (update constraint k change).Tally f Q c := by
  intro v u x hx
  rcases updateExec_ok hx with ⟨-, rfl, rfl⟩ | ⟨old, row, hold, hrow, -, rfl, rfl⟩
  · simpa [Tally] using hnone
  · simpa [Tally, hold] using hsome old row hrow

theorem tally_updateEach {Q : List ((i : ι) × β (key i)) → M → Prop}
    (hf : ∀ i old row, changes i old = .ok (some row) → f (key i) row = f (key i) old)
    (hQ : ∀ rows, Q rows c) (l : List ι) : (updateEach constraint key changes l).Tally f Q c := by
  induction l generalizing Q with
  | nil => exact hQ []
  | cons i l ih =>
    simp only [updateEach, tally_bind, tally_pure]
    refine tally_update (ih fun rows => hQ _) fun old row hrow => ?_
    rw [hf i old row hrow, sub_self, add_zero]
    exact ih fun rows => hQ _

theorem Tally.mono {Q Q' : α → M → Prop} (h : t.Tally f Q c) (hQ : ∀ a c, Q a c → Q' a c) :
    t.Tally f Q' c := by
  induction t generalizing c with
  | done a => exact hQ a c h
  | raise => trivial
  | stmt _ _ ih => exact fun v u x hx => ih x (h v u x hx)

theorem tally_forM {g : ι → Txn β ε PUnit} {Q : PUnit → M → Prop}
    (hg : ∀ i, (g i).Tally f (fun _ c' => c' = c) c) (hQ : Q ⟨⟩ c) (l : List ι) :
    (l.forM g).Tally f Q c := by
  induction l with
  | nil => exact hQ
  | cons i l ih =>
    refine (tally_bind (g i) (fun _ => l.forM g) Q).mpr (Tally.mono (hg i) ?_)
    rintro _ _ rfl
    exact ih

attribute [irreducible] Tally

/-! ## Write sets -/

/-- `Q` holds of the result, the writes and the committed rows when the transaction
finishes, and `E` when it raises an error; between two statements the committed rows may
become any that satisfy `I` and agree on the rows written so far. -/
def Wp (I : AList β → Prop) : Txn β ε α → (α → AList β → AList β → Prop) →
    (ε → AList β → AList β → Prop) → AList β → AList β → Prop
  | done a, Q, _, w, db => Q a w db
  | raise e, _, E, w, db => E e w db
  | stmt exec next, Q, E, w, db =>
    (∀ e, exec (w ∪ db) = .error e → E e w db) ∧
      ∀ u x, exec (w ∪ db) = .ok (u, x) → ∀ db', I db' → Evolves (u ∪ w) db db' →
        (next x).Wp I Q E (u ∪ w) db'

variable {I : AList β → Prop} {w db : AList β} {E : Post β ε}

@[simp] theorem wp_pure (a : α) (Q : Post β α) :
    Wp I (Pure.pure a : Txn β ε α) Q E w db ↔ Q a w db := Iff.rfl

@[simp] theorem wp_raise (e : ε) (Q : Post β α) :
    Wp I (raise e : Txn β ε α) Q E w db ↔ E e w db := Iff.rfl

theorem wp_stmt : (stmt exec next).Wp I Q E w db ↔ (∀ e, exec (w ∪ db) = .error e → E e w db) ∧
        ∀ u x, exec (w ∪ db) = .ok (u, x) → ∀ db', I db' → Evolves (u ∪ w) db db' →
          (next x).Wp I Q E (u ∪ w) db' := Iff.rfl

@[simp] theorem wp_bind (t : Txn β ε α) (g : α → Txn β ε γ) (Q : Post β γ) :
    (t >>= g).Wp I Q E w db ↔ t.Wp I (fun a w db => (g a).Wp I Q E w db) E w db := by
  induction t generalizing w db with
  | done | raise => exact Iff.rfl
  | stmt _ _ ih =>
    exact and_congr_right fun _ => forall₃_congr fun u x _ => forall₃_congr fun db' _ _ => ih x

theorem Wp.conseq (h : t.Wp I Q E w db) (hQ : ∀ a w db, Q a w db → Q' a w db)
    (hE : ∀ e w db, E e w db → E' e w db) : t.Wp I Q' E' w db := by
  induction t generalizing w db with
  | done a => exact hQ a w db h
  | raise e => exact hE e w db h
  | stmt _ _ ih =>
    exact ⟨fun e he => hE e w db (h.1 e he), fun u x hx db' hI ha => ih x (h.2 u x hx db' hI ha)⟩

theorem Wp.mono (h : t.Wp I Q E w db) (hQ : ∀ a w db, Q a w db → Q' a w db) : t.Wp I Q' E w db :=
  h.conseq hQ fun _ _ _ he => he

theorem Wp.and (h : t.Wp I Q E w db) (h' : t.Wp I Q' E' w db) :
    t.Wp I (fun a w db => Q a w db ∧ Q' a w db) (fun e w db => E e w db ∧ E' e w db) w db := by
  induction t generalizing w db with
  | done | raise => exact ⟨h, h'⟩
  | stmt _ _ ih =>
    exact ⟨fun e he => ⟨h.1 e he, h'.1 e he⟩,
      fun u x hx db' hI ha => ih x (h.2 u x hx db' hI ha) (h'.2 u x hx db' hI ha)⟩

theorem wp_true (t : Txn β ε α) (w db : AList β) :
    t.Wp I (fun _ _ _ => True) (fun _ _ _ => True) w db := by
  induction t generalizing w db with
  | done | raise => trivial
  | stmt exec next ih => exact ⟨fun _ _ => trivial, fun u x _ db' _ _ => ih x _ _⟩

theorem wp_ofExcept (herror : ∀ e, x = .error e → E e w db) (hok : ∀ a, x = .ok a → Q a w db) :
    (ofExcept x : Txn β ε α).Wp I Q E w db := by
  cases x with
  | error e => exact herror e rfl
  | ok a => exact hok a rfl

theorem wp_query {q : AList β → σ} {Q : Post β σ}
    (h : ∀ db', I db' → Evolves w db db' → Q (q (w ∪ db)) w db') :
    (query q : Txn β ε σ).Wp I Q E w db := by
  refine ⟨nofun, fun u x hx db' hI ha => ?_⟩
  cases hx
  rw [empty_union] at ha ⊢
  exact h db' hI ha

theorem wp_statement {Q : Post β σ} (herror : ∀ e, exec (w ∪ db) = .error e → E e w db)
    (hok : ∀ u x, exec (w ∪ db) = .ok (u, x) → ∀ db', I db' → Evolves (u ∪ w) db db' →
      Q x (u ∪ w) db') : (statement exec).Wp I Q E w db :=
  ⟨herror, hok⟩

theorem wp_insertNew {Q : Post β Unit} (herror : ∀ e, E e w db)
    (hok : (w ∪ db).lookup k = none → ∀ db', I db' → Evolves (singleton k row ∪ w) db db' →
      Q () (singleton k row ∪ w) db') :
    (insertNew constraint duplicate k row).Wp I Q E w db := by
  refine ⟨fun e _ => herror e, fun u x hx => ?_⟩
  obtain ⟨hnone, -, rfl⟩ := insertNewExec_ok hx
  exact hok hnone

theorem wp_insertIgnore {Q : Post β Bool}
    (herror : ∀ e, constraint (w ∪ db) k row = some e → E e w db)
    (hfalse : ((w ∪ db).lookup k).isSome → ∀ db', I db' → Evolves w db db' → Q false w db')
    (htrue : (w ∪ db).lookup k = none → ∀ db', I db' → Evolves (singleton k row ∪ w) db db' →
      Q true (singleton k row ∪ w) db') : (insertIgnore constraint k row).Wp I Q E w db := by
  refine ⟨fun e he => herror e (insertIgnoreExec_error he), fun u x hx => ?_⟩
  rcases insertIgnoreExec_ok hx with ⟨hsome, rfl, rfl⟩ | ⟨hnone, -, rfl, rfl⟩
  · rw [empty_union]
    exact hfalse hsome
  · exact htrue hnone

theorem wp_update {Q : Post β (Option (β k))} (herror : ∀ e, E e w db)
    (hnone : (∀ old, (w ∪ db).lookup k = some old → change old = .ok none) →
      ∀ db', I db' → Evolves w db db' → Q none w db')
    (hsome : ∀ old row, (w ∪ db).lookup k = some old → change old = .ok (some row) →
      ∀ db', I db' → Evolves (singleton k row ∪ w) db db' →
        Q (some row) (singleton k row ∪ w) db') :
    (update constraint k change).Wp I Q E w db := by
  refine ⟨fun e _ => herror e, fun u x hx => ?_⟩
  rcases updateExec_ok hx with ⟨hno, rfl, rfl⟩ | ⟨old, row, hold, hrow, -, rfl, rfl⟩
  · rw [empty_union]
    exact hnone hno
  · exact hsome old row hold hrow

/-- An update of a row the transaction holds is an update of the row as it holds it. -/
theorem wp_update_held {old : β k} {Q : Post β (Option (β k))}
    (hheld : w.lookup k = some old) (hchange : change old = .ok (some row)) (herror : ∀ e, E e w db)
    (h : ∀ db', I db' → Evolves (singleton k row ∪ w) db db' →
      Q (some row) (singleton k row ∪ w) db') :
    (update constraint k change).Wp I Q E w db := by
  have hview : (w ∪ db).lookup k = some old := by rw [lookup_union, hheld]; rfl
  refine wp_update herror (fun hnone => ?_) fun old' _ hold' hrow' => ?_
  · have := (hnone old hview).symm.trans hchange
    cases this
  · obtain rfl : old = old' := Option.some.inj (hview.symm.trans hold')
    have := hchange.symm.trans hrow'
    cases this
    exact h

theorem wp_selectForUpdate {Q : Post β (Option (β k))}
    (hnone : (w ∪ db).lookup k = none → ∀ db', I db' → Evolves w db db' → Q none w db')
    (hsome : ∀ row, (w ∪ db).lookup k = some row → ∀ db', I db' →
      Evolves (singleton k row ∪ w) db db' → Q (some row) (singleton k row ∪ w) db') :
    (selectForUpdate k : Txn β ε (Option (β k))).Wp I Q E w db := by
  refine ⟨fun e he => ?_, fun u x hx => ?_⟩
  · unfold selectForUpdateExec at he
    split at he <;> cases he
  · rcases selectForUpdateExec_ok hx with ⟨hnone', rfl, rfl⟩ | ⟨row, hrow, rfl, rfl⟩
    · rw [empty_union]
      exact hnone hnone'
    · exact hsome row hrow

/-- What every layer of writes that keeps to `S` preserves, the transaction preserves. -/
theorem Respects.wp (ht : t.Respects S) (Inv : AList β → AList β → Prop)
    (herror : ∀ e w db, E e w db) (hput : ∀ {u w db db'}, Inv w db → Moves S u (w ∪ db) → I db' →
      Evolves (u ∪ w) db db' → Inv (u ∪ w) db') (h : Inv w db) : t.Wp I (fun _ => Inv) E w db := by
  induction t generalizing w db with
  | done => exact h
  | raise e => exact herror e w db
  | stmt _ _ ih =>
    refine ⟨fun e _ => herror e w db, fun u x hx db' hI ha => ?_⟩
    obtain ⟨hu, hnext⟩ := respects_stmt.mp ht _ _ _ hx
    exact ih x hnext (hput h hu hI ha)

theorem Moves.union {u : AList β} (h : Moves S w db)
    (htrans : ∀ k o a b, S k o a → S k (some a) b → S k o b) (hu : Moves S u (w ∪ db)) :
    Moves S (u ∪ w) db := by
  intro k row hk
  rcases lookup_eq_or u w hk with hk | ⟨-, hk⟩
  · have hS := hu k row hk
    rw [lookup_union] at hS
    cases hw : w.lookup k with
    | none => simpa [hw] using hS
    | some mid => exact htrans k _ _ _ (h k mid hw) (by simpa [hw] using hS)
  · exact h k row hk

/-- A transaction that keeps to `S` takes every row it writes from its committed version
along `S`. -/
theorem Respects.wp_traced (ht : t.Respects S)
    (htrans : ∀ k o a b, S k o a → S k (some a) b → S k o b) (db : AList β) :
    t.Wp I (fun _ => Moves S) (fun _ _ _ => True) ∅ db := by
  refine ht.wp _ (fun _ _ _ => trivial) (fun h hu _ ha k row hk => ?_) (by simp [Moves])
  rw [ha.lookup_eq k (lookup_isSome.mp (by simp [hk]))]
  exact Moves.union h htrans hu k row hk

/-- A scan-and-update keeps what every one of its updates keeps, `Inv` being told the rows
updated so far. -/
theorem wp_updateEach (Inv : Post β (List ((i : ι) × β (key i)))) (herror : ∀ e w db, E e w db)
    (hnone : ∀ {rows w db db'}, Inv rows w db → I db' → Evolves w db db' → Inv rows w db')
    (hsome : ∀ {rows w db} i old row, Inv rows w db → (w ∪ db).lookup (key i) = some old →
      changes i old = .ok (some row) → ∀ db', I db' → Evolves (singleton (key i) row ∪ w) db db' →
        Inv (rows ++ [⟨i, row⟩]) (singleton (key i) row ∪ w) db')
    (l : List ι) (h : Inv [] w db) : (updateEach constraint key changes l).Wp I Inv E w db := by
  suffices hgen : ∀ {rows w db}, Inv rows w db →
      (updateEach constraint key changes l).Wp I (fun more => Inv (rows ++ more)) E w db from hgen h
  clear h
  induction l with
  | nil =>
    intro rows w db h
    rw [← List.append_nil rows] at h
    exact h
  | cons i l ih =>
    intro rows w db h
    simp only [updateEach, wp_bind, wp_pure]
    refine wp_update (fun _ => herror _ _ _) (fun _ db' hI ha => ih (hnone h hI ha)) ?_
    intro old row hold hrow db' hI ha
    refine (ih (hsome i old row h hold hrow db' hI ha)).mono fun more w db hmore => ?_
    simpa using hmore

/-- A loop keeps what each iteration keeps, `Inv` being told the iterations left. -/
theorem wp_forM {g : ι → Txn β ε PUnit} (Inv : Post β (List ι))
    (hg : ∀ {i l w db}, Inv (i :: l) w db → (g i).Wp I (fun _ => Inv l) E w db)
    {l : List ι} (h : Inv l w db) : (l.forM g).Wp I (fun _ => Inv []) E w db := by
  induction l generalizing w db with
  | nil => exact h
  | cons i l ih =>
    exact (wp_bind (g i) (fun _ => l.forM g) _).mpr ((hg h).mono fun _ _ _ h => ih h)

/-- What holds of every interleaving holds of a transaction run alone. -/
theorem Wp.run_cases (h : t.Wp I Q E w db) (hI : I db) :
    (∃ a w', t.run db w = .ok (a, w') ∧ Q a w' db) ∨ ∃ e w', t.run db w = .error e ∧ E e w' db := by
  induction t generalizing w with
  | done a => exact .inl ⟨a, w, rfl, h⟩
  | raise e => exact .inr ⟨e, w, rfl, h⟩
  | stmt exec next ih =>
    simp only [Txn.run]
    cases hexec : exec (w ∪ db) with
    | error e => exact .inr ⟨e, w, rfl, h.1 e hexec⟩
    | ok written => exact ih written.2 (h.2 written.1 written.2 hexec db hI (.refl _ _))

theorem Wp.of_run {a : α} {w' : AList β} (h : t.Wp I Q E w db) (hI : I db)
    (hrun : t.run db w = .ok (a, w')) : Q a w' db := by
  rcases h.run_cases hI with ⟨_, _, hok, hQ⟩ | ⟨_, _, herror, -⟩
  · cases hok.symm.trans hrun
    exact hQ
  · cases herror.symm.trans hrun

attribute [irreducible] Wp

end Txn

/-! ## From one transaction to every run -/

namespace Server

variable {program : Op → Txn β ε α} {s s' : Server Op β ε α} {i : ℕ}

/-- The session property that `Respects` gives a running transaction. -/
def Traced (S : Op → ∀ k, Option (β k) → β k → Prop) (op : Op) (t : Txn β ε α)
    (w db : AList β) : Prop :=
  t.Respects (S op) ∧ ∀ k row, w.lookup k = some row → S op k (db.lookup k) row

variable {S : Op → ∀ k, Option (β k) → β k → Prop} {db : AList β}

/-- Each transaction takes every row it writes along `S`, provided `S` composes. -/
theorem SessionInvariant.of_respects
    (htrans : ∀ op k o a b, S op k o a → S op k (some a) b → S op k o b)
    (h : ∀ op, (program op).Respects (S op)) :
    SessionInvariant program (fun _ => True) (Traced S) where
  start op db _ := ⟨h op, by simp⟩
  commit _ _ := trivial
  frame {op t w db db'} _ ha hJ := by
    refine ⟨hJ.1, fun k row hk => ?_⟩
    rw [ha.lookup_eq k (lookup_isSome.mp (by simp [hk]))]
    exact hJ.2 k row hk
  exec _ hJ hx := by
    obtain ⟨hu, hnext⟩ := Txn.respects_stmt.mp hJ.1 _ _ _ hx
    exact ⟨hnext, Txn.Moves.union hJ.2 (htrans _) hu⟩

/-- A step changes a committed row only by a commit, and only along `S`. -/
theorem Step.row_cases {I : AList β → Prop}
    (hs : Holds I (Traced S) s) (h : Step program i s s') (k : K) :
    s'.db.lookup k = s.db.lookup k ∨
      ∃ op a w row, s.calls i = .running op (.done a) w ∧ s'.calls i = .returned op (.ok a) ∧
        w.lookup k = some row ∧ s'.db.lookup k = some row ∧ S op k (s.db.lookup k) row := by
  rcases h.db_eq_or_commit with hdb | ⟨op, a, w, hi, hi', hdb⟩
  · exact .inl (by rw [hdb])
  · rw [hdb, lookup_union]
    cases hw : w.lookup k with
    | none => exact .inl rfl
    | some row => exact .inr ⟨op, a, w, row, hi, hi', hw, rfl, (hs.session i _ _ _ hi).2 k row hw⟩

/-- A property of single rows that every write establishes, or keeps, holds of all committed
rows. -/
theorem Run.row_invariant {P : ∀ k, β k → Prop}
    (hS : SessionInvariant program (fun _ => True) (Traced S))
    (hP : ∀ op k old row, S op k old row → (∀ o, old = some o → P k o) → P k row)
    (hdb : ∀ k row, db.lookup k = some row → P k row) (h : Run program (initial db) s) :
    ∀ k row, s.db.lookup k = some row → P k row := by
  induction h with
  | refl => exact hdb
  | tail hrun hstep ih =>
    intro k row hrow
    obtain ⟨i, hstep⟩ := hstep
    rcases hstep.row_cases (holds hS hrun (.initial trivial)) k with
      hk | ⟨op, _, _, row', _, _, _, hk, hSk⟩
    · exact ih k row (hk ▸ hrow)
    · obtain rfl : row' = row := Option.some.inj (hk.symm.trans hrow)
      exact hP op k _ _ hSk fun o ho => ih k o ho

/-- Every row was inserted, along `S`, by a call that has returned, unless it was there from
the start. -/
theorem Run.row_origin
    (hS : SessionInvariant program (fun _ => True) (Traced S)) (h : Run program (initial db) s)
    {k : K} (hk : k ∈ s.db) :
    k ∈ db ∨ ∃ i op a row, s.calls i = .returned op (.ok a) ∧ S op k none row := by
  induction h with
  | refl => exact .inl hk
  | @tail s₁ s₂ hrun hstep ih =>
    obtain ⟨j, hstep⟩ := hstep
    have hstable : (k ∈ db ∨ ∃ i op a row, s₁.calls i = .returned op (.ok a) ∧ S op k none row) →
        k ∈ db ∨ ∃ i op a row, s₂.calls i = .returned op (.ok a) ∧ S op k none row :=
      .imp_right fun ⟨i, op, a, row, hi, hrow⟩ =>
        ⟨i, op, a, row, hstep.returned_stable hi, hrow⟩
    by_cases hbefore : k ∈ s₁.db
    · exact hstable (ih hbefore)
    · have hnone := lookup_eq_none.mpr hbefore
      rcases hstep.row_cases (holds hS hrun (.initial trivial)) k with
        heq | ⟨op, a, _, row, _, hi, _, _, hrow⟩
      · rw [← lookup_isSome, heq, hnone] at hk
        cases hk
      · exact .inr ⟨j, op, a, row, hi, hnone ▸ hrow⟩

/-- A total that every transaction leaves unchanged is unchanged throughout every run. -/
theorem SessionInvariant.of_tally {M : Type*} [AddCommGroup M] (f : ∀ k, β k → M) (total : M)
    (h : ∀ op, (program op).Tally f (fun _ c => c = 0) 0) :
    SessionInvariant program (fun db => sumBy f db = total) fun _ t w db =>
      t.Tally f (fun _ c => c = 0) (deltaBy f w db) where
  start op db _ := by simpa using h op
  commit {op a w db} hI hJ := by
    have hdelta := (Txn.tally_pure a _).mp hJ
    rw [sumBy_union, hdelta, add_zero, hI]
  frame _ ha hJ := by rwa [ha.deltaBy_eq]
  exec {_ w u db _ _ _ _} _ hJ hx := by
    rw [deltaBy_union]
    exact Txn.tally_stmt.mp hJ _ _ _ hx

/-- The session property that `Wp` gives a running transaction. -/
def Guarded (I : AList β → Prop) (Q : Op → α → AList β → AList β → Prop)
    (E : Op → ε → AList β → AList β → Prop) (op : Op) (t : Txn β ε α) (w db : AList β) : Prop :=
  ∀ db', I db' → Evolves w db db' → t.Wp I (Q op) (E op) w db'

variable {I : AList β → Prop} {Q : Op → Post β α} {E : Op → Post β ε}

theorem SessionInvariant.of_wp (hstart : ∀ op db, I db → (program op).Wp I (Q op) (E op) ∅ db)
    (hcommit : ∀ op a w db, I db → Q op a w db → I (w ∪ db)) :
    SessionInvariant program I (Guarded I Q E) where
  start op _ _ db' hI _ := hstart op db' hI
  commit {op a w db} hI hJ := hcommit op a w db hI ((Txn.wp_pure a _).mp (hJ db hI (.refl w db)))
  frame _ ha hJ db'' hI ha' := hJ db'' hI (ha.trans ha')
  exec {_ w u db _ _ _ x} hI hJ hx := (Txn.wp_stmt.mp (hJ db hI (.refl w db))).2 u x hx

theorem Step.guarded_return (hs : Holds I (Guarded I Q E) s) (h : Step program i s s')
    {op : Op} {r : Except ε α} (hr : s'.calls i = .returned op r)
    (hne : s.calls i ≠ .returned op r) :
    (∃ a w, r = .ok a ∧ s'.db = w ∪ s.db ∧ Q op a w s.db) ∨
      ∃ e w, r = .error e ∧ s'.db = s.db ∧ E op e w s.db := by
  have hJ : ∀ {op t w}, s.calls i = .running op t w → t.Wp I (Q op) (E op) w s.db :=
    fun hi => hs.session i _ _ _ hi _ hs.db (.refl _ _)
  cases h with
  | start | exec | drop => simp at hr
  | fail h hexec =>
    rw [setCall_calls_self] at hr
    cases hr
    exact .inr ⟨_, _, rfl, rfl, (Txn.wp_stmt.mp (hJ h)).1 _ hexec⟩
  | raise h =>
    rw [setCall_calls_self] at hr
    cases hr
    exact .inr ⟨_, _, rfl, rfl, (Txn.wp_raise _ _).mp (hJ h)⟩
  | commit h =>
    have hr := (setCall_calls_self s i _).symm.trans hr
    cases hr
    exact .inl ⟨_, _, rfl, rfl, (Txn.wp_pure _ _).mp (hJ h)⟩

end Server

end RouteSmith.Store
