import RouteSmith.Store.Rows

/-! # Transaction programs

A transaction is a sequence of statements. Each statement reads the rows its
transaction sees at that moment and returns the rows it writes; what it writes stays
private until the transaction commits.
-/

namespace RouteSmith.Store

variable {K : Type} {β : K → Type} {ε α γ : Type}

/-- A transaction with rows `β`, errors `ε` and result `α`. -/
inductive Txn (β : K → Type) (ε α : Type) : Type 1 where
  | done (a : α)
  | raise (e : ε)
  | stmt {σ : Type} (exec : AList β → Except ε (AList β × σ)) (next : σ → Txn β ε α)

namespace Txn

protected def bind : Txn β ε α → (α → Txn β ε γ) → Txn β ε γ
  | done a, f => f a
  | raise e, _ => raise e
  | stmt exec next, f => stmt exec fun x => (next x).bind f

instance : Monad (Txn β ε) where
  pure := done
  bind := Txn.bind

/-- A check made before, or between, statements. -/
def ofExcept : Except ε α → Txn β ε α
  | .ok a => done a
  | .error e => raise e

/-! ## Statements -/

/-- A transaction of one statement. -/
def statement {σ : Type} (exec : AList β → Except ε (AList β × σ)) : Txn β ε σ :=
  stmt exec done

/-- A query: it writes nothing. -/
def query {σ : Type} (q : AList β → σ) : Txn β ε σ :=
  statement fun v => .ok (∅, q v)

/-- `constraint v k row` is the violation raised when `row` is written at `k`, if any. -/
abbrev Constraint (β : K → Type) (ε : Type) := AList β → (k : K) → β k → Option ε

section Statements

variable (constraint : Constraint β ε)

/-- A single-row write, refused when it violates a constraint. -/
def put {σ : Type} (k : K) (row : β k) (x : σ) (v : AList β) : Except ε (AList β × σ) :=
  match constraint v k row with
  | some e => .error e
  | none => .ok (AList.singleton k row, x)

variable {k : K} {u v : AList β}

variable {row : β k} {x : Option (β k)}

theorem put_ok {constraint : Constraint β ε} {σ : Type} {x y : σ}
    (h : put constraint k row x v = .ok (u, y)) :
    constraint v k row = none ∧ u = .singleton k row ∧ y = x := by
  unfold put at h
  split at h
  · cases h
  · cases h
    exact ⟨‹_›, rfl, rfl⟩

variable [DecidableEq K]

def insertNewExec (duplicate : ε) (k : K) (row : β k) (v : AList β) :
    Except ε (AList β × Unit) :=
  if (v.lookup k).isSome then .error duplicate else put constraint k row () v

def insertIgnoreExec (k : K) (row : β k) (v : AList β) : Except ε (AList β × Bool) :=
  if (v.lookup k).isSome then .ok (∅, false) else put constraint k row true v

def updateExec (k : K) (change : β k → Except ε (Option (β k))) (v : AList β) :
    Except ε (AList β × Option (β k)) :=
  match v.lookup k with
  | none => .ok (∅, none)
  | some old =>
    match change old with
    | .error e => .error e
    | .ok none => .ok (∅, none)
    | .ok (some row) => put constraint k row (some row) v

theorem ok_ite_eq_some {c : Prop} [Decidable c] {a b : α} :
    (.ok (if c then some a else none) : Except ε (Option α)) = .ok (some b) ↔ c ∧ a = b := by
  split <;> simp [*]

def selectForUpdateExec (k : K) (v : AList β) : Except ε (AList β × Option (β k)) :=
  match v.lookup k with
  | none => .ok (∅, none)
  | some row => .ok (AList.singleton k row, some row)

/-- `INSERT`: a row already stored under the key is a violation. -/
def insertNew (duplicate : ε) (k : K) (row : β k) : Txn β ε Unit :=
  statement (insertNewExec constraint duplicate k row)

/-- `INSERT .. ON CONFLICT DO NOTHING`; returns whether a row was inserted. -/
def insertIgnore (k : K) (row : β k) : Txn β ε Bool :=
  statement (insertIgnoreExec constraint k row)

/-- `UPDATE .. WHERE .. RETURNING` on the row at `k`. `change` evaluates the predicate and
the assignments together, on the row as it stands when the write happens. -/
def update (k : K) (change : β k → Except ε (Option (β k))) : Txn β ε (Option (β k)) :=
  statement (updateExec constraint k change)

/-- `SELECT .. FOR UPDATE` of the row at `k`: it becomes one of the rows the transaction holds,
as it stands. -/
def selectForUpdate (k : K) : Txn β ε (Option (β k)) :=
  statement (selectForUpdateExec k)

/-- `UPDATE` of the rows a scan has found, one after the other; returns those that still
matched when their turn came. -/
def updateEach {ι : Type} (key : ι → K)
    (change : ∀ i, β (key i) → Except ε (Option (β (key i)))) :
    List ι → Txn β ε (List ((i : ι) × β (key i)))
  | [] => done []
  | i :: rest => do
    let row ← update constraint (key i) (change i)
    let rows ← updateEach key change rest
    return (row.elim rows fun row => ⟨i, row⟩ :: rows)

variable {constraint}

theorem insertNewExec_ok {duplicate : ε} {x : Unit}
    (h : insertNewExec constraint duplicate k row v = .ok (u, x)) :
    v.lookup k = none ∧ constraint v k row = none ∧ u = .singleton k row := by
  unfold insertNewExec at h
  split at h
  · cases h
  · obtain ⟨hc, hu, -⟩ := put_ok h
    exact ⟨Option.not_isSome_iff_eq_none.mp ‹_›, hc, hu⟩

theorem insertIgnoreExec_ok {x : Bool} (h : insertIgnoreExec constraint k row v = .ok (u, x)) :
    ((v.lookup k).isSome ∧ u = ∅ ∧ x = false) ∨
      (v.lookup k = none ∧ constraint v k row = none ∧ u = .singleton k row ∧ x = true) := by
  unfold insertIgnoreExec at h
  split at h
  · cases h
    exact .inl ⟨‹_›, rfl, rfl⟩
  · obtain ⟨hc, hu, hx⟩ := put_ok h
    exact .inr ⟨Option.not_isSome_iff_eq_none.mp ‹_›, hc, hu, hx⟩

theorem insertIgnoreExec_error {e : ε} (h : insertIgnoreExec constraint k row v = .error e) :
    constraint v k row = some e := by
  unfold insertIgnoreExec put at h
  split at h
  · cases h
  · split at h
    · cases h
      assumption
    · cases h

theorem updateExec_ok {change : β k → Except ε (Option (β k))}
    (h : updateExec constraint k change v = .ok (u, x)) :
    ((∀ old, v.lookup k = some old → change old = .ok none) ∧ u = ∅ ∧ x = none) ∨
      ∃ old row, v.lookup k = some old ∧ change old = .ok (some row) ∧
        constraint v k row = none ∧ u = .singleton k row ∧ x = some row := by
  unfold updateExec at h
  cases hold : v.lookup k with
  | none =>
    rw [hold] at h
    cases h
    exact .inl ⟨nofun, rfl, rfl⟩
  | some old =>
    simp only [hold] at h
    split at h
    · cases h
    · cases h
      exact .inl ⟨fun _ hold' => by cases hold'; assumption, rfl, rfl⟩
    · obtain ⟨hc, hu, hx⟩ := put_ok h
      exact .inr ⟨old, _, rfl, by assumption, hc, hu, hx⟩

theorem selectForUpdateExec_ok (h : selectForUpdateExec k v = (.ok (u, x) : Except ε _)) :
    (v.lookup k = none ∧ u = ∅ ∧ x = none) ∨
      ∃ row, v.lookup k = some row ∧ u = .singleton k row ∧ x = some row := by
  unfold selectForUpdateExec at h
  split at h
  · cases h
    exact .inl ⟨‹_›, rfl, rfl⟩
  · cases h
    exact .inr ⟨_, ‹_›, rfl, rfl⟩

end Statements

/-! ## Sequential execution -/

/-- The transaction run alone over the committed rows `db`, from the write set `w`. -/
def run [DecidableEq K] (db : AList β) : Txn β ε α → AList β → Except ε (α × AList β)
  | done a, w => .ok (a, w)
  | raise e, _ => .error e
  | stmt exec next, w =>
    match exec (w ∪ db) with
    | .error e => .error e
    | .ok (u, x) => (next x).run db (u ∪ w)

section Run

variable [DecidableEq K] {db w : AList β}

@[simp] theorem run_pure (a : α) : run db (Pure.pure a : Txn β ε α) w = .ok (a, w) := rfl

theorem run_bind (t : Txn β ε α) (f : α → Txn β ε γ) : run db (t >>= f) w =
      match t.run db w with
      | .error e => .error e
      | .ok (a, w') => (f a).run db w' := by
  induction t generalizing w with
  | done | raise => rfl
  | stmt _ _ ih =>
    simp only [bind, Txn.bind, run]
    split
    · rfl
    · exact ih _

theorem run_selectForUpdate {k : K} {row : β k} (h : (w ∪ db).lookup k = some row) :
    run db (selectForUpdate k : Txn β ε _) w = .ok (some row, .singleton k row ∪ w) := by
  simp [selectForUpdate, statement, run, selectForUpdateExec, h]

theorem run_update {constraint : Constraint β ε} {k : K} {change : β k → Except ε (Option (β k))}
    {old row : β k} (h : (w ∪ db).lookup k = some old) (hchange : change old = .ok (some row))
    (hconstraint : constraint (w ∪ db) k row = none) :
    run db (update constraint k change) w = .ok (some row, .singleton k row ∪ w) := by
  simp [update, statement, run, updateExec, put, h, hchange, hconstraint]

end Run

end Txn

end RouteSmith.Store
