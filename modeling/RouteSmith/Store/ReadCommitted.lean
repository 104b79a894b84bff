import RouteSmith.Store.Txn
import Mathlib.Logic.Relation
import Mathlib.Logic.Function.Basic

/-! # Read-committed interleaving

Any number of calls run their transactions over one committed store. A statement sees
the committed rows under its own transaction's writes, and it can write a row only while
no other running transaction has written it. Writes become visible when their
transaction commits, all at once; a transaction that fails or is dropped leaves nothing.
-/

namespace RouteSmith.Store

variable {K Op : Type} {β : K → Type} {ε α : Type}

/-- Where a call stands. Every call is made at most once. -/
inductive Status (Op : Type) (β : K → Type) (ε α : Type) : Type 1 where
  | idle
  | running (op : Op) (prog : Txn β ε α) (writes : AList β)
  | returned (op : Op) (result : Except ε α)
  | dropped (op : Op)

/-- The call that was made, if any. -/
def Status.op : Status Op β ε α → Option Op
  | idle => none
  | running op _ _ => some op
  | returned op _ => some op
  | dropped op => some op

/-- The committed rows, and the calls made so far. -/
structure Server (Op : Type) (β : K → Type) (ε α : Type) : Type 1 where
  db : AList β
  calls : ℕ → Status Op β ε α

namespace Server

/-- No transaction other than that of call `i` holds a row that `u` writes. -/
def Free (s : Server Op β ε α) (i : ℕ) (u : AList β) : Prop :=
  ∀ j op prog w, j ≠ i → s.calls j = .running op prog w → ∀ k ∈ u, k ∉ w

def setCall (s : Server Op β ε α) (i : ℕ) (c : Status Op β ε α) : Server Op β ε α :=
  { s with calls := Function.update s.calls i c }

@[simp] theorem setCall_calls_self (s : Server Op β ε α) (i : ℕ) (c : Status Op β ε α) :
    (s.setCall i c).calls i = c := Function.update_self ..

variable {j : ℕ} {op : Op} {a : α} {r : Except ε α} {db : AList β}

theorem setCall_calls_ne (s : Server Op β ε α) {i : ℕ} (c : Status Op β ε α) (h : j ≠ i) :
    (s.setCall i c).calls j = s.calls j := Function.update_of_ne h ..

/-- The server before the first call. -/
def initial (db : AList β) : Server Op β ε α := ⟨db, fun _ => .idle⟩

variable {s s' : Server Op β ε α} {i : ℕ}

/-- No row is held by two running transactions. -/
def LocksDisjoint (s : Server Op β ε α) : Prop :=
  ∀ i op prog w, s.calls i = .running op prog w → s.Free i w

theorem LocksDisjoint.initial (db : AList β) : LocksDisjoint (initial db : Server Op β ε α) :=
  nofun

/-- A call that stops holding rows, or has none yet, keeps the locks disjoint. -/
theorem LocksDisjoint.setCall (hs : LocksDisjoint s) (c : Status Op β ε α)
    (hc : ∀ op prog w, c = .running op prog w → s.Free i w) :
    LocksDisjoint (s.setCall i c) := by
  intro j op prog w hj j' op' _ w' hne hj'
  by_cases hji : j = i
  · subst hji
    rw [setCall_calls_self] at hj
    rw [setCall_calls_ne _ _ hne] at hj'
    exact hc op prog w hj j' op' _ w' hne hj'
  · rw [setCall_calls_ne _ _ hji] at hj
    by_cases hji' : j' = i
    · subst hji'
      rw [setCall_calls_self] at hj'
      exact fun k hk hk' => hc op' _ w' hj' j op prog w hji hj k hk' hk
    · rw [setCall_calls_ne _ _ hji'] at hj'
      exact hs j op prog w hj j' op' _ w' hne hj'

variable [DecidableEq K]

/-! ## Steps -/

/-- One step of call `i`. -/
inductive Step (program : Op → Txn β ε α) (i : ℕ) :
    Server Op β ε α → Server Op β ε α → Prop where
  | start {s : Server Op β ε α} (op : Op) (h : s.calls i = .idle) :
      Step program i s (s.setCall i (.running op (program op) ∅))
  | exec {s : Server Op β ε α} {op w u} {σ : Type} {exec : AList β → Except ε (AList β × σ)}
      {next} {x : σ}
      (h : s.calls i = .running op (.stmt exec next) w) (hexec : exec (w ∪ s.db) = .ok (u, x))
      (hfree : s.Free i u) :
      Step program i s (s.setCall i (.running op (next x) (u ∪ w)))
  | fail {s : Server Op β ε α} {op w e} {σ : Type} {exec : AList β → Except ε (AList β × σ)} {next}
      (h : s.calls i = .running op (.stmt exec next) w) (hexec : exec (w ∪ s.db) = .error e) :
      Step program i s (s.setCall i (.returned op (.error e)))
  | raise {s : Server Op β ε α} {op w e} (h : s.calls i = .running op (.raise e) w) :
      Step program i s (s.setCall i (.returned op (.error e)))
  | commit {s : Server Op β ε α} {op w a} (h : s.calls i = .running op (.done a) w) :
      Step program i s { s.setCall i (.returned op (.ok a)) with db := w ∪ s.db }
  | drop {s : Server Op β ε α} {op prog w} (h : s.calls i = .running op prog w) :
      Step program i s (s.setCall i (.dropped op))

/-- A run: any calls, in any order, any number of steps. -/
def Run (program : Op → Txn β ε α) : Server Op β ε α → Server Op β ε α → Prop :=
  Relation.ReflTransGen fun s s' => ∃ i, Step program i s s'

variable {program : Op → Txn β ε α}

/-! ## What a step can change -/

theorem Step.calls_ne (h : Step program i s s') (hj : j ≠ i) : s'.calls j = s.calls j := by
  cases h <;> exact setCall_calls_ne _ _ hj

theorem Step.db_eq_or_commit (h : Step program i s s') :
    s'.db = s.db ∨ ∃ op a w, s.calls i = .running op (.done a) w ∧
      s'.calls i = .returned op (.ok a) ∧ s'.db = w ∪ s.db := by
  cases h with
  | commit h => exact .inr ⟨_, _, _, h, setCall_calls_self .., rfl⟩
  | _ => exact .inl rfl

/-- A call that has returned successfully had done so before, or has just committed. -/
theorem Step.ok_cases (h : Step program i s s') (hj : s'.calls j = .returned op (.ok a)) :
    s.calls j = .returned op (.ok a) ∨
      (j = i ∧ ∃ w, s.calls i = .running op (.done a) w ∧ s'.db = w ∪ s.db) := by
  by_cases hij : j = i
  · subst hij
    refine .inr ⟨rfl, ?_⟩
    cases h with
    | commit h =>
      have hj := (setCall_calls_self s j _).symm.trans hj
      cases hj
      exact ⟨_, h, rfl⟩
    | _ => simp at hj
  · exact .inl (h.calls_ne hij ▸ hj)

theorem Step.returned_stable (h : Step program i s s') (hj : s.calls j = .returned op r) :
    s'.calls j = .returned op r := by
  by_cases hij : j = i
  · subst hij
    cases h with
    | start _ h | exec h | fail h | raise h | commit h | drop h => rw [hj] at h; cases h
  · rw [h.calls_ne hij, hj]

theorem Run.returned_stable (h : Run program s s') (hj : s.calls j = .returned op r) :
    s'.calls j = .returned op r := by
  induction h with
  | refl => exact hj
  | tail _ hstep ih => exact hstep.choose_spec.returned_stable ih

theorem Run.mem_db (h : Run program s s') {k : K} (hk : k ∈ s.db) : k ∈ s'.db := by
  induction h with
  | refl => exact hk
  | tail _ hstep ih =>
    obtain ⟨i, hstep⟩ := hstep
    rcases hstep.db_eq_or_commit with hdb | ⟨_, _, w, -, -, hdb⟩
    · rwa [hdb]
    · rw [hdb]
      exact AList.mem_union.mpr (.inr ih)

/-- No step of a call that does not return successfully changes the committed rows. -/
theorem Step.db_eq_of_not_ok (h : Step program i s s') {s'' : Server Op β ε α}
    (hrun : Run program s' s'') (hok : ∀ op a, s''.calls i ≠ .returned op (.ok a)) :
    s'.db = s.db := by
  rcases h.db_eq_or_commit with hdb | ⟨op, a, w, -, hi, -⟩
  · exact hdb
  · exact absurd (hrun.returned_stable hi) (hok op a)

theorem Step.locksDisjoint (h : Step program i s s') (hs : LocksDisjoint s) : LocksDisjoint s' := by
  cases h with
  | start op =>
    refine hs.setCall _ fun _ _ w hw => ?_
    cases hw
    exact fun _ _ _ _ _ _ k hk => absurd hk (AList.notMem_empty k)
  | exec h hexec hfree =>
    refine hs.setCall _ fun _ _ w hw => ?_
    cases hw
    intro j op' _ w' hne hj k hk
    rcases AList.mem_union.mp hk with hk | hk
    · exact hfree j op' _ w' hne hj k hk
    · exact hs i _ _ _ h j op' _ w' hne hj k hk
  | commit =>
    exact .setCall hs _ nofun
  | _ => exact hs.setCall _ nofun

/-- A call that has returned did so at one of the steps of the run. -/
theorem Run.exists_return (h : Run program (initial db) s) (hi : s.calls i = .returned op r) :
    ∃ s₁ s₂, Run program (initial db) s₁ ∧ Step program i s₁ s₂ ∧ Run program s₂ s ∧
      s₁.calls i ≠ .returned op r ∧ s₂.calls i = .returned op r := by
  induction h with
  | refl => cases hi
  | @tail s₁ s₂ hrun hstep ih =>
    by_cases hbefore : s₁.calls i = .returned op r
    · obtain ⟨t₁, t₂, hrun₁, hreturn, hrun₂, hne, heq⟩ := ih hbefore
      exact ⟨t₁, t₂, hrun₁, hreturn, hrun₂.tail hstep, hne, heq⟩
    · obtain ⟨j, hstep⟩ := hstep
      obtain rfl : i = j := by
        by_contra hij
        exact hbefore (hstep.calls_ne hij ▸ hi)
      exact ⟨s₁, s₂, hrun, hstep, .refl, hbefore, hi⟩

/-! ## The session rule -/

/-- What has to be shown for `I` to hold of the committed rows throughout every run, with
`J` the property of a running transaction: its call, what is left of it, its writes, and
the committed rows. -/
structure SessionInvariant (program : Op → Txn β ε α) (I : AList β → Prop)
    (J : Op → Txn β ε α → AList β → AList β → Prop) : Prop where
  start : ∀ op db, I db → J op (program op) ∅ db
  exec : ∀ {op w u db} {σ : Type} {exec : AList β → Except ε (AList β × σ)} {next} {x : σ},
    I db → J op (.stmt exec next) w db → exec (w ∪ db) = .ok (u, x) → J op (next x) (u ∪ w) db
  commit : ∀ {op a w db}, I db → J op (.done a) w db → I (w ∪ db)
  -- other calls commit, but never on the rows this one has written
  frame : ∀ {op t w db db'}, I db' → Evolves w db db' → J op t w db → J op t w db'

/-- The invariant of a server that a session invariant maintains. -/
structure Holds (I : AList β → Prop) (J : Op → Txn β ε α → AList β → AList β → Prop)
    (s : Server Op β ε α) : Prop where
  locks : LocksDisjoint s
  db : I s.db
  session : ∀ i op t w, s.calls i = .running op t w → J op t w s.db

variable {I : AList β → Prop} {J : Op → Txn β ε α → AList β → AList β → Prop}

omit [DecidableEq K] in
theorem Holds.initial (h : I db) : Holds I J (initial db) :=
  ⟨.initial db, h, nofun⟩

omit [DecidableEq K] in
theorem Holds.setCall (hs : Holds I J s) (c : Status Op β ε α)
    (hlocks : LocksDisjoint (s.setCall i c))
    (hc : ∀ op t w, c = .running op t w → J op t w s.db) : Holds I J (s.setCall i c) := by
  refine ⟨hlocks, hs.db, fun j op t w hj => ?_⟩
  by_cases hji : j = i
  · subst hji
    exact hc op t w (by simpa using hj)
  · rw [setCall_calls_ne _ _ hji] at hj
    exact hs.session j op t w hj

theorem Step.holds (hI : SessionInvariant program I J) (h : Step program i s s')
    (hs : Holds I J s) : Holds I J s' := by
  have hlocks := h.locksDisjoint hs.locks
  cases h with
  | start op =>
    refine hs.setCall _ hlocks fun _ _ _ hc => ?_
    cases hc
    exact hI.start op _ hs.db
  | exec h hexec =>
    refine hs.setCall _ hlocks fun _ _ _ hc => ?_
    cases hc
    exact hI.exec hs.db (hs.session i _ _ _ h) hexec
  | @commit op w a h =>
    have hdb : I (w ∪ s.db) := hI.commit hs.db (hs.session i _ _ _ h)
    refine ⟨hlocks, hdb, fun j op' t w' hj => ?_⟩
    have hji : j ≠ i := by
      rintro rfl
      exact absurd ((setCall_calls_self s j _).symm.trans hj) (by simp)
    have hj : s.calls j = .running op' t w' := (setCall_calls_ne s _ hji).symm.trans hj
    refine hI.frame hdb (.of_disjoint (fun k hk => ?_) _) (hs.session j _ _ _ hj)
    exact hs.locks j _ _ _ hj i _ _ _ hji.symm h k hk
  | _ => exact hs.setCall _ hlocks nofun

theorem Run.holds (hI : SessionInvariant program I J) (h : Run program s s')
    (hs : Holds I J s) : Holds I J s' := by
  induction h with
  | refl => exact hs
  | tail _ hstep ih => exact hstep.choose_spec.holds hI ih

/-! ## Calls made one after the other -/

/-- The committed rows after the given calls, each run to its commit before the next. -/
def sequential (program : Op → Txn β ε α) : List Op → AList β → Option (AList β)
  | [], db => some db
  | op :: ops, db =>
    match (program op).run db ∅ with
    | .ok (_, w) => sequential program ops (w ∪ db)
    | .error _ => none

/-- No call is running. -/
def Quiet (s : Server Op β ε α) : Prop := ∀ j op t w, s.calls j ≠ .running op t w

/-- A transaction alone on the server reaches its commit. -/
theorem Run.to_done {t : Txn β ε α} {w w' : AList β}
    (hother : ∀ j, j ≠ i → ∀ op t w, s.calls j ≠ .running op t w) (hi : s.calls i = .running op t w)
    (h : t.run s.db w = .ok (a, w')) : Run program s (s.setCall i (.running op (.done a) w')) := by
  induction t generalizing s w with
  | done =>
    simp only [Txn.run, Except.ok.injEq, Prod.mk.injEq] at h
    obtain ⟨rfl, rfl⟩ := h
    rw [setCall, ← hi, Function.update_eq_self]
    exact .refl
  | raise => simp [Txn.run] at h
  | stmt exec next ih =>
    simp only [Txn.run] at h
    split at h
    · cases h
    · rename_i u x hexec
      have hfree : s.Free i u := fun j op t w hj hrun => absurd hrun (hother j hj op t w)
      refine .head ⟨i, .exec hi hexec hfree⟩ ?_
      have hrest := ih x (s := s.setCall i (.running op (next x) (u ∪ w)))
        (fun j hj op t w => by rw [setCall_calls_ne _ _ hj]; exact hother j hj op t w)
        (setCall_calls_self ..) h
      simpa [setCall, Run] using hrest

/-- A call made while no other is running reaches its commit and returns. -/
theorem Quiet.exists_commit (hs : Quiet s) (hi : s.calls i = .idle) {w : AList β}
    (h : (program op).run s.db ∅ = .ok (a, w)) :
    ∃ s₁ s₂, Run program s s₁ ∧ Step program i s₁ s₂ ∧ s₁.db = s.db ∧
      s₁.calls i = .running op (.done a) w ∧ s₂.calls i = .returned op (.ok a) ∧
      s₂.db = w ∪ s.db ∧ ∀ j, j ≠ i → s₂.calls j = s.calls j := by
  have hdone : Run program (s.setCall i (.running op (program op) ∅)) _ := .to_done
    fun j hj op t w => by rw [setCall_calls_ne _ _ hj]; exact hs j op t w
    (setCall_calls_self ..) h
  refine ⟨_, _, .head ⟨i, .start op hi⟩ hdone, .commit (setCall_calls_self ..), rfl,
    setCall_calls_self .., setCall_calls_self .., rfl, fun j hj => ?_⟩
  exact ((setCall_calls_ne _ _ hj).trans (setCall_calls_ne _ _ hj)).trans (setCall_calls_ne _ _ hj)

/-- A call made while no other is running, and refused, returns its error. -/
theorem Quiet.exists_refusal (hs : Quiet s) (hi : s.calls i = .idle) {e : ε}
    (h : (program op).run s.db ∅ = .error e) :
    ∃ s', Run program s s' ∧ s'.db = s.db ∧ s'.calls i = .returned op (.error e) ∧
      ∀ j, j ≠ i → s'.calls j = s.calls j := by
  suffices hgen : ∀ {s : Server Op β ε α} {t : Txn β ε α} {w : AList β},
      (∀ j, j ≠ i → ∀ op t w, s.calls j ≠ .running op t w) → s.calls i = .running op t w →
      t.run s.db w = .error e → ∃ s', Run program s s' ∧ s'.db = s.db ∧
        s'.calls i = .returned op (.error e) ∧ ∀ j, j ≠ i → s'.calls j = s.calls j by
    obtain ⟨s', hrun, hdb, hreturned, hother⟩ := hgen
      (fun j hj op t w => by rw [setCall_calls_ne _ _ hj]; exact hs j op t w)
      (setCall_calls_self ..) h
    exact ⟨s', hrun.head ⟨i, .start op hi⟩, hdb, hreturned,
      fun j hj => (hother j hj).trans (setCall_calls_ne _ _ hj)⟩
  intro s t w hother hrunning h
  induction t generalizing s w with
  | done => simp [Txn.run] at h
  | raise =>
    cases h
    exact ⟨_, .single ⟨i, .raise hrunning⟩, rfl, setCall_calls_self ..,
      fun j hj => setCall_calls_ne _ _ hj⟩
  | stmt exec next ih =>
    simp only [Txn.run] at h
    split at h
    · cases h
      exact ⟨_, .single ⟨i, .fail hrunning ‹_›⟩, rfl, setCall_calls_self ..,
        fun j hj => setCall_calls_ne _ _ hj⟩
    · rename_i u x hexec
      have hfree : s.Free i u := fun j op t w hj hrun => absurd hrun (hother j hj op t w)
      obtain ⟨s', hrun, hdb, hreturned, hcalls⟩ := ih x
        (fun j hj op t w => by rw [setCall_calls_ne _ _ hj]; exact hother j hj op t w)
        (setCall_calls_self ..) h
      exact ⟨s', hrun.head ⟨i, .exec hrunning hexec hfree⟩, hdb, hreturned,
        fun j hj => (hcalls j hj).trans (setCall_calls_ne _ _ hj)⟩

/-- Calls made one after the other are a run, after which no call is running. -/
theorem exists_run_of_sequential {ops : List Op} {db' : AList β}
    (h : sequential program ops db = some db') :
    ∃ s, Run program (initial db) s ∧ s.db = db' ∧ Quiet s ∧
      (∀ j, ops.length ≤ j → s.calls j = .idle) ∧
      ∀ j op, ops[j]? = some op → ∃ a, s.calls j = .returned op (.ok a) := by
  -- the calls in `made` have returned already
  suffices hgen : ∀ s made, Quiet s →
      (∀ j, made.length ≤ j → s.calls j = .idle) →
      (∀ j op, made[j]? = some op → ∃ a, s.calls j = .returned op (.ok a)) →
      sequential program ops s.db = some db' → ∃ s',
        Run program s s' ∧ s'.db = db' ∧ Quiet s' ∧
        (∀ j, (made ++ ops).length ≤ j → s'.calls j = .idle) ∧
        ∀ j op, (made ++ ops)[j]? = some op → ∃ a, s'.calls j = .returned op (.ok a) from
    hgen (initial db) [] nofun (fun _ _ => rfl) (by simp) h
  clear h
  induction ops with
  | nil =>
    intro s made hs hidle hmade h
    exact ⟨s, .refl, Option.some.inj h, hs, by simpa using hidle, by simpa using hmade⟩
  | cons op ops ih =>
    intro s made hs hidle hmade h
    simp only [sequential] at h
    split at h
    next a w hrun =>
      obtain ⟨s₁, s₂, hrun₁, hstep, -, -, hn, hdb, hother⟩ :=
        hs.exists_commit (hidle made.length le_rfl) hrun
      have hs₂ : Quiet s₂ := by
        intro j op t w hj
        by_cases hjn : j = made.length
        · rw [hjn, hn] at hj
          cases hj
        · exact hs j op t w (hother j hjn ▸ hj)
      have hidle₂ : ∀ j, (made ++ [op]).length ≤ j → s₂.calls j = .idle := by
        intro j hj
        rw [List.length_append, List.length_singleton] at hj
        exact (hother j (by omega)).trans (hidle j (by omega))
      have hmade₂ : ∀ j op', (made ++ [op])[j]? = some op' →
          ∃ a, s₂.calls j = .returned op' (.ok a) := by
        intro j op' hj
        by_cases hjn : j = made.length
        · subst hjn
          rw [List.getElem?_concat_length] at hj
          cases hj
          exact ⟨a, hn⟩
        · have hlt := (getElem?_eq_some_iff.mp hj).1
          rw [List.length_append, List.length_singleton] at hlt
          rw [List.getElem?_append_left (by omega)] at hj
          rw [hother j hjn]
          exact hmade j op' hj
      obtain ⟨s', hrun', hrest⟩ := ih s₂ (made ++ [op]) hs₂ hidle₂ hmade₂ (hdb ▸ h)
      rw [List.append_assoc] at hrest
      exact ⟨s', (hrun₁.tail ⟨_, hstep⟩).trans hrun', hrest⟩
    · cases h

end Server

end RouteSmith.Store
