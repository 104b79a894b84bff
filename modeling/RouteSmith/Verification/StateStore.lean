import RouteSmith.Model.StateStore
import RouteSmith.Store.Logic

/-! # Linearization of the state store

Both backends refine a register with revisions: each step of a store is one of the register, and
what is stored is what the successful writes have made of the first document.
-/

namespace RouteSmith.Model

open Control Store Store.Register MemoryStore StateWrite
open PostgresStore hiding setWriter step

/-! ## What is promised -/

/-- No update is lost: one write for each revision, in the order of the revisions, each of a
successful call and none of a failed one, and each built on the document before it. -/
structure Linearizes (start : VersionedValue) (plan : WritePlan) (document : VersionedValue)
    (s : Register.State Json AppError) : Prop where
  document_eq : document = after start s.history
  expected : s.history.map Write.expected =
    (List.range' start.revision s.history.length).reverse
  stored : ∀ w ∈ s.history, ∃ seen, s.writers w.writer = .done seen (.ok (w.expected + 1)) ∧
    plan w.writer seen = (w.expected, w.value)
  recorded : ∀ n seen revision, s.writers n = .done seen (.ok revision) →
    ∃ w ∈ s.history, w.writer = n
  once : ∀ m n seen seen' revision, s.writers m = .done seen (.ok revision) →
    s.writers n = .done seen' (.ok revision) → m = n
  folds : ∀ update : ℕ → Option Json → Json,
    (∀ n seen, plan n seen = (seen.revision, update n seen.value)) →
    document.value = s.history.foldr (fun w value => some (update w.writer value)) start.value

theorem Linearizes.of_holds {start : VersionedValue} {plan : WritePlan} {document : VersionedValue}
    {s : State Json AppError} (h : Holds start plan s)
    (hdocument : document = after start s.history) : Linearizes start plan document s where
  document_eq := hdocument
  expected := h.inOrder.map_expected
  stored := h.stored
  recorded := h.recorded
  once m n seen _ revision hm hn := by
    obtain ⟨w, hw, rfl⟩ := h.recorded m seen _ hm
    obtain ⟨w', hw', rfl⟩ := h.recorded n _ _ hn
    have hexpected : ∀ w ∈ s.history, ∀ seen,
        s.writers w.writer = .done seen (.ok revision) → w.expected + 1 = revision := by
      intro w hw seen hdone
      obtain ⟨_, hstored, -⟩ := h.stored w hw
      rw [hdone] at hstored
      cases hstored
      rfl
    have hnodup : (s.history.map Write.expected).Nodup := by
      rw [h.inOrder.map_expected]
      exact List.nodup_reverse.mpr List.nodup_range'
    have heq : w.expected = w'.expected := by
      have := hexpected w hw seen hm
      have := hexpected w' hw' _ hn
      omega
    rw [List.inj_on_of_nodup_map hnodup hw hw' heq]
  folds _ hplan := by
    rw [hdocument, after_value_eq_foldr (h.builds _ hplan)]

/-! ## In memory -/

namespace MemoryStore

variable {stateName : String} {plan : WritePlan} {start : VersionedValue} {s : MemoryStore}
  {action : MemoryAction}

/-- The store as a register. -/
def view (s : MemoryStore) : Register.State Json AppError := ⟨s.history, s.writers⟩

/-- The revision that a writer expects can still be raised. -/
def BelowLast (plan : WritePlan) (s : MemoryStore) (action : MemoryAction) : Prop :=
  ∀ n seen, action = .swap n → s.writers n = .loaded seen → (plan n seen).1 < 2 ^ 64 - 1

theorem step_swap {n : ℕ} {seen : VersionedValue} (hloaded : s.writers n = .loaded seen)
    (hbelow : (plan n seen).1 < 2 ^ 64 - 1) (h : s.document = after start s.history) :
    Step start plan s.view (s.swap stateName plan n seen).view ∧
      (s.swap stateName plan n seen).document =
        after start (s.swap stateName plan n seen).history := by
  simp only [swap, compareAndSwapMemory]
  by_cases hrevision : s.document.revision = (plan n seen).1
  · simp only [hrevision, ne_eq, if_pos hbelow]
    refine ⟨.success n seen hloaded ?_, rfl⟩
    rw [← hrevision, h]
    rfl
  · simp only [ne_eq, hrevision]
    exact ⟨.failure n seen _ hloaded, h⟩

/-- Every step in memory is one of the register. -/
theorem step_refines (hbelow : BelowLast plan s action) (h : s.document = after start s.history) :
    Step start plan s.view (s.step stateName plan action).view ∧
      (s.step stateName plan action).document =
        after start (s.step stateName plan action).history := by
  cases action with
  | read n =>
    cases hwriter : s.writers n <;> simp only [step, hwriter]
    case idle =>
      refine ⟨?_, h⟩
      rw [h]
      exact .read n hwriter
    all_goals exact ⟨.rest, h⟩
  | swap n =>
    cases hwriter : s.writers n <;> simp only [step, hwriter]
    case loaded seen => exact step_swap hwriter (hbelow n seen rfl hwriter) h
    all_goals exact ⟨.rest, h⟩

theorem linearizes {actions : List MemoryAction}
    (hmeets : Meets (step stateName plan) (BelowLast plan) { document := start } actions) :
    Linearizes start plan (runs (step stateName plan) { document := start } actions).document
      (runs (step stateName plan) { document := start } actions).view := by
  obtain ⟨hholds, hdocument⟩ := runs_invariant_of_meets
    (I := fun s => Holds start plan s.view ∧ s.document = after start s.history)
    (fun s _ hbelow ⟨hholds, hdocument⟩ => by
      obtain ⟨hstep, hdocument'⟩ := step_refines hbelow hdocument
      exact ⟨hholds.step hstep, hdocument'⟩) hmeets ⟨holds_new, rfl⟩
  exact .of_holds hholds hdocument

end MemoryStore

/-! ## In PostgreSQL -/

theorem compareAndSwapStatement_writes {snapshot current : Option StateRow} {expected : ℕ}
    {value : Json} {row : StateRow}
    (h : compareAndSwapStatement snapshot current expected value = .ok (some row)) :
    (readPostgresValue current).revision = expected ∧ row.document = value ∧
      row.revision = expected + 1 ∧ isJsonb value = true := by
  unfold compareAndSwapStatement at h
  have hjsonb : isJsonb value = true := by
    by_contra hnot
    rw [if_pos (by simpa using hnot)] at h
    cases h
  rw [if_neg (by simp [hjsonb])] at h
  cases snapshot with
  | some =>
    simp only at h
    split_ifs at h
    · cases current with
      | none => cases h
      | some =>
        simp only at h
        split_ifs at h with hlatest
        · cases h
          exact ⟨hlatest, rfl, by simp [hlatest], hjsonb⟩
        · cases h
    · cases h
  | none =>
    simp only at h
    split_ifs at h with hzero
    · cases current with
      | some => cases h
      | none =>
        cases h
        exact ⟨hzero.symm, rfl, by simp [hzero], hjsonb⟩
    · cases h

namespace PostgresWriter

def view : PostgresWriter → Register.Writer Json AppError
  | idle => .idle
  | loaded seen | querying seen _ | written seen _ => .loaded seen
  | done seen result => .done seen result

end PostgresWriter

namespace PostgresStore

variable {stateName : String} {plan : WritePlan} {s t : PostgresStore} {action : PostgresAction}
  {start : VersionedValue}

/-- The store as a register. -/
def view (s : PostgresStore) : Register.State Json AppError :=
  ⟨s.history, fun n => (s.writers n).view⟩

/-- What is stored is what the writes have made of the first document, and a transaction that has
written the row holds the lock and will raise the revision that it expects. -/
structure Consistent (start : VersionedValue) (plan : WritePlan) (s : PostgresStore) : Prop where
  document : readPostgresValue s.row = after start s.history
  written : ∀ n seen row, s.writers n = .written seen row → s.lock = some n ∧
    (readPostgresValue s.row).revision = (plan n seen).1 ∧ row.document = (plan n seen).2 ∧
    row.revision = (plan n seen).1 + 1

theorem view_setWriter (n : ℕ) (writer : PostgresWriter) :
    (s.setWriter n writer).view = s.view.setWriter n writer.view := by
  refine congrArg _ (funext fun m => ?_)
  by_cases hm : m = n
  · subst hm
    simp [setWriter]
  · simp [setWriter, view, hm]

variable {n : ℕ} {writer : PostgresWriter} {seen : VersionedValue}

theorem view_setWriter_of_eq (hhistory : t.history = s.history) (hwriters : t.writers = s.writers)
    (hwriter : writer.view = (s.writers n).view) : (t.setWriter n writer).view = s.view := by
  rw [view_setWriter, view, hhistory, hwriters]
  exact congrArg _ (Function.update_eq_self_iff.mpr hwriter)

theorem view_loaded (hwriter : s.writers n = writer) (hview : writer.view = .loaded seen) :
    s.view.writers n = .loaded seen := by
  rw [← hview, ← hwriter]
  rfl

/-- A writer that does not get the lock, and leaves the row alone. -/
theorem Consistent.setWriter (h : Consistent start plan s) (hrow : t.row = s.row)
    (hhistory : t.history = s.history) (hwriters : t.writers = s.writers)
    (hlock : ∀ m, m ≠ n → s.lock = some m → t.lock = some m)
    (hwriter : ∀ seen row, writer ≠ .written seen row) :
    Consistent start plan (t.setWriter n writer) where
  document := by
    change readPostgresValue t.row = after start t.history
    rw [hrow, hhistory, h.document]
  written m seen row hm := by
    by_cases hmn : m = n
    · subst hmn
      exact absurd (by simpa [setWriter] using hm) (hwriter seen row)
    · obtain ⟨hheld, hrest⟩ :=
        h.written m seen row (by simpa [PostgresStore.setWriter, hmn, hwriters] using hm)
      refine ⟨hlock m hmn hheld, ?_⟩
      change (readPostgresValue t.row).revision = _ ∧ _
      rwa [hrow]

/-- A statement that writes gets the lock, or waits for it. -/
theorem execute_refines {snapshot : Option StateRow}
    (hwriter : s.writers n = .querying seen snapshot) (h : Consistent start plan s) :
    Step start plan s.view (s.execute stateName plan n seen snapshot).view ∧
      Consistent start plan (s.execute stateName plan n seen snapshot) := by
  have hloaded := view_loaded hwriter rfl
  rw [execute]
  split
  · rw [view_setWriter]
    exact ⟨.failure n seen _ hloaded, h.setWriter rfl rfl rfl (fun _ _ => id) nofun⟩
  · rw [view_setWriter]
    exact ⟨.failure n seen _ hloaded, h.setWriter rfl rfl rfl (fun _ _ => id) nofun⟩
  · next row hstatement =>
    split_ifs with hlock
    · have hview : ({ s with lock := some n }.setWriter n (.written seen row)).view = s.view :=
        view_setWriter_of_eq rfl rfl (by rw [hwriter]; rfl)
      refine ⟨by rw [hview]; exact .rest, h.document, fun m seen' row' hm => ?_⟩
      by_cases hmn : m = n
      · subst hmn
        have heq : (PostgresWriter.written seen row) = .written seen' row' := by
          simpa [setWriter] using hm
        cases heq
        obtain ⟨hexpected, hvalue, hrevision, -⟩ := compareAndSwapStatement_writes hstatement
        exact ⟨rfl, hexpected, hvalue, hrevision⟩
      · have hheld := h.written m _ row'
          (by simpa [setWriter, hmn] using hm)
        rw [hlock] at hheld
        cases hheld.1
    · exact ⟨.rest, h⟩

theorem commit_refines {row : StateRow} (hwriter : s.writers n = .written seen row)
    (h : Consistent start plan s) :
    Step start plan s.view (s.commit plan n seen row).view ∧
      Consistent start plan (s.commit plan n seen row) := by
  obtain ⟨hlock, hexpected, hvalue, hrevision⟩ := h.written n seen row hwriter
  have hloaded := view_loaded hwriter rfl
  have hstored : readPostgresValue (some row) =
      after start (⟨n, (plan n seen).1, (plan n seen).2⟩ :: s.history) := by
    rw [readPostgresValue, hvalue, hrevision]
    rfl
  refine ⟨?_, hstored, fun m _ row' hm => ?_⟩
  · rw [commit, view_setWriter, hrevision]
    refine .success n seen hloaded ?_
    rw [← hexpected, h.document]
    rfl
  · have hmn : m ≠ n := by
      rintro rfl
      simp [commit, setWriter] at hm
    -- nobody else holds the lock
    have hheld := h.written m _ row'
      (by simpa [commit, setWriter, hmn] using hm)
    rw [hlock, Option.some.injEq] at hheld
    exact absurd hheld.1.symm hmn

theorem fail_refines (n : ℕ) (error : AppError) (h : Consistent start plan s) :
    Step start plan s.view (s.fail n error).view ∧
      Consistent start plan (s.fail n error) := by
  cases hwriter : s.writers n <;> simp only [fail, hwriter]
  case loaded seen | querying seen snapshot =>
    rw [view_setWriter]
    exact ⟨.failure n seen _ (view_loaded hwriter rfl),
      h.setWriter rfl rfl rfl (fun _ _ => id) nofun⟩
  case written seen row =>
    rw [view_setWriter]
    refine ⟨.failure n seen _ (view_loaded hwriter rfl),
      h.setWriter rfl rfl rfl (fun m hm hheld => ?_) nofun⟩
    rw [(h.written n seen row hwriter).1, Option.some.injEq] at hheld
    exact absurd hheld.symm hm
  all_goals exact ⟨.rest, h⟩

/-- Every step in PostgreSQL is one of the register. -/
theorem step_refines (action : PostgresAction) (h : Consistent start plan s) :
    Step start plan s.view (s.step stateName plan action).view ∧
      Consistent start plan (s.step stateName plan action) := by
  cases action with
  | read n =>
    cases hwriter : s.writers n <;> simp only [step, hwriter]
    case idle =>
      rw [view_setWriter, h.document]
      exact ⟨.read n (by simp [view, hwriter, PostgresWriter.view]),
        h.setWriter rfl rfl rfl (fun _ _ => id) nofun⟩
    all_goals exact ⟨.rest, h⟩
  | query n =>
    cases hwriter : s.writers n <;> simp only [step, hwriter]
    case loaded seen =>
      rw [query]
      split_ifs
      · refine ⟨?_, h.setWriter rfl rfl rfl (fun _ _ => id) nofun⟩
        rw [view_setWriter_of_eq rfl rfl (by rw [hwriter]; rfl)]
        exact .rest
      · rw [view_setWriter]
        exact ⟨.failure n seen _ (view_loaded hwriter rfl),
          h.setWriter rfl rfl rfl (fun _ _ => id) nofun⟩
    all_goals exact ⟨.rest, h⟩
  | execute n =>
    cases hwriter : s.writers n <;> simp only [step, hwriter]
    case querying seen snapshot => exact execute_refines hwriter h
    all_goals exact ⟨.rest, h⟩
  | commit n =>
    cases hwriter : s.writers n <;> simp only [step, hwriter]
    case written seen row => exact commit_refines hwriter h
    all_goals exact ⟨.rest, h⟩
  | fail n error => exact fail_refines n error h

theorem linearizes (row : Option StateRow) (actions : List PostgresAction) :
    Linearizes (readPostgresValue row) plan
      (readPostgresValue (runs (step stateName plan) { row } actions).row)
      (runs (step stateName plan) { row } actions).view := by
  have hruns : Holds (readPostgresValue row) plan
      (runs (step stateName plan) { row } actions).view ∧
      Consistent (readPostgresValue row) plan (runs (step stateName plan) { row } actions) := by
    refine runs_invariant (I := fun s => Holds _ plan _ ∧
      Consistent _ plan s) (fun s _ ⟨hholds, hconsistent⟩ => ?_)
      ⟨holds_new, rfl, nofun⟩
    obtain ⟨hstep, hconsistent'⟩ := step_refines _ hconsistent
    exact ⟨hholds.step hstep, hconsistent'⟩
  exact .of_holds hruns.1 hruns.2.document

end PostgresStore

/-! ## Both backends -/

/-- Over both backends and for every number of writers, no update is lost. -/
theorem state_store_linearizes (stateName : String) (plan : WritePlan) : (∀ start actions,
      Meets (MemoryStore.step stateName plan) (MemoryStore.BelowLast plan) { document := start }
        actions →
      Linearizes start plan
        (runs (MemoryStore.step stateName plan) { document := start } actions).document
        (runs (MemoryStore.step stateName plan) { document := start } actions).view) ∧
    ∀ row actions, Linearizes (readPostgresValue row) plan
        (readPostgresValue (runs (PostgresStore.step stateName plan) { row } actions).row)
        (runs (PostgresStore.step stateName plan) { row } actions).view :=
  ⟨fun _ _ => linearizes, linearizes⟩

/-- Every writer expects the revision it has read, and one of them writes `true`. -/
def markedBy (marked : ℕ) : WritePlan := fun n seen => (seen.revision, .bool (n = marked))

/-- Two writers find no document. Over either backend the first one that gets to write succeeds. -/
theorem create_race_linearizes : (runs (MemoryStore.step "auth" (markedBy 1)) { document := {} }
      [.read 0, .read 1, .swap 1, .swap 0]).history = [⟨1, 0, .bool true⟩] ∧
    Linearizes {} (markedBy 1) (runs (MemoryStore.step "auth" (markedBy 1)) { document := {} }
        [.read 0, .read 1, .swap 1, .swap 0]).document
      (runs (MemoryStore.step "auth" (markedBy 1)) { document := {} }
        [.read 0, .read 1, .swap 1, .swap 0]).view ∧
    (runs (PostgresStore.step "auth" (markedBy 1)) {}
      [.read 0, .read 1, .query 0, .query 1, .execute 1, .execute 0, .commit 1,
        .execute 0]).history = [⟨1, 0, .bool true⟩] ∧
    Linearizes {} (markedBy 1) (readPostgresValue (runs (PostgresStore.step "auth" (markedBy 1)) {}
        [.read 0, .read 1, .query 0, .query 1, .execute 1, .execute 0, .commit 1, .execute 0]).row)
      (runs (PostgresStore.step "auth" (markedBy 1)) {}
        [.read 0, .read 1, .query 0, .query 1, .execute 1, .execute 0, .commit 1,
          .execute 0]).view := by
  refine ⟨rfl, (state_store_linearizes "auth" (markedBy 1)).1 {} _ ?_, rfl,
    (state_store_linearizes "auth" (markedBy 1)).2 none _⟩
  refine ⟨nofun, nofun, ?_, ?_, trivial⟩
  · rintro n _ ⟨⟩ ⟨⟩
    decide
  · rintro n _ ⟨⟩ ⟨⟩
    decide

/-- Writers that come one after the other. -/
def oneByOne (count : ℕ) : List MemoryAction :=
  (List.range count).flatMap fun n => [.read n, .swap n]

theorem oneByOne_reaches (stateName : String) {count last : ℕ} (hcount : count ≤ last)
    (hlast : last ≤ 2 ^ 64 - 1) :
    let s := runs (step stateName (markedBy last)) { document := {} } (oneByOne count)
    s.document.revision = count ∧ (∀ n, count ≤ n → s.writers n = .idle) ∧
      ∀ w ∈ s.history, w.value = .bool false := by
  induction count with
  | zero => exact ⟨rfl, fun _ _ => rfl, nofun⟩
  | succ count ih =>
    obtain ⟨hrevision, hidle, hhistory⟩ := ih (by omega)
    have hsplit : oneByOne (count + 1) = oneByOne count ++ [.read count, .swap count] := by
      simp [oneByOne, List.range_succ]
    rw [hsplit, runs_append]
    generalize runs (step stateName (markedBy last)) { document := {} }
      (oneByOne _) = s at hrevision hidle hhistory
    have hroom : s.document.revision < 2 ^ 64 - 1 := by omega
    have hne : count ≠ last := by omega
    simp only [runs, List.foldl_cons, List.foldl_nil, step, hidle _ le_rfl,
      setWriter, Function.update_self, swap, markedBy,
      compareAndSwapMemory, ne_eq, not_true_eq_false, if_false, if_pos hroom]
    refine ⟨by rw [hrevision], fun n hn => ?_, fun w hw => ?_⟩
    · have hn' : n ≠ count := by omega
      simp only [Function.update_of_ne hn']
      exact hidle n (by omega)
    · rcases List.mem_cons.mp hw with rfl | hw
      · exact congrArg Json.bool (decide_eq_false hne)
      · exact hhistory w hw

/-- In memory the last writer that fits fails for want of a revision, but its document is stored. -/
theorem exhausted_revision_stores_document : ∃ actions,
      let s := runs (MemoryStore.step "auth" (markedBy (2 ^ 64 - 1))) { document := {} } actions
      (∃ seen, s.writers (2 ^ 64 - 1) =
        .done seen (.error (.database "state revision exhausted"))) ∧
      s.document.value = some (.bool true) ∧ ∀ w ∈ s.history, w.value = .bool false := by
  obtain ⟨last, hlast⟩ : ∃ last, 2 ^ 64 - 1 = last := ⟨_, rfl⟩
  rw [hlast]
  refine ⟨oneByOne last ++ [.read last, .swap last], ?_⟩
  obtain ⟨hrevision, hidle, hhistory⟩ := oneByOne_reaches "auth" (le_refl last) hlast.ge
  rw [runs_append]
  generalize runs (step "auth" (markedBy last)) { document := {} } (oneByOne last) = s
    at hrevision hidle hhistory
  have hfull : ¬ s.document.revision < 2 ^ 64 - 1 := by omega
  simp only [runs, List.foldl_cons, List.foldl_nil, step, hidle last le_rfl,
    setWriter, Function.update_self, swap, markedBy,
    compareAndSwapMemory, ne_eq, not_true_eq_false, if_false, if_neg hfull]
  exact ⟨⟨_, rfl⟩, congrArg (some ∘ Json.bool) (decide_eq_true trivial), hhistory⟩

/-! ## Two namespaces at once -/

/-- The expected revision is the current one, a `BIGINT` has room for the next, and the document is
one that `JSONB` takes. -/
structure StateWrite.Applies (write : StateWrite) (rows : StateRows) : Prop where
  current : (readPostgresValue (rows.lookup write.stateName)).revision = write.expectedRevision
  room : write.expectedRevision + 1 < 2 ^ 63
  jsonb : isJsonb write.value = true

def StateWrite.written (write : StateWrite) : VersionedValue :=
  ⟨some write.value, write.expectedRevision + 1⟩

/-- What `compare_and_swap_pair` is called with. -/
structure PairCall where
  firstUrl : String
  secondUrl : String
  first : StateWrite
  second : StateWrite

namespace PairCall

variable (pair : PairCall)

def program : StateTxn (ℕ × ℕ) :=
  compareAndSwapPair
    ⟨.postgres pair.firstUrl pair.first.stateName, pair.first.expectedRevision, pair.first.value⟩
    ⟨.postgres pair.secondUrl pair.second.stateName, pair.second.expectedRevision,
      pair.second.value⟩

/-- What a pair needs to be swapped: one database, two namespaces, and both writes applicable. -/
structure Swappable (rows : StateRows) : Prop where
  url : pair.firstUrl = pair.secondUrl
  stateName : pair.first.stateName ≠ pair.second.stateName
  first : pair.first.Applies rows
  second : pair.second.Applies rows

/-- Both documents are in place, with the revisions returned, and nothing else has changed. -/
structure Installed (revisions : ℕ × ℕ) (rows rows' : StateRows) : Prop where
  revisions : revisions = (pair.first.expectedRevision + 1, pair.second.expectedRevision + 1)
  first : readPostgresValue (rows'.lookup pair.first.stateName) = pair.first.written
  second : readPostgresValue (rows'.lookup pair.second.stateName) = pair.second.written
  other : ∀ name, name ≠ pair.first.stateName → name ≠ pair.second.stateName →
    rows'.lookup name = rows.lookup name

end PairCall

section Pairs

open Txn Server

variable {write : StateWrite} {rows rows' : StateRows}

theorem StateWrite.applies_congr (h : rows.lookup write.stateName = rows'.lookup write.stateName) :
    write.Applies rows ↔ write.Applies rows' :=
  ⟨fun ⟨hcurrent, hroom, hjsonb⟩ => ⟨h ▸ hcurrent, hroom, hjsonb⟩,
    fun ⟨hcurrent, hroom, hjsonb⟩ => ⟨h ▸ hcurrent, hroom, hjsonb⟩⟩

theorem compareAndSwapStatement_of_applies (h : write.Applies rows) :
    ∃ row, compareAndSwapStatement (rows.lookup write.stateName) (rows.lookup write.stateName)
      write.expectedRevision write.value = .ok (some row) := by
  obtain ⟨hrevision, hroom, hjsonb⟩ := h
  simp only [compareAndSwapStatement, hjsonb, Bool.not_true, Bool.false_eq_true, if_false]
  cases hrow : rows.lookup write.stateName with
  | none =>
    have hzero : write.expectedRevision = 0 := by rw [← hrevision, hrow]; rfl
    exact ⟨_, by simp only [if_pos hzero]; rfl⟩
  | some row =>
    have hcurrent : row.revision = write.expectedRevision := by rw [← hrevision, hrow]; rfl
    have hnext := hcurrent ▸ hroom
    exact ⟨_, by simp only [if_pos hcurrent, dif_pos hnext]; rfl⟩

theorem wp_compareAndSwapPostgresValue {w db : StateRows} {Q : ℕ → StateRows → StateRows → Prop}
    {E : AppError → StateRows → StateRows → Prop}
    (herror : ∀ e, ¬write.Applies (w ∪ db) → E e w db)
    (hok : ∀ row db', write.Applies (w ∪ db) → readPostgresValue (some row) = write.written →
      Evolves (.singleton write.stateName row ∪ w) db db' →
        Q (write.expectedRevision + 1) (.singleton write.stateName row ∪ w) db') :
    (compareAndSwapPostgresValue write).Wp (fun _ => True) Q E w db := by
  unfold compareAndSwapPostgresValue
  split_ifs with hbigint
  · refine wp_statement (fun e he => herror e fun hcurrent => ?_) fun u _ hu db' _ hdb' => ?_
    · obtain ⟨row, hrow⟩ := compareAndSwapStatement_of_applies hcurrent
      simp only [hrow] at he
      cases he
    · simp only at hu
      split at hu
      · cases hu
      · cases hu
      next row hrow =>
        cases hu
        obtain ⟨hrevision, hvalue, hnext, hjsonb⟩ := compareAndSwapStatement_writes hrow
        have hwritten : readPostgresValue (some row) = write.written := by
          rw [written, readPostgresValue, hvalue, hnext]
        rw [hnext]
        exact hok row db' ⟨hrevision, hnext ▸ row.revision_lt, hjsonb⟩ hwritten hdb'
  · exact (wp_raise _ _).mpr (herror _ fun h => hbigint (Nat.lt_of_succ_lt h.room))

/-- A pair that gets through is swappable at that moment, and one that is refused is not. -/
theorem wp_compareAndSwapPair (pair : PairCall) (db : StateRows) : pair.program.Wp (fun _ => True)
      (fun revisions w db => pair.Swappable db ∧ pair.Installed revisions db (w ∪ db))
      (fun _ _ db => ¬pair.Swappable db) ∅ db := by
  simp only [PairCall.program, compareAndSwapPair]
  split_ifs with hurl hname
  · exact (wp_raise _ _).mpr fun h => hurl h.url
  · exact (wp_raise _ _).mpr (·.stateName hname)
  simp only [compareAndSwapPostgresValues, wp_bind, wp_pure]
  refine wp_compareAndSwapPostgresValue (fun _ hnot h => hnot ?_) fun row db₁ hfirst hrow hdb₁ => ?_
  · exact h.first
  -- the transaction holds the first row from here on
  have hheld : pair.first.Applies db₁ := by
    exact (applies_congr (hdb₁.lookup_eq _ (by simp))).mpr hfirst
  have hview : pair.second.Applies ((.singleton pair.first.stateName row ∪ ∅) ∪ db₁) ↔
      pair.second.Applies db₁ := by
    refine applies_congr ?_
    rw [lookup_layer_of_notMem (by simpa using Ne.symm hname), AList.empty_union]
  refine wp_compareAndSwapPostgresValue (fun _ hnot h => hnot (hview.mpr h.second)) ?_
  intro _ _ hsecond hrow' hdb₂
  refine ⟨⟨not_not.mp hurl, hname, ?_, ?_⟩, rfl, ?_, ?_, fun _ hne hne' => ?_⟩
  · exact (applies_congr (hdb₂.lookup_eq _ (by simp))).mpr hheld
  · exact (applies_congr (hdb₂.lookup_eq _ (by simp))).mpr (hview.mp hsecond)
  · rw [lookup_layer_of_notMem (by simpa using hname), lookup_layer_singleton_self, hrow]
  · rw [lookup_layer_singleton_self, hrow']
  · rw [lookup_layer_of_notMem (by simpa using hne'), lookup_layer_of_notMem (by simpa using hne),
      AList.empty_union]

/-- Whatever else is running, a pair that ends with a result has succeeded exactly if it was
swappable at that moment, and no other step of it changes anything. Alone it does end. -/
theorem compareAndSwapPair_all_or_nothing {Op : Type} {program : Op → StateTxn (ℕ × ℕ)} {op : Op}
    (pair : PairCall) (hop : program op = pair.program) {db : StateRows}
    {s : Server Op (fun _ : String => StateRow) AppError (ℕ × ℕ)}
    (hrun : Run program (initial db) s) (i : ℕ) :
    (∀ s', Step program i s s' → (s'.calls i).op = some op →
      (∀ result, s'.calls i = .returned op result →
        (∃ revisions, result = .ok revisions ∧ pair.Swappable s.db ∧
          pair.Installed revisions s.db s'.db) ∨
        (∃ e, result = .error e) ∧ ¬pair.Swappable s.db ∧ s'.db = s.db) ∧
      ((∀ result, s'.calls i ≠ .returned op result) → s'.db = s.db)) ∧
    (Quiet s → s.calls i = .idle → pair.Swappable s.db →
      ∃ s' revisions, Run program s s' ∧ s'.calls i = .returned op (.ok revisions)) := by
  have hwp := hop ▸ wp_compareAndSwapPair pair
  -- of the other calls nothing is said
  have hsession : SessionInvariant program (fun _ => True) (Guarded (fun _ => True)
      (fun op' revisions w db => op' = op →
        pair.Swappable db ∧ pair.Installed revisions db (w ∪ db))
      fun op' _ _ db => op' = op → ¬pair.Swappable db) := by
    refine .of_wp (fun op' db _ => ?_) fun _ _ _ _ _ _ => trivial
    by_cases heq : op' = op
    · subst heq
      exact (hwp db).conseq (fun _ _ _ h _ => h) fun _ _ _ h _ => h
    · exact (wp_true ..).conseq (fun _ _ _ _ h => absurd h heq) fun _ _ _ _ h => absurd h heq
  refine ⟨fun _ hstep hcall => ⟨fun result hresult => ?_, fun hnone => ?_⟩,
    fun hquiet hidle h => ?_⟩
  · have hbefore : s.calls i ≠ .returned op result := by
      cases hstep <;> simp_all
    rcases hstep.guarded_return (hrun.holds hsession (.initial trivial)) hresult hbefore with
      ⟨revisions, w, rfl, hdb, hpair⟩ | ⟨e, _, rfl, hdb, hnot⟩
    · exact .inl ⟨revisions, rfl, (hpair rfl).1, hdb ▸ (hpair rfl).2⟩
    · exact .inr ⟨⟨e, rfl⟩, hnot rfl, hdb⟩
  · rcases hstep.db_eq_or_commit with hdb | ⟨_, a, w, -, hreturned, -⟩
    · exact hdb
    · rw [hreturned] at hcall
      cases hcall
      exact absurd hreturned (hnone _)
  · rcases (hwp s.db).run_cases trivial with ⟨revisions, w, hok, -⟩ | ⟨_, _, -, hnot⟩
    · obtain ⟨_, s₂, hrun₁, hstep, -, -, hreturned, -⟩ := hquiet.exists_commit hidle hok
      exact ⟨s₂, revisions, hrun₁.tail ⟨i, hstep⟩, hreturned⟩
    · exact absurd h hnot

/-- A first restore of two namespaces. -/
def restore (firstName secondName : String) : PairCall :=
  ⟨"postgres://db", "postgres://db", ⟨firstName, 0, .null⟩, ⟨secondName, 0, .null⟩⟩

theorem compareAndSwapPair_creates_both : ∃ s' revisions, Run PairCall.program (initial ∅) s' ∧
      s'.calls 0 = .returned (restore "auth" "control") (.ok revisions) := by
  have hrun : Run PairCall.program (initial ∅) (initial ∅) := .refl
  exact (compareAndSwapPair_all_or_nothing (restore "auth" "control") rfl hrun 0).2
    nofun rfl ⟨rfl, by decide, ⟨rfl, by decide, rfl⟩, rfl, by decide, rfl⟩

/-- Both writes apply all along, but the two namespaces are one. -/
theorem compareAndSwapPair_refuses_one_namespace :
    (restore "auth" "auth").first.Applies ∅ ∧ (restore "auth" "auth").second.Applies ∅ ∧
    ∃ s', Run PairCall.program (initial ∅) s' ∧ s'.db = ∅ ∧ s'.calls 0 = .returned
      (restore "auth" "auth")
      (.error (.invalidRequest "atomic state restore requires distinct namespaces")) := by
  have hrefused : (restore "auth" "auth").program.run ∅ ∅ = .error _ := rfl
  obtain ⟨s', hrun, hdb, hreturned, -⟩ := Quiet.exists_refusal (s := initial ∅)
    nofun rfl hrefused
  exact ⟨⟨rfl, by decide, rfl⟩, ⟨rfl, by decide, rfl⟩, s', hrun, hdb, hreturned⟩

end Pairs

end RouteSmith.Model
