import Mathlib.Data.List.Infix
import Mathlib.Data.List.Nodup
import Mathlib.Data.List.Range

/-! # A register with revisions

Writers read a document with its revision, and a write succeeds if it expects the revision that
the register has. What the register holds is then what the successful writes make of its first
document, one after the other.
-/

namespace RouteSmith.Store

open List

/-- A document, if there is one, and its revision. -/
structure Versioned (δ : Type*) where
  value : Option δ := none
  revision : ℕ := 0

/-- A write that has succeeded. -/
structure Write (δ : Type*) where
  writer : ℕ
  expected : ℕ
  value : δ

namespace Register

variable {δ ε : Type*} (start : Versioned δ)

/-! ## Histories -/

/-- The register after some writes, the latest first. -/
def after : List (Write δ) → Versioned δ
  | [] => start
  | w :: _ => ⟨some w.value, w.expected + 1⟩

/-- Each write expects the revision that the writes before it have left. -/
def InOrder : List (Write δ) → Prop
  | [] => True
  | w :: history => w.expected = (after start history).revision ∧ InOrder history

/-- Each writer has made its document from the one before. -/
def Builds (update : ℕ → Option δ → δ) : List (Write δ) → Prop
  | [] => True
  | w :: history => w.value = update w.writer (after start history).value ∧ Builds update history

/-- A state that the register has been in. -/
def Past (history : List (Write δ)) (seen : Versioned δ) : Prop :=
  ∃ earlier, earlier <:+ history ∧ seen = after start earlier

variable {start} {history : List (Write δ)} {w : Write δ} {seen : Versioned δ}
  {update : ℕ → Option δ → δ}

theorem InOrder.revision (h : InOrder start history) :
    (after start history).revision = start.revision + history.length := by
  induction history with
  | nil => rfl
  | cons _ _ ih =>
    rw [after, h.1, ih h.2]
    rfl

theorem InOrder.map_expected (h : InOrder start history) :
    history.map Write.expected = (range' start.revision history.length).reverse := by
  induction history with
  | nil => rfl
  | cons _ _ ih =>
    rw [map_cons, ih h.2, h.1, h.2.revision, length_cons, range'_concat,
      reverse_append, Nat.one_mul]
    rfl

theorem InOrder.of_suffix {earlier : List (Write δ)} (hsuffix : earlier <:+ history)
    (h : InOrder start history) : InOrder start earlier := by
  obtain ⟨later, rfl⟩ := hsuffix
  induction later with
  | nil => exact h
  | cons w later ih => exact ih h.2

/-- The revision of a state that the register has been in says which one it is. -/
theorem Past.eq_after (h : InOrder start history) (hpast : Past start history seen)
    (hrevision : seen.revision = (after start history).revision) : seen = after start history := by
  obtain ⟨_, hsuffix, rfl⟩ := hpast
  rw [(h.of_suffix hsuffix).revision, h.revision] at hrevision
  rw [hsuffix.eq_of_length (by omega)]

theorem Past.cons (h : Past start history seen) (w : Write δ) : Past start (w :: history) seen := by
  obtain ⟨earlier, hsuffix, hseen⟩ := h
  exact ⟨earlier, hsuffix.trans (suffix_cons w history), hseen⟩

theorem after_value_eq_foldr (h : Builds start update history) : (after start history).value =
      history.foldr (fun w value => some (update w.writer value)) start.value := by
  induction history with
  | nil => rfl
  | cons _ _ ih =>
    rw [foldr_cons, ← ih h.2, ← h.1]
    rfl

/-! ## Writers -/

inductive Writer (δ ε : Type*) where
  | idle
  /-- The writer has read the register. -/
  | loaded (seen : Versioned δ)
  | done (seen : Versioned δ) (result : Except ε ℕ)

def Writer.seen? : Writer δ ε → Option (Versioned δ)
  | idle => none
  | loaded seen | done seen _ => some seen

/-- The successful writes, the latest first, and where the writers stand. -/
structure State (δ ε : Type*) where
  history : List (Write δ) := []
  writers : ℕ → Writer δ ε := fun _ => .idle

def State.setWriter (s : State δ ε) (n : ℕ) (writer : Writer δ ε) : State δ ε :=
  { s with writers := Function.update s.writers n writer }

/-- What a step can do: a writer reads, or its write succeeds or fails. The plan says which revision
a writer expects and which document it writes, given what it has read. -/
inductive Step (start : Versioned δ) (plan : ℕ → Versioned δ → ℕ × δ) (s : State δ ε) :
    State δ ε → Prop
  | rest : Step start plan s s
  | read (n : ℕ) (h : s.writers n = .idle) :
      Step start plan s (s.setWriter n (.loaded (after start s.history)))
  | success (n : ℕ) (seen : Versioned δ) (h : s.writers n = .loaded seen)
      (hexpected : (plan n seen).1 = (after start s.history).revision) :
      Step start plan s
        ({ s with history := ⟨n, (plan n seen).1, (plan n seen).2⟩ :: s.history }.setWriter n
          (.done seen (.ok ((plan n seen).1 + 1))))
  | failure (n : ℕ) (seen : Versioned δ) (error : ε) (h : s.writers n = .loaded seen) :
      Step start plan s (s.setWriter n (.done seen (.error error)))

/-- Writers have seen states of the register, and the history holds their successful writes. -/
structure Holds (start : Versioned δ) (plan : ℕ → Versioned δ → ℕ × δ) (s : State δ ε) :
    Prop where
  inOrder : InOrder start s.history
  past : ∀ n seen, (s.writers n).seen? = some seen → Past start s.history seen
  stored : ∀ w ∈ s.history, ∃ seen, s.writers w.writer = .done seen (.ok (w.expected + 1)) ∧
    plan w.writer seen = (w.expected, w.value)
  recorded : ∀ n seen revision, s.writers n = .done seen (.ok revision) →
    ∃ w ∈ s.history, w.writer = n
  nodup : (s.history.map Write.writer).Nodup
  builds : ∀ update, (∀ n seen, plan n seen = (seen.revision, update n seen.value)) →
    Builds start update s.history

variable {plan : ℕ → Versioned δ → ℕ × δ} {s t : State δ ε}

theorem holds_new : Holds start plan ({} : State δ ε) where
  inOrder := trivial
  past := nofun
  stored := nofun
  recorded := nofun
  nodup := nodup_nil
  builds _ _ := trivial

theorem Holds.setWriter {n : ℕ} {writer : Writer δ ε} (h : Holds start plan s)
    (hbefore : ∀ seen revision, s.writers n ≠ .done seen (.ok revision))
    (hafter : ∀ seen revision, writer ≠ .done seen (.ok revision))
    (hseen : ∀ seen, writer.seen? = some seen → Past start s.history seen) :
    Holds start plan (s.setWriter n writer) where
  inOrder := h.inOrder
  past m seen hm := by
    by_cases hmn : m = n
    · subst hmn
      exact hseen seen (by simpa [State.setWriter] using hm)
    · exact h.past m seen (by simpa [State.setWriter, hmn] using hm)
  stored w hw := by
    obtain ⟨seen, hdone, hplan⟩ := h.stored w hw
    have hne : w.writer ≠ n := by
      rintro rfl
      exact hbefore _ _ hdone
    exact ⟨seen, by simpa [State.setWriter, hne] using hdone, hplan⟩
  recorded m seen _ hm := by
    by_cases hmn : m = n
    · subst hmn
      exact absurd (by simpa [State.setWriter] using hm) (hafter seen _)
    · exact h.recorded m seen _ (by simpa [State.setWriter, hmn] using hm)
  nodup := h.nodup
  builds := h.builds

theorem Holds.success {n : ℕ} {seen : Versioned δ} (h : Holds start plan s)
    (hloaded : s.writers n = .loaded seen)
    (hexpected : (plan n seen).1 = (after start s.history).revision) :
    Holds start plan
      ({ s with history := ⟨n, (plan n seen).1, (plan n seen).2⟩ :: s.history }.setWriter n
        (.done seen (.ok ((plan n seen).1 + 1)))) where
  inOrder := ⟨hexpected, h.inOrder⟩
  past m seen' hm := by
    by_cases hmn : m = n
    · subst hmn
      have heq : seen = seen' := by simpa [State.setWriter, Writer.seen?] using hm
      subst heq
      exact (h.past m seen (by rw [hloaded]; rfl)).cons _
    · exact (h.past m _ (by simpa [State.setWriter, hmn] using hm)).cons _
  stored w hw := by
    rcases mem_cons.mp hw with rfl | hw
    · exact ⟨seen, by simp [State.setWriter], rfl⟩
    · obtain ⟨seen', hdone, hplan⟩ := h.stored w hw
      have hne : w.writer ≠ n := by
        rintro rfl
        rw [hloaded] at hdone
        cases hdone
      exact ⟨seen', by simpa [State.setWriter, hne] using hdone, hplan⟩
  recorded m _ _ hm := by
    by_cases hmn : m = n
    · exact ⟨_, mem_cons_self, hmn.symm⟩
    · obtain ⟨w, hw, hwriter⟩ :=
        h.recorded m _ _ (by simpa [State.setWriter, hmn] using hm)
      exact ⟨w, mem_cons_of_mem _ hw, hwriter⟩
  nodup := by
    refine nodup_cons.mpr ⟨fun hmem => ?_, h.nodup⟩
    obtain ⟨w, hw, rfl⟩ := mem_map.mp hmem
    obtain ⟨_, hdone, -⟩ := h.stored w hw
    rw [hloaded] at hdone
    cases hdone
  builds _ hplan := by
    refine ⟨?_, h.builds _ hplan⟩
    -- the revision that the writer expects is that of the document it has read
    have hseen := (h.past n seen (by rw [hloaded]; rfl)).eq_after h.inOrder
      (by rw [← hexpected, hplan])
    rw [hplan, hseen]

theorem Holds.step (hstep : Step start plan s t) (h : Holds start plan s) : Holds start plan t := by
  cases hstep with
  | rest => exact h
  | read n hidle =>
    refine h.setWriter (by rw [hidle]; exact nofun) nofun fun seen hseen => ?_
    cases hseen
    exact ⟨s.history, suffix_refl _, rfl⟩
  | success n seen hloaded hexpected => exact h.success hloaded hexpected
  | failure n _ _ hloaded =>
    refine h.setWriter (by rw [hloaded]; exact nofun) nofun fun _ hseen => ?_
    exact h.past n _ (by rw [hloaded]; exact hseen)

end Register

end RouteSmith.Store
