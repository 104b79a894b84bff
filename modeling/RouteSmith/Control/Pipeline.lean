/-! # Pipelines of commands

A pipeline performs commands whose answers come from elsewhere, and may fail, one after the other;
what it does next depends on the answers so far. Between two answers it can be dropped without
running any of its handlers.
-/

namespace RouteSmith.Control

/-- A pipeline with commands `C`, answers `R`, failures `ε` and result `α`. -/
inductive Pipeline (C : Type) (R : C → Type) (ε α : Type) : Type where
  | done (a : α)
  | fail (e : ε)
  | call (c : C) (next : Except ε (R c) → Pipeline C R ε α)

namespace Pipeline

variable {C : Type} {R : C → Type} {ε α β : Type}

/-- `flatMap`: failures pass it by. -/
protected def bind : Pipeline C R ε α → (α → Pipeline C R ε β) → Pipeline C R ε β
  | done a, f => f a
  | fail e, _ => fail e
  | call c next, f => call c fun r => (next r).bind f

instance : Monad (Pipeline C R ε) where
  pure := done
  bind := Pipeline.bind

def onErrorResume : Pipeline C R ε α → (ε → Pipeline C R ε α) → Pipeline C R ε α
  | done a, _ => done a
  | fail e, handler => handler e
  | call c next, handler => call c fun r => (next r).onErrorResume handler

def ofExcept : Except ε α → Pipeline C R ε α
  | .ok a => done a
  | .error e => fail e

/-- A single command. -/
def perform (c : C) : Pipeline C R ε (R c) := call c ofExcept

/-- A pipeline whose assembly may throw: what is thrown becomes a failure. -/
def assembled : Except ε (Pipeline C R ε α) → Pipeline C R ε α
  | .ok p => p
  | .error e => fail e

/-! ## Properties along the answers

A monitor watches a pipeline and keeps a state of its own. `Along` says that the pipeline gives only
commands that the monitor permits, and what the monitor's state is when the pipeline ends, whatever
answers it gets out of those that are expected.
-/

structure Monitor (C : Type) (R : C → Type) (ε σ : Type) where
  permits : σ → C → Prop
  expects : σ → ∀ c, Except ε (R c) → Prop
  note : σ → ∀ c, Except ε (R c) → σ

section Along

variable {σ : Type} (M : Monitor C R ε σ)

def Along (Q : σ → α → Prop) (E : σ → ε → Prop) : Pipeline C R ε α → σ → Prop
  | done a, s => Q s a
  | fail e, s => E s e
  | call c next, s =>
    M.permits s c ∧ ∀ r, M.expects s c r → (next r).Along Q E (M.note s c r)

variable {M} {Q : σ → α → Prop} {E : σ → ε → Prop} {s : σ}

@[simp] theorem along_bind (p : Pipeline C R ε β) (f : β → Pipeline C R ε α) :
    Along M Q E (p >>= f) s ↔ Along M (fun s b => Along M Q E (f b) s) E p s := by
  induction p generalizing s with
  | done | fail => exact Iff.rfl
  | call c next ih => exact and_congr_right fun _ => forall₂_congr fun r _ => ih r

@[simp] theorem along_onErrorResume (p : Pipeline C R ε α) (handler : ε → Pipeline C R ε α) :
    Along M Q E (p.onErrorResume handler) s ↔
      Along M Q (fun s e => Along M Q E (handler e) s) p s := by
  induction p generalizing s with
  | done | fail => exact Iff.rfl
  | call c next ih => exact and_congr_right fun _ => forall₂_congr fun r _ => ih r

theorem along_perform {c : C} {Q : σ → R c → Prop} (hpermits : M.permits s c)
    (hok : ∀ x, M.expects s c (.ok x) → Q (M.note s c (.ok x)) x)
    (herror : ∀ e, M.expects s c (.error e) → E (M.note s c (.error e)) e) :
    Along M Q E (perform c) s := by
  refine ⟨hpermits, fun r hr => ?_⟩
  cases r with
  | ok x => exact hok x hr
  | error e => exact herror e hr

theorem Along.mono {p : Pipeline C R ε α} {Q' : σ → α → Prop} {E' : σ → ε → Prop}
    (h : Along M Q E p s) (hQ : ∀ s a, Q s a → Q' s a) (hE : ∀ s e, E s e → E' s e) :
    Along M Q' E' p s := by
  induction p generalizing s with
  | done a => exact hQ s a h
  | fail e => exact hE s e h
  | call c next ih => exact ⟨h.1, fun r hr => ih r (h.2 r hr)⟩

/-- What holds along a pipeline holds from a state below, if all the monitor does goes down with the
state. -/
theorem Along.of_le [LE σ] {p : Pipeline C R ε α} {s' : σ} (h : Along M Q E p s) (hle : s' ≤ s)
    (hpermits : ∀ {s s'} c, s' ≤ s → M.permits s c → M.permits s' c)
    (hexpects : ∀ {s s'} c r, s' ≤ s → M.expects s' c r → M.expects s c r)
    (hnote : ∀ {s s'} c r, s' ≤ s → M.note s' c r ≤ M.note s c r)
    (hQ : ∀ {s s'} a, s' ≤ s → Q s a → Q s' a) (hE : ∀ {s s'} e, s' ≤ s → E s e → E s' e) :
    Along M Q E p s' := by
  induction p generalizing s s' with
  | done a => exact hQ a hle h
  | fail e => exact hE e hle h
  | call c next ih =>
    exact ⟨hpermits c hle h.1, fun r hr => ih r (h.2 r (hexpects c r hle hr)) (hnote c r hle)⟩

end Along

end Pipeline

end RouteSmith.Control
