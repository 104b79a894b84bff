import Mathlib.Logic.Basic

/-! # Computations that may exit early

What a computation with a state ensures when it returns, and when it exits with a reason. The
state at the exit is kept, so that what was done before it is not lost. Values that a specification
only speaks about are ordinary parameters of the conditions.
-/

namespace RouteSmith.Control

variable {ε σ α β : Type}

/-- Started in `s`, the computation returns with `Q` or exits with `E`. -/
def Ensures (x : EStateM ε σ α) (Q : α → σ → Prop) (E : ε → σ → Prop) (s : σ) : Prop :=
  match x s with
  | .ok a t => Q a t
  | .error e t => E e t

section

variable {Q Q' : α → σ → Prop} {E E' : ε → σ → Prop} {s : σ}

variable {x : EStateM ε σ α}

theorem Ensures.mono (h : Ensures x Q E s) (hQ : ∀ a t, Q a t → Q' a t)
    (hE : ∀ e t, E e t → E' e t) : Ensures x Q' E' s := by
  unfold Ensures at h ⊢
  split
  · next hx => exact hQ _ _ (by simpa [hx] using h)
  · next hx => exact hE _ _ (by simpa [hx] using h)

theorem Ensures.imp (h : Ensures x Q E s) (hQ : ∀ a t, Q a t → Q' a t) : Ensures x Q' E s :=
  h.mono hQ fun _ _ he => he

theorem Ensures.and (h : Ensures x Q E s) (h' : Ensures x Q' E' s) :
    Ensures x (fun a t => Q a t ∧ Q' a t) (fun e t => E e t ∧ E' e t) s := by
  unfold Ensures at h h' ⊢
  split
  · next hx => exact ⟨by simpa [hx] using h, by simpa [hx] using h'⟩
  · next hx => exact ⟨by simpa [hx] using h, by simpa [hx] using h'⟩

theorem Ensures.both (h : Ensures x Q E s) (h' : Ensures x Q' E s) :
    Ensures x (fun a t => Q a t ∧ Q' a t) E s :=
  (h.and h').mono (fun _ _ hQ => hQ) fun _ _ hE => hE.1

theorem ensures_self (x : EStateM ε σ α) (s : σ) :
    Ensures x (fun a t => x s = .ok a t) (fun e t => x s = .error e t) s := by
  unfold Ensures
  split
  · assumption
  · assumption

theorem Ensures.exits (h : Ensures x (fun _ _ => False) E s) :
    ∃ e t, x s = .error e t ∧ E e t := by
  unfold Ensures at h
  split at h
  · exact h.elim
  · next hx => exact ⟨_, _, hx, h⟩

@[simp] theorem ensures_pure {a : α} : Ensures (pure a) Q E s ↔ Q a s := Iff.rfl

@[simp] theorem ensures_bind {f : α → EStateM ε σ β} {Q : β → σ → Prop} :
    Ensures (x >>= f) Q E s ↔ Ensures x (fun a => Ensures (f a) Q E) E s := by
  simp only [Ensures, bind, EStateM.bind]
  cases x s <;> rfl

theorem Ensures.bind (h : Ensures x Q E s) {f : α → EStateM ε σ β} {Q' : β → σ → Prop}
    (hf : ∀ a t, Q a t → Ensures (f a) Q' E t) : Ensures (x >>= f) Q' E s :=
  ensures_bind.mpr (h.imp hf)

@[simp] theorem ensures_get {Q : σ → σ → Prop} : Ensures get Q E s ↔ Q s s := Iff.rfl

@[simp] theorem ensures_set {t : σ} {Q : PUnit → σ → Prop} : Ensures (set t) Q E s ↔ Q ⟨⟩ t :=
  Iff.rfl

@[simp] theorem ensures_modify {f : σ → σ} {Q : PUnit → σ → Prop} :
    Ensures (modify f) Q E s ↔ Q ⟨⟩ (f s) := Iff.rfl

@[simp] theorem ensures_throw {e : ε} : Ensures (throw e) Q E s ↔ E e s := Iff.rfl

theorem ensures_ofExcept {x : Except ε α} (hok : ∀ a, x = .ok a → Q a s)
    (herror : ∀ e, x = .error e → E e s) : Ensures (ofExcept x) Q E s := by
  cases x with
  | ok a => exact hok a rfl
  | error e => exact herror e rfl

end

variable {xs : List α} {I : List α → σ → Prop} {E : ε → σ → Prop} {s : σ}
  {body : α → EStateM ε σ Unit} {f : α → Option (List β)} {items : List β}

/-- A loop keeps an invariant of the items behind it, until it is left by a `break` or an exit. -/
theorem ensures_forIn {body : α → PUnit → EStateM ε σ (ForInStep PUnit)} {R : σ → Prop} (h : I [] s)
    (hbody : ∀ before x after s, xs = before ++ x :: after → I before s →
      Ensures (body x ⟨⟩) (fun step t => match step with
        | .yield _ => I (before ++ [x]) t
        | .done _ => R t) E s) : Ensures (forIn xs ⟨⟩ body) (fun _ t => I xs t ∨ R t) E s := by
  suffices hloop : ∀ before after s, xs = before ++ after → I before s →
      Ensures (forIn after ⟨⟩ body) (fun _ t => I xs t ∨ R t) E s from hloop [] xs s rfl h
  intro before after s hxs hI
  -- the items behind the loop are those the invariant speaks of
  induction after generalizing before s with
  | nil =>
    rw [List.append_nil] at hxs
    subst hxs
    exact .inl hI
  | cons x after ih =>
    rw [List.forIn_cons, ensures_bind]
    refine (hbody _ x _ s hxs hI).mono (fun step t ht => ?_) fun _ _ he => he
    cases step with
    | done => exact .inr ht
    | yield => exact ih (before ++ [x]) t (by simp [hxs]) ht

theorem ensures_forIn_yield (h : I [] s)
    (hbody : ∀ before x after s, xs = before ++ x :: after → I before s →
      Ensures (body x) (fun _ => I (before ++ [x])) E s) :
    Ensures (forIn xs .unit fun x _ => do body x; pure (.yield PUnit.unit))
      (fun _ => I xs) E s := by
  refine (ensures_forIn (R := fun _ => False) h fun _ x _ s hxs hI => ?_).mono
    (fun _ _ ht => ht.resolve_right id) fun _ _ he => he
  rw [ensures_bind]
  exact hbody _ x _ s hxs hI

theorem ensures_for (h : I [] s)
    (hbody : ∀ before x after s, xs = before ++ x :: after → I before s →
      Ensures (body x) (fun _ => I (before ++ [x])) E s) :
    Ensures (do for x in xs do body x) (fun _ => I xs) E s := by
  rw [ensures_bind]
  exact ensures_forIn_yield h hbody

/-! ## Items that are gathered -/

/-- The results of all items in one list, if every item has one. -/
def gather (f : α → Option (List β)) : List α → Option (List β)
  | [] => some []
  | x :: xs => (f x).bind fun ys => (gather f xs).map (ys ++ ·)

theorem gather_cons {x : α} : gather f (x :: xs) = some items ↔
      ∃ ys zs, f x = some ys ∧ gather f xs = some zs ∧ items = ys ++ zs := by
  rw [gather, Option.bind_eq_some_iff]
  simp only [Option.map_eq_some_iff]
  constructor
  · rintro ⟨ys, hx, zs, hxs, rfl⟩
    exact ⟨ys, zs, hx, hxs, rfl⟩
  · rintro ⟨ys, zs, hx, hxs, rfl⟩
    exact ⟨ys, hx, zs, hxs, rfl⟩

/-- A loop over items, in terms of what is gathered from them. -/
theorem ensures_forIn_gather {I : List β → σ → Prop} (hitems : gather f xs = some items)
    (h : I [] s)
    (hbody : ∀ behind x ys after s, items = behind ++ ys ++ after → f x = some ys → I behind s →
      Ensures (body x) (fun _ => I (behind ++ ys)) E s) :
    Ensures (forIn xs .unit fun x _ => do body x; pure (.yield PUnit.unit))
      (fun _ => I items) E s := by
  suffices hloop : ∀ xs behind rest s, gather f xs = some rest →
      items = behind ++ rest → I behind s →
      Ensures (forIn xs .unit fun x _ => do body x; pure (.yield PUnit.unit))
        (fun _ => I items) E s from
    hloop xs [] items s hitems rfl h
  intro xs
  induction xs with
  | nil =>
    intro behind _ s hrest hsplit hI
    cases hrest
    rw [List.append_nil] at hsplit
    exact hsplit ▸ hI
  | cons x xs ih =>
    intro _ _ s hrest hsplit hI
    obtain ⟨ys, zs, hx, hxs, rfl⟩ := gather_cons.mp hrest
    rw [← List.append_assoc] at hsplit
    rw [List.forIn_cons, ensures_bind, ensures_bind]
    exact (hbody _ x ys zs s hsplit hx hI).mono
      (fun _ t => ih _ zs t hxs hsplit) fun _ _ he => he

theorem ensures_for_gather {I : List β → σ → Prop} (hitems : gather f xs = some items) (h : I [] s)
    (hbody : ∀ behind x ys after s, items = behind ++ ys ++ after → f x = some ys → I behind s →
      Ensures (body x) (fun _ => I (behind ++ ys)) E s) :
    Ensures (do for x in xs do body x) (fun _ => I items) E s := by
  rw [ensures_bind]
  exact ensures_forIn_gather hitems h hbody

/-! ## Invariants of a computation -/

section

variable {I : σ → Prop}

variable {x : EStateM ε σ α}

end

end RouteSmith.Control
