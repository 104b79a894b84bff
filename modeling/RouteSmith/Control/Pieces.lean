import RouteSmith.Control.EarlyExit

/-! # Input in pieces

A computation that is fed its input piece by piece and then finished. If each piece leaves a state
that stands for the input still to come, the outcome depends on the input as a whole only, not on
where it was cut.
-/

namespace RouteSmith.Control

variable {ε σ α ω : Type}

def feedAll (feed : α → EStateM ε σ Unit) (finish : EStateM ε σ Unit) (pieces : List α) :
    EStateM ε σ Unit := do
  for piece in pieces do
    feed piece
  finish

/-- `meaning s input` is what a state stands for if `input` is still to come. It is what is
observed in the end, if every piece keeps it and no exit contradicts it. -/
theorem observe_feedAll {feed : List α → EStateM ε σ Unit} {finish : EStateM ε σ Unit}
    {observe : EStateM.Result ε σ Unit → ω} (meaning : σ → List α → ω)
    (I : List (List α) → σ → Prop)
    (hfeed : ∀ piece pieces s, I (piece :: pieces) s → Ensures (feed piece)
        (fun _ t => I pieces t ∧ ∀ rest, meaning t rest = meaning s (piece ++ rest))
        (fun e t => ∀ rest, observe (.error e t) = meaning s (piece ++ rest)) s)
    (hfinish : ∀ s, I [] s → observe (finish s) = meaning s [])
    {pieces : List (List α)} {s : σ} (h : I pieces s) :
    observe (feedAll feed finish pieces s) = meaning s pieces.flatten := by
  induction pieces generalizing s with
  | nil => exact hfinish s h
  | cons piece pieces ih =>
    have hpiece := hfeed _ _ s h
    rw [Ensures] at hpiece
    have hstep : feedAll feed finish (piece :: pieces) s =
        (feed piece >>= fun _ => feedAll feed finish pieces) s := by
      simp [feedAll]
    rw [hstep]
    change observe (EStateM.bind _ _ s) = _
    rw [EStateM.bind]
    split at hpiece
    · next hfed =>
      rw [hfed]
      exact (ih hpiece.1).trans (hpiece.2 _)
    · next hfed =>
      rw [hfed]
      exact hpiece _

end RouteSmith.Control
