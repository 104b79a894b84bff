import RouteSmith.Control.EarlyExit
import RouteSmith.Verification.Streams.Digest

/-! # The loop over the frames of an upstream

A condition that each choice of a chunk keeps, in step with the digest of what was read, is kept by
the loop over all frames, up to the line that ends it.
-/

namespace RouteSmith.Model

open Control Reading

namespace AnthropicRelay

/-- A condition on the digest of what was read, on whether the stream is done and the message
started, and on the state. A choice may leave the loop with `X`, a reported failure leaves it
with `F`. -/
structure LoopInvariant (relay : AnthropicRelay)
    (T : Digest → Bool → Bool → RelayState → Prop)
    (X : List ToolFragment → Halt → RelayState → Prop)
    (F : Digest → Halt → RelayState → Prop) : Prop where
  startMessage : ∀ {d done started s}, T d done started s →
    Ensures relay.startMessage (fun _ t => T d done true t) (fun _ _ => False) s
  noteUsage : ∀ {d done started s} (usage : Option Json), T d done started s →
    Ensures (noteUsage usage) (fun _ t => T d done started t) (fun _ _ => False) s
  relayChoice : ∀ {d done s} (choice : OpenAiStreamChoice), T d done true s →
    Ensures (relay.relayChoice choice)
      (fun _ t => T (d.add relay.deduplicateStreamText choice)
        (done || choice.finishReason.isSome) true t)
      (X (d.add relay.deduplicateStreamText choice).fragments) s
  fail : ∀ {α : Type} {d done started s} (error : AppError), T d done started s →
    Ensures (fail error : RelayM α) (fun _ _ => False) (F d) s
  finish : ∀ {d done started s}, T d done started s → T d true started { s with streamDone := true }
  streamDone : ∀ {d done started s}, T d done started s → s.streamDone = done
  unfinished : ∀ {d started s}, T d false started s → s.sawFinishReason = false
  mono : ∀ {fragments all e s}, X fragments e s → fragments <+: all → X all e s

section

variable {relay : AnthropicRelay} {T : Digest → Bool → Bool → RelayState → Prop}
  {X : List ToolFragment → Halt → RelayState → Prop} {F : Digest → Halt → RelayState → Prop}
  {d : Digest} {done started : Bool} {r : Reading} {s : RelayState}

section

variable (hT : LoopInvariant relay T X F)

include hT

theorem LoopInvariant.relayChunk (h : T d done started s) (chunk : OpenAiStreamChunk) :
    Ensures (relay.relayChunk chunk)
      (fun _ t => T (chunk.choices.foldl (.add relay.deduplicateStreamText) d)
        (done || chunk.finishes) true t)
      (X (chunk.choices.foldl (.add relay.deduplicateStreamText) d).fragments) s := by
  rw [AnthropicRelay.relayChunk, ensures_bind]
  refine (hT.noteUsage _ h).mono (fun _ t ht => ?_) fun _ _ => False.elim
  rw [ensures_bind]
  refine (hT.startMessage ht).mono (fun _ u hu => ?_) fun _ _ => False.elim
  refine ensures_for (I := fun before v =>
      T (before.foldl (.add _) d)
        (done || before.any _) true v)
    (by simpa using hu) fun _ _ _ v hsplit hv => ?_
  refine (hT.relayChoice _ hv).mono (fun _ w hw => ?_) fun e w he => hT.mono he ?_
  · simpa [Bool.or_assoc] using hw
  · rw [hsplit, List.foldl_append]
    exact Digest.fragments_foldl ..

/-- The reading goes on. -/
def LiveWith (relay : AnthropicRelay) (T : Digest → Bool → Bool → RelayState → Prop) (r : Reading)
    (s : RelayState) : Prop :=
  r.ending = none ∧ ∃ started, T (digest relay.deduplicateStreamText r.choices) false started s

/-- The upstream has terminated the stream. -/
def OverWith (relay : AnthropicRelay) (T : Digest → Bool → Bool → RelayState → Prop) (r : Reading)
    (s : RelayState) : Prop :=
  r.ending = some .terminated ∧ T (digest relay.deduplicateStreamText r.choices) true true s

/-- The loop was left. -/
def ExitsWith (relay : AnthropicRelay) (X : List ToolFragment → Halt → RelayState → Prop)
    (F : Digest → Halt → RelayState → Prop) (r : Reading) (e : Halt) (s : RelayState) : Prop :=
  X (digest relay.deduplicateStreamText r.choices).fragments e s ∨
    (r.ending.isSome = true ∧ r.ending ≠ some .terminated ∧
      F (digest relay.deduplicateStreamText r.choices) e s)

theorem LoopInvariant.relayData (h : LiveWith relay T r s) (data : String) :
    Ensures (relay.relayData data) (fun _ t => LiveWith relay T (r.line relay.decodeChunk data) t ∨
        OverWith relay T (r.line relay.decodeChunk data) t)
      (ExitsWith relay X F (r.line relay.decodeChunk data)) s := by
  obtain ⟨hending, _, h⟩ := h
  rw [AnthropicRelay.relayData, line_of_ending_eq_none hending]
  by_cases hdone : data = "[DONE]"
  · rw [if_pos hdone, if_pos hdone, ensures_bind]
    exact (hT.startMessage h).mono (fun _ t ht => .inr ⟨rfl, hT.finish ht⟩) fun _ _ => False.elim
  · rw [if_neg hdone, if_neg hdone]
    cases relay.decodeChunk data with
    | none =>
      exact (hT.fail _ h).mono (fun _ _ => False.elim) fun _ _ he => .inr ⟨rfl, by simp, he⟩
    | some chunk =>
      refine (hT.relayChunk h _).mono (fun _ t ht => ?_) fun e t _ => .inl ?_
      · rw [← digest_append] at ht
        cases hfinishes : chunk.finishes with
        | true => exact .inr ⟨by simp [hfinishes], by simpa [hfinishes] using ht⟩
        | false => exact .inl ⟨by simp [hfinishes], true, by simpa [hfinishes] using ht⟩
      · rwa [digest_append]

theorem LoopInvariant.exits {e : Halt} {r' : Reading} (h : ExitsWith relay X F r e s)
    (hr : r.Extends r') : ExitsWith relay X F r' e s := by
  rcases h with h | ⟨hending, hterminated, h⟩
  · exact .inl (hT.mono h (hr.fragments _))
  · rw [hr.eq_of_ending hending]
    exact .inr ⟨hending, hterminated, h⟩

/-- Behind a line or a frame the loop is left exactly if the stream is done. -/
theorem LoopInvariant.breakOrGo {r' : Reading} (hr : r.Extends r')
    (h : LiveWith relay T r s ∨ OverWith relay T r s) {E : Halt → RelayState → Prop} : Ensures (do
      let t ← get
      if t.streamDone then pure (.done .unit)
      else pure (.yield .unit) : RelayM (ForInStep PUnit))
      (fun step t => match step with
        | .yield _ => LiveWith relay T r t
        | .done _ => OverWith relay T r' t) E s := by
  rw [ensures_bind, ensures_get]
  rcases h with hlive | hover
  · obtain ⟨_, h⟩ := hlive.2
    rw [if_neg (by simp [hT.streamDone h])]
    exact hlive
  · rw [if_pos (hT.streamDone hover.2)]
    rwa [hr.eq_of_ending (by rw [hover.1]; rfl)]

theorem LoopInvariant.relayFrame (h : LiveWith relay T r s) (frame : SseFrame) :
    Ensures (relay.relayFrame frame)
      (fun _ t => LiveWith relay T (r.frame relay.decodeChunk (.ok frame)) t ∨
        OverWith relay T (r.frame relay.decodeChunk (.ok frame)) t)
      (ExitsWith relay X F (r.frame relay.decodeChunk (.ok frame))) s := by
  rw [AnthropicRelay.relayFrame, ensures_bind]
  refine ensures_forIn (I := fun before t =>
      LiveWith _ T (before.foldl _ r) t)
    (R := OverWith _ T _) h
    fun _ data _ t hsplit ht => ?_
  have hextends := Extends.foldl_of_split (extends_line relay.decodeChunk) r hsplit
  rw [ensures_bind, List.foldl_append]
  exact (hT.relayData ht data).mono (fun _ u hu => hT.breakOrGo hextends hu)
    fun e u he => hT.exits he hextends

theorem LoopInvariant.relayFrames (h : LiveWith relay T r s)
    (frames : SseFrameStream) : Ensures (relay.relayFrames frames)
      (fun _ t => LiveWith relay T (frames.foldl (frame relay.decodeChunk) r) t ∨
        OverWith relay T (frames.foldl (frame relay.decodeChunk) r) t)
      (ExitsWith relay X F (frames.foldl (frame relay.decodeChunk) r)) s := by
  rw [AnthropicRelay.relayFrames, ensures_bind]
  refine ensures_forIn (I := fun before t =>
      LiveWith _ T (before.foldl _ r) t)
    (R := OverWith _ T _) h
    fun _ item _ t hsplit ht => ?_
  have hextends := Extends.foldl_of_split (extends_frame relay.decodeChunk) r hsplit
  rw [List.foldl_append]
  cases item with
  | ok frame =>
    rw [ensures_bind]
    exact (hT.relayFrame ht _).mono (fun _ u hu => hT.breakOrGo hextends hu)
      fun e u he => hT.exits he hextends
  | error error =>
    obtain ⟨hending, _, ht⟩ := ht
    rw [frame_error_of_ending_eq_none hending] at hextends
    rw [ensures_bind, ensures_get, if_neg (by simp [hT.unfinished ht])]
    refine (hT.fail _ ht).mono (fun _ _ => False.elim) fun e u he => hT.exits ?_ hextends
    exact .inr ⟨rfl, by simp, he⟩

end

end

end AnthropicRelay

end RouteSmith.Model
