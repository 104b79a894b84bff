import RouteSmith.Model.Providers.OpenAiClientStream
import RouteSmith.Model.Types
import RouteSmith.Verification.Streams.Relay

/-! # Terminators and marks

For each of the streams that are made of an OpenAI-compatible upstream: when the way the stream
ends for the client agrees with the way its record ends.
-/

namespace RouteSmith.Model

open Control Numeric List StreamProtocol

/-- A chunk reports an error by an `error` member that is not `null`. -/
def openaiProtocol : StreamProtocol OpenAiEvent where
  terminates event :=
    match event.data with
    | .done => true
    | .chunk _ => false
  fails event :=
    match event.data with
    | .done => false
    | .chunk json => (json.get? "error").any (!·.isNull)
  fails_of_terminates event h := by
    cases hdata : event.data with
    | done => rfl
    | chunk => simp [hdata] at h

/-! ## Streams that are passed on -/

/-- The data lines of an upstream, and the errors between them. -/
def upstreamLines (frames : List (Except AppError SseFrame)) : List (Except AppError String) :=
  frames.flatMap fun
    | .ok frame => frame.dataLines.map .ok
    | .error error => [.error error]

namespace OpenAiPassthrough

/-- A line that is passed on, with more to come after it. -/
def forwards (passthrough : OpenAiPassthrough) : Except AppError String → Bool
  | .ok data => data ≠ "[DONE]" &&
    (passthrough.reader.parse data).any fun chunk => (chunk.get? "error").isNone
  | .error _ => false

/-- A chunk whose `error` member is `null`. -/
def NullError (passthrough : OpenAiPassthrough) (line : Except AppError String) : Prop :=
  ∃ data chunk, line = .ok data ∧ data ≠ "[DONE]" ∧
    passthrough.reader.parse data = some chunk ∧ chunk.get? "error" = some .null

/-- The line that ends the stream is a chunk whose `error` member is `null`. -/
def EndsWithNullError (passthrough : OpenAiPassthrough)
    (frames : List (Except AppError SseFrame)) : Prop :=
  ∃ line, (upstreamLines frames).find? (fun line => !passthrough.forwards line) = some line ∧
    passthrough.NullError line

/-- How the trace looks after a line that ends the stream. -/
inductive Stops (passthrough : OpenAiPassthrough) (line : Except AppError String)
    (trace : List (StreamAction OpenAiEvent)) : Prop
  | completes (htrace : openaiProtocol.Completes trace) (h : ¬passthrough.NullError line)
  | fails (htrace : openaiProtocol.Fails trace) (h : ¬passthrough.NullError line)
  | unannounced (htrace : openaiProtocol.FailsUnannounced trace) (h : passthrough.NullError line)

/-- Nothing that was done so far ends the stream. -/
abbrev Plain (s : PassthroughState) : Prop := ∀ a ∈ s.trace, openaiProtocol.plain a = true

variable {passthrough : OpenAiPassthrough} {s : PassthroughState}

variable {E : Halt → PassthroughState → Prop}

@[simp] theorem ensures_act {a : StreamAction OpenAiEvent} {Q : PUnit → PassthroughState → Prop} :
    Ensures (act a) Q E s ↔ Q ⟨⟩ { s with trace := s.trace ++ [a] } := Iff.rfl

theorem ensures_fail {α : Type} {error : AppError} {Q : α → PassthroughState → Prop}
    (hplain : Plain s) (hE : ∀ t, openaiProtocol.Fails t.trace → E .returned t) :
    Ensures (fail error) Q E s :=
  hE _ ⟨s.trace, error.display, openaiErrorEvent error, by simp, hplain, rfl⟩

theorem ensures_succeed {α : Type} {event : OpenAiEvent} {Q : α → PassthroughState → Prop}
    (hplain : Plain s) (hevent : openaiProtocol.terminates event = true)
    (hE : ∀ t, openaiProtocol.Completes t.trace → E .returned t) :
    Ensures (succeed event) Q E s :=
  hE _ ⟨s.trace, [], event, by simp, hplain, by simp, hevent⟩

theorem get?_error_nameModel (chunk : Json) :
    (passthrough.nameModel chunk).get? "error" = chunk.get? "error" := by
  rw [nameModel]
  split_ifs
  · exact Json.get?_set_of_ne (by decide) ..
  · rfl

section

variable (hplain : Plain s)

include hplain

theorem ensures_relayChunk (frame : SseFrame) {chunk : Json} (herror : chunk.get? "error" = none) :
    Ensures (passthrough.relayChunk frame chunk) (fun _ => Plain) E s := by
  have husage : ∀ {t}, Plain t →
      Ensures (noteUsage chunk) (fun _ => Plain) E t := by
    intro t ht
    rw [noteUsage]
    split
    · exact ht
    · exact plain_append ht (by rfl)
  rw [relayChunk, ensures_bind, if_neg (by simp [herror])]
  refine (husage (t := { s with sawChunk := true }) hplain).bind fun _ t ht => ?_
  refine plain_append (plain_append ht (by rfl)) ?_
  simp [plain, openaiProtocol, eventWithMetadata, herror]

theorem ensures_relayChunk_error (frame : SseFrame) {chunk error : Json}
    (herror : chunk.get? "error" = some error) {Q : Unit → PassthroughState → Prop} :
    Ensures (passthrough.relayChunk frame chunk) Q
      (fun e t => e = .returned ∧ if error.isNull then openaiProtocol.FailsUnannounced t.trace
        else openaiProtocol.Fails t.trace) s := by
  rw [relayChunk, ensures_bind, ensures_modify, if_pos (by simp [herror]), ensures_bind,
    ensures_act, ensures_bind, ensures_act, ensures_throw]
  have hshape : s.trace ++ [.update (.failed (passthrough.errorReport chunk).display)] ++
      [.event (eventWithMetadata frame (.chunk chunk))] =
        s.trace ++ [.update (.failed (passthrough.errorReport chunk).display),
          .event (eventWithMetadata frame (.chunk chunk))] := by simp
  refine ⟨rfl, ?_⟩
  split_ifs with hnull <;> exact ⟨s.trace, _, _, hshape, hplain,
    by simp [openaiProtocol, eventWithMetadata, herror, hnull]⟩

theorem ensures_relayData (frame : SseFrame) (data : String) :
    Ensures (passthrough.relayData frame data)
      (fun _ t => passthrough.forwards (.ok data) = true ∧ Plain t)
      (fun e t => e = .returned ∧ passthrough.forwards (.ok data) = false ∧
        passthrough.Stops (.ok data) t.trace) s := by
  rw [relayData]
  by_cases hdone : data = "[DONE]"
  · have hnull : ¬passthrough.NullError (.ok data) := by
      rintro ⟨_, _, hline, hne, -⟩
      cases hline
      exact hne hdone
    have hstop : passthrough.forwards (.ok data) = false := by simp [forwards, hdone]
    rw [if_pos hdone, ensures_bind, ensures_get]
    split_ifs
    · exact ensures_succeed hplain rfl fun t ht => ⟨rfl, hstop, .completes ht hnull⟩
    · exact ensures_fail hplain fun t ht => ⟨rfl, hstop, .fails ht hnull⟩
  · rw [if_neg hdone]
    cases hparse : passthrough.reader.parse data with
    | none =>
      refine ensures_fail hplain fun t ht => ⟨rfl, by simp [forwards, hparse], .fails ht ?_⟩
      rintro ⟨_, _, hline, -, hsome, -⟩
      cases hline
      rw [hparse] at hsome
      cases hsome
    | some chunk =>
      have hnamed := @get?_error_nameModel passthrough chunk
      cases herror : chunk.get? "error" with
      | none =>
        exact (ensures_relayChunk hplain _ (hnamed.trans herror)).imp
          fun _ t ht => ⟨by simp [forwards, hdone, hparse, herror], ht⟩
      | some error =>
        refine (ensures_relayChunk_error hplain _ (hnamed.trans herror)).mono
          (fun _ _ ht => ht) fun e t ⟨he, ht⟩ =>
            ⟨he, by simp [forwards, hparse, herror], ?_⟩
        cases error with
        | null => exact .unannounced ht ⟨data, chunk, rfl, hdone, hparse, herror⟩
        | _ =>
          refine .fails ht ?_
          rintro ⟨_, _, hline, -, hsome, hnull⟩
          cases hline
          cases hparse.symm.trans hsome
          cases herror.symm.trans hnull

end

/-- The stream ended at the first of the lines that is not passed on. -/
structure Halts (passthrough : OpenAiPassthrough) (lines : List (Except AppError String))
    (e : Halt) (s : PassthroughState) : Prop where
  returned : e = .returned
  stops : ∃ line, lines.find? (fun line => !passthrough.forwards line) = some line ∧
    passthrough.Stops line s.trace

theorem find?_of_forwards {before after : List (Except AppError String)}
    {line : Except AppError String} (hbefore : ∀ line ∈ before, passthrough.forwards line = true)
    (hline : passthrough.forwards line = false) :
    (before ++ line :: after).find? (fun line => !passthrough.forwards line) = some line := by
  rw [find?_append, find?_eq_none.mpr (by simpa using hbefore), Option.none_or,
    find?_cons_of_pos (by simp [hline])]

theorem ensures_relayItem (hplain : Plain s) (item : Except AppError SseFrame) :
    Ensures (passthrough.relayItem item)
      (fun _ t => (∀ line ∈ upstreamLines [item], passthrough.forwards line = true) ∧ Plain t)
      (passthrough.Halts (upstreamLines [item])) s := by
  cases item with
  | error error =>
    have hnull : ¬passthrough.NullError (.error error) := by
      rintro ⟨_, _, hline, -⟩
      cases hline
    rw [relayItem, ensures_bind, ensures_get]
    split_ifs
    · exact ensures_succeed hplain rfl fun t ht => ⟨rfl, _, rfl, .completes ht hnull⟩
    · exact ensures_fail hplain fun t ht => ⟨rfl, _, rfl, .fails ht hnull⟩
  | ok frame =>
    have hlines : upstreamLines [.ok frame] = frame.dataLines.map .ok := by
      simp [upstreamLines]
    rw [hlines]
    refine (ensures_for (I := fun before t =>
        (∀ data ∈ before, passthrough.forwards (.ok data) = true) ∧ Plain t) ⟨by simp, hplain⟩
      fun _ data _ t hsplit ht => ?_).imp fun _ t ht => ?_
    · refine (ensures_relayData ht.2 _ data).mono (fun _ u hu => ?_)
        fun e u he => ⟨he.1, .ok data, ?_, he.2.2⟩
      · exact ⟨forall_mem_append.mpr ⟨ht.1, forall_mem_singleton.mpr hu.1⟩, hu.2⟩
      · rw [hsplit, map_append]
        exact find?_of_forwards (by simpa using ht.1) he.2.1
    · simpa using ht

/-- A stream that is passed on ends at the first line that is not, or with its upstream. -/
theorem ensures_run (frames : SseFrameStream) :
    Ensures (passthrough.run frames) (fun _ _ => False)
      (fun e t => passthrough.Halts (upstreamLines frames) e t ∨
        (e = .returned ∧ (∀ line ∈ upstreamLines frames, passthrough.forwards line = true) ∧
          (openaiProtocol.Completes t.trace ∨ openaiProtocol.Fails t.trace))) {} := by
  have happend : ∀ before after,
      upstreamLines (before ++ after) = upstreamLines before ++ upstreamLines after :=
    fun _ _ => flatMap_append
  refine (ensures_forIn_yield (I := fun before t =>
      (∀ line ∈ upstreamLines before, passthrough.forwards line = true) ∧ Plain t)
      ⟨by simp [upstreamLines], by intro a ha; cases ha⟩
    fun _ item _ t hsplit ht => ?_).bind fun _ t ht => ?_
  · refine (ensures_relayItem ht.2 item).mono (fun _ u hu => ?_)
      fun e u ⟨he, line, hline, hstops⟩ => .inl ⟨he, line, ?_, hstops⟩
    · rw [happend]
      exact ⟨forall_mem_append.mpr ⟨ht.1, hu.1⟩, hu.2⟩
    · rw [hsplit, ← singleton_append, happend, happend, find?_append,
        find?_eq_none.mpr (by simpa using ht.1), Option.none_or, find?_append, hline]
      rfl
  · rw [ensures_bind, ensures_get]
    split_ifs
    · exact ensures_succeed ht.2 rfl fun u hu => .inr ⟨rfl, ht.1, .inl hu⟩
    · exact ensures_fail ht.2 fun u hu => .inr ⟨rfl, ht.1, .inr hu⟩

end OpenAiPassthrough

theorem openaiStreamPassthrough_settled_iff (passthrough : OpenAiPassthrough)
    (frames : SseFrameStream) (elapsed : ℕ → ℕ) :
    openaiProtocol.Settled
        (lifecycleAfter elapsed (openaiStreamPassthrough passthrough frames)).state
        (itemsOf (openaiStreamPassthrough passthrough frames)) ↔
      ¬passthrough.EndsWithNullError frames := by
  obtain ⟨e, s, hresult, hrun⟩ := (@OpenAiPassthrough.ensures_run _ _).exits
  rw [openaiStreamPassthrough, hresult]
  rcases hrun with ⟨rfl, line, hline, hstops⟩ | ⟨rfl, hforwards, hends⟩
  · have hends : passthrough.EndsWithNullError frames ↔ passthrough.NullError line := by
      rw [OpenAiPassthrough.EndsWithNullError, hline]
      simp
    rw [hends]
    cases hstops with
    | completes htrace h | fails htrace h => exact iff_of_true (htrace.settled elapsed) h
    | unannounced htrace h => exact iff_of_false (htrace.not_settled elapsed) (not_not_intro h)
  · refine iff_of_true ?_ ?_
    · rcases hends with htrace | htrace <;> exact htrace.settled _
    · rintro ⟨_, hline, -⟩
      rw [find?_eq_none.mpr (by simpa using hforwards)] at hline
      cases hline

/-! ## Streams made of a buffered response -/

theorem get?_error_completeChunks {id model : String} {created : U64} {choice message chunk : Json}
    (h : chunk ∈ completeChunks (openaiChunk id created model) choice message) :
    chunk.get? "error" = none := by
  have hchunk : ∀ delta finishReason,
      (openaiChunk id created model delta finishReason).get? "error" = none := fun _ _ => rfl
  simp only [completeChunks, mem_append, mem_singleton, mem_map] at h
  rcases h with ((rfl | ⟨_, -, rfl⟩) | ⟨_, -, rfl⟩) | rfl
  all_goals exact hchunk ..

theorem openaiCompleteToStream_cases (uuid : String) (now : U64) (response : Json)
    (requestedModel : String) (includeUsage : Bool) :
    ((responseMessage response).isSome = true ∧
      ∃ chunks : List Json, (∀ chunk ∈ chunks, chunk.get? "error" = none) ∧
        openaiCompleteToStream uuid now response requestedModel includeUsage =
          chunks.map (fun chunk => .ok (openaiEvent (.chunk chunk))) ++ [.ok (openaiEvent .done)]) ∨
    (responseMessage response = none ∧
      ∃ error, openaiCompleteToStream uuid now response requestedModel includeUsage =
        [.error error]) := by
  rw [openaiCompleteToStream, responseMessage, responseChoice]
  cases hchoice : ((response.get? "choices").bind Json.asArray).bind head? with
  | none => exact .inr ⟨rfl, _, rfl⟩
  | some choice =>
    cases hmessage : choice.get? "message" with
    | none => exact .inr ⟨hmessage, _, by simp only [hmessage]; rfl⟩
    | some =>
      refine .inl ⟨by simp [hmessage], _, ?_, by simp only [hmessage]; rfl⟩
      refine forall_mem_append.mpr ⟨fun _ => get?_error_completeChunks, ?_⟩
      rintro _ hchunk
      obtain ⟨_, -, rfl⟩ := mem_map.mp hchunk
      rfl

theorem plain_noteBuffered (upstream : Json) :
    ∀ a ∈ noteBuffered upstream, openaiProtocol.plain a = true := by
  intro a ha
  rw [noteBuffered] at ha
  simp only [mem_append, mem_singleton, mem_map] at ha
  rcases ha with (rfl | ha) | ⟨_, -, rfl⟩
  · rfl
  · split_ifs at ha
    · cases mem_singleton.mp ha
      rfl
    · cases ha
  · rfl

theorem bufferedChatCompletions_settled_iff (uuid : String) (now : U64) (upstream : Json)
    (requestedModel : String) (includeUsage : Bool) (elapsed : ℕ → ℕ) :
    let trace := bufferedChatCompletions uuid now upstream requestedModel includeUsage
    openaiProtocol.Settled (lifecycleAfter elapsed trace).state (itemsOf trace) ↔
      (responseMessage upstream).isSome = true := by
  rw [bufferedChatCompletions]
  rcases openaiCompleteToStream_cases uuid now upstream requestedModel includeUsage with
    ⟨hmessage, chunks, hchunks, hitems⟩ | ⟨hmessage, error, hitems⟩
  · refine iff_of_true (Completes.settled ?_ _) hmessage
    refine ⟨noteBuffered _, chunks.map fun chunk => .event (openaiEvent (.chunk chunk)),
      openaiEvent .done, by simp [hitems, StreamAction.ofItem],
      plain_noteBuffered upstream, ?_, rfl⟩
    intro a ha
    obtain ⟨_, hchunk, rfl⟩ := mem_map.mp ha
    simp [plain, openaiProtocol, openaiEvent, hchunks _ hchunk]
  · rw [hitems]
    refine iff_of_false ?_ (by simp [hmessage])
    exact not_settled_of_completed_error (plain_noteBuffered _) _

/-! ## All streams of an OpenAI-compatible upstream -/

theorem openaiStreamToAnthropic_settled_iff (relay : AnthropicRelay)
    (frames : SseFrameStream) (elapsed : ℕ → ℕ) :
    anthropicProtocol.Settled (lifecycleAfter elapsed (openaiStreamToAnthropic relay frames)).state
        (itemsOf (openaiStreamToAnthropic relay frames)) ↔
      ¬NameRejected relay.toolPolicy (relay.digestOf frames).fragments := by
  cases ends_openaiStreamToAnthropic relay frames with
  | completes htrace h => exact iff_of_true (htrace.settled elapsed) h.accepted
  | fails htrace _ haccepted => exact iff_of_true (htrace.settled elapsed) haccepted
  | raises htrace hrejected =>
    exact iff_of_false (htrace.not_settled _) (not_not_intro hrejected)

/-- The record of a consumed stream and the items it delivered agree on how it ended: for an
Anthropic client unless a tool call starts with a name that the policy rejects, for an OpenAI
client unless the upstream ends the stream with a `null` error, and for a buffered response if it
carries a message. -/
theorem openai_streams_settled_iff (elapsed : ℕ → ℕ) : (∀ relay frames, anthropicProtocol.Settled
          (lifecycleAfter elapsed (openaiStreamToAnthropic relay frames)).state
          (itemsOf (openaiStreamToAnthropic relay frames)) ↔
        ¬NameRejected relay.toolPolicy (relay.digestOf frames).fragments) ∧
    (∀ passthrough frames, openaiProtocol.Settled
          (lifecycleAfter elapsed (openaiStreamPassthrough passthrough frames)).state
          (itemsOf (openaiStreamPassthrough passthrough frames)) ↔
        ¬passthrough.EndsWithNullError frames) ∧
    ∀ uuid now upstream requestedModel includeUsage,
      let trace := bufferedChatCompletions uuid now upstream requestedModel includeUsage
      openaiProtocol.Settled (lifecycleAfter elapsed trace).state (itemsOf trace) ↔
        (responseMessage upstream).isSome = true :=
  ⟨fun _ _ => openaiStreamToAnthropic_settled_iff _ _ _,
    fun _ _ => openaiStreamPassthrough_settled_iff _ _ _,
    fun uuid now _ _ _ =>
      bufferedChatCompletions_settled_iff uuid now _ _ _ _⟩

/-- A reader of two chunks: a call of the tool `shell`, and an error that is `null`. -/
def unsettledReader : Json.Reader where
  parse text :=
    if text = "call" then
      some (.object [("choices", .array [.object [("delta", .object [("tool_calls", .array
        [.object [("index", Json.ofNat 0), ("id", .string "call_1"),
          ("function", .object [("name", .string "shell")])]])])]])])
    else if text = "null error" then some (.object [("error", .null)])
    else none
  report _ := "expected value"
  first _ := none

/-- A policy that declares the tool `search` rejects a call of `shell` in mid-stream: the record
stays pending. A chunk with a `null` error is passed on as the last event, and the record fails.
A buffered response without choices is completed, and its stream is an error. -/
theorem openai_streams_unsettled : ¬anthropicProtocol.Settled
        (lifecycleAfter id (openaiStreamToAnthropic
          ⟨unsettledReader, fun _ => "0", "auto", false, false,
            { validation := .strict, allowedNames := some ["search"] }⟩
          [.ok { data := "call" }, .ok { data := "[DONE]" }])).state
        (itemsOf (openaiStreamToAnthropic ⟨unsettledReader, fun _ => "0", "auto", false, false,
            { validation := .strict, allowedNames := some ["search"] }⟩
          [.ok { data := "call" }, .ok { data := "[DONE]" }])) ∧
      ¬openaiProtocol.Settled
        (lifecycleAfter id (openaiStreamPassthrough ⟨unsettledReader, fun _ => "", "auto"⟩
          [.ok { data := "null error" }, .ok { data := "[DONE]" }])).state
        (itemsOf (openaiStreamPassthrough ⟨unsettledReader, fun _ => "", "auto"⟩
          [.ok { data := "null error" }, .ok { data := "[DONE]" }])) ∧
      ¬openaiProtocol.Settled
        (lifecycleAfter id (bufferedChatCompletions "0" 0 (.object []) "auto" false)).state
        (itemsOf (bufferedChatCompletions "0" 0 (.object []) "auto" false)) := by
  refine ⟨fun h => h.not_pending (by decide), ?_, ?_⟩
  · rw [openaiStreamPassthrough_settled_iff, not_not]
    refine ⟨.ok "null error", ?_, "null error", _, rfl, by decide, rfl, rfl⟩
    have hlines : upstreamLines [.ok { data := "null error" }, .ok { data := "[DONE]" }] =
        [.ok "null error", .ok "[DONE]"] := by decide
    rfl
  · intro h
    cases (bufferedChatCompletions_settled_iff "0" 0 (.object []) "auto" false id).mp h

end RouteSmith.Model
