import RouteSmith.Verification.Streams.Relay

/-! # Errors reported by the upstream

An upstream reports an error in the middle of a stream by a chunk with an `error` member. The
member is passed over when the chunk is decoded, so the stream ends as the rest of the upstream
decides.
-/

namespace RouteSmith.Model

/-- The data lines of the frames that arrived. -/
def dataLinesOf (frames : List (Except AppError SseFrame)) : List String :=
  frames.flatMap fun item => (item.toOption.map SseFrame.dataLines).getD []

namespace AnthropicRelay

/-- A data line is an object with an `error` that is not `null`, and no finish reason came
before it. -/
def ReportsError (relay : AnthropicRelay) (frames : List (Except AppError SseFrame)) : Prop :=
  ∃ before data after json error, dataLinesOf frames = before ++ data :: after ∧
    relay.reader.parse data = some json ∧ json.get? "error" = some error ∧
    error.isNull = false ∧
    ∀ line ∈ before, ∀ chunk, relay.decodeChunk line = some chunk → chunk.finishes = false

variable {relay : AnthropicRelay} {frames : SseFrameStream}

/-- A stream whose upstream reports an error before any finish reason is kept from ending as a
success exactly if the upstream does not terminate it afterwards, or its tool calls do not pass
the policy. -/
theorem no_success_of_reportsError_iff (elapsed : ℕ → ℕ) : ReportsError relay frames →
    ((Except.ok .messageStop ∉ itemsOf (openaiStreamToAnthropic relay frames) ∧
      (lifecycleAfter elapsed (openaiStreamToAnthropic relay frames)).state ≠ .completed) ↔
      ¬Succeeds relay frames) := by
  intro _
  rw [messageStop_mem_iff, Ne, state_eq_completed_iff, and_self]

/-- A reader of one text, an object that reports an error. -/
def overloadedReader : Json.Reader where
  parse text :=
    if text = "overloaded" then
      some (.object [("error", .object [("message", .string "overloaded")])])
    else none
  report _ := "expected value"
  first _ := none

def overloadedRelay : AnthropicRelay where
  reader := overloadedReader
  uuid _ := "0"
  model := "auto"
  deduplicateStreamText := false
  deduplicateToolArguments := false
  toolPolicy := .bestEffort

/-- A stream that breaks off after the report ends as a failure. -/
theorem no_success_of_reportsError_sample :
    Except.ok .messageStop ∉ itemsOf (openaiStreamToAnthropic overloadedRelay
        [.ok { data := "overloaded" }]) ∧
      (lifecycleAfter id (openaiStreamToAnthropic overloadedRelay
        [.ok { data := "overloaded" }])).state ≠ .completed := by
  refine (no_success_of_reportsError_iff id ?_).mpr fun h => ?_
  · exact ⟨[], "overloaded", [], _, _, by decide, rfl, rfl, rfl, by simp⟩
  · have hopen : ((readFrames overloadedRelay.decodeChunk
        [.ok { data := "overloaded" }]).ending).isNone = true := by decide
    rw [h.terminated] at hopen
    cases hopen

/-- `[DONE]` after the report makes the stream a success. -/
theorem error_then_done_succeeds :
    ReportsError overloadedRelay [.ok { data := "overloaded" }, .ok { data := "[DONE]" }] ∧
      Except.ok .messageStop ∈ itemsOf (openaiStreamToAnthropic overloadedRelay
        [.ok { data := "overloaded" }, .ok { data := "[DONE]" }]) ∧
      (lifecycleAfter id (openaiStreamToAnthropic overloadedRelay
        [.ok { data := "overloaded" }, .ok { data := "[DONE]" }])).state = .completed := by
  exact ⟨⟨[], "overloaded", ["[DONE]"], _, _, by decide, rfl, rfl, rfl, by simp⟩,
    messageStop_mem_of_any (by decide), by decide⟩

end AnthropicRelay

end RouteSmith.Model
