import RouteSmith.Verification.Streams.Delivery

/-! # The grammar of a relayed stream -/

namespace RouteSmith.Model

/-- A stream that reaches `message_stop` is well-formed, and its tool blocks belong to different
calls of the upstream. Any other stream breaks off a well-formed one, and ends with one error. -/
theorem anthropic_stream_grammar (relay : AnthropicRelay)
    (frames : List (Except AppError SseFrame)) :
    let items := itemsOf (openaiStreamToAnthropic relay frames)
    (Except.ok .messageStop ∈ items ∧ ∃ events m keys, items = events.map .ok ∧
      WellFormed events ∧ assemble events = some m ∧ keys.Nodup ∧
      List.Forall₂ (relay.Shows (relay.digestOf frames).fragments) keys m.toolUses) ∨
    (Except.ok .messageStop ∉ items ∧ ∃ events rest last, items = events.map .ok ++ [last] ∧
      WellFormed (events ++ rest) ∧ anthropicProtocol.isFailure last = true) := by
  have hmem := @AnthropicRelay.messageStop_mem_iff relay frames
  cases outcome_openaiStreamToAnthropic relay frames with
  | delivers m hsucceeds hitems hm h =>
    exact .inl ⟨hmem.mpr hsucceeds, _, m, _, hitems, wellFormed_of_assemble hm h.stopped, hm,
      (nodup_firstKeys _).filter _, h.toolUses⟩
  | breaksOff _ last hsucceeds hitems hlast hsound =>
    obtain ⟨m, hm, hreason⟩ := hsound
    obtain ⟨rest, hrest⟩ := exists_wellFormed_append hm hreason
    exact .inr ⟨fun h => hsucceeds (hmem.mp h), _, rest, last, hitems, hrest, hlast⟩

end RouteSmith.Model
