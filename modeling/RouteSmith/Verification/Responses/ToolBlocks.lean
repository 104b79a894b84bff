import RouteSmith.Model.Types

/-! # Tool calls of a whole response

How many `tool_use` blocks a response is converted to, against the calls it carries and against
the calls that are recorded for it.
-/

namespace RouteSmith.Model

open List Json ResponseConverter

def ContentBlock.isToolUse : ContentBlock → Bool
  | text _ => false
  | toolUse _ _ _ => true

def AnthropicMessage.toolUseCount (message : AnthropicMessage) : ℕ :=
  message.content.countP ContentBlock.isToolUse

/-- The calls of a `tool_calls` array. -/
def callEntries (message : Json) : List Json :=
  ((message.get? "tool_calls").bind Json.asArray).getD []

/-! ## Conversion -/

variable {converter : ResponseConverter}

variable {block : ContentBlock} {converted converted' : ConvertedCalls} {reply : Json}

theorem toolUseBlock_ok {id : String} {function : Json}
    (h : converter.toolUseBlock id function = .ok block) : ∃ name input,
      converter.toolPolicy.validateName ((function.get? "name").bind asStr) = .ok name ∧
      converter.toolPolicy.parseArguments converter.reader name
        (((function.get? "arguments").bind asStr).getD "\x7b\x7d") = .ok input ∧
      block = .toolUse id name input := by
  rw [toolUseBlock, bind_eq_ok_iff] at h
  obtain ⟨name, hname, h⟩ := h
  rw [bind_eq_ok_iff] at h
  obtain ⟨input, hinput, h⟩ := h
  cases h
  exact ⟨name, input, hname, hinput, rfl⟩

/-- The block of a call, under the identifier it was given. -/
def Converts (converter : ResponseConverter) (call : Json) (block : ContentBlock) : Prop :=
  ∃ id, converter.toolUseBlock id ((call.get? "function").getD .null) = .ok block ∧
    ∀ upstreamId, (call.get? "id").bind Json.asStr = some upstreamId → id = upstreamId

theorem convertCall_ok {call : Json} (h : converter.convertCall converted call = .ok converted') :
    ∃ block, Converts converter call block ∧ converted'.blocks = converted.blocks ++ [block] := by
  rw [convertCall] at h
  split at h
  · cases h
  rw [bind_eq_ok_iff] at h
  obtain ⟨block, hblock, h⟩ := h
  cases h
  exact ⟨block, ⟨_, hblock, fun _ hid => by rw [hid]; rfl⟩, rfl⟩

theorem foldlM_convertCall_ok {calls : List Json}
    (h : calls.foldlM converter.convertCall converted = .ok converted') :
    ∃ blocks, Forall₂ (Converts converter) calls blocks ∧
      converted'.blocks = converted.blocks ++ blocks := by
  induction calls generalizing converted with
  | nil =>
    cases h
    exact ⟨[], .nil, by simp⟩
  | cons _ _ ih =>
    rw [foldlM_cons, bind_eq_ok_iff] at h
    obtain ⟨_, hcall, hcalls⟩ := h
    obtain ⟨block, hblock, hnext⟩ := convertCall_ok hcall
    obtain ⟨_, hblocks, heq⟩ := ih hcalls
    exact ⟨block :: _, .cons hblock hblocks, by simp [heq, hnext]⟩

variable {choice message response : Json} {blocks : List ContentBlock}

/-- The blocks of a message: one for each call, or one for a `function_call` where there are no
calls. -/
theorem toolUseBlocks_ok (h : converter.toolUseBlocks message = .ok blocks) :
    (callEntries message ≠ [] ∧ Forall₂ (Converts converter) (callEntries message) blocks) ∨
    (callEntries message = [] ∧ message.get? "function_call" = none ∧ blocks = []) ∨
    (callEntries message = [] ∧ ∃ functionCall block,
      message.get? "function_call" = some functionCall ∧
      converter.toolUseBlock (converter.generatedId 0) functionCall = .ok block ∧
      blocks = [block]) := by
  rw [toolUseBlocks, bind_eq_ok_iff] at h
  obtain ⟨converted, hconverted, h⟩ := h
  obtain ⟨converts, hforall, hblocks⟩ := foldlM_convertCall_ok hconverted
  rw [← callEntries] at h hforall
  by_cases hempty : callEntries message = []
  · rw [hempty] at hforall
    cases hforall
    rw [hempty, isEmpty_nil, if_pos rfl] at h
    cases hfunction : message.get? "function_call" with
    | none =>
      rw [hfunction] at h
      cases h
      exact .inr (.inl ⟨hempty, rfl, hblocks⟩)
    | some functionCall =>
      rw [hfunction] at h
      rw [bind_eq_ok_iff] at h
      obtain ⟨block, hblock, h⟩ := h
      cases h
      exact .inr (.inr ⟨hempty, functionCall, block, rfl, hblock, rfl⟩)
  · rw [if_neg (by simpa using hempty)] at h
    cases h
    exact .inl ⟨hempty, hblocks ▸ hforall⟩

theorem openaiResponseToAnthropic_ok {message : AnthropicMessage}
    (h : openaiResponseToAnthropic converter response = .ok message) :
    ∃ choice reply tools, responseChoice response = some choice ∧
      choice.get? "message" = some reply ∧ converter.toolUseBlocks reply = .ok tools ∧
      converter.toolPolicy.validateCallSummary tools.length
        ((choice.get? "finish_reason").bind asStr) = .ok () ∧
      message.content = textBlocks reply ++ tools ∧
      message.stopReason =
        ((choice.get? "finish_reason").bind asStr).elim "end_turn" mapFinishReason := by
  rw [openaiResponseToAnthropic] at h
  cases hchoice : responseChoice response with
  | none =>
    rw [hchoice] at h
    cases h
  | some choice =>
    rw [hchoice] at h
    dsimp only at h
    cases hreply : choice.get? "message" with
    | none =>
      rw [hreply] at h
      cases h
    | some reply =>
      rw [hreply] at h
      rw [bind_eq_ok_iff] at h
      obtain ⟨tools, htools, h⟩ := h
      rw [bind_eq_ok_iff] at h
      obtain ⟨⟨⟩, hsummary, h⟩ := h
      cases h
      exact ⟨choice, reply, tools, rfl, hreply, htools, hsummary, rfl, rfl⟩

/-! ## Counting -/

theorem exists_toolUseBlock_of_mem (h : converter.toolUseBlocks message = .ok blocks)
    (hblock : block ∈ blocks) : ∃ id function, converter.toolUseBlock id function = .ok block := by
  rcases toolUseBlocks_ok h with ⟨-, hforall⟩ | ⟨-, -, rfl⟩ | ⟨-, functionCall, _, -, hok, rfl⟩
  · clear h
    generalize callEntries message = calls at hforall
    induction hforall with
    | nil => cases hblock
    | cons hconverts _ ih =>
      rcases mem_cons.mp hblock with rfl | hmem
      · obtain ⟨id, hok, -⟩ := hconverts
        exact ⟨id, _, hok⟩
      · exact ih hmem
  · cases hblock
  · rw [mem_singleton.mp hblock]
    exact ⟨_, functionCall, hok⟩

theorem isToolUse_of_toolUseBlocks (h : converter.toolUseBlocks message = .ok blocks) :
    ∀ block ∈ blocks, block.isToolUse = true := by
  intro _ hblock
  obtain ⟨_, _, hok⟩ := exists_toolUseBlock_of_mem h hblock
  obtain ⟨_, _, -, -, rfl⟩ := toolUseBlock_ok hok
  rfl

theorem countP_textBlocks (message : Json) :
    (textBlocks message).countP ContentBlock.isToolUse = 0 := by
  rw [countP_eq_zero, textBlocks]
  intro _ hblock
  simp only [Option.mem_toList, Option.map_eq_some_iff] at hblock
  obtain ⟨_, -, rfl⟩ := hblock
  simp [ContentBlock.isToolUse]

/-- The number of blocks that a message is converted to. -/
def convertedCount (message : Json) : ℕ :=
  if callEntries message = [] then (message.get? "function_call").toList.length
  else (callEntries message).length

theorem toolUseCount_eq {message : AnthropicMessage}
    (h : openaiResponseToAnthropic converter response = .ok message) :
    ∃ choice reply, responseChoice response = some choice ∧ choice.get? "message" = some reply ∧
      message.toolUseCount = convertedCount reply := by
  obtain ⟨choice, reply, _, hchoice, hreply, htools, -, hcontent, -⟩ :=
    openaiResponseToAnthropic_ok h
  refine ⟨choice, reply, hchoice, hreply, ?_⟩
  rw [AnthropicMessage.toolUseCount, hcontent, countP_append, countP_textBlocks, zero_add,
    countP_eq_length.mpr (isToolUse_of_toolUseBlocks htools), convertedCount]
  rcases toolUseBlocks_ok htools with ⟨hne, hforall⟩ | ⟨hempty, hnone, rfl⟩ |
    ⟨hempty, functionCall, block, hsome, -, rfl⟩
  · rw [if_neg hne, hforall.length_eq]
  · simp [hempty, hnone]
  · simp [hempty, hsome]

/-! ## The count a response asks for -/

/-- A member that is absent or `null`. -/
def NullOrAbsent (member : Option Json) : Prop := member.all Json.isNull = true

/-- The number of blocks is that of the `tool_calls` entries, or one for a `function_call` object
where there are none, or zero where neither is given; and it is the number recorded for the
response if at most one of the two is given. -/
structure CountsCalls (response message : Json) (blocks : ℕ) : Prop where
  entries : ∀ entries, message.get? "tool_calls" = some (.array entries) →
    entries ≠ [] ∨ (message.get? "function_call").any Json.isObject = false →
      blocks = entries.length
  functionCall : callEntries message = [] →
    (message.get? "function_call").any Json.isObject = true → blocks = 1
  absent : NullOrAbsent (message.get? "tool_calls") →
    NullOrAbsent (message.get? "function_call") → blocks = 0
  recorded : NullOrAbsent (message.get? "tool_calls") ∨
      NullOrAbsent (message.get? "function_call") →
    blocks = (({} : StreamLifecycle).observeOpenaiResponse response).response.toolCallCount

/-- A `function_call` that is given, but not as an object, where there are no calls: it is `null`,
or `tool_calls` is an array, `null` or absent. -/
def StrayFunctionCall (message : Json) : Prop :=
  callEntries message = [] ∧ ∃ functionCall, message.get? "function_call" = some functionCall ∧
    functionCall.isObject = false ∧ (functionCall.isNull = true ∨
      NullOrAbsent (message.get? "tool_calls") ∨ message.get? "tool_calls" = some (.array []))

theorem toolCallCount_observeOpenaiResponse (hchoice : responseChoice response = some choice)
    (hmessage : choice.get? "message" = some message) :
    (({} : StreamLifecycle).observeOpenaiResponse response).response.toolCallCount =
      (callEntries message).length + ((message.get? "function_call").any isObject).toNat := by
  rw [responseChoice] at hchoice
  simp only [StreamLifecycle.observeOpenaiResponse, hchoice, hmessage, Option.getD_some,
    StreamLifecycle.mergeResponse, callEntries]
  cases (message.get? "tool_calls").bind asArray <;> simp

theorem callEntries_of_array {entries : List Json}
    (h : message.get? "tool_calls" = some (.array entries)) : callEntries message = entries := by
  simp [callEntries, h, asArray]

theorem callEntries_of_nullOrAbsent (h : NullOrAbsent (message.get? "tool_calls")) :
    callEntries message = [] := by
  rw [callEntries]
  cases hcalls : message.get? "tool_calls" with
  | none => rfl
  | some calls =>
    rw [hcalls] at h
    cases calls with
    | null => rfl
    | _ => cases h

theorem nullOrAbsent_not_object {member : Option Json} (h : NullOrAbsent member) :
    member.any isObject = false := by
  cases member with
  | none => rfl
  | some json =>
    cases json with
    | null => rfl
    | _ => cases h

/-- A message with a stray `function_call` is not counted right: one block is made of it. -/
theorem StrayFunctionCall.not_countsCalls (hchoice : responseChoice response = some choice)
    (hreply : choice.get? "message" = some reply) (h : StrayFunctionCall reply) :
    ¬CountsCalls response reply (convertedCount reply) := by
  obtain ⟨hempty, _, hfunction, hobject, hgiven⟩ := h
  have hcount : convertedCount reply = 1 := by simp [convertedCount, hempty, hfunction]
  have hany : (reply.get? "function_call").any isObject = false := by simp [hfunction, hobject]
  have hrecorded : (({} : StreamLifecycle).observeOpenaiResponse response).response.toolCallCount =
      0 := by
    rw [toolCallCount_observeOpenaiResponse hchoice hreply, hempty, hany]
    rfl
  rw [hcount]
  intro hcounts
  rcases hgiven with hnull | habsent | harray
  · have := hcounts.recorded (.inr (by simpa [NullOrAbsent, hfunction] using hnull))
    omega
  · have := hcounts.recorded (.inl habsent)
    omega
  · have := hcounts.entries [] harray (.inr hany)
    simp at this

theorem countsCalls_of_not_stray (hchoice : responseChoice response = some choice)
    (hreply : choice.get? "message" = some reply) (h : ¬StrayFunctionCall reply) :
    CountsCalls response reply (convertedCount reply) := by
  have hrecorded := toolCallCount_observeOpenaiResponse hchoice hreply
  by_cases hempty : callEntries reply = []
  · cases hfunction : reply.get? "function_call" with
    | none =>
      have hcount : convertedCount reply = 0 := by simp [convertedCount, hempty, hfunction]
      rw [hcount]
      refine ⟨fun entries hentries _ => ?_, by simp [hfunction], fun _ _ => rfl, fun _ => ?_⟩
      · rw [← callEntries_of_array hentries, hempty, length_nil]
      · rw [hrecorded, hempty, hfunction]
        rfl
    | some functionCall =>
      have hcount : convertedCount reply = 1 := by simp [convertedCount, hempty, hfunction]
      rw [hcount]
      by_cases hobject : functionCall.isObject = true
      · have hany : (reply.get? "function_call").any isObject = true := by
          simp [hfunction, hobject]
        refine ⟨fun entries hentries hne => ?_, fun _ _ => rfl, fun _ hnull => ?_, fun _ => ?_⟩
        · rw [← callEntries_of_array hentries] at hne
          simp [hempty, hany] at hne
        · rw [nullOrAbsent_not_object hnull] at hany
          cases hany
        · rw [hrecorded, hempty, hany]
          rfl
      · -- neither `null` nor an object, next to `tool_calls` that is neither absent nor an array
        have hobject : functionCall.isObject = false := by simpa using hobject
        have hgiven : functionCall.isNull = false ∧ ¬NullOrAbsent (reply.get? "tool_calls") ∧
            reply.get? "tool_calls" ≠ some (.array []) := by
          refine ⟨?_, fun habsent => ?_, fun harray => ?_⟩
          · by_contra hnull
            exact h ⟨hempty, functionCall, hfunction, hobject, .inl (by simpa using hnull)⟩
          · exact h ⟨hempty, functionCall, hfunction, hobject, .inr (.inl habsent)⟩
          · exact h ⟨hempty, functionCall, hfunction, hobject, .inr (.inr harray)⟩
        refine ⟨fun _ hentries _ => ?_, by simp,
          (absurd · hgiven.2.1), ?_⟩
        · rw [← callEntries_of_array hentries, hempty] at hentries
          exact absurd hentries hgiven.2.2
        · rintro (habsent | hnull)
          · exact absurd habsent hgiven.2.1
          · simp [NullOrAbsent, hfunction, hgiven.1] at hnull
  · have hcount : convertedCount reply = (callEntries reply).length := if_neg hempty
    rw [hcount]
    refine ⟨fun _ hentries _ => by rw [callEntries_of_array hentries],
      (absurd · hempty), fun habsent => ?_, fun hgiven => ?_⟩
    · exact absurd (callEntries_of_nullOrAbsent habsent) hempty
    · rcases hgiven with habsent | hnull
      · exact absurd (callEntries_of_nullOrAbsent habsent) hempty
      · rw [hrecorded, nullOrAbsent_not_object hnull]
        rfl

/-- A response that is converted has the `tool_use` blocks its calls ask for, and as many as are
recorded, unless a stray `function_call` stands where calls could be. -/
theorem toolUse_count_iff {response : Json} {message : AnthropicMessage}
    (h : openaiResponseToAnthropic converter response = .ok message) :
    ∃ reply, responseMessage response = some reply ∧
      (CountsCalls response reply message.toolUseCount ↔ ¬StrayFunctionCall reply) := by
  obtain ⟨_, reply, hchoice, hreply, hcount⟩ := toolUseCount_eq h
  refine ⟨reply, by simp [responseMessage, hchoice, hreply], ?_⟩
  rw [hcount]
  exact ⟨fun hcounts hstray => hstray.not_countsCalls hchoice hreply hcounts,
    countsCalls_of_not_stray hchoice hreply⟩

def bestEffortConverter : ResponseConverter where
  reader := ⟨fun _ => none, fun _ => "expected value", fun _ => none⟩
  uuid _ := "0"
  requestedModel := "auto"
  toolPolicy := .bestEffort

/-- A response with one message. -/
def replyResponse (reply : Json) : Json :=
  .object [("choices", .array [.object [("message", reply)]])]

/-- A legacy call of the tool `search`. -/
def legacyReply : Json :=
  .object [("content", .null), ("function_call", .object [("name", .string "search")])]

theorem toolUse_count_sample : ∃ message,
    openaiResponseToAnthropic bestEffortConverter (replyResponse legacyReply) = .ok message ∧
      CountsCalls (replyResponse legacyReply) legacyReply message.toolUseCount := by
  refine ⟨_, rfl, ?_⟩
  obtain ⟨_, hreply, hcounts⟩ := toolUse_count_iff
    (rfl : openaiResponseToAnthropic bestEffortConverter (replyResponse legacyReply) = .ok _)
  cases hreply
  refine hcounts.mpr ?_
  rintro ⟨-, _, hfunction, hobject, -⟩
  cases hfunction
  cases hobject

/-- A text with `function_call` given as `null`. -/
def textReply : Json := .object [("content", .string "ok"), ("function_call", .null)]

theorem null_function_call_becomes_toolUse : ∃ message,
    openaiResponseToAnthropic bestEffortConverter (replyResponse textReply) = .ok message ∧
      message.toolUseCount = 1 ∧
      ¬CountsCalls (replyResponse textReply) textReply message.toolUseCount := by
  refine ⟨_, rfl, rfl, fun hcounts => ?_⟩
  cases hcounts.absent rfl rfl

end RouteSmith.Model
