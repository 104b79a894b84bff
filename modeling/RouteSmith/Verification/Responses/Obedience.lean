import RouteSmith.Verification.Responses.ToolBlocks
import RouteSmith.Verification.Streams.Arguments

/-! # Responses that obey their request

A strict policy bounds the number and the names of the calls that are accepted, for whole responses
and for streams. The bound for a `tool_choice` of `none` is lost where parallel calls are disabled
as well, and the identifiers that a stream checks in the end are not those of its blocks.
-/

namespace RouteSmith.Model

open Store Text List
open ToolResponsePolicy hiding choose

/-! ## Requests -/

def choiceType (extra : Json) : Option String :=
  (extra.get? "tool_choice").bind fun toolChoice => (toolChoice.get? "type").bind Json.asStr

def chosenName (extra : Json) : Option String := (extra.get? "tool_choice").bind toolName

def disablesParallel (extra : Json) : Bool :=
  (extra.get? "tool_choice").any fun toolChoice =>
    (toolChoice.get? "disable_parallel_tool_use").bind Json.asBool = some true

def declaredNames (extra : Json) : List String := (requestTools extra).filterMap toolName

/-- Calls with the given names, under the identifiers that the upstream supplied, are what the
request and the provider allow. -/
structure Obeys (extra : Json) (toolUse : ToolUseConfig) (names ids : List String) : Prop where
  none : choiceType extra = some "none" → names = []
  atLeastOne : choiceType extra = some "any" ∨ choiceType extra = some "tool" → names ≠ []
  named : choiceType extra = some "tool" → ∀ chosen, chosenName extra = some chosen →
    ∀ name ∈ names, name = chosen
  declared : ∀ name ∈ names, name ∈ declaredNames extra
  atMostOne : disablesParallel extra = true ∨ toolUse.parallelToolCalls = false →
    names.length ≤ 1
  distinct : ids.Nodup

/-! ## The policy of a request -/

variable {validatorFor : SchemaCompiler} {policy : ToolResponsePolicy}

theorem compileTool_ok {validators validators' : NameMap Validator} {entry : Json × ℕ}
    (h : compileTool validatorFor validators entry = .ok validators') :
    ∃ name validator, toolName entry.1 = some name ∧
      validators' = validators.insert name validator := by
  rw [compileTool] at h
  split at h
  · cases h
  · cases h
  · next name schema hname _ =>
    rw [bind_eq_ok_iff] at h
    obtain ⟨validator, -, h⟩ := h
    cases h
    exact ⟨name, validator, hname, rfl⟩

theorem mem_of_compileTools {tools : List Json} {n : ℕ} {validators validators' : NameMap Validator}
    (h : (tools.zipIdx n).foldlM (compileTool validatorFor) validators = .ok validators')
    {name : String} (hname : name ∈ validators') :
    name ∈ validators ∨ name ∈ tools.filterMap toolName := by
  induction tools generalizing n validators with
  | nil =>
    cases h
    exact .inl hname
  | cons _ _ ih =>
    rw [zipIdx_cons, foldlM_cons, bind_eq_ok_iff] at h
    obtain ⟨_, hnext, h⟩ := h
    obtain ⟨_, _, htool, rfl⟩ := compileTool_ok hnext
    rw [filterMap_cons_some htool, mem_cons]
    rcases ih h with hmem | hmem
    · rcases (AList.mem_insert _).mp hmem with rfl | hmem
      · exact .inr (.inl rfl)
      · exact .inl hmem
    · exact .inr (.inr hmem)

/-- What the policy of a request demands. -/
structure Demands (extra : Json) (toolUse : ToolUseConfig)
    (policy : ToolResponsePolicy) : Prop where
  validation : policy.validation = toolUse.responseValidation
  named : choiceType extra = some "tool" → ∀ chosen, chosenName extra = some chosen →
    ∀ name, policy.Declares name → name = chosen
  declares : ∀ name, policy.Declares name → name ∈ declaredNames extra ∨
    choiceType extra = some "tool" ∧ chosenName extra = some name
  compiled : ∀ name, name ∈ policy.inputValidators → name ∈ declaredNames extra
  minimumCalls : choiceType extra = some "any" ∨ choiceType extra = some "tool" →
    policy.minimumCalls = 1
  maximumCalls : policy.maximumCalls =
    if disablesParallel extra then some 1
    else if choiceType extra = some "none" then some 0
    else if toolUse.parallelToolCalls then Option.none else some 1

theorem choose_eq (policy : ToolResponsePolicy) (toolChoice : Json) :
    policy.choose toolChoice = { policy with
      allowedNames :=
        if (toolChoice.get? "type").bind Json.asStr = some "tool" then
          (toolName toolChoice).elim policy.allowedNames fun name => some [name]
        else policy.allowedNames
      minimumCalls :=
        if (toolChoice.get? "type").bind Json.asStr = some "any" ∨
          (toolChoice.get? "type").bind Json.asStr = some "tool" then 1
        else policy.minimumCalls
      maximumCalls :=
        if (toolChoice.get? "disable_parallel_tool_use").bind Json.asBool = some true then some 1
        else if (toolChoice.get? "type").bind Json.asStr = some "none" then some 0
        else policy.maximumCalls } := by
  rw [ToolResponsePolicy.choose]
  split
  · split <;> simp_all
  · split <;> simp_all

theorem demands_of_forAnthropicRequest {extra : Json} {toolUse : ToolUseConfig}
    (h : forAnthropicRequest validatorFor extra toolUse = .ok policy) :
    Demands extra toolUse policy := by
  rw [forAnthropicRequest, bind_eq_ok_iff] at h
  obtain ⟨validators, hvalidators, h⟩ := h
  have hcompiled : ∀ name ∈ validators, name ∈ declaredNames extra := by
    intro name hname
    rw [compileTools] at hvalidators
    split_ifs at hvalidators
    · exact (mem_of_compileTools hvalidators hname).resolve_left (by simp)
    · cases hvalidators
      simp at hname
  cases h
  cases hchoice : extra.get? "tool_choice" with
  | none =>
    refine ⟨rfl, ?_, fun name hname => .inl (hname _ rfl), hcompiled, ?_, ?_⟩ <;>
      simp [choiceType, disablesParallel, hchoice]
  | some toolChoice =>
    have htype : choiceType extra = (toolChoice.get? "type").bind Json.asStr := by
      rw [choiceType, hchoice, Option.bind_some]
    have hname : chosenName extra = toolName toolChoice := by
      rw [chosenName, hchoice, Option.bind_some]
    have hdisables : disablesParallel extra = true ↔
        (toolChoice.get? "disable_parallel_tool_use").bind Json.asBool = some true := by
      simp [disablesParallel, hchoice]
    rw [Option.elim_some, choose_eq, ← htype, ← hname]
    refine ⟨rfl, fun hc chosen hchosen name hdeclares => ?_,
      fun name hdeclares => ?_, fun name hmem => hcompiled name ?_, fun hc => ?_, ?_⟩
    · have := hdeclares [chosen] (by simp [hc, hchosen])
      simpa using this
    · rw [Declares] at hdeclares
      dsimp only at hdeclares
      split_ifs at hdeclares with hc
      · cases hchosen : chosenName extra with
        | none => exact .inl (hdeclares _ (by rw [hchosen]; rfl))
        | some chosen =>
          have := hdeclares [chosen] (by rw [hchosen]; rfl)
          exact .inr ⟨hc, by rw [mem_singleton.mp this]⟩
      · exact .inl (hdeclares _ rfl)
    · exact hmem
    · exact if_pos hc
    · simp [hdisables]

/-! ## Accepted calls -/

/-- What a strict policy has checked of the calls with the given names: each is declared, and was
checked against the schema of a declared tool. -/
structure Checked (policy : ToolResponsePolicy) (names : List String) : Prop where
  declares : ∀ name ∈ names, policy.Declares name
  compiled : ∀ name ∈ names, ∃ last, policy.Declares last ∧ last ∈ policy.inputValidators
  minimumCalls : policy.minimumCalls ≤ names.length
  maximumCalls : ∀ maximum, policy.maximumCalls = some maximum → names.length ≤ maximum

theorem validateCallSummary_strict (hstrict : policy.validation = .strict) {callCount : ℕ}
    {finishReason : Option String}
    (h : policy.validateCallSummary callCount finishReason = .ok ()) :
    policy.minimumCalls ≤ callCount ∧
      ∀ maximum, policy.maximumCalls = some maximum → callCount ≤ maximum := by
  rw [validateCallSummary, hstrict, if_neg nofun] at h
  split_ifs at h with hminimum hmaximum
  all_goals
    refine ⟨not_lt.mp hminimum, fun _ heq => not_lt.mp fun hlt => hmaximum ?_⟩
    simp [heq, hlt]

/-- Checked calls obey the request, but for the identifiers and for a `tool_choice` of `none` with
parallel calls disabled. -/
theorem Checked.obeys_iff {extra : Json} {toolUse : ToolUseConfig} {names ids : List String}
    (h : Checked policy names) (hdemands : Demands extra toolUse policy) :
    Obeys extra toolUse names ids ↔
      (choiceType extra = some "none" → disablesParallel extra = true → names = []) ∧
        ids.Nodup := by
  constructor
  · exact fun hobeys => ⟨fun hnone _ => hobeys.none hnone, hobeys.distinct⟩
  · rintro ⟨hnone, hids⟩
    refine ⟨fun htype => ?_, fun htype hnil => ?_, fun htype _ hchosen name hname => ?_,
      fun name hname => ?_, fun hsingle => ?_, hids⟩
    · cases hdisables : disablesParallel extra with
      | true => exact hnone htype hdisables
      | false =>
        have := h.maximumCalls 0 (by simp [hdemands.maximumCalls, hdisables, htype])
        simpa using this
    · have := h.minimumCalls
      rw [hdemands.minimumCalls htype, hnil] at this
      cases this
    · exact hdemands.named htype _ hchosen name (h.declares name hname)
    · rcases hdemands.declares name (h.declares name hname) with hdeclared | ⟨htype, hchosen⟩
      · exact hdeclared
      · obtain ⟨last, hlast, hcompiled⟩ := h.compiled name hname
        rw [← hdemands.named htype name hchosen last hlast]
        exact hdemands.compiled last hcompiled
    · have hmaximum : ∃ maximum ≤ 1, policy.maximumCalls = some maximum := by
        rw [hdemands.maximumCalls]
        split_ifs with hdisables htype hparallel
        · exact ⟨1, le_rfl, rfl⟩
        · exact ⟨0, zero_le_one, rfl⟩
        · simp [hdisables, hparallel] at hsingle
        · exact ⟨1, le_rfl, rfl⟩
      obtain ⟨_, hle, heq⟩ := hmaximum
      exact (h.maximumCalls _ heq).trans hle

theorem mem_inputValidators_of_parseArguments (hstrict : policy.validation = .strict)
    {reader : Json.Reader} {name arguments : String} {value : Json}
    (h : policy.parseArguments reader name arguments = .ok value) :
    name ∈ policy.inputValidators := by
  obtain ⟨_, validator, -, hlookup, -⟩ :=
    (parseArguments_strict hstrict).mp (by rw [h]; rfl)
  exact NameMap.mem_iff_exists_lookup.mpr ⟨validator, hlookup⟩

/-! ## Whole responses -/

def ContentBlock.toolName? : ContentBlock → Option String
  | text _ => none
  | toolUse _ name _ => some name

/-- The names of the calls in a message. -/
def AnthropicMessage.toolNames (message : AnthropicMessage) : List String :=
  message.content.filterMap ContentBlock.toolName?

def callId (call : Json) : Option String := (call.get? "id").bind Json.asStr

/-- The identifiers that an upstream supplied for its calls. -/
def suppliedIds (reply : Json) : List String := (callEntries reply).filterMap callId

/-- Whether a reply carries a call, in either form. -/
def carriesCall (reply : Json) : Bool :=
  !(callEntries reply).isEmpty || (reply.get? "function_call").isSome

section

variable {converter : ResponseConverter}

section

variable (hstrict : converter.toolPolicy.validation = .strict)

include hstrict

theorem toolUseBlock_checked {id : String} {function : Json} {block : ContentBlock}
    (h : converter.toolUseBlock id function = .ok block) :
    ∃ name, block.toolName? = some name ∧ converter.toolPolicy.Declares name ∧
      name ∈ converter.toolPolicy.inputValidators := by
  obtain ⟨name, _, hname, hinput, rfl⟩ := toolUseBlock_ok h
  exact ⟨name, rfl, ((validateName_strict hstrict).mp hname).2.2,
    mem_inputValidators_of_parseArguments hstrict hinput⟩

theorem toolUseBlocks_checked {reply : Json} {blocks : List ContentBlock}
    (h : converter.toolUseBlocks reply = .ok blocks) : (blocks = [] ↔ carriesCall reply = false) ∧
      ∀ block ∈ blocks, ∃ name, block.toolName? = some name ∧
        converter.toolPolicy.Declares name ∧ name ∈ converter.toolPolicy.inputValidators := by
  refine ⟨?_, fun block hblock => ?_⟩
  · rcases toolUseBlocks_ok h with ⟨hcalls, hconverts⟩ | ⟨hcalls, hfunction, rfl⟩ |
      ⟨hcalls, functionCall, block, hfunction, -, rfl⟩
    · refine iff_of_false ?_ (by simp [carriesCall, hcalls])
      rintro rfl
      exact hcalls (forall₂_nil_right_iff.mp hconverts)
    · exact iff_of_true rfl (by simp [carriesCall, hcalls, hfunction])
    · simp [carriesCall, hfunction]
  · obtain ⟨_, _, hok⟩ := exists_toolUseBlock_of_mem h hblock
    exact toolUseBlock_checked hstrict hok

/-- Supplied identifiers differ from each other and from those met before. -/
theorem nodup_of_convertCalls {calls : List Json} {converted converted' : ConvertedCalls}
    (h : calls.foldlM converter.convertCall converted = .ok converted') :
    (calls.filterMap callId).Nodup ∧ ∀ id ∈ calls.filterMap callId, id ∉ converted.ids := by
  induction calls generalizing converted with
  | nil => simp
  | cons call calls ih =>
    rw [foldlM_cons, bind_eq_ok_iff] at h
    obtain ⟨_, hnext, h⟩ := h
    obtain ⟨hnodup, hfresh⟩ := ih h
    rw [ResponseConverter.convertCall] at hnext
    split at hnext
    · cases hnext
    rename_i hduplicate
    rw [bind_eq_ok_iff] at hnext
    obtain ⟨_, -, hnext⟩ := hnext
    cases hnext
    have hrest := fun id hid hmem => hfresh id hid (mem_cons_of_mem _ hmem)
    cases hid : callId call with
    | none =>
      rw [filterMap_cons_none hid]
      exact ⟨hnodup, hrest⟩
    | some id =>
      rw [filterMap_cons_some hid]
      rw [callId] at hid
      have hnew : id ∉ converted.ids := by
        simpa [isStrict, hstrict, hid] using hduplicate
      refine ⟨nodup_cons.mpr ⟨fun hmem => hfresh id hmem ?_, hnodup⟩,
        forall_mem_cons.mpr ⟨hnew, hrest⟩⟩
      simp [hid]

theorem nodup_suppliedIds {reply : Json} {blocks : List ContentBlock}
    (h : converter.toolUseBlocks reply = .ok blocks) : (suppliedIds reply).Nodup := by
  rw [ResponseConverter.toolUseBlocks, bind_eq_ok_iff] at h
  obtain ⟨_, hconverted, -⟩ := h
  exact (nodup_of_convertCalls hstrict hconverted).1

end

theorem toolNames_textBlocks (reply : Json) :
    (textBlocks reply).filterMap ContentBlock.toolName? = [] := by
  rw [filterMap_eq_nil_iff]
  intro _ hblock
  obtain ⟨_, -, rfl⟩ := Option.map_eq_some_iff.mp (Option.mem_toList.mp hblock)
  rfl

/-- A converted response obeys its request, but for a `tool_choice` of `none` with parallel calls
disabled. -/
theorem response_obeys_iff {extra : Json} {toolUse : ToolUseConfig}
    (hdemands : Demands extra toolUse converter.toolPolicy)
    (hstrict : converter.toolPolicy.validation = .strict) {response : Json}
    {message : AnthropicMessage} (h : openaiResponseToAnthropic converter response = .ok message) :
    ∃ reply, responseMessage response = some reply ∧
      (Obeys extra toolUse message.toolNames (suppliedIds reply) ↔
        (choiceType extra = some "none" → disablesParallel extra = true →
          carriesCall reply = false)) := by
  obtain ⟨_, reply, tools, hchoice, hreply, htools, hsummary, hcontent, -⟩ :=
    openaiResponseToAnthropic_ok h
  refine ⟨reply, by simp [responseMessage, hchoice, hreply], ?_⟩
  obtain ⟨hnil, hblocks⟩ := toolUseBlocks_checked hstrict htools
  obtain ⟨hminimum, hmaximum⟩ := validateCallSummary_strict hstrict hsummary
  have hnames : message.toolNames = tools.filterMap ContentBlock.toolName? := by
    rw [AnthropicMessage.toolNames, hcontent, filterMap_append, toolNames_textBlocks, nil_append]
  have hlength : message.toolNames.length = tools.length := by
    rw [hnames, length_filterMap_eq_countP, countP_eq_length]
    intro block hblock
    obtain ⟨name, hname, -⟩ := hblocks _ hblock
    rw [hname]
    rfl
  have hchecked : Checked converter.toolPolicy message.toolNames := by
    have hmem : ∀ name ∈ message.toolNames, converter.toolPolicy.Declares name ∧
        name ∈ converter.toolPolicy.inputValidators := by
      intro name hname
      rw [hnames] at hname
      obtain ⟨_, hblock, hname⟩ := mem_filterMap.mp hname
      obtain ⟨_, hname', hchecked⟩ := hblocks _ hblock
      cases hname.symm.trans hname'
      exact hchecked
    exact ⟨fun name hname => (hmem name hname).1, fun name hname => ⟨name, hmem name hname⟩,
      hlength ▸ hminimum, hlength ▸ hmaximum⟩
  have hempty : message.toolNames = [] ↔ carriesCall reply = false := by
    rw [← hnil, ← length_eq_zero_iff, hlength, length_eq_zero_iff]
  rw [hchecked.obeys_iff hdemands, hempty, and_iff_left (nodup_suppliedIds hstrict htools)]

end

/-! ## Streams -/

namespace AnthropicRelay

variable {relay : AnthropicRelay} {frames : SseFrameStream}

/-- The identifiers of the blocks for which the upstream supplied one. -/
def blockIds (relay : AnthropicRelay) (frames : List (Except AppError SseFrame))
    (uses : List ToolUse) : List String :=
  ((shownKeys relay.deduplicateToolArguments (relay.digestOf frames).fragments).zip uses).filterMap
    fun p => (openingOf (relay.digestOf frames).fragments p.1).upstreamId.map fun _ => p.2.id

/-- The identifiers that calls have when their blocks are opened. -/
def openingIds (relay : AnthropicRelay) (frames : List (Except AppError SseFrame)) :
    List String :=
  (shownKeys relay.deduplicateToolArguments (relay.digestOf frames).fragments).filterMap fun key =>
    (openingOf (relay.digestOf frames).fragments key).upstreamId

theorem blockIds_eq_openingIds {uses : List ToolUse}
    (h : Forall₂ (relay.Shows (relay.digestOf frames).fragments)
      (shownKeys relay.deduplicateToolArguments (relay.digestOf frames).fragments) uses) :
    relay.blockIds frames uses = relay.openingIds frames := by
  rw [blockIds, openingIds]
  generalize shownKeys relay.deduplicateToolArguments (relay.digestOf frames).fragments = keys at h
  induction h with
  | nil => rfl
  | @cons key use _ _ hshows _ ih =>
    rw [zip_cons_cons, filterMap_cons, filterMap_cons, ih]
    rcases hshows.opens.id with hid | ⟨hid, -⟩ <;> simp only [hid, Option.map_some, Option.map_none]

theorem Succeeds.shownKeys_eq (h : Succeeds relay frames)
    (hstrict : relay.toolPolicy.validation = .strict) :
    shownKeys relay.deduplicateToolArguments (relay.digestOf frames).fragments =
      firstKeys (relay.digestOf frames).fragments := by
  refine filter_eq_self.mpr fun key hkey => ?_
  obtain ⟨_, hname, -, -⟩ := h.validated_call hstrict hkey
  change (relay.seenCall frames key).visible = true
  simp [ToolState.visible, hname]

theorem Succeeds.checked (h : Succeeds relay frames)
    (hstrict : relay.toolPolicy.validation = .strict) {uses : List ToolUse}
    (huses : Forall₂ (relay.Shows (relay.digestOf frames).fragments)
      (shownKeys relay.deduplicateToolArguments (relay.digestOf frames).fragments) uses) :
    Checked relay.toolPolicy (uses.map ToolUse.name) := by
  obtain ⟨_, -, hsummary⟩ := validateTools_ok h.validated
  obtain ⟨hminimum, hmaximum⟩ := validateCallSummary_strict hstrict hsummary
  have hcall : ∀ use ∈ uses, relay.toolPolicy.Declares use.name ∧
      ∃ last, relay.toolPolicy.Declares last ∧ last ∈ relay.toolPolicy.inputValidators := by
    rw [h.shownKeys_eq hstrict] at huses
    have hkeys : ∀ key ∈ firstKeys (relay.digestOf frames).fragments, ∃ last,
        relay.toolPolicy.Declares last ∧ last ∈ relay.toolPolicy.inputValidators := by
      intro _ hkey
      obtain ⟨last, -, hdeclares, hvalid⟩ := h.validated_call hstrict hkey
      obtain ⟨-, validator, -, hlookup, -⟩ :=
        (parseArguments_strict hstrict).mp hvalid
      exact ⟨last, hdeclares, NameMap.mem_iff_exists_lookup.mpr ⟨validator, hlookup⟩⟩
    generalize firstKeys (relay.digestOf frames).fragments = keys at huses hkeys
    induction huses with
    | nil => simp
    | cons hshows _ ih =>
      have hname := (validateName_strict hstrict).mp hshows.opens.name
      rw [forall_mem_cons] at hkeys
      exact forall_mem_cons.mpr ⟨⟨hname.2.2, hkeys.1⟩, ih hkeys.2⟩
  have hlength : (uses.map ToolUse.name).length = (toolStates (collectTools
      relay.deduplicateToolArguments (relay.digestOf frames).fragments)).length := by
    rw [length_toolStates_collectTools, ← h.shownKeys_eq hstrict, huses.length_eq, length_map]
  refine ⟨forall_mem_map.mpr fun use huse => (hcall use huse).1,
    forall_mem_map.mpr fun use huse => (hcall use huse).2, hlength ▸ hminimum,
    hlength ▸ hmaximum⟩

/-- A stream that reaches `message_stop` obeys its request, but for a `tool_choice` of `none` with
parallel calls disabled, and for identifiers that are not distinct when blocks are opened. -/
theorem stream_obeys_iff {extra : Json} {toolUse : ToolUseConfig}
    (hdemands : Demands extra toolUse relay.toolPolicy)
    (hstrict : relay.toolPolicy.validation = .strict)
    (hstop : .ok .messageStop ∈ itemsOf (openaiStreamToAnthropic relay frames)) :
    ∃ m, assemble (eventsOf (openaiStreamToAnthropic relay frames)) = some m ∧
      (Obeys extra toolUse (m.toolUses.map ToolUse.name) (relay.blockIds frames m.toolUses) ↔
        (choiceType extra = some "none" → disablesParallel extra = true →
          (relay.digestOf frames).fragments = []) ∧ (relay.openingIds frames).Nodup) := by
  have hsucceeds := messageStop_mem_iff.mp hstop
  cases outcome_openaiStreamToAnthropic relay frames with
  | breaksOff _ _ hfails => exact absurd hsucceeds hfails
  | delivers m _ _ hm hdelivered =>
    refine ⟨m, hm, ?_⟩
    have hnil : m.toolUses.map ToolUse.name = [] ↔ (relay.digestOf frames).fragments = [] := by
      rw [map_eq_nil_iff, ← length_eq_zero_iff, ← hdelivered.toolUses.length_eq,
        hsucceeds.shownKeys_eq hstrict, length_eq_zero_iff, firstKeys_eq_nil_iff]
    rw [(hsucceeds.checked hstrict hdelivered.toolUses).obeys_iff hdemands, hnil,
      blockIds_eq_openingIds hdelivered.toolUses]

end AnthropicRelay

/-! ## Both forms -/

/-- What a strict policy accepts obeys the request that the policy was made for: for a whole
response, unless it carries a call while the request forbids calls and disables parallel ones; for
a stream, if also the calls have distinct identifiers when their blocks are opened. -/
theorem strict_calls_obey_iff {validatorFor : SchemaCompiler} {extra : Json}
    {toolUse : ToolUseConfig} {policy : ToolResponsePolicy}
    (hpolicy : ToolResponsePolicy.forAnthropicRequest validatorFor extra toolUse = .ok policy)
    (hstrict : toolUse.responseValidation = .strict) :
    (∀ (converter : ResponseConverter) response message, converter.toolPolicy = policy →
      openaiResponseToAnthropic converter response = .ok message →
      ∃ reply, responseMessage response = some reply ∧
        (Obeys extra toolUse message.toolNames (suppliedIds reply) ↔
          (choiceType extra = some "none" → disablesParallel extra = true →
            carriesCall reply = false))) ∧
    ∀ (relay : AnthropicRelay) frames, relay.toolPolicy = policy →
      Except.ok .messageStop ∈ itemsOf (openaiStreamToAnthropic relay frames) →
      ∃ m, assemble (eventsOf (openaiStreamToAnthropic relay frames)) = some m ∧
        (Obeys extra toolUse (m.toolUses.map ToolUse.name) (relay.blockIds frames m.toolUses) ↔
          (choiceType extra = some "none" → disablesParallel extra = true →
            (relay.digestOf frames).fragments = []) ∧ (relay.openingIds frames).Nodup) := by
  have hdemands := demands_of_forAnthropicRequest hpolicy
  have hvalidation := hdemands.validation.trans hstrict
  refine ⟨fun _ _ _ hconverter h => ?_, fun _ _ hrelay hstop => ?_⟩
  · subst hconverter
    exact response_obeys_iff hdemands hvalidation h
  · subst hrelay
    exact AnthropicRelay.stream_obeys_iff hdemands hvalidation hstop

/-- A request with one tool. -/
def oneToolRequest (toolChoice : Json) : Json :=
  .object [
    ("tools", .array [.object [("name", .string "get"),
      ("input_schema", .object [("type", .string "object")])]]),
    ("tool_choice", toolChoice)]

def strictToolUse : ToolUseConfig := { responseValidation := .strict }

/-- A response with one call of that tool. -/
def oneCallResponse : Json :=
  .object [("choices", .array [.object [
    ("message", .object [("tool_calls", .array [.object [("id", .string "call_1"),
      ("function", .object [("name", .string "get"), ("arguments", .string "\x7b\x7d")])]])]),
    ("finish_reason", .string "tool_calls")]])]

def oneCallConverter (policy : ToolResponsePolicy) : ResponseConverter where
  reader := AnthropicRelay.oneCallReader ""
  uuid := toString
  requestedModel := "m"
  toolPolicy := policy

/-- Any schema compiles, to a validator that accepts any object. -/
def acceptAny : SchemaCompiler := fun _ => .ok fun _ => none

theorem strict_calls_obey_sample : ∃ policy message reply,
    ToolResponsePolicy.forAnthropicRequest acceptAny
      (oneToolRequest (.object [("type", .string "any")])) strictToolUse = .ok policy ∧
    openaiResponseToAnthropic (oneCallConverter policy) oneCallResponse = .ok message ∧
    responseMessage oneCallResponse = some reply ∧
    Obeys (oneToolRequest (.object [("type", .string "any")])) strictToolUse message.toolNames
      (suppliedIds reply) := by
  obtain ⟨policy, hpolicy⟩ : ∃ policy, forAnthropicRequest acceptAny
      (oneToolRequest (.object [("type", .string "any")])) strictToolUse = .ok policy := ⟨_, rfl⟩
  obtain ⟨message, hmessage⟩ : ∃ message, openaiResponseToAnthropic (oneCallConverter policy)
      oneCallResponse = .ok message := by
    cases hpolicy
    exact ⟨_, rfl⟩
  obtain ⟨reply, hreply, hobeys⟩ :=
    (strict_calls_obey_iff hpolicy rfl).1 _ _ _ rfl hmessage
  exact ⟨policy, message, reply, hpolicy, hmessage, hreply, hobeys.mpr nofun⟩

/-- A request that forbids calls, and disables parallel ones, accepts a call. -/
theorem forbidden_call_accepted : ∃ policy message reply,
    ToolResponsePolicy.forAnthropicRequest acceptAny (oneToolRequest (.object
      [("type", .string "none"), ("disable_parallel_tool_use", .bool true)])) strictToolUse =
        .ok policy ∧
    openaiResponseToAnthropic (oneCallConverter policy) oneCallResponse = .ok message ∧
    responseMessage oneCallResponse = some reply ∧
    ¬Obeys (oneToolRequest (.object
      [("type", .string "none"), ("disable_parallel_tool_use", .bool true)])) strictToolUse
        message.toolNames (suppliedIds reply) :=
  ⟨_, _, _, rfl, rfl, rfl, fun hobeys => nomatch hobeys.none rfl⟩

end RouteSmith.Model
