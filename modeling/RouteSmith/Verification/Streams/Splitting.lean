import RouteSmith.Verification.Responses.ToolBlocks
import RouteSmith.Verification.Streams.Arguments
import Mathlib.Algebra.Order.BigOperators.Group.List
import Mathlib.Data.List.Perm.Subperm

/-! # One completion, whole or in chunks

A completion that arrives in chunks is put together by the client, and one that arrives whole is
converted. Both give the same message if the chunks describe the calls outside of deltas that
carry empty content, and bring them up in their order.
-/

namespace RouteSmith.Model

open Text ToolResponsePolicy ContentBlock AnthropicRelay ResponseConverter
open Option hiding map_map
open List hiding isEmpty

/-! ## Completions -/

structure CompletionCall where
  id : String
  name : String
  arguments : String

/-- A chat completion with one choice. -/
structure Completion where
  text : String
  calls : List CompletionCall
  finishReason : Option String

namespace CompletionCall

variable (call : CompletionCall)

def functionJson : Json :=
  .object [("name", .string call.name), ("arguments", .string call.arguments)]

def json : Json := .object [("id", .string call.id), ("function", call.functionJson)]

theorem name_functionJson : call.functionJson.get? "name" = some (.string call.name) := by
  simp [functionJson, Json.get?]

theorem arguments_functionJson :
    call.functionJson.get? "arguments" = some (.string call.arguments) := by
  simp [functionJson, Json.get?]

theorem id_json : call.json.get? "id" = some (.string call.id) := by
  simp [json, Json.get?]

end CompletionCall

namespace Completion

variable (completion : Completion)

def messageJson : Json :=
  .object [("content", .string completion.text),
    ("tool_calls", .array (completion.calls.map CompletionCall.json))]

def choiceJson : Json :=
  .object [("message", completion.messageJson),
    ("finish_reason", completion.finishReason.elim .null .string)]

/-- The completion as a whole response. -/
def json : Json := .object [("choices", .array [completion.choiceJson])]

theorem content_messageJson :
    completion.messageJson.get? "content" = some (.string completion.text) := by
  simp [messageJson, Json.get?]

theorem toolCalls_messageJson : completion.messageJson.get? "tool_calls" =
    some (.array (completion.calls.map CompletionCall.json)) := by
  simp [messageJson, Json.get?]

theorem functionCall_messageJson : completion.messageJson.get? "function_call" = none := by
  simp [messageJson, Json.get?]

theorem message_choiceJson :
    completion.choiceJson.get? "message" = some completion.messageJson := by
  simp [choiceJson, Json.get?]

theorem finishReason_choiceJson :
    (completion.choiceJson.get? "finish_reason").bind Json.asStr = completion.finishReason := by
  cases hreason : completion.finishReason <;> simp [choiceJson, Json.get?, hreason, Json.asStr]

theorem responseChoice_json : responseChoice completion.json = some completion.choiceJson := by
  simp [responseChoice, json, Json.get?, Json.asArray]

end Completion

/-- The choices of a stream are the completion in pieces: the texts add up, each call is named and
identified as it is, and its arguments add up, in any order of the calls. -/
structure Completion.Splits (completion : Completion) (choices : List OpenAiStreamChoice) :
    Prop where
  text : String.join (choices.map fun choice => choice.delta.content.getD "") = completion.text
  noFunctionCall : ∀ choice ∈ choices, choice.delta.functionCall = none
  fragment : ∀ f ∈ choices.flatMap (·.delta.fragments), ∃ call,
    completion.calls[f.key]? = some call ∧ (∀ id, f.id = some id → id = call.id) ∧
      ∀ name, f.name = some name → name = call.name
  call : ∀ (i : ℕ) call, completion.calls[i]? = some call →
    argumentsOf (choices.flatMap (·.delta.fragments)) i = call.arguments ∧
    (∃ f ∈ choices.flatMap (·.delta.fragments), f.key = i ∧ f.id.isSome = true) ∧
    ∃ f ∈ choices.flatMap (·.delta.fragments), f.key = i ∧ f.name.isSome = true
  finishReason : (choices.filterMap (·.finishReason)).getLast? = completion.finishReason

/-! ## The whole response -/

def ContentBlock.text? : ContentBlock → Option String
  | .text content => some content
  | .toolUse _ _ _ => none

def ContentBlock.call? : ContentBlock → Option (String × Json)
  | .text _ => none
  | .toolUse _ name input => some (name, input)

/-- The text of a message. -/
def AnthropicMessage.text (message : AnthropicMessage) : String :=
  String.join (message.content.filterMap ContentBlock.text?)

/-- The names and inputs of the calls in a message. -/
def AnthropicMessage.calls (message : AnthropicMessage) : List (String × Json) :=
  message.content.filterMap ContentBlock.call?

namespace ToolResponsePolicy

variable {policy : ToolResponsePolicy}

theorem validateName_bestEffort (h : policy.validation = .bestEffort) (name : Option String) :
    policy.validateName name = .ok (name.getD "tool") := by
  rw [validateName, if_pos h]

/-- The input that arguments are taken for where any are accepted. -/
def inputOf (reader : Json.Reader) (arguments : String) : Json :=
  if isEmpty (trim arguments) then .object []
  else
    match reader.parse arguments with
    | some (.object members) => .object members
    | some value => .object [("_raw_arguments", value)]
    | none => .object [("_raw_arguments", .string arguments)]

theorem parseArguments_bestEffort (h : policy.validation = .bestEffort) (reader : Json.Reader)
    (name arguments : String) :
    policy.parseArguments reader name arguments = .ok (inputOf reader arguments) := by
  have hvalue : policy.argumentsValue reader arguments = .ok (inputOf reader arguments) := by
    rw [argumentsValue, inputOf, h]
    split_ifs
    · rfl
    · cases reader.parse arguments with
      | none => rfl
      | some json => cases json <;> rfl
  rw [parseArguments, hvalue]
  exact if_pos h

theorem validateCallSummary_bestEffort (h : policy.validation = .bestEffort) (callCount : ℕ)
    (finishReason : Option String) :
    policy.validateCallSummary callCount finishReason = .ok () := by
  rw [validateCallSummary, if_pos h]

end ToolResponsePolicy

section

variable {converter : ResponseConverter}

section

variable (h : converter.toolPolicy.validation = .bestEffort)

include h

theorem convertCall_json (converted : ConvertedCalls) (call : CompletionCall) :
    converter.convertCall converted call.json = .ok { converted with
      ids := call.id :: converted.ids
      blocks := converted.blocks ++ [.toolUse call.id call.name
        (inputOf converter.reader call.arguments)] } := by
  have hblock : converter.toolUseBlock call.id call.functionJson = .ok (.toolUse call.id call.name
      (inputOf converter.reader call.arguments)) := by
    rw [toolUseBlock, call.name_functionJson, call.arguments_functionJson,
      validateName_bestEffort h]
    exact bind_eq_ok_iff.mpr ⟨_, rfl, bind_eq_ok_iff.mpr ⟨_, parseArguments_bestEffort h .., rfl⟩⟩
  rw [convertCall, call.id_json]
  have hbest : converter.toolPolicy.isStrict = false := by
    rw [isStrict, h]
    rfl
  rw [bind_some, Json.asStr, hbest, Bool.false_and]
  exact bind_eq_ok_iff.mpr ⟨_, hblock, rfl⟩

theorem foldlM_convertCall_json (calls : List CompletionCall) (converted : ConvertedCalls) :
    ∃ converted', (calls.map CompletionCall.json).foldlM converter.convertCall converted =
        .ok converted' ∧
      converted'.blocks = converted.blocks ++ calls.map fun call => .toolUse call.id call.name
        (inputOf converter.reader call.arguments) := by
  induction calls generalizing converted with
  | nil => exact ⟨converted, rfl, by simp⟩
  | cons _ _ ih =>
    rw [map_cons, foldlM_cons, convertCall_json h]
    obtain ⟨converted', hconverted', hblocks⟩ := ih _
    exact ⟨converted', hconverted', by simp [hblocks]⟩

theorem openaiResponseToAnthropic_json (completion : Completion) :
    ∃ message, openaiResponseToAnthropic converter completion.json = .ok message ∧
      message.text = completion.text ∧
      message.calls = completion.calls.map (fun call =>
        (call.name, inputOf converter.reader call.arguments)) ∧
      message.stopReason = completion.finishReason.elim "end_turn" mapFinishReason := by
  obtain ⟨converted, hconverted, hblocks⟩ := foldlM_convertCall_json h _ {}
  rw [nil_append] at hblocks
  have htools : converter.toolUseBlocks completion.messageJson = .ok converted.blocks := by
    rw [toolUseBlocks, completion.toolCalls_messageJson,
      completion.functionCall_messageJson, bind_some, Json.asArray, getD_some,
      ite_self]
    exact bind_eq_ok_iff.mpr ⟨converted, hconverted, rfl⟩
  have hmessage : ∃ message, openaiResponseToAnthropic converter completion.json = .ok message := by
    rw [openaiResponseToAnthropic, completion.responseChoice_json]
    dsimp only
    exact ⟨_, bind_eq_ok_iff.mpr ⟨_, htools, bind_eq_ok_iff.mpr
      ⟨_, validateCallSummary_bestEffort h .., rfl⟩⟩⟩
  obtain ⟨message, hmessage⟩ := hmessage
  obtain ⟨_, _, _, hchoice, hreply, htools', -, hcontent, hreason⟩ :=
    openaiResponseToAnthropic_ok hmessage
  cases completion.responseChoice_json.symm.trans hchoice
  cases completion.message_choiceJson.symm.trans hreply
  cases htools.symm.trans htools'
  rw [completion.finishReason_choiceJson] at hreason
  have htext : textBlocks completion.messageJson =
      if completion.text = "" then [] else [.text completion.text] := by
    rw [textBlocks, completion.content_messageJson]
    split_ifs with hempty <;> simp [hempty, Json.asStr, isEmpty]
  refine ⟨message, hmessage, ?_, ?_, hreason⟩
  · have hblocksText : converted.blocks.filterMap text? = [] := by
      rw [hblocks, filterMap_map]
      exact filterMap_eq_nil_iff.mpr fun _ _ => rfl
    rw [AnthropicMessage.text, hcontent, filterMap_append, hblocksText, htext]
    split_ifs with hempty <;> simp [hempty, text?]
  · have hblocksCalls : converted.blocks.filterMap call? = completion.calls.map
        fun call => (call.name, inputOf converter.reader call.arguments) := by
      rw [hblocks, filterMap_map, ← filterMap_eq_map]
      rfl
    rw [AnthropicMessage.calls, hcontent, filterMap_append, hblocksCalls, htext]
    split_ifs <;> simp [call?]

end

end

/-! ## The stream -/

theorem textDelta_fst_false (seen content : String) :
    (textDelta seen content false).1 = content := by
  rw [textDelta]
  split
  · next hempty => exact (String.toList_eq_nil_iff.mp (isEmpty_iff.mp hempty)).symm
  · rfl

theorem text_digest (choices : List OpenAiStreamChoice) : (digest false choices).text =
    .join (choices.map fun choice => choice.delta.content.getD "") := by
  induction choices using reverseRecOn with
  | nil => rfl
  | append_singleton choices choice ih =>
    rw [digest_append, foldl_cons, foldl_nil, Digest.add]
    cases hcontent : choice.delta.content with
    | none => simp [hcontent, ih]
    | some content => simp [hcontent, textDelta_snd, textDelta_fst_false, ih]

/-- The fragments that do not stand beside empty content. -/
def plainFragments (choices : List OpenAiStreamChoice) : List ToolFragment :=
  (choices.filter (·.delta.content ≠ some "")).flatMap (·.delta.fragments)

/-- The fragments beside empty content. -/
def hiddenFragments (choices : List OpenAiStreamChoice) : List ToolFragment :=
  (choices.filter (·.delta.content = some "")).flatMap (·.delta.fragments)

theorem fragments_digest (choices : List OpenAiStreamChoice) :
    (digest false choices).fragments = plainFragments choices := by
  induction choices using reverseRecOn with
  | nil => rfl
  | append_singleton choices choice ih =>
    rw [digest_append, foldl_cons, foldl_nil, Digest.add, plainFragments, filter_append,
      flatMap_append, ← plainFragments]
    cases hcontent : choice.delta.content with
    | none => simp [hcontent, ih]
    | some content =>
      by_cases hempty : content = "" <;>
        simp [hcontent, textDelta_fst_false, ih, hempty, isEmpty]

theorem finishReason_digest (deduplicate : Bool) (choices : List OpenAiStreamChoice) :
    (digest deduplicate choices).finishReason = (choices.filterMap (·.finishReason)).getLast? := by
  induction choices using reverseRecOn with
  | nil => rfl
  | append_singleton choices choice ih =>
    have hadd : ((digest deduplicate choices).add deduplicate choice).finishReason =
        choice.finishReason.or (digest deduplicate choices).finishReason := by
      rw [Digest.add]
      split <;> rfl
    rw [digest_append, foldl_cons, foldl_nil, hadd, ih]
    cases hreason : choice.finishReason <;> simp [hreason]

namespace AnthropicRelay

variable {relay : AnthropicRelay} {frames : SseFrameStream}

theorem validateTool_bestEffort (h : relay.toolPolicy.validation = .bestEffort)
    (ids : List String) (state : ToolState) : relay.validateTool ids state = .ok ids := by
  have hbest : relay.toolPolicy.isStrict = false := by
    rw [isStrict, h]
    rfl
  rw [validateTool, validateName_bestEffort h, hbest]
  simp only [parseArguments_bestEffort h]
  cases state.upstreamId <;> rfl

/-- Nothing but a stream that is not terminated fails where any call is accepted. -/
theorem succeeds_of_bestEffort (h : relay.toolPolicy.validation = .bestEffort)
    (hterminated : (readFrames relay.decodeChunk frames).ending = some .terminated) :
    Succeeds relay frames := by
  refine ⟨hterminated, ?_, ?_⟩
  · rintro ⟨-, -, -, _, -, -, hrejected, -⟩
    rw [validateName_bestEffort h] at hrejected
    cases hrejected
  · have hfold : ∀ (tools : List ToolState) ids,
        tools.foldlM relay.validateTool ids = .ok ids := by
      intro tools _
      induction tools with
      | nil => rfl
      | cons _ _ ih =>
        rw [foldlM_cons, validateTool_bestEffort h]
        exact ih
    rw [validateTools, hfold]
    rw [validateCallSummary_bestEffort h]
    rfl

end AnthropicRelay

/-! ## The same message -/

/-- A call as fragments describe it; one without a name is called `tool`. -/
def seen (fragments : List ToolFragment) (key : ℕ) : String × String :=
  ((openingOf fragments key).name.getD "tool", argumentsOf fragments key)

/-- The calls that fragments describe; those with neither a name nor arguments are left out. -/
def seenCalls (fragments : List ToolFragment) : List (String × String) :=
  (shownKeys false fragments).map (seen fragments)

/-- What the client puts together and what a whole response is converted to agree. -/
structure SameMessage (completion : Completion) (reader : Json.Reader) (m : Assembled)
    (message : AnthropicMessage) : Prop where
  text : m.text = message.text
  names : m.toolUses.map ToolUse.name = message.calls.map Prod.fst
  arguments : m.toolUses.map ToolUse.arguments =
    completion.calls.map CompletionCall.arguments
  inputs : (m.toolUses.map fun use => ToolResponsePolicy.inputOf reader use.arguments) =
    message.calls.map Prod.snd
  stopReason : m.stopReason = some message.stopReason

theorem toolUses_eq_seenCalls {relay : AnthropicRelay} {fragments : List ToolFragment}
    (hbest : relay.toolPolicy.validation = .bestEffort)
    (htools : relay.deduplicateToolArguments = false) {uses : List ToolUse}
    (h : Forall₂ (relay.Shows fragments) (shownKeys relay.deduplicateToolArguments fragments)
      uses) : (uses.map fun use => (use.name, use.arguments)) = seenCalls fragments := by
  rw [htools] at h
  rw [seenCalls]
  generalize shownKeys false fragments = keys at h
  induction h with
  | nil => rfl
  | cons hshows _ ih =>
    have hname := hshows.opens.name
    have harguments := hshows.arguments
    rw [validateName_bestEffort hbest] at hname
    rw [toolArguments, htools, if_neg Bool.false_ne_true,
      allArguments_callOf] at harguments
    rw [map_cons, map_cons, ih, seen, ← Except.ok.inj hname, harguments]

/-- A call is opened with the first name that its fragments have. -/
theorem name_openingOf (fragments : List ToolFragment) (key : ℕ) : (openingOf fragments key).name =
      (fragments.filter (·.key = key)).findSome? (·.name) := by
  induction fragments using reverseRecOn with
  | nil => rfl
  | append_singleton fragments f ih =>
    rw [openingOf_append_singleton, filter_append, findSome?_append, ← ih]
    split_ifs with hkey
    · cases hopened : (openingOf fragments key).opened <;> cases hname : f.name <;>
        simp [Opening.name, Opening.take, hopened, hkey]
    · simp [hkey]

/-! ## Deltas with empty content -/

def CompletionCall.shown (call : CompletionCall) : String × String := (call.name, call.arguments)

/-- No argument text stands beside empty content, each call has its name elsewhere or has argument
text and is called `tool`, and the calls come up in their order, as far as these can be told
apart. -/
structure Completion.SplitsPlainly (completion : Completion) (choices : List OpenAiStreamChoice) :
    Prop where
  arguments : ∀ f ∈ hiddenFragments choices, f.arguments.getD "" = ""
  named : ∀ (i : ℕ) call, completion.calls[i]? = some call →
    (∃ f ∈ plainFragments choices, f.key = i ∧ f.name.isSome = true) ∨
      call.name = "tool" ∧ call.arguments ≠ ""
  order : ((firstKeys (plainFragments choices)).filterMap (completion.calls[·]?)).map
    CompletionCall.shown = completion.calls.map CompletionCall.shown

theorem argumentsOf_append (fragments fragments' : List ToolFragment) (key : ℕ) :
    argumentsOf (fragments ++ fragments') key =
      argumentsOf fragments key ++ argumentsOf fragments' key := by
  simp [argumentsOf]

theorem argumentsOf_eq_empty_iff {fragments : List ToolFragment} {key : ℕ} :
    argumentsOf fragments key = "" ↔
      ∀ f ∈ fragments, f.key = key → f.arguments.getD "" = "" := by
  induction fragments with
  | nil => simp [argumentsOf]
  | cons f fragments ih =>
    rw [← singleton_append, argumentsOf_append, String.append_eq_empty_iff, ih,
      ← nil_append [f], argumentsOf_append_singleton]
    by_cases hkey : f.key = key <;> simp [argumentsOf]

section

variable (choices : List OpenAiStreamChoice) (key : ℕ)

theorem length_argumentsOf :
    (argumentsOf (choices.flatMap (·.delta.fragments)) key).length =
      (argumentsOf (plainFragments choices) key).length +
        (argumentsOf (hiddenFragments choices) key).length := by
  induction choices with
  | nil => simp [plainFragments, hiddenFragments, argumentsOf]
  | cons choice choices ih =>
    rw [plainFragments, hiddenFragments] at ih ⊢
    by_cases hcontent : choice.delta.content = some "" <;>
      simp [hcontent, argumentsOf_append, ih] <;> omega

variable {choices key}

theorem argumentsOf_plainFragments (h : argumentsOf (hiddenFragments choices) key = "") :
    argumentsOf (plainFragments choices) key =
      argumentsOf (choices.flatMap (·.delta.fragments)) key := by
  induction choices with
  | nil => rfl
  | cons choice choices ih =>
    rw [plainFragments] at ih ⊢
    rw [hiddenFragments] at h ih
    by_cases hcontent : choice.delta.content = some "" <;>
      simp_all [argumentsOf_append]

theorem mem_flatMap_of_mem_filter {P : OpenAiStreamChoice → Bool} {f : ToolFragment}
    (h : f ∈ (choices.filter P).flatMap (·.delta.fragments)) :
    f ∈ choices.flatMap (·.delta.fragments) := by
  obtain ⟨choice, hchoice, hf⟩ := mem_flatMap.mp h
  exact mem_flatMap.mpr ⟨choice, mem_of_mem_filter hchoice, hf⟩

end

theorem visible_callOf_iff {deduplicate : Bool} {fragments : List ToolFragment} {key : ℕ} :
    (callOf deduplicate fragments key).visible = true ↔
      (∃ f ∈ fragments, f.key = key ∧ f.name.isSome = true) ∨ argumentsOf fragments key ≠ "" := by
  have hname : (callOf deduplicate fragments key).name =
      (collectTools deduplicate fragments)[key]?.bind ToolState.name := by
    rw [callOf]
    cases (collectTools deduplicate fragments)[key]? <;> rfl
  have hnamed : (callOf deduplicate fragments key).name.isSome = true ↔
      ∃ f ∈ fragments, f.key = key ∧ f.name.isSome = true := by
    rw [isSome_iff_ne_none, hname, ne_eq, name_collectTools_eq_none]
    simp [isSome_iff_ne_none]
  rw [ToolState.visible, allArguments_callOf, Bool.or_eq_true, hnamed]
  simp [isEmpty]

namespace Completion.Splits

variable {completion : Completion} {choices : List OpenAiStreamChoice}
  (h : completion.Splits choices)

include h

theorem key_lt_of_mem_firstKeys {i : ℕ} (hi : i ∈ firstKeys (plainFragments choices)) :
    i < completion.calls.length := by
  obtain ⟨f, hf, rfl⟩ := mem_firstKeys.mp hi
  obtain ⟨_, hcall, -⟩ := h.fragment f (mem_flatMap_of_mem_filter hf)
  exact (List.getElem?_eq_some_iff.mp hcall).1

theorem name_openingOf_plain {i : ℕ} {call : CompletionCall}
    (hcall : completion.calls[i]? = some call) :
    (openingOf (plainFragments choices) i).name = some call.name ∧
        (∃ f ∈ plainFragments choices, f.key = i ∧ f.name.isSome = true) ∨
      (openingOf (plainFragments choices) i).name = none ∧
        ¬ ∃ f ∈ plainFragments choices, f.key = i ∧ f.name.isSome = true := by
  rw [name_openingOf]
  cases hfound : ((plainFragments choices).filter (·.key = i)).findSome? (·.name) with
  | none =>
    refine .inr ⟨rfl, ?_⟩
    rintro ⟨f, hf, hkey, hname⟩
    rw [findSome?_eq_none_iff.mp hfound f (mem_filter.mpr ⟨hf, by simpa using hkey⟩)] at hname
    cases hname
  | some name =>
    obtain ⟨f, hf, hname⟩ := exists_of_findSome?_eq_some hfound
    obtain ⟨hf, hkey⟩ := mem_filter.mp hf
    obtain ⟨_, hcall', -, hsame⟩ := h.fragment f (mem_flatMap_of_mem_filter hf)
    rw [of_decide_eq_true hkey, hcall] at hcall'
    refine .inl ⟨by rw [some.inj hcall', hsame name hname], f, hf, of_decide_eq_true hkey, ?_⟩
    rw [hname]
    rfl

/-- A call that has its name and its argument text outside of deltas with empty content is seen as
it is. -/
theorem seen_eq {i : ℕ} {call : CompletionCall} (hcall : completion.calls[i]? = some call)
    (harguments : argumentsOf (hiddenFragments choices) i = "")
    (hnamed : (∃ f ∈ plainFragments choices, f.key = i ∧ f.name.isSome = true) ∨
      call.name = "tool" ∧ call.arguments ≠ "") :
    seen (plainFragments choices) i = call.shown := by
  have hname : (openingOf (plainFragments choices) i).name.getD "tool" = call.name := by
    rcases h.name_openingOf_plain hcall with ⟨hname, -⟩ | ⟨hname, hnone⟩
    · rw [hname, getD_some]
    · rw [hname, (hnamed.resolve_left hnone).1, getD_none]
  rw [seen, hname, argumentsOf_plainFragments harguments, (h.call i call hcall).1]
  rfl

omit h in
theorem map_seen_eq {keys : List ℕ} (hkeys : ∀ i ∈ keys, ∃ call, completion.calls[i]? = some call ∧
      seen (plainFragments choices) i = call.shown) :
    keys.map (seen (plainFragments choices)) =
      (keys.filterMap (completion.calls[·]?)).map CompletionCall.shown := by
  induction keys with
  | nil => rfl
  | cons i keys ih =>
    obtain ⟨call, hcall, hseen⟩ := hkeys i mem_cons_self
    rw [map_cons, ih fun j hj => hkeys j (mem_cons_of_mem _ hj), filterMap_cons_some hcall,
      map_cons, hseen]

theorem seenCalls_eq_of_splitsPlainly (hplain : completion.SplitsPlainly choices) :
    seenCalls (plainFragments choices) = completion.calls.map CompletionCall.shown := by
  have hhidden : ∀ i, argumentsOf (hiddenFragments choices) i = "" := fun i =>
    argumentsOf_eq_empty_iff.mpr fun f hf _ => hplain.arguments f hf
  have hshown : shownKeys false (plainFragments choices) = firstKeys (plainFragments choices) := by
    rw [shownKeys, filter_eq_self]
    intro i hi
    have hcall := getElem?_eq_getElem (h.key_lt_of_mem_firstKeys hi)
    refine visible_callOf_iff.mpr ((hplain.named i _ hcall).imp_right fun hnamed => ?_)
    rw [argumentsOf_plainFragments (hhidden i), (h.call i _ hcall).1]
    exact hnamed.2
  rw [seenCalls, hshown, ← hplain.order]
  refine map_seen_eq fun i hi => ?_
  have hcall := getElem?_eq_getElem (h.key_lt_of_mem_firstKeys hi)
  exact ⟨_, hcall, h.seen_eq hcall (hhidden i) (hplain.named i _ hcall)⟩

section

variable (hseen : seenCalls (plainFragments choices) =
  completion.calls.map CompletionCall.shown)

include hseen

/-- Where the calls are seen as they are, every index has come up and is shown. -/
theorem shownKeys_eq_and_perm :
    shownKeys false (plainFragments choices) = firstKeys (plainFragments choices) ∧
      firstKeys (plainFragments choices) ~ range completion.calls.length := by
  have hlength : (shownKeys false (plainFragments choices)).length = completion.calls.length := by
    simpa [seenCalls] using congrArg length hseen
  have hsubperm := (nodup_firstKeys (plainFragments choices)).subperm fun i hi =>
    mem_range.mpr (h.key_lt_of_mem_firstKeys hi)
  have hshown : shownKeys false (plainFragments choices) = firstKeys (plainFragments choices) := by
    refine filter_sublist.eq_of_length_le ?_
    rw [← shownKeys, hlength]
    simpa using hsubperm.length_le
  refine ⟨hshown, hsubperm.perm_of_length_le ?_⟩
  rw [← hshown, hlength, length_range]

/-- The calls as they are seen and as they are have the same weight, whatever is weighed. -/
theorem sum_seen_eq (w : String × String → ℕ) :
    ((range completion.calls.length).map fun i => w (seen (plainFragments choices) i)).sum =
      ((range completion.calls.length).map fun i =>
        w (completion.calls[i]?.elim ("", "") CompletionCall.shown)).sum := by
  obtain ⟨hshown, hperm⟩ := h.shownKeys_eq_and_perm hseen
  have hcalls : (completion.calls.map CompletionCall.shown).map w =
      (range completion.calls.length).map fun i =>
        w (completion.calls[i]?.elim ("", "") CompletionCall.shown) := by
    refine ext_getElem (by simp) fun i hi _ => ?_
    simp only [length_map] at hi
    simp [hi]
  rw [← hcalls, ← hseen, seenCalls, hshown, map_map]
  exact (hperm.symm.map _).sum_eq

omit h hseen in
theorem eq_of_sum_eq {n i : ℕ} {f g : ℕ → ℕ} (hle : ∀ i < n, f i ≤ g i)
    (hsum : ((range n).map f).sum = ((range n).map g).sum) (hi : i < n) : f i = g i := by
  by_contra hne
  refine (List.sum_lt_sum f g (fun j hj => hle j (mem_range.mp hj)) ⟨i, ?_⟩).ne hsum
  exact ⟨mem_range.mpr hi, lt_of_le_of_ne (hle i hi) hne⟩

theorem argumentsOf_hiddenFragments {i : ℕ} (hi : i < completion.calls.length) :
    argumentsOf (hiddenFragments choices) i = "" := by
  have hlength : ∀ j < completion.calls.length,
      (completion.calls[j]?.elim ("", "") CompletionCall.shown).2.length =
        (seen (plainFragments choices) j).2.length +
          (argumentsOf (hiddenFragments choices) j).length := by
    intro j hj
    have hcall := getElem?_eq_getElem hj
    rw [hcall, Option.elim_some, CompletionCall.shown, ← (h.call j _ hcall).1, length_argumentsOf]
    rfl
  have hsame := eq_of_sum_eq (fun j hj => (hlength j hj).symm ▸ Nat.le_add_right _ _)
    (h.sum_seen_eq hseen (·.2.length)) hi
  have := hlength i hi
  exact String.length_eq_zero_iff.mp (by omega)

/-- A call that has no name outside of deltas with empty content is called `tool`. -/
theorem name_eq_tool {i : ℕ} {call : CompletionCall} (hcall : completion.calls[i]? = some call)
    (hnone : ¬ ∃ f ∈ plainFragments choices, f.key = i ∧ f.name.isSome = true) :
    call.name = "tool" := by
  have hle : ∀ j < completion.calls.length,
      (if (completion.calls[j]?.elim ("", "") CompletionCall.shown).1 = "tool" then 1 else 0) ≤
        if (seen (plainFragments choices) j).1 = "tool" then 1 else 0 := by
    intro j hj
    have hcall := getElem?_eq_getElem hj
    rw [hcall, Option.elim_some, CompletionCall.shown, seen]
    rcases h.name_openingOf_plain hcall with ⟨hname, -⟩ | ⟨hname, -⟩ <;> rw [hname]
    · rfl
    · rw [getD_none, if_pos rfl]
      split_ifs <;> decide
  have hsame := eq_of_sum_eq hle (h.sum_seen_eq hseen fun p => if p.1 = "tool" then 1 else 0).symm
    (List.getElem?_eq_some_iff.mp hcall).1
  rcases h.name_openingOf_plain hcall with ⟨-, hsome⟩ | ⟨hname, -⟩
  · exact absurd hsome hnone
  · rw [hcall, Option.elim_some, CompletionCall.shown, seen, hname, getD_none, if_pos rfl] at hsame
    by_contra hne
    rw [if_neg hne] at hsame
    cases hsame

theorem splitsPlainly_of_seenCalls_eq : completion.SplitsPlainly choices := by
  obtain ⟨hshown, hperm⟩ := h.shownKeys_eq_and_perm hseen
  have hmem : ∀ {i call}, completion.calls[i]? = some call →
      i ∈ shownKeys false (plainFragments choices) := fun hcall =>
    hshown ▸ hperm.mem_iff.mpr (mem_range.mpr (List.getElem?_eq_some_iff.mp hcall).1)
  have hhidden : ∀ {i call}, completion.calls[i]? = some call →
      argumentsOf (hiddenFragments choices) i = "" := fun hcall =>
    h.argumentsOf_hiddenFragments hseen (List.getElem?_eq_some_iff.mp hcall).1
  have hnamed : ∀ i call, completion.calls[i]? = some call →
      (∃ f ∈ plainFragments choices, f.key = i ∧ f.name.isSome = true) ∨
        call.name = "tool" ∧ call.arguments ≠ "" := by
    intro i call hcall
    refine or_iff_not_imp_left.mpr fun hnone => ⟨h.name_eq_tool hseen hcall hnone, ?_⟩
    have hvisible := visible_callOf_iff.mp (mem_filter.mp (hmem hcall)).2
    rw [← (h.call i call hcall).1, ← argumentsOf_plainFragments (hhidden hcall)]
    exact hvisible.resolve_left hnone
  refine ⟨fun f hf => ?_, hnamed, ?_⟩
  · obtain ⟨call, hcall, -⟩ := h.fragment f (mem_flatMap_of_mem_filter hf)
    exact argumentsOf_eq_empty_iff.mp (hhidden hcall) f hf rfl
  · rw [← hseen, seenCalls, hshown]
    refine (map_seen_eq fun i hi => ?_).symm
    have hcall := getElem?_eq_getElem (h.key_lt_of_mem_firstKeys hi)
    exact ⟨_, hcall, h.seen_eq hcall (hhidden hcall) (hnamed i _ hcall)⟩

end

end Completion.Splits

theorem Completion.Splits.seenCalls_eq_iff {completion : Completion}
    {choices : List OpenAiStreamChoice} (h : completion.Splits choices) :
    seenCalls (plainFragments choices) = completion.calls.map CompletionCall.shown ↔
      completion.SplitsPlainly choices :=
  ⟨h.splitsPlainly_of_seenCalls_eq, h.seenCalls_eq_of_splitsPlainly⟩

/-- A completion in chunks gives the message of the whole completion exactly if the calls have
their names and their argument text outside of deltas with empty content, and come up in their
order. -/
theorem split_completion_same_iff {relay : AnthropicRelay} {converter : ResponseConverter}
    {completion : Completion} {frames : List (Except AppError SseFrame)}
    (htext : relay.deduplicateStreamText = false)
    (htools : relay.deduplicateToolArguments = false)
    (hbest : relay.toolPolicy.validation = .bestEffort)
    (hpolicy : converter.toolPolicy = relay.toolPolicy) (hreader : converter.reader = relay.reader)
    (hterminated : (readFrames relay.decodeChunk frames).ending = some .terminated)
    (hsplits : completion.Splits (readFrames relay.decodeChunk frames).choices) :
    ∃ m message, assemble (eventsOf (openaiStreamToAnthropic relay frames)) = some m ∧
      m.stopped = true ∧ openaiResponseToAnthropic converter completion.json = .ok message ∧
      (SameMessage completion relay.reader m message ↔
        completion.SplitsPlainly (readFrames relay.decodeChunk frames).choices) := by
  obtain ⟨message, hmessage, hmessageText, hmessageCalls, hmessageReason⟩ :=
    openaiResponseToAnthropic_json (hpolicy ▸ hbest) _
  have hsucceeds := succeeds_of_bestEffort hbest hterminated
  cases outcome_openaiStreamToAnthropic relay frames with
  | breaksOff _ _ hfails => exact absurd hsucceeds hfails
  | delivers m _ _ hm hdelivered =>
    refine ⟨m, message, hm, hdelivered.stopped, hmessage, ?_⟩
    have hseen := toolUses_eq_seenCalls hbest htools hdelivered.toolUses
    rw [digestOf, htext, fragments_digest] at hseen
    have hsameText : m.text = message.text := by
      rw [hdelivered.text, digestOf, htext, text_digest, hsplits.text, hmessageText]
    have hsameReason : m.stopReason = some message.stopReason := by
      rw [hdelivered.stopReason, digestOf, finishReason_digest,
        hsplits.finishReason, hmessageReason]
    rw [hreader] at hmessageCalls
    rw [← hsplits.seenCalls_eq_iff]
    constructor
    · intro h
      have hnames := h.names
      rw [hmessageCalls, map_map] at hnames
      rw [← hseen, ← zip_map', ← zip_map', h.arguments, hnames]
      rfl
    · intro h
      rw [h] at hseen
      refine ⟨hsameText, ?_, ?_, ?_, hsameReason⟩
      · have := congrArg (map Prod.fst) hseen
        simpa [hmessageCalls, Function.comp_def, CompletionCall.shown] using this
      · have := congrArg (map Prod.snd) hseen
        simpa [Function.comp_def, CompletionCall.shown] using this
      · have := congrArg (map fun p => inputOf relay.reader p.2) hseen
        simpa [hmessageCalls, Function.comp_def, CompletionCall.shown] using this

/-! ## Two chunks -/

/-- A chunk with text, and one with a call beside some content. -/
def twoChunkReader (content : Json) : Json.Reader where
  parse text :=
    if text = "text" then
      some (.object [("choices", .array [.object [
        ("delta", .object [("content", .string "hi")])]])])
    else if text = "call" then
      some (.object [("choices", .array [.object [
        ("delta", .object [("content", content), ("tool_calls", .array [.object [
          ("index", .ofNat 0), ("id", .string "call_1"), ("function", .object [
            ("name", .string "get"), ("arguments", .string "\x7b\x7d")])]])]),
        ("finish_reason", .string "tool_calls")]])])
    else if text = "\x7b\x7d" then some (.object [])
    else none
  report _ := "expected value"
  first _ := none

def twoChunkRelay (content : Json) : AnthropicRelay where
  reader := twoChunkReader content
  uuid := toString
  model := "m"
  deduplicateStreamText := false
  deduplicateToolArguments := false
  toolPolicy := .bestEffort

def twoChunkConverter (content : Json) : ResponseConverter where
  reader := twoChunkReader content
  uuid := toString
  requestedModel := "m"
  toolPolicy := .bestEffort

def twoChunkFrames : List (Except AppError SseFrame) :=
  [.ok { data := "text" }, .ok { data := "call" }]

def twoChunkCompletion : Completion where
  text := "hi"
  calls := [⟨"call_1", "get", "\x7b\x7d"⟩]
  finishReason := some "tool_calls"

def twoChunkChoices (content : Option String) : List OpenAiStreamChoice :=
  [{ delta := { content := some "hi" } },
    { delta := { content := content, toolCalls := some [
        { index := 0, id := some "call_1", function := some ⟨some "get", some "\x7b\x7d"⟩ }] }
      finishReason := some "tool_calls" }]

theorem splits_twoChunkChoices {content : Option String} (h : content.getD "" = "") :
    twoChunkCompletion.Splits (twoChunkChoices content) := by
  have hsent : (twoChunkChoices content).flatMap (·.delta.fragments) =
      [⟨0, some "call_1", some "get", some "\x7b\x7d", 1⟩] := rfl
  refine ⟨?_, by simp [twoChunkChoices], ?_, ?_, rfl⟩
  · simp [twoChunkChoices, h, twoChunkCompletion]
  · rw [hsent]
    simp [twoChunkCompletion]
  · rw [hsent]
    intro i call hcall
    obtain ⟨rfl, rfl⟩ : i = 0 ∧ call = ⟨"call_1", "get", "\x7b\x7d"⟩ := by
      cases i with
      | zero => exact ⟨rfl, (some.inj hcall).symm⟩
      | succ => cases hcall
    simp [argumentsOf]

theorem split_completion_same_sample : ∃ m message,
      assemble (eventsOf (openaiStreamToAnthropic (twoChunkRelay .null) twoChunkFrames)) = some m ∧
      openaiResponseToAnthropic (twoChunkConverter .null) twoChunkCompletion.json = .ok message ∧
      SameMessage twoChunkCompletion (twoChunkReader .null) m message := by
  have hchoices : (readFrames (twoChunkRelay .null).decodeChunk twoChunkFrames).choices =
      twoChunkChoices none := by decide
  have hsplits : twoChunkCompletion.Splits (twoChunkChoices none) := splits_twoChunkChoices rfl
  obtain ⟨m, message, hm, -, hmessage, hiff⟩ := @split_completion_same_iff
    (twoChunkRelay .null) (twoChunkConverter .null) _ _
    rfl rfl rfl rfl rfl rfl (hchoices ▸ hsplits)
  refine ⟨m, message, hm, hmessage, hiff.mpr (hchoices ▸ ⟨?_, ?_, by decide⟩)⟩
  · simp [hiddenFragments, twoChunkChoices]
  · intro i call hcall
    cases i with
    | zero => exact .inl ⟨_, mem_singleton_self _, rfl, rfl⟩
    | succ => cases hcall

/-- A call beside empty content does not reach the client. -/
theorem call_beside_empty_content_lost :
    twoChunkCompletion.Splits (readFrames (twoChunkRelay (.string "")).decodeChunk
        twoChunkFrames).choices ∧
      ∃ m message,
        assemble (eventsOf (openaiStreamToAnthropic (twoChunkRelay (.string "")) twoChunkFrames)) =
          some m ∧ m.stopped = true ∧
        openaiResponseToAnthropic (twoChunkConverter (.string "")) twoChunkCompletion.json =
          .ok message ∧
        m.toolUses = [] ∧ message.calls = [("get", .object [])] := by
  have hchoices : (readFrames (twoChunkRelay (.string "")).decodeChunk twoChunkFrames).choices =
      twoChunkChoices (some "") := by decide
  refine ⟨hchoices ▸ splits_twoChunkChoices rfl, ?_⟩
  have hstream : (assemble (eventsOf (openaiStreamToAnthropic (twoChunkRelay (.string ""))
      twoChunkFrames))).map (fun m => (m.stopped, m.toolUses)) = some (true, []) := by
    decide
  obtain ⟨m, hm, hsame⟩ := map_eq_some_iff.mp hstream
  obtain ⟨hstopped, htools⟩ := Prod.mk.inj hsame
  exact ⟨m, _, hm, hstopped, rfl, htools, rfl⟩

end RouteSmith.Model
