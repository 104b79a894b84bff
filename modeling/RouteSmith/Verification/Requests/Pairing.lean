import RouteSmith.Model.RequestConversion
import Mathlib.Data.List.Perm.Basic

/-! # Calls and their results

The messages that a request is converted to are a transcript in which every call is answered at
once.
-/

namespace RouteSmith.Model

open List RequestConverter Json
open Option hiding map_map

/-! ## Transcripts -/

/-- A call, or the result of a call. -/
inductive ToolItem where
  | call (id name arguments : String)
  | result (id : String)
  deriving DecidableEq

def isTool (message : Json) : Bool := message.text? "role" = some "tool"

def isAssistant (message : Json) : Bool := message.text? "role" = some "assistant"

def messageCalls (message : Json) : List Json :=
  ((message.get? "tool_calls").bind Json.asArray).getD []

def callIds (message : Json) : List (Option String) := (messageCalls message).map (·.text? "id")

def toolCallId (message : Json) : Option String := message.text? "tool_call_id"

def callItem (call : Json) : Option ToolItem := do
  let function ← call.get? "function"
  return .call (← call.text? "id") (← function.text? "name") (← function.text? "arguments")

/-- The calls and results of a message for an OpenAI-compatible upstream. -/
def messageItems (message : Json) : List ToolItem :=
  (messageCalls message).filterMap callItem ++
    if isTool message then (toolCallId message).toList.map .result else []

def blockItem (writer : Json.Writer) (block : Json) : Option ToolItem :=
  if block.text? "type" = some "tool_use" then
    some (.call ((block.text? "id").getD "") ((block.text? "name").getD "")
      (writer.write ((block.get? "input").getD (.object []))))
  else if block.text? "type" = some "tool_result" then
    some (.result ((block.text? "tool_use_id").getD ""))
  else none

/-- The calls and results of an Anthropic message. -/
def blockItems (writer : Json.Writer) (message : Json) : List ToolItem :=
  ((contentBlocks message).getD []).filterMap (blockItem writer)

/-- A message with calls is followed by one tool message for each of them, and a tool message
answers a call of the assistant message before it. -/
structure WellPaired (messages : List Json) : Prop where
  answered : ∀ before m after, messages = before ++ m :: after → messageCalls m ≠ [] →
    ((after.takeWhile isTool).map toolCallId).Perm (callIds m)
  answers : ∀ before m after, messages = before ++ m :: after → isTool m = true →
    ∃ assistant, before.reverse.find? isAssistant = some assistant ∧
      toolCallId m ∈ callIds assistant

/-! ## Turns -/

/-- Messages in turns: a message with calls and the tool messages that answer it, or a message
without calls. -/
inductive Turns : List Json → Prop
  | nil : Turns []
  | plain {m : Json} {rest : List Json} (hcalls : messageCalls m = []) (htool : isTool m = false)
      (hrest : Turns rest) : Turns (m :: rest)
  | calls {m : Json} {tools rest : List Json} (hassistant : isAssistant m = true)
      (htools : ∀ t ∈ tools, isTool t = true ∧ messageCalls t = [])
      (hanswers : (tools.map toolCallId).Perm (callIds m)) (hrest : Turns rest) :
      Turns (m :: (tools ++ rest))

namespace Turns

variable {messages : List Json}

theorem isTool_eq_false_of_isAssistant {m : Json} (h : isAssistant m = true) :
    isTool m = false := by
  rw [isAssistant, decide_eq_true_eq] at h
  rw [isTool, h]
  decide

theorem takeWhile_isTool (h : Turns messages) : messages.takeWhile isTool = [] := by
  cases h with
  | nil => rfl
  | plain _ htool => simp [htool]
  | calls hassistant => simp [isTool_eq_false_of_isAssistant hassistant]

theorem append_eq_append_cons {α : Type} {xs ys before after : List α} {x : α}
    (h : xs ++ ys = before ++ x :: after) :
    (∃ after', xs = before ++ x :: after' ∧ after = after' ++ ys) ∨
      ∃ before', before = xs ++ before' ∧ ys = before' ++ x :: after := by
  rcases append_eq_append_iff.mp h with ⟨before', hbefore, hys⟩ | ⟨rest, hxs, hrest⟩
  · exact .inr ⟨before', hbefore, hys⟩
  · cases rest with
    | nil => exact .inr ⟨[], by simpa using hxs.symm, by simpa using hrest.symm⟩
    | cons y rest =>
      cases hrest
      exact .inl ⟨rest, hxs, rfl⟩

theorem answered (h : Turns messages) : ∀ before m after, messages = before ++ m :: after →
    messageCalls m ≠ [] → ((after.takeWhile isTool).map toolCallId).Perm (callIds m) := by
  induction h with
  | nil => simp
  | plain hcalls _ _ ih =>
    intro before m after hsplit hm
    cases before with
    | nil =>
      cases hsplit
      exact absurd hcalls hm
    | cons _ before => exact ih before m after (cons.inj hsplit).2 hm
  | calls _ htools _ hrest ih =>
    intro before m _ hsplit hm
    cases before with
    | nil =>
      cases hsplit
      rwa [takeWhile_append_of_pos fun t ht => (htools t ht).1, hrest.takeWhile_isTool, append_nil]
    | cons _ =>
      rcases append_eq_append_cons (cons.inj hsplit).2 with ⟨_, htool, -⟩ | ⟨_, -, hsplit⟩
      · exact absurd (htools m (by simp [htool])).2 hm
      · exact ih _ m _ hsplit hm

theorem answers (h : Turns messages) : ∀ before m after, messages = before ++ m :: after →
    isTool m = true → ∃ assistant, before.reverse.find? isAssistant = some assistant ∧
      toolCallId m ∈ callIds assistant := by
  induction h with
  | nil => simp
  | plain _ htool _ ih =>
    intro before m after hsplit hm
    cases before with
    | nil =>
      cases hsplit
      exact absurd hm (by simp [htool])
    | cons first before =>
      obtain ⟨assistant, hfind, hid⟩ := ih _ m _ (cons.inj hsplit).2 hm
      exact ⟨assistant, by simp [hfind], hid⟩
  | @calls caller _ _ hassistant htools hanswers _ ih =>
    intro before m _ hsplit hm
    cases before with
    | nil =>
      cases hsplit
      exact absurd hm (by simp [isTool_eq_false_of_isAssistant hassistant])
    | cons first before =>
      obtain ⟨rfl, htail⟩ := cons.inj hsplit
      rcases append_eq_append_cons htail with ⟨_, htool, -⟩ | ⟨_, rfl, hplace⟩
      · -- the tool messages before it are no assistant messages
        refine ⟨caller, ?_, ?_⟩
        · have hnone : before.reverse.find? isAssistant = none := by
            rw [find?_eq_none]
            intro t ht hassistant
            have := (htools t (by rw [htool]; simp [mem_reverse.mp ht])).1
            rw [isTool_eq_false_of_isAssistant hassistant] at this
            cases this
          simp [hnone, hassistant]
        · refine hanswers.mem_iff.mp (mem_map_of_mem ?_)
          simp [htool]
      · obtain ⟨assistant, hfind, hid⟩ := ih _ m _ hplace hm
        exact ⟨assistant, by simp [hfind], hid⟩

theorem wellPaired (h : Turns messages) : WellPaired messages := ⟨h.answered, h.answers⟩

end Turns

/-! ## What the checks establish -/

def isUse (block : Json) : Prop := block.text? "type" = some "tool_use"

def isResult (block : Json) : Prop := block.text? "type" = some "tool_result"

instance (block : Json) : Decidable (isUse block) := inferInstanceAs (Decidable (_ = _))

instance (block : Json) : Decidable (isResult block) := inferInstanceAs (Decidable (_ = _))

/-- A block of a message with the given role that passes its check. -/
structure CheckedBlock (role : String) (block : Json) : Prop where
  use : isUse block → role = "assistant" ∧ (∃ id, block.text? "id" = some id) ∧
    ∃ name, block.text? "name" = some name
  result : isResult block → role = "user" ∧ ∃ id, block.text? "tool_use_id" = some id

variable {messageIndex : ℕ} {role : String} {saw saw' : Bool}

theorem checkedBlock_of_validateToolBlock {entry : Json × ℕ}
    (h : validateToolBlock messageIndex role saw entry = .ok saw') :
    CheckedBlock role entry.1 ∧ (isResult entry.1 → saw = false ∧ saw' = false) ∧
      (¬ isResult entry.1 → saw' = true) := by
  rw [validateToolBlock] at h
  simp only [bind_eq_ok_iff, orInvalid_eq_ok] at h
  obtain ⟨-, -, blockType, htype, h⟩ := h
  have huse : isUse entry.1 ↔ blockType = "tool_use" := by rw [isUse, htype, some.injEq]
  have hresult : isResult entry.1 ↔ blockType = "tool_result" := by
    rw [isResult, htype, some.injEq]
  split_ifs at h with htext htool hres
  · simp only [bind_eq_ok_iff] at h
    obtain ⟨_, _, _, _, h⟩ := h
    cases h
    exact ⟨⟨by simp [huse, htext], by simp [hresult, htext]⟩, by simp [hresult, htext],
      fun _ => rfl⟩
  · simp only [bind_eq_ok_iff, validateToolUseBlock, orInvalid_eq_ok] at h
    obtain ⟨_, ⟨_, hrole, id, hid, _, _, name, hname, _⟩, h⟩ := h
    cases h
    refine ⟨⟨fun _ => ⟨by simpa using hrole, ⟨id, hid⟩, name, hname⟩, by simp [hresult, htool]⟩,
      by simp [hresult, htool], fun _ => rfl⟩
  · simp only [bind_eq_ok_iff, validateToolResultBlock, orInvalid_eq_ok] at h
    obtain ⟨_, hsaw, _, ⟨_, hrole, id, hid, _⟩, h⟩ := h
    cases h
    have hsaw : saw = false := by simpa using hsaw
    exact ⟨⟨by simp [huse, hres], fun _ => ⟨by simpa using hrole, id, hid⟩⟩,
      fun _ => ⟨hsaw, hsaw⟩, absurd (hresult.mpr hres)⟩
  · cases h
    exact ⟨⟨fun hblock => absurd (huse.mp hblock) htool,
      fun hblock => absurd (hresult.mp hblock) hres⟩,
      fun hblock => absurd (hresult.mp hblock) hres, fun _ => rfl⟩

/-- The blocks of a message: results, and then all others. -/
structure CheckedBlocks (role : String) (blocks results others : List Json) : Prop where
  split : blocks = results ++ others
  checked : ∀ block ∈ blocks, CheckedBlock role block
  results : ∀ block ∈ results, isResult block
  others : ∀ block ∈ others, ¬ isResult block

theorem exists_checkedBlocks_of_foldlM {blocks : List Json} {start : ℕ}
    (h : (blocks.zipIdx start).foldlM (validateToolBlock messageIndex role) saw = .ok saw') :
    ∃ results others, CheckedBlocks role blocks results others ∧ (saw = true → results = []) := by
  induction blocks generalizing start saw with
  | nil => exact ⟨[], [], ⟨rfl, by simp, by simp, by simp⟩, fun _ => rfl⟩
  | cons block blocks ih =>
    rw [zipIdx_cons, foldlM_cons, bind_eq_ok_iff] at h
    obtain ⟨_, hblock, hrest⟩ := h
    obtain ⟨hchecked, hresult, hother⟩ := checkedBlock_of_validateToolBlock hblock
    obtain ⟨_, others, hblocks, hnil⟩ := ih hrest
    have hall := forall_mem_cons.mpr ⟨hchecked, hblocks.checked⟩
    by_cases his : isResult block
    · refine ⟨block :: _, others, ⟨by rw [hblocks.split, cons_append], hall,
        forall_mem_cons.mpr ⟨his, hblocks.results⟩, hblocks.others⟩, fun hsaw => ?_⟩
      rw [(hresult his).1] at hsaw
      cases hsaw
    · have hresults := hnil (hother his)
      subst hresults
      exact ⟨[], block :: _, ⟨by rw [hblocks.split]; rfl, hall, by simp,
        forall_mem_cons.mpr ⟨his, hblocks.others⟩⟩, fun _ => rfl⟩

def useIds (blocks : List Json) : List String :=
  (blocks.filter isUse).map fun block => (block.text? "id").getD ""

def resultIds (blocks : List Json) : List String :=
  (blocks.filter isResult).map fun block => (block.text? "tool_use_id").getD ""

/-- The calls that wait are among those met. -/
def TurnState.Valid (state : TurnState) : Prop := ∀ id ∈ state.pending, id ∈ state.seen

section

variable {toolNames : Option (List String)} {messageIndex start : ℕ} {blocks : List Json}
  {state next : TurnState}

theorem pending_of_assistant (hvalid : state.Valid)
    (h : (blocks.zipIdx start).foldlM (validateTurnBlock toolNames messageIndex "assistant") state =
      .ok next) :
    next.Valid ∧ next.pending.Perm (state.pending ++ useIds blocks) := by
  induction blocks generalizing start state with
  | nil =>
    cases h
    exact ⟨hvalid, by simp [useIds]⟩
  | cons block _ ih =>
    rw [zipIdx_cons, foldlM_cons, bind_eq_ok_iff] at h
    obtain ⟨_, hblock, hrest⟩ := h
    rw [validateTurnBlock] at hblock
    by_cases huse : isUse block
    · rw [if_pos ⟨huse, rfl⟩] at hblock
      simp only [bind_eq_ok_iff, ensure_eq_ok, Bool.not_eq_true', contains_eq_mem,
        decide_eq_false_iff_not] at hblock
      obtain ⟨_, hfresh, _, _, hmid⟩ := hblock
      cases hmid
      have hnew := fun hmem => hfresh (hvalid _ hmem)
      obtain ⟨hnext, hperm⟩ := ih (fun id hid => by
        rcases mem_insert_iff.mp hid with rfl | hid
        · exact mem_cons_self
        · exact mem_cons_of_mem _ (hvalid id hid)) hrest
      refine ⟨hnext, hperm.trans ?_⟩
      rw [insert_of_not_mem hnew]
      simp only [useIds, filter_cons, decide_eq_true huse, if_true]
      exact perm_middle.symm
    · rw [if_neg fun hboth => huse hboth.1, if_neg (by simp)] at hblock
      cases hblock
      simpa [useIds, huse] using ih hvalid hrest

theorem pending_of_user (hvalid : state.Valid)
    (h : (blocks.zipIdx start).foldlM (validateTurnBlock toolNames messageIndex "user") state =
      .ok next) :
    next.Valid ∧ state.pending.Perm (resultIds blocks ++ next.pending) := by
  induction blocks generalizing start state with
  | nil =>
    cases h
    exact ⟨hvalid, by simp [resultIds]⟩
  | cons block _ ih =>
    rw [zipIdx_cons, foldlM_cons, bind_eq_ok_iff] at h
    obtain ⟨_, hblock, hrest⟩ := h
    rw [validateTurnBlock, if_neg (by simp)] at hblock
    by_cases hresult : isResult block
    · rw [if_pos ⟨hresult, rfl⟩] at hblock
      simp only [bind_eq_ok_iff, ensure_eq_ok, contains_eq_mem, decide_eq_true_eq] at hblock
      obtain ⟨_, _, _, hpending, hmid⟩ := hblock
      cases hmid
      have hless : TurnState.Valid { state with
          pending := state.pending.erase ((block.text? "tool_use_id").getD "") } :=
        fun id hid => hvalid id (mem_of_mem_erase hid)
      obtain ⟨hnext, hperm⟩ := ih hless hrest
      refine ⟨hnext, (perm_cons_erase hpending).trans ?_⟩
      simp only [resultIds, filter_cons, decide_eq_true hresult, if_true, map_cons]
      exact hperm.cons _
    · rw [if_neg fun hboth => hresult hboth.1] at hblock
      cases hblock
      simpa [resultIds, hresult] using ih hvalid hrest

theorem eq_of_other {role : String} (hassistant : role ≠ "assistant") (huser : role ≠ "user")
    (h : (blocks.zipIdx start).foldlM (validateTurnBlock toolNames messageIndex role) state =
      .ok next) : next = state := by
  induction blocks generalizing start with
  | nil =>
    cases h
    rfl
  | cons _ _ ih =>
    rw [zipIdx_cons, foldlM_cons, bind_eq_ok_iff] at h
    obtain ⟨_, hblock, hrest⟩ := h
    rw [validateTurnBlock, if_neg fun hboth => hassistant hboth.2,
      if_neg fun hboth => huser hboth.2] at hblock
    cases hblock
    exact ih hrest

end

/-! ## What the conversion makes -/

section

variable {converter : RequestConverter} {uuids : ℕ}

variable {blocks messages others rest results : List Json} {content role : String} {extra : Json}

theorem convertAssistant_eq (hchecked : ∀ b ∈ blocks, CheckedBlock "assistant" b)
    {parts parts' : AssistantParts}
    (h : blocks.foldlM converter.convertAssistantBlock parts = .ok parts') :
    parts'.toolCalls = parts.toolCalls ++ (blocks.filter isUse).map fun block =>
      converter.toolCall ((block.text? "id").getD "") ((block.text? "name").getD "")
        ((block.get? "input").getD (.object [])) := by
  induction blocks generalizing parts with
  | nil =>
    cases h
    simp
  | cons block _ ih =>
    rw [foldlM_cons, bind_eq_ok_iff] at h
    obtain ⟨_, hblock, hrest⟩ := h
    rw [forall_mem_cons] at hchecked
    rw [ih hchecked.2 hrest]
    rw [convertAssistantBlock] at hblock
    split_ifs at hblock with htext huse
    · cases hblock
      have hnot : ¬ isUse block := by simp [isUse, htext]
      simp [hnot]
    · simp only [bind_eq_ok_iff, orInvalid_eq_ok] at hblock
      obtain ⟨_, hname, hmid⟩ := hblock
      cases hmid
      obtain ⟨-, ⟨_, hid⟩, -⟩ := hchecked.1.use huse
      have hisUse : isUse block := huse
      simp [hisUse, hid, hname]
    · cases hblock
      have hnot : ¬ isUse block := huse
      simp [hnot]

theorem convertResults_eq (hresults : ∀ b ∈ results, isResult b) (messages : List Json) :
    results.foldl convertUserBlock { messages } =
      { messages := messages ++ results.map toolMessage } := by
  induction results generalizing messages with
  | nil => simp
  | cons block _ ih =>
    rw [forall_mem_cons] at hresults
    have htype := hresults.1
    have hblock : convertUserBlock { messages } block =
        { messages := messages ++ [toolMessage block] } := by
      rw [convertUserBlock, htype, if_pos rfl]
      rfl
    rw [foldl_cons, hblock, ih hresults.2]
    simp

theorem convertOthers_messages (hothers : ∀ b ∈ others, ¬ isResult b) (parts : UserParts) :
    (others.foldl convertUserBlock parts).messages = parts.messages := by
  induction others generalizing parts with
  | nil => rfl
  | cons block _ ih =>
    rw [forall_mem_cons] at hothers
    have hresult : block.text? "type" ≠ some "tool_result" := hothers.1
    rw [foldl_cons, ih hothers.2, convertUserBlock]
    split_ifs
    · rfl
    · rfl

/-- A user message gives a tool message for each result, and then at most one user message. -/
theorem convertUserMessage_eq (h : CheckedBlocks "user" blocks results others) :
    ∃ rest, convertUserMessage blocks = results.map toolMessage ++ rest ∧
      (∀ m ∈ rest, ∃ content, m = plainMessage "user" content) := by
  have hmessages : (blocks.foldl convertUserBlock {}).messages = results.map toolMessage := by
    rw [h.split, foldl_append, convertResults_eq h.results, convertOthers_messages h.others,
      nil_append]
  rw [convertUserMessage]
  split_ifs
  · refine ⟨[plainMessage "user" _], by rw [UserParts.flush, hmessages], ?_⟩
    simp
  · exact ⟨[], by rw [hmessages, append_nil], by simp⟩

theorem isTool_plainMessage : isTool (plainMessage role content) = decide (role = "tool") := by
  simp [isTool, plainMessage, text?, get?, asStr]

theorem messageCalls_plainMessage : messageCalls (plainMessage role content) = [] := by
  simp [messageCalls, plainMessage, get?]

theorem messageItems_plainMessage (h : role ≠ "tool") :
    messageItems (plainMessage role content) = [] := by
  simp [messageItems, messageCalls_plainMessage, isTool_plainMessage, h]

theorem isTool_toolMessage (block : Json) : isTool (toolMessage block) = true := by
  simp [isTool, toolMessage, text?, get?, asStr]

theorem messageCalls_toolMessage (block : Json) : messageCalls (toolMessage block) = [] := by
  simp [messageCalls, toolMessage, get?]

variable {block : Json} {id : String} {tools : List Json} {start : ℕ} {m : String × Json}

theorem toolCallId_toolMessage (h : block.text? "tool_use_id" = some id) :
    toolCallId (toolMessage block) = some id := by
  rw [toolMessage, h]
  simp [toolCallId, text?, get?, asStr]

theorem messageItems_toolMessage (h : block.text? "tool_use_id" = some id) :
    messageItems (toolMessage block) = [.result id] := by
  simp [messageItems, messageCalls_toolMessage, isTool_toolMessage, toolCallId_toolMessage h]

theorem isAssistant_assistantMessage (parts : AssistantParts) :
    isAssistant (assistantMessage parts) = true := by
  rw [assistantMessage]
  split_ifs <;> simp [isAssistant, text?, get?, asStr]

theorem messageCalls_assistantMessage (parts : AssistantParts) :
    messageCalls (assistantMessage parts) = parts.toolCalls := by
  rw [assistantMessage]
  split_ifs with hempty
  · simp [messageCalls, get?, isEmpty_iff.mp hempty]
  · simp [messageCalls, get?, asArray]

theorem text?_id_toolCall (id name : String) (input : Json) :
    (converter.toolCall id name input).text? "id" = some id := by
  simp [toolCall, text?, get?, asStr]

theorem callItem_toolCall (id name : String) (input : Json) :
    callItem (converter.toolCall id name input) =
      some (.call id name (converter.writer.write input)) := by
  simp [callItem, toolCall, text?, get?, asStr]

theorem filterMap_blockItem_assistant (writer : Writer)
    (hchecked : ∀ b ∈ blocks, CheckedBlock "assistant" b) :
    blocks.filterMap (blockItem writer) = (blocks.filter isUse).map fun block =>
      .call ((block.text? "id").getD "") ((block.text? "name").getD "")
        (writer.write ((block.get? "input").getD (.object []))) := by
  induction blocks with
  | nil => rfl
  | cons block _ ih =>
    rw [forall_mem_cons] at hchecked
    by_cases huse : isUse block
    · have hitem : block.text? "type" = some "tool_use" := huse
      simp [blockItem, hitem, huse, ih hchecked.2]
    · have hnotUse : block.text? "type" ≠ some "tool_use" := huse
      have hnotResult : block.text? "type" ≠ some "tool_result" := fun hresult =>
        absurd (hchecked.1.result hresult).1 (by decide)
      simp [blockItem, hnotUse, hnotResult, huse, ih hchecked.2]

theorem filterMap_blockItem_user (writer : Writer) (hrole : role ≠ "assistant")
    (hchecked : ∀ b ∈ blocks, CheckedBlock role b) :
    blocks.filterMap (blockItem writer) = (resultIds blocks).map .result := by
  induction blocks with
  | nil => rfl
  | cons block _ ih =>
    rw [forall_mem_cons] at hchecked
    have hnotUse : block.text? "type" ≠ some "tool_use" := fun huse =>
      hrole (hchecked.1.use huse).1
    have ih := ih hchecked.2
    by_cases hresult : isResult block
    · have hitem : block.text? "type" = some "tool_result" := hresult
      simp [blockItem, hitem, hresult, resultIds, ih]
    · have hnotResult : block.text? "type" ≠ some "tool_result" := hresult
      simp [blockItem, hnotUse, hnotResult, hresult, resultIds, ih]

/-- Tool messages for the calls that wait, and turns after them. -/
structure Resumes (pending : List String) (tools rest : List Json) : Prop where
  areTools : ∀ t ∈ tools, isTool t = true ∧ messageCalls t = []
  answers : (tools.map toolCallId).Perm (pending.map some)
  rest : Turns rest

theorem Resumes.nil : Resumes [] [] [] := ⟨by simp, .refl _, .nil⟩

theorem Resumes.turns (h : Resumes [] tools rest) : Turns (tools ++ rest) := by
  have hnil : tools = [] := by simpa using h.answers
  simpa [hnil] using h.rest

theorem Turns.append_plain {out : List Json}
    (hout : ∀ m ∈ out, messageCalls m = [] ∧ isTool m = false) (hrest : Turns rest) :
    Turns (out ++ rest) := by
  induction out with
  | nil => exact hrest
  | cons m out ih =>
    rw [forall_mem_cons] at hout
    exact .plain hout.1.1 hout.1.2 (ih hout.2)

variable {toolNames : Option (List String)} {message : Json} {index uuids' : ℕ}
  {state next : TurnState} {out : List Json}

theorem convertAssistant_resumes (hvalid : state.Valid) (hnone : state.pending = [])
    (hchecked : ∀ b ∈ blocks, CheckedBlock "assistant" b)
    (hturn : blocks.zipIdx.foldlM (validateTurnBlock toolNames index "assistant") state = .ok next)
    (hconvert : converter.convertAssistantMessage uuids blocks = .ok (out, uuids')) :
    next.Valid ∧ out.flatMap messageItems = blocks.filterMap (blockItem converter.writer) ∧
      ∀ tools rest, Resumes next.pending tools rest → Turns (out ++ (tools ++ rest)) := by
  obtain ⟨hnext, hperm⟩ := pending_of_assistant hvalid hturn
  rw [hnone] at hperm
  rw [convertAssistantMessage, bind_eq_ok_iff] at hconvert
  obtain ⟨parts, hparts, hout⟩ := hconvert
  cases hout
  have hcalls := convertAssistant_eq hchecked hparts
  rw [nil_append] at hcalls
  have hids : callIds (assistantMessage parts) = (useIds blocks).map some := by
    simp [callIds, messageCalls_assistantMessage, hcalls, useIds, text?_id_toolCall]
  refine ⟨hnext, ?_, fun _ _ hresumes => ?_⟩
  · have htool := Turns.isTool_eq_false_of_isAssistant (isAssistant_assistantMessage parts)
    rw [filterMap_blockItem_assistant _ hchecked, flatMap_singleton,
      messageItems, htool, messageCalls_assistantMessage, hcalls, filterMap_map]
    simp [callItem_toolCall]
  · rw [singleton_append]
    refine .calls (isAssistant_assistantMessage _) hresumes.areTools ?_ hresumes.rest
    rw [hids]
    exact hresumes.answers.trans (hperm.map some)

theorem convertUser_resumes (hvalid : state.Valid)
    (hblocks : CheckedBlocks "user" blocks results others)
    (hturn : blocks.zipIdx.foldlM (validateTurnBlock toolNames index "user") state = .ok next)
    (hdone : state.pending = [] ∨ next.pending = []) : next.Valid ∧ next.pending = [] ∧
      (convertUserMessage blocks).flatMap messageItems =
        blocks.filterMap (blockItem converter.writer) ∧
      ∀ after, Turns after → ∃ tools rest, convertUserMessage blocks ++ after = tools ++ rest ∧
        Resumes state.pending tools rest := by
  obtain ⟨hnext, hperm⟩ := pending_of_user hvalid hturn
  have hnone : next.pending = [] := by
    rcases hdone with hdone | hdone
    · rw [hdone] at hperm
      exact (append_eq_nil_iff.mp hperm.nil_eq.symm).2
    · exact hdone
  rw [hnone, append_nil] at hperm
  obtain ⟨rest, hconvert, hrest⟩ := convertUserMessage_eq hblocks
  have hids := fun b hb =>
    ((hblocks.checked b (by rw [hblocks.split]; simp [hb])).result (hblocks.results b hb)).2
  have hresultIds : resultIds blocks = results.map fun b => (b.text? "tool_use_id").getD "" := by
    have hothers : others.filter (fun b => decide (isResult b)) = [] := by
      simpa using hblocks.others
    have hresults : results.filter (fun b => decide (isResult b)) = results := by
      simpa using hblocks.results
    rw [resultIds, hblocks.split, filter_append, hothers, hresults, append_nil]
  have htoolIds : (results.map toolMessage).map toolCallId = (resultIds blocks).map some := by
    rw [hresultIds, map_map, map_map]
    refine map_congr_left fun b hb => ?_
    obtain ⟨_, hid⟩ := hids b hb
    simp [toolCallId_toolMessage, hid]
  refine ⟨hnext, hnone, ?_, fun _ hafter => ?_⟩
  · have hitems : ∀ b ∈ results, messageItems (toolMessage b) =
        [.result ((b.text? "tool_use_id").getD "")] := fun b hb => by
      obtain ⟨_, hid⟩ := hids b hb
      rw [messageItems_toolMessage hid, hid, getD_some]
    have hplain : rest.flatMap messageItems = [] := by
      refine flatMap_eq_nil_iff.mpr fun m hm => ?_
      obtain ⟨_, rfl⟩ := hrest m hm
      exact messageItems_plainMessage (by decide)
    rw [filterMap_blockItem_user _ (by decide) hblocks.checked, hresultIds, hconvert,
      flatMap_append, hplain, append_nil, flatMap_map, map_map,
      flatMap_congr hitems, map_eq_flatMap]
    rfl
  · refine ⟨results.map _, rest ++ _, by rw [hconvert, append_assoc], ?_, ?_,
      .append_plain ?_ hafter⟩
    · intro t ht
      obtain ⟨b, -, rfl⟩ := mem_map.mp ht
      exact ⟨isTool_toolMessage b, messageCalls_toolMessage b⟩
    · rw [htoolIds]
      exact (hperm.map some).symm
    · intro m hm
      obtain ⟨_, rfl⟩ := hrest m hm
      exact ⟨messageCalls_plainMessage, by rw [isTool_plainMessage]; decide⟩

theorem plain_resumes (hrole : role ≠ "tool") (hnone : state.pending = [])
    (hresumes : Resumes state.pending tools rest) :
    ∃ tools' rest', [plainMessage role content] ++ (tools ++ rest) = tools' ++ rest' ∧
      Resumes state.pending tools' rest' := by
  rw [hnone] at hresumes ⊢
  refine ⟨[], _, rfl, by simp, .refl _, .plain messageCalls_plainMessage ?_ hresumes.turns⟩
  rw [isTool_plainMessage]
  exact decide_eq_false hrole

theorem contentBlocks_eq_some :
    contentBlocks message = some blocks ↔ (message.get? "content").getD .null = .array blocks := by
  rw [contentBlocks]
  cases message.get? "content" with
  | none => simp
  | some content => cases content <;> simp [asArray]

theorem convertMessage_of_text (hrole : message.text? "role" = some role)
    (hcontent : contentBlocks message = none) : converter.convertMessage uuids message =
      .ok ([plainMessage role (contentToText ((message.get? "content").getD .null))], uuids) := by
  have hnot : ∀ blocks, (message.get? "content").getD .null ≠ .array blocks := fun blocks h => by
    rw [contentBlocks_eq_some.mpr h] at hcontent
    cases hcontent
  rw [convertMessage, hrole]
  dsimp only
  split
  · exact absurd ‹_› (hnot _)
  · rfl

theorem convertMessage_of_blocks (hrole : message.text? "role" = some role)
    (hcontent : contentBlocks message = some blocks) : converter.convertMessage uuids message =
      if role = "assistant" then converter.convertAssistantMessage uuids blocks
      else if role = "user" then .ok (convertUserMessage blocks, uuids)
      else .ok ([plainMessage role (contentToText (.array blocks))], uuids) := by
  rw [convertMessage, hrole, contentBlocks_eq_some.mp hcontent]
  rfl

/-- One message: it answers what waits, and what follows has to answer its own calls. -/
theorem convertMessage_resumes (hvalid : state.Valid) (hrole : message.text? "role" ≠ some "tool")
    (hblocks : validateMessageToolBlocks (message, index) = .ok ())
    (hturn : validateTurn toolNames state (message, index) = .ok next)
    (hconvert : converter.convertMessage uuids message = .ok (out, uuids')) :
    next.Valid ∧ out.flatMap messageItems = blockItems converter.writer message ∧
      ∀ tools rest, Resumes next.pending tools rest →
        ∃ tools' rest', out ++ (tools ++ rest) = tools' ++ rest' ∧
          Resumes state.pending tools' rest' := by
  obtain ⟨role, hsome⟩ : ∃ role, message.text? "role" = some role := by
    rw [convertMessage, bind_eq_ok_iff] at hconvert
    obtain ⟨role, hsome, -⟩ := hconvert
    exact ⟨role, by simpa using hsome⟩
  have hnot : role ≠ "tool" := fun h => hrole (by rw [hsome, h])
  rw [validateMessageToolBlocks] at hblocks
  rw [validateTurn] at hturn
  cases hcontent : contentBlocks message with
  | none =>
    simp only [hcontent, bind_eq_ok_iff, ensure_eq_ok] at hturn
    obtain ⟨_, hnone, hnext⟩ := hturn
    cases hnext
    rw [convertMessage_of_text hsome hcontent] at hconvert
    cases hconvert
    refine ⟨hvalid, ?_, fun tools rest => plain_resumes hnot (isEmpty_iff.mp hnone)⟩
    simp [messageItems_plainMessage hnot, blockItems, hcontent]
  | some blocks =>
    simp only [hcontent, hsome, bind_eq_ok_iff, ensure_eq_ok, Bool.or_eq_true, List.isEmpty_iff,
      decide_eq_true_eq] at hturn hblocks
    obtain ⟨_, hfirst, _, hturn, _, hlast, hnext⟩ := hturn
    cases hnext
    obtain ⟨_, hchecks, -⟩ := hblocks
    obtain ⟨_, _, hchecked, -⟩ := exists_checkedBlocks_of_foldlM hchecks
    rw [convertMessage_of_blocks hsome hcontent] at hconvert
    have hitems : blockItems converter.writer message =
        blocks.filterMap (blockItem converter.writer) := by rw [blockItems, hcontent]; rfl
    rw [hitems]
    split_ifs at hconvert with hassistant huser
    · subst hassistant
      have hnone := hfirst.resolve_right (by decide)
      obtain ⟨hnext, hout, hturns⟩ :=
        convertAssistant_resumes hvalid hnone hchecked.checked hturn hconvert
      refine ⟨hnext, hout, fun tools rest hresumes => ?_⟩
      rw [hnone]
      exact ⟨[], _, rfl, by simp, .refl _, hturns _ rest hresumes⟩
    · subst huser
      cases hconvert
      obtain ⟨hnext, hnone, hout, hresume⟩ := convertUser_resumes hvalid hchecked hturn hlast
      refine ⟨hnext, hout, fun _ _ hresumes => ?_⟩
      rw [hnone] at hresumes
      exact hresume _ hresumes.turns
    · cases hconvert
      have hsame := eq_of_other hassistant huser hturn
      subst hsame
      refine ⟨hvalid, ?_, fun _ _ => plain_resumes hnot (hfirst.resolve_right huser)⟩
      have hnoResults : resultIds blocks = [] := by
        have hnone : blocks.filter (fun b => decide (isResult b)) = [] := by
          simp only [filter_eq_nil_iff, decide_eq_true_eq]
          exact fun b hb hresult => huser ((hchecked.checked b hb).result hresult).1
        rw [resultIds, hnone, map_nil]
      rw [filterMap_blockItem_user _ hassistant hchecked.checked, hnoResults]
      simp [messageItems_plainMessage hnot]

/-- All messages. The induction is on the messages; what is left answers the calls that wait. -/
theorem convertMessages_resumes {acc outs : List Json} (hvalid : state.Valid)
    (hroles : ∀ m ∈ messages, m.text? "role" ≠ some "tool")
    (hblocks : (messages.zipIdx start).forM validateMessageToolBlocks = .ok ())
    (hturns : (messages.zipIdx start).foldlM (validateTurn toolNames) state = .ok next)
    (hnone : next.pending = [])
    (hconvert : messages.foldlM converter.convertNext (acc, uuids) = .ok (outs, uuids')) :
    ∃ tools rest, outs = acc ++ (tools ++ rest) ∧ Resumes state.pending tools rest ∧
      (tools ++ rest).flatMap messageItems = messages.flatMap (blockItems converter.writer) := by
  induction messages generalizing start state acc uuids with
  | nil =>
    cases hturns
    cases hconvert
    exact ⟨[], [], by simp, hnone ▸ .nil, rfl⟩
  | cons _ _ ih =>
    rw [forall_mem_cons] at hroles
    rw [zipIdx_cons, List.forM, bind_eq_ok_iff] at hblocks
    rw [zipIdx_cons, foldlM_cons, bind_eq_ok_iff] at hturns
    rw [foldlM_cons, bind_eq_ok_iff] at hconvert
    obtain ⟨_, hblock, hblocks⟩ := hblocks
    obtain ⟨_, hturn, hturns⟩ := hturns
    obtain ⟨_, hmessage, hconvert⟩ := hconvert
    rw [convertNext, bind_eq_ok_iff] at hmessage
    obtain ⟨⟨_, _⟩, hmessage, hconverted⟩ := hmessage
    cases hconverted
    obtain ⟨hmid, hitems, hresume⟩ :=
      convertMessage_resumes hvalid hroles.1 hblock hturn hmessage
    obtain ⟨_, rest, houts, hresumes, hrest⟩ := ih hmid hroles.2 hblocks hturns hconvert
    obtain ⟨tools', rest', hsplit, hresumes'⟩ := hresume _ rest hresumes
    refine ⟨tools', rest', by rw [houts, append_assoc, hsplit], hresumes', ?_⟩
    rw [← hsplit, flatMap_append, hitems, hrest, flatMap_cons]

theorem plain_of_mem_systemMessages {system : Option Json} {m : Json}
    (h : m ∈ systemMessages system) : ∃ content, m = plainMessage "system" content := by
  cases system with
  | none => simp [systemMessages] at h
  | some =>
    rw [systemMessages] at h
    split_ifs at h
    · simp at h
    · exact ⟨_, by simpa using h⟩

/-- The messages that a converted request holds. -/
def openaiMessages (body : Json) : List Json :=
  ((body.get? "messages").bind Json.asArray).getD []

/-! ## What the conversion refuses -/

theorem exists_convertAssistantMessage (hchecked : ∀ b ∈ blocks, CheckedBlock "assistant" b)
    (uuids : ℕ) : ∃ converted, converter.convertAssistantMessage uuids blocks = .ok converted := by
  have hparts : ∀ parts, ∃ parts', blocks.foldlM converter.convertAssistantBlock parts =
      .ok parts' := by
    induction blocks with
    | nil => exact fun parts => ⟨parts, rfl⟩
    | cons block _ ih =>
      intro parts
      rw [forall_mem_cons] at hchecked
      obtain ⟨mid, hmid⟩ : ∃ mid, converter.convertAssistantBlock parts block = .ok mid := by
        rw [convertAssistantBlock]
        split_ifs with htext huse
        · exact ⟨_, rfl⟩
        · obtain ⟨-, -, _, hname⟩ := hchecked.1.use huse
          rw [hname]
          exact ⟨_, rfl⟩
        · exact ⟨_, rfl⟩
      rw [foldlM_cons, hmid]
      exact ih hchecked.2 mid
  obtain ⟨_, hparts⟩ := hparts { uuids }
  exact ⟨_, by rw [convertAssistantMessage, hparts]; rfl⟩

theorem exists_convertMessage (hrole : message.text? "role" = some role)
    (hblocks : validateMessageToolBlocks (message, index) = .ok ()) (uuids : ℕ) :
    ∃ converted, converter.convertMessage uuids message = .ok converted := by
  rw [validateMessageToolBlocks] at hblocks
  cases hcontent : contentBlocks message with
  | none => exact ⟨_, convertMessage_of_text hrole hcontent⟩
  | some =>
    simp only [hcontent, hrole, bind_eq_ok_iff] at hblocks
    obtain ⟨_, hchecks, -⟩ := hblocks
    obtain ⟨_, _, hchecked, -⟩ := exists_checkedBlocks_of_foldlM hchecks
    rw [convertMessage_of_blocks hrole hcontent]
    split_ifs with hassistant
    · subst hassistant
      exact exists_convertAssistantMessage hchecked.checked _
    · exact ⟨_, rfl⟩
    · exact ⟨_, rfl⟩

theorem convertMessages_total (converter : RequestConverter)
    (hblocks : (messages.zipIdx start).forM validateMessageToolBlocks = .ok ())
    (converted : List Json × ℕ) :
    (∃ converted', messages.foldlM converter.convertNext converted = .ok converted') ∨
      messages.foldlM converter.convertNext converted =
        .error (.invalidRequest "message.role is required") ∧
      ∃ m ∈ messages, m.text? "role" = none := by
  induction messages generalizing start converted with
  | nil => exact .inl ⟨converted, rfl⟩
  | cons message _ ih =>
    rw [zipIdx_cons, List.forM, bind_eq_ok_iff] at hblocks
    obtain ⟨_, hblock, hblocks⟩ := hblocks
    rw [foldlM_cons]
    cases hrole : message.text? "role" with
    | none =>
      refine .inr ⟨?_, message, mem_cons_self, hrole⟩
      rw [convertNext, convertMessage, hrole]
      rfl
    | some =>
      obtain ⟨out, hout⟩ := exists_convertMessage hrole hblock _
      rw [convertNext, hout]
      rcases ih hblocks (converted.1 ++ out.1, out.2) with hok | ⟨herror, m, hm, hnone⟩
      · exact .inl hok
      · exact .inr ⟨herror, m, mem_cons_of_mem _ hm, hnone⟩

theorem exists_toolsMembers {validatorFor : SchemaCompiler}
    (h : requestToolNames validatorFor extra = .ok toolNames) :
    ∃ members, toolsMembers extra = .ok members := by
  rw [toolsMembers]
  cases htools : extra.get? "tools" with
  | none => exact ⟨_, rfl⟩
  | some tools =>
    rw [requestToolNames, htools] at h
    cases harray : tools.asArray with
    | none =>
      simp only [validateToolDefinitions, harray] at h
      cases h
    | some => exact ⟨_, by simp only [convertTools, harray]; rfl⟩

theorem fst_of_mem_copyOptional {key : String} (h : m ∈ copyOptional extra key) : m.1 = key := by
  simp only [copyOptional, mem_toList, map_eq_some_iff] at h
  obtain ⟨_, -, rfl⟩ := h
  rfl

theorem fst_of_mem_toolChoiceMembers (h : m ∈ toolChoiceMembers extra) :
    m.1 = "tool_choice" ∨ m.1 = "parallel_tool_calls" := by
  rw [toolChoiceMembers] at h
  split at h
  · simp at h
  · simp only [mem_cons, mem_toList, map_eq_some_iff] at h
    rcases h with rfl | ⟨_, -, rfl⟩
    · exact .inl rfl
    · exact .inr rfl

theorem fst_of_mem_toolsMembers {members : List (String × Json)}
    (h : toolsMembers extra = .ok members) : ∀ m ∈ members, m.1 = "tools" := by
  rw [toolsMembers] at h
  split at h
  · cases h
    simp
  · rw [bind_eq_ok_iff] at h
    obtain ⟨_, -, hmembers⟩ := h
    cases hmembers
    simp

theorem openaiMessages_of_convertMessages {request : AnthropicRequest}
    (hblocks : validateAnthropicTooling converter.validatorFor request = .ok ())
    (hconvert : converter.convertMessages request = .ok messages) :
    ∃ body, anthropicToOpenaiRequest converter request = .ok body ∧
      openaiMessages body = messages := by
  have haccepted := hblocks
  rw [validateAnthropicTooling, bind_eq_ok_iff] at hblocks
  obtain ⟨_, hnames, -⟩ := hblocks
  obtain ⟨_, hmembers⟩ := exists_toolsMembers hnames
  refine ⟨_, by rw [anthropicToOpenaiRequest, haccepted, hconvert, hmembers]; rfl, ?_⟩
  rw [openaiMessages, append_assoc, append_assoc, append_assoc, append_assoc,
    singleton_append, get?_of_append fun m hm => ?_]
  · rfl
  · simp only [mem_append] at hm
    rcases hm with hm | hm | hm | hm
    · obtain ⟨_, hkey, hm⟩ := mem_flatMap.mp hm
      rw [fst_of_mem_copyOptional hm]
      rintro rfl
      exact absurd hkey (by decide)
    · simp only [mem_toList, map_eq_some_iff] at hm
      obtain ⟨_, -, rfl⟩ := hm
      exact (by decide : "stop" ≠ "messages")
    · rw [fst_of_mem_toolsMembers hmembers m hm]
      decide
    · rcases fst_of_mem_toolChoiceMembers hm with hkey | hkey
      · rw [hkey]
        decide
      · rw [hkey]
        decide

/-- Every call of a converted request is answered at once, every tool message answers the
assistant message before it, and the calls and results are those of the request, in its order. A
request that passes its checks is refused only if a message has no role. -/
theorem anthropicToOpenaiRequest_wellPaired (converter : RequestConverter)
    (request : AnthropicRequest)
    (haccepted : validateAnthropicTooling converter.validatorFor request = .ok ())
    (hroles : ∀ m ∈ request.messages, m.text? "role" ≠ some "tool") :
    (anthropicToOpenaiRequest converter request =
        .error (.invalidRequest "message.role is required") ∧
      ∃ m ∈ request.messages, m.text? "role" = none) ∨
    ∃ body, anthropicToOpenaiRequest converter request = .ok body ∧
      WellPaired (openaiMessages body) ∧
      (openaiMessages body).flatMap messageItems =
        request.messages.flatMap (blockItems converter.writer) := by
  have hchecks := haccepted
  rw [validateAnthropicTooling, bind_eq_ok_iff] at hchecks
  obtain ⟨_, -, hchecks⟩ := hchecks
  simp only [bind_eq_ok_iff, validateToolTurnReferences, ensure_eq_ok] at hchecks
  obtain ⟨_, -, _, hblocks, _, hturns, hnone⟩ := hchecks
  rcases convertMessages_total converter hblocks (systemMessages request.system, 0) with
    ⟨⟨outs, drawn⟩, hconvert⟩ | ⟨herror, hmissing⟩
  · have hvalid : TurnState.Valid {} := fun _ hid => absurd hid (by simp)
    obtain ⟨_, _, rfl, hresumes, hitems⟩ := convertMessages_resumes hvalid hroles hblocks
      hturns (isEmpty_iff.mp hnone) hconvert
    obtain ⟨body, hbody, hmessages⟩ := openaiMessages_of_convertMessages haccepted
      (by rw [convertMessages, hconvert]; rfl)
    refine .inr ⟨body, hbody, ?_, ?_⟩
    · rw [hmessages]
      refine (Turns.append_plain (fun m hm => ?_) hresumes.turns).wellPaired
      obtain ⟨_, rfl⟩ := plain_of_mem_systemMessages hm
      exact ⟨messageCalls_plainMessage, by rw [isTool_plainMessage]; decide⟩
    · have hsystem : (systemMessages request.system).flatMap messageItems = [] := by
        refine flatMap_eq_nil_iff.mpr fun m hm => ?_
        obtain ⟨_, rfl⟩ := plain_of_mem_systemMessages hm
        exact messageItems_plainMessage (by decide)
      rw [hmessages, flatMap_append, hsystem, nil_append, hitems]
  · refine .inl ⟨?_, hmissing⟩
    rw [anthropicToOpenaiRequest, haccepted, convertMessages, herror]
    rfl

def pairingConverter : RequestConverter where
  writer := { float := fun _ => "0.0", numeral := fun _ => Json.numeral_zero }
  uuid := toString
  validatorFor := fun _ => .ok fun _ => none
  model := "m"
  stream := false
  maxTokensField := .maxTokens

def toolUse (id name : String) : Json :=
  .object [("type", .string "tool_use"), ("id", .string id), ("name", .string name),
    ("input", .object [])]

def toolResult (id : String) : Json :=
  .object [("type", .string "tool_result"), ("tool_use_id", .string id), ("content", .string "ok")]

/-- Two calls at once, answered the other way around with a text after them. -/
def parallelCalls : AnthropicRequest where
  model := "m"
  messages :=
    [.object [("role", .string "user"), ("content", .string "go")],
      .object [("role", .string "assistant"),
        ("content", .array [toolUse "a" "list", toolUse "b" "read"])],
      .object [("role", .string "user"),
        ("content", .array [toolResult "b", toolResult "a",
          .object [("type", .string "text"), ("text", .string "next")]])]]

theorem parallelCalls_wellPaired :
    ∃ body, anthropicToOpenaiRequest pairingConverter parallelCalls = .ok body ∧
      WellPaired (openaiMessages body) ∧
      (openaiMessages body).flatMap messageItems =
        [.call "a" "list" "\x7b\x7d", .call "b" "read" "\x7b\x7d", .result "b", .result "a"] := by
  have hroles : ∀ m ∈ parallelCalls.messages, m.text? "role" ≠ some "tool" := by
    simp [parallelCalls, text?, get?, asStr]
  rcases anthropicToOpenaiRequest_wellPaired pairingConverter parallelCalls rfl hroles with
    ⟨-, m, hm, hnone⟩ | ⟨body, hbody, hpaired, hitems⟩
  · revert m
    simp [parallelCalls, text?, get?, asStr]
  · exact ⟨body, hbody, hpaired, hitems.trans (by decide)⟩

/-- A message that has the role of a tool already is passed on, with no call before it. -/
theorem tool_role_passed_on :
    ∃ request body, validateAnthropicTooling pairingConverter.validatorFor request = .ok () ∧
      anthropicToOpenaiRequest pairingConverter request = .ok body ∧
      ¬ WellPaired (openaiMessages body) := by
  refine ⟨{ model := "m", messages := [plainMessage "tool" "x"] }, _, rfl, rfl, fun hpaired => ?_⟩
  obtain ⟨_, hfind, -⟩ := hpaired.answers [] (plainMessage "tool" "x") [] rfl rfl
  cases hfind

end

end RouteSmith.Model
