import RouteSmith.Verification.Streams.Endings
import RouteSmith.Verification.Streams.Upstream
import Mathlib.Data.List.Induction
import Mathlib.Data.List.Perm.Subperm

/-! # Anthropic streams for OpenAI clients

What a client puts together from the chunks of a converted stream is compared with the conversion
of the whole message.
-/

namespace RouteSmith.Model

open Control Numeric List UpstreamEvent Json

/-! ## The client -/

structure ClientCall where
  id : Option String := none
  name : Option String := none
  arguments : String := ""
  deriving DecidableEq

/-- A completion as far as it has arrived, with its calls by index. -/
structure ClientCompletion where
  text : String := ""
  calls : Std.TreeMap ℕ ClientCall := ∅
  finishReason : Option String := none

def ClientCall.take (call : ClientCall) (delta : Json) : ClientCall :=
  let function := (delta.get? "function").getD .null
  { id := call.id.or (delta.text? "id")
    name := call.name.or (function.text? "name")
    arguments := call.arguments ++ (function.text? "arguments").getD "" }

namespace ClientCompletion

def takeCall (c : ClientCompletion) (delta : Json) : ClientCompletion :=
  match ((delta.get? "index").bind Json.asU64).map (·.val) with
  | none => c
  | some index => { c with calls := c.calls.insert index ((c.calls[index]?.getD {}).take delta) }

def takeChoice (c : ClientCompletion) (delta finishReason : Json) : ClientCompletion :=
  ((((delta.get? "tool_calls").bind Json.asArray).getD []).foldl takeCall
    { c with
      text := c.text ++ (delta.text? "content").getD ""
      finishReason := finishReason.asStr.or c.finishReason })

def take (c : ClientCompletion) (chunk : Json) : ClientCompletion :=
  match responseChoice chunk with
  | none => c
  | some choice =>
    c.takeChoice ((choice.get? "delta").getD .null) ((choice.get? "finish_reason").getD .null)

end ClientCompletion

def OpenAiData.chunk? : OpenAiData → Option Json
  | .chunk json => some json
  | .done => none

/-- What a client puts together from the events of a stream. -/
def completionOf (trace : List (StreamAction OpenAiData)) : ClientCompletion :=
  ((eventsOf trace).filterMap OpenAiData.chunk?).foldl ClientCompletion.take {}

section

variable (trace : List (StreamAction OpenAiData)) (c : ClientCompletion)

theorem completionOf_update (update : LifecycleUpdate) :
    completionOf (trace ++ [.update update]) = completionOf trace := by
  simp [completionOf, eventsOf_append_singleton, StreamAction.event?]

theorem completionOf_append_chunk (chunk : Json) :
    completionOf (trace ++ [.event (.chunk chunk)]) =
      (completionOf trace).take chunk := by
  simp [completionOf, eventsOf_append_singleton, StreamAction.event?, OpenAiData.chunk?]

theorem completionOf_chunk (id : String) (created : U64) (model : String)
    (delta finishReason : Json) :
    completionOf (trace ++ [.event (.chunk (openaiChunk id created model delta finishReason))]) =
      (completionOf trace).takeChoice delta finishReason := by
  rw [completionOf_append_chunk]
  simp [ClientCompletion.take, openaiChunk, responseChoice, get?, asArray]

theorem completionOf_usage (id : String) (created : U64) (model : String)
    (usage : TokenUsageBreakdown) :
    completionOf (trace ++ [.event (.chunk (openaiUsageChunk id created model usage))]) =
      completionOf trace := by
  rw [completionOf_append_chunk]
  simp [ClientCompletion.take, openaiUsageChunk, responseChoice, get?, asArray]

theorem completionOf_done : completionOf (trace ++ [.event .done]) = completionOf trace := by
  rw [completionOf, eventsOf_append_singleton, filterMap_append, foldl_append]
  rfl

theorem takeChoice_roleDelta : c.takeChoice roleDelta .null = c := by
  simp [ClientCompletion.takeChoice, roleDelta, text?, get?, asStr]

theorem takeChoice_contentDelta (text : String) :
    c.takeChoice (contentDelta text) .null = { c with text := c.text ++ text } := by
  simp [ClientCompletion.takeChoice, contentDelta, text?, get?, asStr]

theorem takeChoice_finish (reason : String) :
    c.takeChoice (.object []) (.string reason) = { c with finishReason := some reason } := by
  simp [ClientCompletion.takeChoice, text?, get?, asStr]

theorem map_val_asU64_ofNat {k : ℕ} (hk : k ≤ usizeMax) :
    (ofNat k).asU64.map (·.val) = some k :=
  congrArg some (min_eq_left hk)

theorem takeChoice_toolCallDelta {k : ℕ} (hk : k ≤ usizeMax) (id name : String) :
    c.takeChoice (toolCallDelta k id name) .null =
      { c with
        calls := c.calls.insert k
          { id := (c.calls[k]?.getD {}).id.or (some id)
            name := (c.calls[k]?.getD {}).name.or (some name)
            arguments := (c.calls[k]?.getD {}).arguments } } := by
  simp [ClientCompletion.takeChoice, ClientCompletion.takeCall, ClientCall.take, toolCallDelta,
    text?, get?, asStr, asArray, map_val_asU64_ofNat hk]

theorem takeChoice_argumentsDelta {k : ℕ} (hk : k ≤ usizeMax) (arguments : String) :
    c.takeChoice (argumentsDelta k arguments) .null =
      { c with
        calls := c.calls.insert k
          { c.calls[k]?.getD {} with
            arguments := (c.calls[k]?.getD {}).arguments ++ arguments } } := by
  simp [ClientCompletion.takeChoice, ClientCompletion.takeCall, ClientCall.take, argumentsDelta,
    text?, get?, asStr, asArray, map_val_asU64_ofNat hk]

end

/-! ## The message so far -/

theorem toList_eq_of_sorted {β : Type} {m : Std.TreeMap ℕ β} {l : List (ℕ × β)}
    (hsorted : l.Pairwise fun p q => p.1 < q.1) (h : ∀ p, p ∈ l ↔ m[p.1]? = some p.2) :
    m.toList = l := by
  refine (m.ordered_keys_toList.imp Nat.compare_eq_lt.mp).eq_of_mem_iff hsorted fun p => ?_
  rw [h, ← Std.TreeMap.mem_toList_iff_getElem?_eq_some]

/-- A map that differs from another one at most at one key. -/
theorem toList_eq_around {β : Type} {m m' : Std.TreeMap ℕ β} {i : ℕ}
    (h : ∀ j ≠ i, m'[j]? = m[j]?) :
    m'.toList = m.toList.filter (·.1 < i) ++ (m'[i]?.map (i, ·)).toList ++
      m.toList.filter (i < ·.1) := by
  have hsorted := m.ordered_keys_toList.imp Nat.compare_eq_lt.mp
  refine toList_eq_of_sorted ?_ fun p => ?_
  · simp only [pairwise_append, mem_append, mem_filter, Option.mem_toList, Option.map_eq_some_iff,
      decide_eq_true_eq]
    refine ⟨⟨hsorted.filter _, ?_, ?_⟩, hsorted.filter _, ?_⟩
    · cases m'[i]? <;> simp
    · rintro p ⟨-, hp⟩ _ ⟨_, -, rfl⟩
      exact hp
    · rintro p (⟨-, hp⟩ | ⟨_, -, rfl⟩) q ⟨-, hq⟩
      · omega
      · exact hq
  · obtain ⟨j, b⟩ := p
    simp only [mem_append, mem_filter, Option.mem_toList, Option.map_eq_some_iff, decide_eq_true_eq,
      Prod.mk.injEq]
    rcases lt_trichotomy j i with hlt | rfl | hgt
    · rw [h j (by omega)]
      grind
    · grind
    · rw [h j (by omega)]
      grind

namespace UpstreamBlock

def isText (b : UpstreamBlock) : Bool := b.start.text? "type" = some "text"

def call (b : UpstreamBlock) : ClientCall := ⟨some b.callId, some b.callName, b.partialJson⟩

def call? (b : UpstreamBlock) : Option ClientCall := if b.isTool then some b.call else none

end UpstreamBlock

def textOf (blocks : List (ℕ × UpstreamBlock)) : String := .join (blocks.map (·.2.shownText))

/-- The calls of the tool uses, each with the index of its block. -/
def callsOf (blocks : List (ℕ × UpstreamBlock)) : List (ℕ × ClientCall) :=
  blocks.filterMap fun p => p.2.call?.map (p.1, ·)

/-- The blocks before and behind the index. -/
def below (blocks : Std.TreeMap ℕ UpstreamBlock) (i : ℕ) : List (ℕ × UpstreamBlock) :=
  blocks.toList.filter (·.1 < i)

def above (blocks : Std.TreeMap ℕ UpstreamBlock) (i : ℕ) : List (ℕ × UpstreamBlock) :=
  blocks.toList.filter (i < ·.1)

section

variable {blocks blocks' : Std.TreeMap ℕ UpstreamBlock} {i : ℕ}

theorem mem_callsOf {call : ClientCall} : (i, call) ∈ callsOf blocks.toList ↔
    ∃ b, blocks[i]? = some b ∧ b.call? = some call := by
  simp only [callsOf, mem_filterMap, Option.map_eq_some_iff, Prod.mk.injEq, Prod.exists]
  grind

section

variable (h : ∀ j ≠ i, blocks'[j]? = blocks[j]?)

include h

theorem textOf_around : textOf blocks'.toList =
    textOf (below blocks i) ++ blocks'[i]?.elim "" (·.shownText) ++ textOf (above blocks i) := by
  rw [toList_eq_around h]
  cases blocks'[i]? <;> simp [textOf, below, above, String.append_assoc]

theorem callsOf_around : callsOf blocks'.toList = callsOf (below blocks i) ++
    ((blocks'[i]?.bind (·.call?)).map (i, ·)).toList ++ callsOf (above blocks i) := by
  rw [toList_eq_around h]
  cases hi : blocks'[i]? with
  | none => simp [callsOf, below, above]
  | some b => cases hb : b.call? <;> simp [callsOf, below, above, hb]

end

theorem textOf_eq (blocks : Std.TreeMap ℕ UpstreamBlock) (i : ℕ) : textOf blocks.toList =
    textOf (below blocks i) ++ blocks[i]?.elim "" (·.shownText) ++ textOf (above blocks i) :=
  textOf_around fun _ _ => rfl

theorem callsOf_eq (blocks : Std.TreeMap ℕ UpstreamBlock) (i : ℕ) : callsOf blocks.toList =
    callsOf (below blocks i) ++ ((blocks[i]?.bind (·.call?)).map (i, ·)).toList ++
      callsOf (above blocks i) :=
  callsOf_around fun _ _ => rfl

section

variable (h : ∀ j ≠ i, blocks'[j]? = blocks[j]?)

include h

theorem textOf_congr
    (hi : blocks'[i]?.elim "" (·.shownText) = blocks[i]?.elim "" (·.shownText)) :
    textOf blocks'.toList = textOf blocks.toList := by
  rw [textOf_around h, hi, ← textOf_eq]

theorem callsOf_congr (hi : blocks'[i]?.bind (·.call?) = blocks[i]?.bind (·.call?)) :
    callsOf blocks'.toList = callsOf blocks.toList := by
  rw [callsOf_around h, hi, ← callsOf_eq]

end

theorem fst_lt_of_mem_below {p : ℕ × ClientCall} (hp : p ∈ callsOf (below blocks i)) :
    p.1 < i := by
  obtain ⟨q, hq, hcall⟩ := mem_filterMap.mp hp
  obtain ⟨_, -, rfl⟩ := Option.map_eq_some_iff.mp hcall
  exact of_decide_eq_true (mem_filter.mp hq).2

theorem lt_fst_of_mem_above {p : ℕ × ClientCall} (hp : p ∈ callsOf (above blocks i)) :
    i < p.1 := by
  obtain ⟨q, hq, hcall⟩ := mem_filterMap.mp hp
  obtain ⟨_, -, rfl⟩ := Option.map_eq_some_iff.mp hcall
  exact of_decide_eq_true (mem_filter.mp hq).2

/-! One more block. -/

section

variable (hfresh : blocks[i]? = none) {block : Json}

include hfresh

theorem textOf_insert_iff :
    textOf (blocks.insert i { start := block }).toList = textOf blocks.toList ↔
      ({ start := block } : UpstreamBlock).shownText = "" := by
  have hother : ∀ j ≠ i, (blocks.insert i { start := block })[j]? = blocks[j]? := by
    intro j hj
    simp [Std.TreeMap.getElem?_insert, symm hj]
  rw [textOf_around hother, textOf_eq blocks i, hfresh]
  simp

theorem callsOf_insert (htype : block.text? "type" ≠ some "tool_use") :
    callsOf (blocks.insert i { start := block }).toList = callsOf blocks.toList := by
  refine callsOf_congr (i := i) (fun j hj => ?_) ?_
  · simp [Std.TreeMap.getElem?_insert, symm hj]
  · simp [hfresh, UpstreamBlock.call?, UpstreamBlock.isTool, htype]

theorem callsOf_insert_iff {call : ClientCall}
    (hcall : ({ start := block } : UpstreamBlock).call? = some call) :
    callsOf (blocks.insert i { start := block }).toList = callsOf blocks.toList ++ [(i, call)] ↔
      ∀ p ∈ callsOf blocks.toList, p.1 < i := by
  have hother : ∀ j ≠ i, (blocks.insert i { start := block })[j]? = blocks[j]? := by
    intro j hj
    simp [Std.TreeMap.getElem?_insert, symm hj]
  rw [callsOf_around hother, callsOf_eq blocks i, hfresh]
  simp only [Std.TreeMap.getElem?_insert_self, Option.bind_some, hcall, Option.map_some,
    Option.bind_none, Option.map_none, Option.toList_none, append_nil, append_assoc,
    append_cancel_left_eq, mem_append]
  constructor
  · rintro heq p (hp | hp)
    · exact fst_lt_of_mem_below hp
    · cases habove : callsOf (above blocks i) with
      | nil => simp [habove] at hp
      | cons q _ =>
        rw [habove] at heq
        have hq := lt_fst_of_mem_above (habove ▸ mem_cons_self : q ∈ callsOf (above blocks i))
        cases (cons.inj heq).1
        omega
  · intro hlt
    have habove : callsOf (above blocks i) = [] := by
      refine eq_nil_iff_forall_not_mem.mpr fun p hp => ?_
      have := hlt p (.inr hp)
      have := lt_fst_of_mem_above hp
      omega
    rw [habove]
    rfl

end

/-! More text for a block. -/

theorem getElem?_modify_of_ne {f : UpstreamBlock → UpstreamBlock} {j : ℕ} (hj : j ≠ i) :
    (blocks.modify i f)[j]? = blocks[j]? := by
  simp [Std.TreeMap.getElem?_modify, symm hj]

theorem callsOf_modify_text (added : String) :
    callsOf (blocks.modify i fun b => { b with text := b.text ++ added }).toList =
      callsOf blocks.toList := by
  refine callsOf_congr (fun _ => getElem?_modify_of_ne) ?_
  rw [Std.TreeMap.getElem?_modify_self, Option.bind_map]
  rfl

theorem textOf_modify_input (added : String) :
    textOf (blocks.modify i fun b => { b with partialJson := b.partialJson ++ added }).toList =
      textOf blocks.toList := by
  refine textOf_congr (fun _ => getElem?_modify_of_ne) ?_
  rw [Std.TreeMap.getElem?_modify_self, Option.elim_map]
  rfl

theorem textOf_modify_text_iff (added : String) :
    textOf (blocks.modify i fun b => { b with text := b.text ++ added }).toList =
        textOf blocks.toList ++ added ↔
      added = "" ∨ blocks[i]?.any (·.isText) = true ∧
        added ++ textOf (above blocks i) = textOf (above blocks i) ++ added := by
  rw [textOf_around fun _ => getElem?_modify_of_ne, textOf_eq blocks i,
    Std.TreeMap.getElem?_modify_self]
  by_cases htype : blocks[i]?.any (·.isText) = true
  · rw [and_iff_right htype]
    obtain ⟨b, hb, htext⟩ := (Option.any_eq_true _ _).mp htype
    rw [UpstreamBlock.isText, decide_eq_true_eq] at htext
    simp only [hb, Option.map_some, Option.elim_some, UpstreamBlock.shownText, htext, if_true,
      String.append_assoc, String.append_right_inj]
    exact ⟨.inr, fun h => h.elim (fun hnone => by simp [hnone]) id⟩
  · rw [or_iff_left fun h => htype h.1, eq_comm]
    cases hb : blocks[i]? with
    | none => simp
    | some b => simp_all [UpstreamBlock.shownText, UpstreamBlock.isText]

/-- A call with more argument text. -/
def ClientCall.add (call : ClientCall) (added : String) : ClientCall :=
  { call with arguments := call.arguments ++ added }

theorem ClientCall.add_empty (call : ClientCall) : call.add "" = call := by
  simp [ClientCall.add]

theorem callsOf_modify_input {b : UpstreamBlock} (hb : blocks[i]? = some b)
    (htool : b.isTool = true) (added : String) :
    ∃ k, (callsOf blocks.toList)[k]? = some (i, b.call) ∧
      callsOf (blocks.modify i fun b => { b with partialJson := b.partialJson ++ added }).toList =
        (callsOf blocks.toList).set k (i, b.call.add added) := by
  have hcall : b.call? = some b.call := if_pos htool
  have hadded : ({ b with partialJson := b.partialJson ++ added } : UpstreamBlock).call? =
      some (b.call.add added) := if_pos htool
  refine ⟨(callsOf (below blocks i)).length, ?_, ?_⟩
  · rw [callsOf_eq blocks i, hb]
    simp [hcall]
  · rw [callsOf_around fun _ => getElem?_modify_of_ne, callsOf_eq blocks i,
      Std.TreeMap.getElem?_modify_self, hb]
    simp [hcall, hadded]

theorem callsOf_modify_input_empty :
    callsOf (blocks.modify i fun b => { b with partialJson := b.partialJson ++ "" }).toList =
      callsOf blocks.toList := by
  refine callsOf_congr (fun _ => getElem?_modify_of_ne) ?_
  simp

end

/-! ## The stream -/

/-- The event leaves a client with the message so far. A block is opened at an index of its own, a
tool use behind those that are open, and any other block without text. Text goes to a text block and
could as well stand behind the texts of the blocks after it. Argument text goes to a tool use. -/
def InPlace (blocks : Std.TreeMap ℕ UpstreamBlock) : UpstreamEvent → Prop
  | .start index block => ∃ i : ℕ, index = some i ∧ blocks[i]? = none ∧
    if block.text? "type" = some "tool_use" then
      ∀ j : ℕ, blocks[j]?.any (·.isTool) = true → j < i
    else ({ start := block } : UpstreamBlock).shownText = ""
  | .text index added =>
    added = "" ∨ ∃ i : ℕ, index = some i ∧ blocks[i]?.any (·.isText) = true ∧
      added ++ textOf (above blocks i) = textOf (above blocks i) ++ added
  | .input index added =>
    (∃ i : ℕ, index = some i ∧ blocks[i]?.any (·.isTool) = true) ∨
      added = "" ∧ ∃ i : ℕ, blocks[i]?.any (·.isTool) = true
  | _ => True

/-- Each event is in place among the blocks so far. -/
def InOrder (blocks : Std.TreeMap ℕ UpstreamBlock) : List UpstreamEvent → Prop
  | [] => True
  | event :: events => InPlace blocks event ∧ InOrder (takeUpstream blocks event) events

theorem InOrder.inPlace {blocks : Std.TreeMap ℕ UpstreamBlock} {behind after : List UpstreamEvent}
    {event : UpstreamEvent} (h : InOrder blocks (behind ++ event :: after)) :
    InPlace (behind.foldl takeUpstream blocks) event := by
  induction behind generalizing blocks with
  | nil => exact h.1
  | cons _ _ ih => exact ih h.2

namespace OpenAiConversion

/-- A client has the text, the calls and the finish reason, and the conversion knows the calls. -/
structure Shows (text : String) (calls : List (ℕ × ClientCall)) (reason : Option String)
    (s : ConversionState) : Prop where
  text_eq : (completionOf s.trace).text = text
  calls_eq : ∀ k : ℕ, (completionOf s.trace).calls[k]? = calls[k]?.map (·.2)
  sorted : (calls.map (·.1)).Pairwise (· < ·)
  length_le : calls.length ≤ usizeMax + 1
  toolIndexes : ∀ i k : ℕ, s.toolIndexes[i]? = some k ↔ calls[k]?.map (·.1) = some i
  nextToolIndex : s.nextToolIndex = min calls.length usizeMax
  finish : if s.finishEmitted then (completionOf s.trace).finishReason =
    some (mapAnthropicStopReason (reason.getD "end_turn")) else reason = none

section

variable {conversion : OpenAiConversion} {s t : ConversionState} {text : String}
  {calls : List (ℕ × ClientCall)} {reason : Option String} {E : Halt → ConversionState → Prop}

theorem ensures_act {action : StreamAction OpenAiData} {Q : Unit → ConversionState → Prop} :
    Ensures (act action) Q E s ↔ Q () { s with trace := s.trace ++ [action] } :=
  .rfl

theorem ensures_chunk {delta finishReason : Json} {Q : Unit → ConversionState → Prop} :
    Ensures (conversion.chunk delta finishReason) Q E s ↔
      Q () { s with trace := s.trace ++ [.event (.chunk (openaiChunk s.completionId
        conversion.created conversion.requestedModel delta finishReason))] } :=
  .rfl

section

variable (h : Shows text calls reason s)

include h

theorem Shows.of_completion (hcompletion : completionOf t.trace = completionOf s.trace)
    (hfinish : t.finishEmitted = s.finishEmitted) (hindexes : t.toolIndexes = s.toolIndexes)
    (hnext : t.nextToolIndex = s.nextToolIndex) : Shows text calls reason t := by
  refine ⟨?_, ?_, h.sorted, h.length_le, ?_, ?_, ?_⟩
  · rw [hcompletion, h.text_eq]
  · rw [hcompletion]
    exact h.calls_eq
  · rw [hindexes]
    exact h.toolIndexes
  · rw [hnext, h.nextToolIndex]
  · rw [hcompletion, hfinish]
    exact h.finish

theorem Shows.update (update : LifecycleUpdate) :
    Shows text calls reason { s with trace := s.trace ++ [.update update] } :=
  h.of_completion (completionOf_update ..) rfl rfl rfl

theorem ensures_noteUsage (event : Json) :
    Ensures (noteUsage event) (fun _ => Shows text calls reason) E s := by
  rw [noteUsage]
  split
  · exact h
  · exact h.update _

theorem Shows.role {id : String} {created : U64} {model : String}
    (htrace : t.trace = s.trace ++ [.event
      (.chunk (openaiChunk id created model roleDelta .null))])
    (hfinish : t.finishEmitted = s.finishEmitted) (hindexes : t.toolIndexes = s.toolIndexes)
    (hnext : t.nextToolIndex = s.nextToolIndex) : Shows text calls reason t := by
  refine h.of_completion ?_ hfinish hindexes hnext
  rw [htrace, completionOf_chunk, takeChoice_roleDelta]

theorem ensures_startMessage (event : Json) :
    Ensures (conversion.startMessage event) (fun _ => Shows text calls reason) E s :=
  h.role rfl rfl rfl rfl

theorem ensures_ensureStarted :
    Ensures conversion.ensureStarted (fun _ => Shows text calls reason) E s := by
  rw [ensureStarted, ensures_bind, ensures_get]
  split_ifs
  · exact h.role rfl rfl rfl rfl
  · exact h

theorem ensures_relayText (delta : Json) : Ensures (conversion.relayText delta)
    (fun _ => Shows (text ++ (delta.text? "text").getD "") calls reason) E s := by
  have hnote : Ensures (noteText ((delta.text? "text").getD ""))
      (fun _ => Shows text calls reason) E s := by
    rw [noteText]
    split_ifs
    · exact h
    · exact h.of_completion (completionOf_update ..) rfl rfl rfl
  refine hnote.bind fun _ t ht => ?_
  rw [ensures_chunk]
  have hcompletion := completionOf_chunk t.trace t.completionId conversion.created
    conversion.requestedModel (contentDelta ((delta.text? "text").getD "")) .null
  rw [takeChoice_contentDelta] at hcompletion
  refine ⟨?_, ?_, ht.sorted, ht.length_le, ht.toolIndexes, ht.nextToolIndex, ?_⟩
  · rw [hcompletion, ht.text_eq]
  · rw [hcompletion]
    exact ht.calls_eq
  · rw [hcompletion]
    exact ht.finish

theorem Shows.length_le_of_lt {i : ℕ} (hlt : ∀ p ∈ calls, p.1 < i) : calls.length ≤ i := by
  have hnodup : (calls.map (·.1)).Nodup := h.sorted.imp ne_of_lt
  have hsub : calls.map (·.1) ⊆ range i := by
    intro j hj
    obtain ⟨p, hp, rfl⟩ := mem_map.mp hj
    exact mem_range.mpr (hlt p hp)
  simpa using (hnodup.subperm hsub).length_le

theorem ensures_startTool {event block : Json} {i : ℕ} (hindex : eventIndex event = some i)
    (hlt : ∀ p ∈ calls, p.1 < i) :
    Ensures (conversion.startTool event block)
      (fun _ => Shows text (calls ++ [(i, ⟨some ((block.text? "id").getD "call_modelport"),
        some ((block.text? "name").getD "tool"), ""⟩)]) reason) E s := by
  have hlast : i ≤ usizeMax := by
    obtain ⟨v, -, rfl⟩ := Option.map_eq_some_iff.mp hindex
    exact v.le_max
  have hlength : calls.length ≤ usizeMax := (h.length_le_of_lt hlt).trans hlast
  have hnext : s.nextToolIndex = calls.length := h.nextToolIndex.trans (min_eq_left hlength)
  have htake := takeChoice_toolCallDelta (completionOf s.trace) hlength
    ((block.text? "id").getD "call_modelport") ((block.text? "name").getD "tool")
  rw [h.calls_eq, getElem?_eq_none le_rfl] at htake
  refine ⟨?_, fun k => ?_, ?_, ?_, fun j k => ?_, ?_, ?_⟩
  · rw [completionOf_chunk, completionOf_update, hnext, htake, h.text_eq]
  · rw [completionOf_chunk, completionOf_update, hnext, htake]
    simp only [Std.TreeMap.getElem?_insert, h.calls_eq]
    grind
  · rw [map_append]
    refine pairwise_append.mpr ⟨h.sorted, pairwise_singleton _ _, fun j hj k hk => ?_⟩
    obtain ⟨p, hp, rfl⟩ := mem_map.mp hj
    rw [mem_singleton.mp hk]
    exact hlt p hp
  · simpa using hlength
  · simp only [hindex, Option.getD_some, hnext]
    have := h.toolIndexes j k
    grind
  · simp [hnext]
  · rw [completionOf_chunk, completionOf_update, hnext, htake]
    exact h.finish

theorem ensures_relayArguments {event delta : Json} {k : ℕ} {p : ℕ × ClientCall}
    (hk : calls[k]? = some p) (hroute : s.toolIndexes[(eventIndex event).getD 0]?.getD 0 = k) :
    Ensures (conversion.relayArguments event delta)
      (fun _ => Shows text (calls.set k (p.1, p.2.add ((delta.text? "partial_json").getD "")))
        reason) E s := by
  obtain ⟨hlt, hp⟩ := List.getElem?_eq_some_iff.mp hk
  have hlast : k ≤ usizeMax := by
    have := h.length_le
    omega
  have hkeys : (calls.set k (p.1, p.2.add ((delta.text? "partial_json").getD ""))).map (·.1) =
      calls.map (·.1) := by
    refine ext_getElem? fun j => ?_
    rw [getElem?_map, getElem?_map, getElem?_set]
    grind
  have htake := takeChoice_argumentsDelta (completionOf s.trace) hlast
    ((delta.text? "partial_json").getD "")
  rw [h.calls_eq, hk] at htake
  rw [relayArguments, ensures_bind, ensures_get, hroute, ensures_chunk]
  refine ⟨?_, fun j => ?_, hkeys ▸ h.sorted, ?_, fun i j => ?_, ?_, ?_⟩
  · rw [completionOf_chunk, htake, h.text_eq]
  · rw [completionOf_chunk, htake, getElem?_set]
    simp only [Std.TreeMap.getElem?_insert, h.calls_eq]
    grind [ClientCall.add]
  · rw [length_set]
    exact h.length_le
  · rw [← getElem?_map, hkeys, getElem?_map]
    exact h.toolIndexes i j
  · rw [length_set]
    exact h.nextToolIndex
  · rw [completionOf_chunk, htake]
    exact h.finish

theorem ensures_relayStopReason (event : Json) : Ensures (conversion.relayStopReason event)
    (fun _ => Shows text calls ((event.get? "delta").bind (text? "stop_reason"))) E s := by
  have hcompletion : ∀ u id created model reason, completionOf (s.trace ++ [.update u] ++
      [.event (.chunk (openaiChunk id created model (.object []) (.string reason)))]) =
        { completionOf s.trace with finishReason := some reason } := by
    intro _ _ _ _ _
    rw [completionOf_chunk, completionOf_update, takeChoice_finish]
  refine ⟨?_, ?_, h.sorted, h.length_le, h.toolIndexes, h.nextToolIndex, ?_⟩
  · rw [hcompletion, h.text_eq]
  · rw [hcompletion]
    exact h.calls_eq
  · rw [hcompletion]
    rfl

theorem ensures_ensureFinished :
    Ensures conversion.ensureFinished (fun _ t => completionOf t.trace =
      { completionOf s.trace with
        finishReason := some (mapAnthropicStopReason (reason.getD "end_turn")) })
      (fun _ _ => False) s := by
  have hfinish := h.finish
  rw [ensureFinished, ensures_bind, ensures_get]
  cases hemitted : s.finishEmitted with
  | false =>
    rw [hemitted, if_neg (by simp)] at hfinish
    rw [if_pos (by rfl), ensures_chunk, completionOf_chunk, takeChoice_finish, hfinish]
    rfl
  | true =>
    rw [hemitted, if_pos rfl] at hfinish
    rw [if_neg (by simp), ← hfinish]
    rfl

omit h in
theorem ensures_relayUsage :
    Ensures conversion.relayUsage (fun _ t => completionOf t.trace = completionOf s.trace)
      (fun _ _ => False) s := by
  rw [relayUsage, ensures_bind, ensures_get]
  dsimp only
  split
  · rfl
  · exact completionOf_usage ..

/-- The client has the text, the calls and the finish reason when the stream is over. -/
def Delivers (text : String) (calls : List (ℕ × ClientCall)) (reason : Option String) (e : Halt)
    (t : ConversionState) : Prop :=
  e = .returned ∧ (completionOf t.trace).text = text ∧
    (∀ k : ℕ, (completionOf t.trace).calls[k]? = calls[k]?.map (·.2)) ∧
    (completionOf t.trace).finishReason =
      some (mapAnthropicStopReason (reason.getD "end_turn"))

theorem ensures_stopMessage : Ensures conversion.stopMessage (fun _ _ => False)
    (Delivers text calls reason) s := by
  rw [stopMessage, ensures_bind]
  refine (ensures_ensureFinished h).mono (fun _ t ht => ?_) fun _ _ he => he.elim
  rw [ensures_bind, ensures_act, ensures_bind]
  refine ensures_relayUsage.mono (fun _ u hu => ?_) fun _ _ he => he.elim
  rw [ensures_bind, ensures_act, ensures_throw, Delivers, completionOf_done, hu,
    completionOf_update, ht]
  exact ⟨rfl, h.text_eq, h.calls_eq, rfl⟩

end

end

section

variable {conversion : OpenAiConversion} {blocks : Std.TreeMap ℕ UpstreamBlock}
  {reason : Option String} {s : ConversionState} {E : Halt → ConversionState → Prop}

/-- A client has the message so far. -/
def Follows (blocks : Std.TreeMap ℕ UpstreamBlock) (reason : Option String)
    (s : ConversionState) : Prop :=
  Shows (textOf blocks.toList) (callsOf blocks.toList) reason s

variable (h : Follows blocks reason s)

include h

theorem ensures_startBlock {event : Json} (hplace : InPlace blocks
      (.start (eventIndex event) ((event.get? "content_block").getD .null))) :
    Ensures (conversion.startBlock event) (fun _ => Follows (takeUpstream blocks
      (.start (eventIndex event) ((event.get? "content_block").getD .null))) reason) E s := by
  obtain ⟨i, hindex, hfresh, hplace⟩ := hplace
  refine (ensures_ensureStarted h).bind fun _ t ht => ?_
  rw [hindex]
  dsimp only [takeUpstream]
  split_ifs at hplace ⊢ with htype
  · have hcall : ({ start := (event.get? "content_block").getD .null } : UpstreamBlock).call? =
        some ⟨_, _, ""⟩ := if_pos (decide_eq_true htype)
    have hlt : ∀ p ∈ callsOf blocks.toList, p.1 < i := by
      rintro ⟨j, call⟩ hp
      obtain ⟨b, hb, hbcall⟩ := mem_callsOf.mp hp
      refine hplace j ((Option.any_eq_true _ _).mpr ⟨b, hb, ?_⟩)
      by_contra hnot
      rw [UpstreamBlock.call?, if_neg hnot] at hbcall
      cases hbcall
    refine (ensures_startTool ht hindex hlt).imp fun _ u hu => ?_
    rw [Follows, (textOf_insert_iff hfresh).mpr (by simp [UpstreamBlock.shownText, htype]),
      (callsOf_insert_iff hfresh hcall).mpr hlt]
    exact hu
  · rw [ensures_pure, Follows, (textOf_insert_iff hfresh).mpr hplace,
      callsOf_insert hfresh htype]
    exact ht

omit h in
theorem follows_text {index : Option ℕ} {added : String}
    (hplace : InPlace blocks (.text index added)) {t : ConversionState}
    (ht : Shows (textOf blocks.toList ++ added) (callsOf blocks.toList) reason t) :
    Follows (takeUpstream blocks (.text index added)) reason t := by
  cases index with
  | none =>
    rcases hplace with rfl | ⟨_, hnone, -⟩
    · simpa [takeUpstream, Follows] using ht
    · cases hnone
  | some i =>
    dsimp only [takeUpstream, Follows]
    rw [callsOf_modify_text, (textOf_modify_text_iff added).mpr]
    · exact ht
    · refine hplace.imp_right ?_
      rintro ⟨_, heq, hcommutes⟩
      cases heq
      exact hcommutes

theorem ensures_relayArguments_of_inPlace {event delta : Json}
    (hplace : InPlace blocks (.input (eventIndex event) ((delta.text? "partial_json").getD ""))) :
    Ensures (conversion.relayArguments event delta) (fun _ => Follows (takeUpstream blocks
      (.input (eventIndex event) ((delta.text? "partial_json").getD ""))) reason) E s := by
  generalize hadded : (delta.text? "partial_json").getD "" = added at hplace ⊢
  rcases hplace with ⟨i, hindex, htool⟩ | ⟨rfl, j, htool⟩
  · obtain ⟨b, hb, htool⟩ := (Option.any_eq_true _ _).mp htool
    obtain ⟨k, hk, hcalls⟩ := callsOf_modify_input hb htool added
    have hroute : s.toolIndexes[(eventIndex event).getD 0]?.getD 0 = k := by
      rw [hindex, Option.getD_some, (h.toolIndexes i k).mpr (by rw [hk]; rfl), Option.getD_some]
    refine (ensures_relayArguments h hk hroute).imp fun _ u hu => ?_
    rw [hindex, Follows, takeUpstream, textOf_modify_input, hcalls, ← hadded]
    exact hu
  · obtain ⟨p, hp⟩ : ∃ p, (callsOf blocks.toList)[
        s.toolIndexes[(eventIndex event).getD 0]?.getD 0]? = some p := by
      cases hroute : s.toolIndexes[(eventIndex event).getD 0]? with
      | none =>
        -- the text of an unknown index goes to the first call
        obtain ⟨b, hb, htool⟩ := (Option.any_eq_true _ _).mp htool
        have hmem : (j, b.call) ∈ callsOf blocks.toList :=
          mem_callsOf.mpr ⟨b, hb, if_pos htool⟩
        exact ⟨_, getElem?_eq_getElem (length_pos_of_mem hmem)⟩
      | some k =>
        obtain ⟨p, hp, -⟩ := Option.map_eq_some_iff.mp ((h.toolIndexes _ k).mp hroute)
        exact ⟨p, hp⟩
    refine (ensures_relayArguments h hp rfl).imp fun _ u hu => ?_
    have hset : (callsOf blocks.toList).set (s.toolIndexes[(eventIndex event).getD 0]?.getD 0)
        (p.1, p.2.add "") = callsOf blocks.toList := by
      obtain ⟨_, rfl⟩ := List.getElem?_eq_some_iff.mp hp
      rw [ClientCall.add_empty, set_getElem_self]
    rw [hadded, hset] at hu
    cases eventIndex event with
    | none => exact hu
    | some i =>
      rw [Follows, takeUpstream, textOf_modify_input, callsOf_modify_input_empty]
      exact hu

theorem ensures_relayDelta {event : Json}
    (hplace : InPlace blocks (.ofDelta (eventIndex event) ((event.get? "delta").getD .null))) :
    Ensures (conversion.relayDelta event) (fun _ => Follows (takeUpstream blocks
      (.ofDelta (eventIndex event) ((event.get? "delta").getD .null))) reason) E s := by
  rw [ofDelta] at hplace ⊢
  rw [relayDelta]
  split_ifs at hplace ⊢
  · exact (ensures_relayText h _).imp fun _ _ => follows_text hplace
  · exact ensures_relayArguments_of_inPlace h hplace
  · exact h

theorem ensures_relayEvent {eventType : String} {event : Json}
    (hplace : InPlace blocks (.ofJson eventType event))
    (hstop : ofJson eventType event ≠ .stop) (hfailed : ofJson eventType event ≠ .failed) :
    Ensures (conversion.relayEvent eventType event)
      (fun _ => Follows (takeUpstream blocks (.ofJson eventType event))
        (takeReason reason (.ofJson eventType event))) E s := by
  refine (ensures_noteUsage h _).bind fun _ t ht => ?_
  by_cases hmessage : eventType = "message_start"
  · subst hmessage
    exact ensures_startMessage ht _
  rw [ofJson] at hplace hstop hfailed ⊢
  split_ifs at hplace hstop hfailed ⊢
  · exact ensures_startBlock ht hplace
  · have hreason : ∀ delta, takeReason reason (ofDelta (eventIndex event) delta) = reason := by
      intro delta
      rw [ofDelta]
      split_ifs <;> rfl
    rw [hreason]
    exact ensures_relayDelta ht hplace
  · exact ensures_relayStopReason ht _
  · exact absurd rfl hstop
  · exact absurd rfl hfailed
  · exact ht

omit h in
theorem ofJson_eq_stop {eventType : String} {event : Json} (h : ofJson eventType event = .stop) :
    eventType = "message_stop" := by
  rw [ofJson] at h
  split_ifs at h with _ _ _ hstop
  · rw [ofDelta] at h
    split_ifs at h
  · exact hstop

end

theorem eq_last_or_mem {α : Type} {before behind rest : List α} {last x : α}
    (h : before ++ [last] = behind ++ x :: rest) :
    behind = before ∧ x = last ∨ ∃ rest', before = behind ++ x :: rest' := by
  rcases eq_nil_or_concat rest with rfl | ⟨rest', y, rfl⟩
  · obtain ⟨hbefore, hlast⟩ := append_inj' h rfl
    exact .inl ⟨hbefore.symm, (singleton_inj.mp hlast).symm⟩
  · rw [concat_eq_append, ← cons_append, ← append_assoc] at h
    exact .inr ⟨rest', (append_inj' h rfl).1⟩

section

variable {conversion : OpenAiConversion} {s : ConversionState} {before : List UpstreamEvent}
  (hbefore : ∀ event ∈ before, event ≠ .stop ∧ event ≠ .failed)
  (horder : InOrder ∅ before)

include hbefore horder

theorem ensures_relayEvent_of_mem {eventType : String} {event : Json}
    {behind after : List UpstreamEvent}
    (hevents : before ++ [.stop] = behind ++ ofJson eventType event :: after)
    (h : Follows (blocksOf behind) (stopReasonOf behind) s) :
    Ensures (conversion.relayEvent eventType event)
      (fun _ t => Follows (blocksOf (behind ++ [.ofJson eventType event]))
        (stopReasonOf (behind ++ [.ofJson eventType event])) t ∧ ofJson eventType event ≠ .stop)
      (Delivers (textOf (blocksOf before).toList) (callsOf (blocksOf before).toList)
        (stopReasonOf before)) s := by
  rcases eq_last_or_mem hevents with ⟨rfl, hstop⟩ | ⟨_, hrest⟩
  · cases ofJson_eq_stop hstop
    refine (ensures_noteUsage h _).bind fun _ t ht => ?_
    exact (ensures_stopMessage ht).mono (fun _ _ hfalse => hfalse.elim) fun _ _ he => he
  · obtain ⟨hstop, hfailed⟩ := hbefore (ofJson eventType event) (by simp [hrest])
    rw [blocksOf, stopReasonOf, foldl_append, foldl_append]
    exact (ensures_relayEvent h (InOrder.inPlace (hrest ▸ horder)) hstop hfailed).imp
      fun _ _ ht => ⟨ht, hstop⟩

theorem ensures_run {frames : SseFrameStream}
    (hevents : upstreamEvents conversion.reader frames = some (before ++ [.stop]))
    (h : Follows ∅ none s) :
    Ensures (conversion.run frames) (fun _ _ => False)
      (Delivers (textOf (blocksOf before).toList) (callsOf (blocksOf before).toList)
        (stopReasonOf before)) s := by
  refine (ensures_forIn_gather (I := fun events t =>
    Follows (blocksOf events) (stopReasonOf events) t ∧ .stop ∉ events)
    hevents ⟨h, by simp⟩ ?_).bind fun _ t ht => absurd ht.2 (by simp)
  intro behind item _ after t hsplit hitem ht
  cases item with
  | error => cases hitem
  | ok frame =>
    refine ensures_for_gather (I := fun events t =>
      Follows (blocksOf (behind ++ events)) (stopReasonOf (behind ++ events)) t ∧
        .stop ∉ behind ++ events) hitem (by simpa using ht) ?_
    intro behind' _ _ after' u hsplit' hdata hu
    rw [lineEvents] at hdata
    rw [relayData]
    split_ifs at hdata ⊢
    · cases hdata
      simpa using hu
    · obtain ⟨event, hparse, rfl⟩ := Option.map_eq_some_iff.mp hdata
      have hplace : before ++ [.stop] = behind ++ behind' ++
          .ofJson (((event.text? "type").or frame.event).getD "message") event ::
            (after' ++ after) := by
        rw [hsplit, hsplit']
        simp
      rw [hparse]
      refine (ensures_relayEvent_of_mem hbefore horder hplace hu.1).imp
        fun _ v hv => ?_
      rw [← append_assoc]
      refine ⟨hv.1, fun hstop => ?_⟩
      rcases mem_append.mp hstop with hstop | hstop
      · exact hu.2 hstop
      · exact hv.2 (mem_singleton.mp hstop).symm

end

end OpenAiConversion

end RouteSmith.Model
