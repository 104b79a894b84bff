import RouteSmith.Model.Providers.Anthropic
import RouteSmith.Verification.Streams.Endings
import RouteSmith.Verification.Streams.Framing
import Mathlib.Data.List.Forall2

/-! # Anthropic streams as they are passed on

Line by line, the events of the upstream are passed on up to the first `message_stop`; without one,
an error of the gateway's own comes last. An error of the upstream is an event like any other. Text
that was sent before is left out on demand, and with it lines that have nothing else to tell.
-/

namespace RouteSmith.Model

open Control List

namespace AnthropicNormalizer

/-- A line of data, with the frame it stands in. -/
abbrev FramedLine := SseFrame × String

/-- The lines of an upstream until it fails. -/
def framedLines : SseFrameStream → List FramedLine
  | .ok frame :: frames => frame.dataLines.map (frame, ·) ++ framedLines frames
  | _ => []

variable (normalizer : AnthropicNormalizer)

/-- The JSON of a line. -/
def payload (line : FramedLine) : Option Json :=
  if line.2 = "[DONE]" then none else normalizer.reader.parse line.2

/-- An event is named by its frame, or else by the type of its data. -/
def eventName (line : FramedLine) : String :=
  (line.1.event.or ((normalizer.payload line).bind (Json.text? "type"))).getD "message"

/-- What a line is passed on as: JSON as the same value, and other text as it stands. -/
def passed (line : FramedLine) : SseEvent :=
  eventWithMetadata line.1 (normalizer.eventName line)
    ((normalizer.payload line).elim line.2 normalizer.writer.write)

/-- The event ends the message. -/
def stops (line : FramedLine) : Bool := (normalizer.payload line).any fun data =>
  data.text? "type" = some "message_stop" ∨ line.1.event = some "message_stop"

/-- What the client gets: a line of the upstream, or the gateway's own error. -/
inductive Received where
  | line (framed : FramedLine)
  | failure (error : AppError)

def Received.event : Received → SseEvent
  | line framed => normalizer.passed framed
  | failure error => (anthropicErrorEvent error).sse normalizer.writer

/-- The text of the line may have been sent before. -/
def repeats (line : FramedLine) : Bool := normalizer.deduplicateStreamText &&
  (normalizer.payload line).any fun data => isTextDelta (data.text? "type") data

/-- Nothing comes after the line. -/
def ends (line : FramedLine) : Bool := normalizer.stops line && !normalizer.repeats line

/-- What a line is passed on as: the same event, or one with less text, if any is left. -/
inductive Carried (line : FramedLine) : List SseEvent → Prop
  | whole : Carried line [normalizer.passed line]
  | shortened (h : normalizer.repeats line = true) (json : Json) : Carried line
    [eventWithMetadata line.1 (normalizer.eventName line) (normalizer.writer.write json)]
  | dropped (h : normalizer.repeats line = true) : Carried line []

/-- The lines that were passed on, and whether `message_stop` was seen. -/
structure Sent (lines : List FramedLine) (stopped : Bool) (s : NormalizerState) : Prop where
  items : ∃ sent, Forall₂ normalizer.Carried lines sent ∧
    itemsOf s.trace = sent.flatten.map .ok
  stop : s.sawMessageStop = stopped
  saw : stopped = true → s.sawEvent = true
  marked : s.trace.findSome? StreamAction.mark? = if stopped then some .completed else none

variable {normalizer} {lines : List FramedLine} {stop : Bool} {s : NormalizerState}
  {line : FramedLine} {data : Json}

section

variable (h : normalizer.Sent lines stop s) {E : Halt → NormalizerState → Prop}

include h

theorem Sent.congr {t : NormalizerState} (htrace : t.trace = s.trace)
    (hstop : t.sawMessageStop = s.sawMessageStop)
    (hevent : s.sawEvent = true → t.sawEvent = true) : normalizer.Sent lines stop t :=
  ⟨htrace ▸ h.items, hstop.trans h.stop, fun hstopped => hevent (h.saw hstopped),
    htrace ▸ h.marked⟩

theorem Sent.update {t : NormalizerState} {u : LifecycleUpdate}
    (htrace : t.trace = s.trace ++ [.update u])
    (hu : StreamAction.mark? (.update u : StreamAction SseEvent) = none)
    (hstop : t.sawMessageStop = s.sawMessageStop) (hevent : t.sawEvent = s.sawEvent) :
    normalizer.Sent lines stop t := by
  obtain ⟨sent, hsent, hitems⟩ := h.items
  refine ⟨⟨sent, hsent, ?_⟩, hstop.trans h.stop, fun hstopped => hevent.trans (h.saw hstopped), ?_⟩
  · simp [htrace, itemsOf, StreamAction.item?, ← hitems]
  · simp [htrace, hu, h.marked]

theorem Sent.noteUsage (data : Json) :
    Ensures (noteUsage data) (fun _ => normalizer.Sent lines stop) E s := by
  rw [AnthropicNormalizer.noteUsage]
  split
  · exact h
  · exact h.update rfl rfl rfl rfl

theorem Sent.noteBlockStart (eventType : Option String) (data : Json) :
    Ensures (noteBlockStart eventType data) (fun _ => normalizer.Sent lines stop) E s := by
  rw [AnthropicNormalizer.noteBlockStart]
  split
  · split_ifs
    · exact h.update rfl rfl rfl rfl
    · exact h.congr rfl rfl id
    · exact h
  · exact h

theorem Sent.noteText (eventType : Option String) (data : Json) :
    Ensures (noteText eventType data) (fun _ => normalizer.Sent lines stop) E s := by
  rw [AnthropicNormalizer.noteText]
  split_ifs
  · exact h.update rfl rfl rfl rfl
  · exact h

theorem Sent.noteStopReason (eventType : Option String) (data : Json) :
    Ensures (noteStopReason eventType data) (fun _ => normalizer.Sent lines stop) E s := by
  rw [AnthropicNormalizer.noteStopReason]
  split_ifs
  · exact h.update rfl rfl rfl rfl
  · exact h

theorem Sent.forgetBlock (eventType : Option String) (data : Json) :
    Ensures (forgetBlock eventType data) (fun _ => normalizer.Sent lines stop) E s := by
  rw [AnthropicNormalizer.forgetBlock]
  split
  · split_ifs
    · exact h.congr rfl rfl id
    · exact h
  · exact h

end

theorem Sent.skip (h : normalizer.Sent lines stop s) (hline : normalizer.repeats line = true) :
    normalizer.Sent (lines ++ [line]) stop s := by
  obtain ⟨sent, hsent, hitems⟩ := h.items
  refine ⟨⟨sent ++ [[]], rel_append hsent (.cons (.dropped hline) .nil), ?_⟩, h.stop, h.saw,
    h.marked⟩
  simp [hitems]

theorem Sent.event (h : normalizer.Sent lines stop s) {event : SseEvent}
    (hevent : normalizer.Carried line [event]) : normalizer.Sent (lines ++ [line]) stop
      { s with trace := s.trace ++ [.event event] } := by
  obtain ⟨sent, hsent, hitems⟩ := h.items
  refine ⟨⟨sent ++ [[event]], rel_append hsent (.cons hevent .nil), ?_⟩, h.stop, h.saw, ?_⟩
  · rw [itemsOf] at hitems
    simp [itemsOf, hitems, StreamAction.item?]
  · simp [h.marked, StreamAction.mark?]

theorem Sent.noteMessageStop (h : normalizer.Sent lines stop s) (hsaw : s.sawEvent = true)
    (hdata : normalizer.payload line = some data) {E : Halt → NormalizerState → Prop} :
    Ensures (noteMessageStop line.1 (data.text? "type"))
      (fun _ => normalizer.Sent lines (stop || normalizer.stops line)) E s := by
  simp only [AnthropicNormalizer.noteMessageStop, stops, hdata, Option.any_some]
  split_ifs with hstop
  · obtain ⟨sent, hsent, hitems⟩ := h.items
    rw [decide_eq_true hstop, Bool.or_true]
    refine ⟨⟨sent, hsent, by simp [itemsOf, StreamAction.item?, ← hitems]⟩, rfl, fun _ => hsaw, ?_⟩
    cases stop <;> simp [h.marked, StreamAction.mark?]
  · rw [decide_eq_false hstop, Bool.or_false]
    exact h

/-- A line is passed on, and ends the stream if the message has ended, unless it is left out. -/
abbrev Passes (normalizer : AnthropicNormalizer) (lines : List FramedLine) (stop : Bool)
    (line : FramedLine) (x : NormalizerM Unit) : NormalizerState → Prop :=
  Ensures x (fun _ t => normalizer.ends line = false ∧
      normalizer.Sent (lines ++ [line]) (stop || normalizer.stops line) t)
    (fun e t => e = .returned ∧ (stop || normalizer.stops line) = true ∧
      normalizer.Sent (lines ++ [line]) true t)

theorem Sent.forward (h : normalizer.Sent lines (stop || normalizer.stops line) s)
    (hdata : normalizer.payload line = some data) {json : Json} (hjson : normalizer.Carried line
      [eventWithMetadata line.1 (normalizer.eventName line) (normalizer.writer.write json)]) :
    Passes normalizer lines stop line (normalizer.forward line.1 (data.text? "type") json) s := by
  refine (h.forgetBlock _ _).bind fun _ t ht => ?_
  have hevent := ht.event hjson
  rw [eventName, hdata, Option.bind_some] at hevent
  change Ensures (if t.sawMessageStop then throw Halt.returned else pure ()) ..
  rw [ht.stop]
  cases hstop : stop || normalizer.stops line with
  | false =>
    rw [hstop] at hevent
    exact ⟨by simp [ends, (Bool.or_eq_false_iff.mp hstop).2], hevent⟩
  | true =>
    rw [hstop] at hevent
    exact ⟨rfl, rfl, hevent⟩

theorem Sent.relayJson (h : normalizer.Sent lines stop s)
    (hdata : normalizer.payload line = some data) :
    Passes normalizer lines stop line (normalizer.relayJson line.1 data) s := by
  refine (h.noteUsage data).bind fun _ t ht => ?_
  have hsaw : normalizer.Sent lines stop { t with sawEvent := true } :=
    ht.congr rfl rfl fun _ => rfl
  refine (hsaw.noteMessageStop rfl hdata).bind fun _ t ht =>
    (ht.noteBlockStart _ _).bind fun _ t ht =>
    (ht.noteText _ _).bind fun _ t ht =>
    (ht.noteStopReason _ _).bind fun _ t ht => ?_
  rw [withoutRepetition, ensures_bind, ensures_bind, ensures_get]
  cases hrepeat : normalizer.repeatable t (data.text? "type") data with
  | none =>
    have hwhole := @Carried.whole normalizer line
    rw [passed, hdata] at hwhole
    exact ht.forward hdata hwhole
  | some found =>
    have hrepeats : normalizer.repeats line = true := by
      rw [repeatable] at hrepeat
      split at hrepeat
      · split_ifs at hrepeat with hall
        simp only [Bool.and_eq_true] at hall
        simp [repeats, hdata, hall.1]
      · cases hrepeat
    have hseen : ∀ seen, normalizer.Sent lines (stop || normalizer.stops line)
        { t with textSeen := seen } := fun _ => ht.congr rfl rfl id
    dsimp only
    rw [ensures_bind, ensures_modify, ensures_pure]
    split_ifs
    · exact ⟨by simp [ends, hrepeats], (hseen _).skip hrepeats⟩
    · exact (hseen _).forward hdata (.shortened hrepeats _)

theorem Sent.relayLine (h : normalizer.Sent lines stop s) (line : FramedLine) :
    Passes normalizer lines stop line (normalizer.relayLine line.1 line.2) s := by
  rw [AnthropicNormalizer.relayLine]
  cases hdata : normalizer.payload line with
  | none =>
    have hwhole : normalizer.Carried line [normalizer.passed line] := .whole
    have hevent := h.event hwhole
    have hpassed : normalizer.passed line =
        eventWithMetadata line.1 (line.1.event.getD "message") line.2 := by
      simp [passed, eventName, hdata]
    have hstops : normalizer.stops line = false := by simp [stops, hdata]
    have hends : normalizer.ends line = false := by simp [ends, hstops]
    rw [hpassed] at hevent
    rw [Passes, hstops, Bool.or_false]
    split_ifs with hdone
    · exact ⟨hends, hdone ▸ hevent⟩
    · rw [payload, if_neg hdone] at hdata
      rw [hdata]
      exact ⟨hends, hevent.congr rfl rfl fun _ => rfl⟩
  | some data =>
    have hjson := h.relayJson hdata
    rw [payload] at hdata
    split_ifs at hdata with hdone
    rw [if_neg hdone, hdata]
    exact hjson

/-! ## Whole streams -/

/-- The items up to the first with a property. -/
def upTo {α : Type} (p : α → Bool) : List α → List α
  | [] => []
  | x :: xs => x :: if p x then [] else upTo p xs

section

variable {α : Type} {p : α → Bool} {xs : List α}

theorem upTo_append (h : ∀ x ∈ xs, p x = false) (ys : List α) :
    upTo p (xs ++ ys) = xs ++ upTo p ys := by
  induction xs with
  | nil => rfl
  | cons x xs ih =>
    obtain ⟨hx, hxs⟩ := forall_mem_cons.mp h
    rw [cons_append, upTo, ih hxs, hx, cons_append]
    rfl

theorem prefix_upTo (h : ∀ x ∈ xs, p x = false) : xs <+: upTo p xs :=
  ⟨[], by simpa [upTo] using (upTo_append h []).symm⟩

theorem upTo_append_of_any (h : xs.any p = true) (ys : List α) : upTo p (xs ++ ys) = upTo p xs := by
  induction xs with
  | nil => cases h
  | cons x xs ih =>
    rw [cons_append, upTo, upTo]
    split_ifs with hx
    · rfl
    · rw [ih (by simpa [hx] using h)]

theorem upTo_prefix_self (p : α → Bool) (xs : List α) : upTo p xs <+: xs := by
  induction xs with
  | nil => exact prefix_rfl
  | cons x xs ih =>
    rw [upTo]
    split_ifs
    · exact (prefix_cons_inj x).mpr ⟨_, rfl⟩
    · exact (prefix_cons_inj x).mpr ih

theorem upTo_eq (p : α → Bool) (xs : List α) :
    upTo p xs = xs.takeWhile (!p ·) ++ (xs.find? p).toList := by
  induction xs with
  | nil => rfl
  | cons x xs ih => cases hx : p x <;> simp [upTo, hx, ih]

end

/-- The end of a stream. The lines were passed on at least up to the first `message_stop` and at
most up to the first that nothing comes after, and an error follows without a `message_stop`. -/
def Ends (normalizer : AnthropicNormalizer) (lines : List FramedLine)
    (trace : List (StreamAction SseEvent)) : Prop :=
  ∃ taken sent closing, upTo normalizer.stops lines <+: taken ∧
    taken <+: upTo normalizer.ends lines ∧
    Forall₂ normalizer.Carried taken sent ∧ itemsOf trace = (sent.flatten ++ closing).map .ok ∧
    if lines.any normalizer.stops then
      closing = [] ∧ trace.findSome? StreamAction.mark? = some .completed
    else ∃ error, closing = [(anthropicErrorEvent error).sse normalizer.writer] ∧
      trace.findSome? StreamAction.mark? = some (.failed error.display)

theorem framedLines_append {before : SseFrameStream} (h : ∀ item ∈ before, item.isOk = true)
    (after : SseFrameStream) :
    framedLines (before ++ after) = framedLines before ++ framedLines after := by
  induction before with
  | nil => rfl
  | cons item before ih =>
    obtain ⟨hitem, hbefore⟩ := forall_mem_cons.mp h
    cases item with
    | error e => cases hitem
    | ok frame => rw [cons_append, framedLines, framedLines, ih hbefore, append_assoc]

/-- A loop over frames that takes their lines one by one, and is left when the upstream fails. -/
theorem ensures_forIn_framedLines {σ : Type} {frames : SseFrameStream} {s : σ}
    {relayItem : Except AppError SseFrame → EStateM Halt σ Unit}
    {relayLine : SseFrame → String → EStateM Halt σ Unit} {I : List FramedLine → σ → Prop}
    {E : Halt → σ → Prop}
    (hitem : ∀ frame, relayItem (.ok frame) =
      do for line in frame.dataLines do relayLine frame line)
    (h : I [] s)
    (hline : ∀ behind line after t, framedLines frames = behind ++ line :: after → I behind t →
      Ensures (relayLine line.1 line.2) (fun _ => I (behind ++ [line])) E t)
    (herror : ∀ error t, I (framedLines frames) t →
      Ensures (relayItem (.error error)) (fun _ _ => False) E t) :
    Ensures (forIn frames .unit fun item _ => do relayItem item; pure (.yield PUnit.unit))
      (fun _ => I (framedLines frames)) E s := by
  refine (ensures_forIn_yield (I := fun before t => (∀ item ∈ before, item.isOk = true) ∧
      I (framedLines before) t) ⟨nofun, h⟩ fun before item after t hsplit ⟨hok, ht⟩ => ?_).imp
    fun _ _ ht => ht.2
  have hframes := hsplit ▸ framedLines_append hok _
  cases item with
  | error error =>
    rw [← hframes.trans (append_nil _)] at ht
    exact (herror error t ht).imp fun _ _ hfalse => hfalse.elim
  | ok frame =>
    have hlines : framedLines (before ++ [.ok frame]) =
        framedLines before ++ frame.dataLines.map (frame, ·) :=
      (framedLines_append hok _).trans (congrArg _ (append_nil _))
    rw [hitem, hlines]
    refine (ensures_for (I := fun behind t => I (framedLines before ++ behind.map (frame, ·)) t)
        (by simpa using ht) fun behind line rest u hrest hu => ?_).imp
      fun _ u hu => ⟨forall_mem_append.mpr ⟨hok, forall_mem_singleton.mpr rfl⟩, hu⟩
    rw [map_append, ← append_assoc]
    refine hline _ (frame, line) (rest.map (frame, ·) ++ framedLines after) u ?_ hu
    rw [hframes, framedLines, hrest]
    simp

theorem Sent.ends {taken : List FramedLine} (h : normalizer.Sent taken true s)
    (hstops : upTo normalizer.stops lines <+: taken) (hends : taken <+: upTo normalizer.ends lines)
    (hany : lines.any normalizer.stops = true) : normalizer.Ends lines s.trace := by
  obtain ⟨sent, hsent, hitems⟩ := h.items
  refine ⟨taken, sent, [], hstops, hends, hsent, by simp [hitems], ?_⟩
  rw [if_pos hany]
  exact ⟨rfl, h.marked⟩

theorem Sent.fail (h : normalizer.Sent lines false s)
    (hends : lines <+: upTo normalizer.ends lines) (hany : lines.any normalizer.stops = false)
    (error : AppError) {Q : Unit → NormalizerState → Prop} : Ensures (normalizer.fail error) Q
      (fun e t => e = .returned ∧ normalizer.Ends lines t.trace) s := by
  obtain ⟨sent, hsent, hitems⟩ := h.items
  rw [itemsOf] at hitems
  refine ⟨rfl, lines, sent, [(anthropicErrorEvent error).sse normalizer.writer],
    upTo_prefix_self _ _, hends, hsent, ?_, ?_⟩
  · simp [itemsOf, hitems, StreamAction.item?, filterMap_cons]
  · rw [hany]
    exact ⟨error, rfl, by simp [h.marked, StreamAction.mark?, findSome?_cons]⟩

theorem ensures_run (frames : SseFrameStream) :
    Ensures (normalizer.run frames) (fun _ t => normalizer.Ends (framedLines frames) t.trace)
      (fun e t => e = .returned ∧ normalizer.Ends (framedLines frames) t.trace) {} := by
  refine (ensures_forIn_framedLines (I := fun lines t =>
      (∀ line ∈ lines, normalizer.ends line = false) ∧
        normalizer.Sent lines (lines.any normalizer.stops) t)
    (fun _ => rfl) ⟨nofun, ⟨[], .nil, rfl⟩, rfl, nofun, rfl⟩
    (fun behind line after t hsplit ⟨hseen, ht⟩ => ?_)
    fun error t ⟨hseen, ht⟩ => ?_).bind fun _ t ⟨hseen, ht⟩ => ?_
  · refine (ht.relayLine line).mono (fun _ u ⟨hends, hu⟩ =>
        ⟨forall_mem_append.mpr ⟨hseen, forall_mem_singleton.mpr hends⟩, by simpa using hu⟩)
      fun e u ⟨he, hstop, hu⟩ => ⟨he, hu.ends ?_ ?_ ?_⟩
    · rw [hsplit, append_cons, upTo_append_of_any (by simpa using hstop)]
      exact upTo_prefix_self _ _
    · rw [hsplit, upTo_append hseen, upTo]
      exact (prefix_append_right_inj _).mpr ((prefix_cons_inj line).mpr ⟨_, rfl⟩)
    · simp only [hsplit, any_append, any_cons, ← Bool.or_assoc, hstop, Bool.true_or]
  · rw [ensures_bind, ensures_get, ht.stop]
    cases hstop : (framedLines frames).any normalizer.stops with
    | false =>
      rw [Bool.not_false, Bool.or_true]
      exact (hstop ▸ ht).fail (prefix_upTo hseen) hstop _
    | true =>
      rw [ht.saw hstop]
      exact (hstop ▸ ht).ends (upTo_prefix_self _ _) (prefix_upTo hseen) hstop
  · rw [relayItem, ensures_bind, ensures_get, ht.stop]
    cases hstop : (framedLines frames).any normalizer.stops with
    | false => exact (hstop ▸ ht).fail (prefix_upTo hseen) hstop error
    | true => exact ⟨rfl, (hstop ▸ ht).ends (upTo_prefix_self _ _) (prefix_upTo hseen) hstop⟩

section

variable (hoff : normalizer.deduplicateStreamText = false)

include hoff

theorem repeats_eq_false (line : FramedLine) : normalizer.repeats line = false := by
  rw [repeats, hoff, Bool.false_and]

theorem ends_eq_stops : normalizer.ends = normalizer.stops := by
  funext line
  rw [ends, repeats_eq_false hoff, Bool.not_false, Bool.and_true]

theorem flatten_of_carried {sent : List (List SseEvent)}
    (h : Forall₂ normalizer.Carried lines sent) : sent.flatten = lines.map normalizer.passed := by
  induction h with
  | nil => rfl
  | cons hcarried _ ih =>
    cases hcarried with
    | whole => rw [flatten_cons, ih, map_cons, singleton_append]
    | shortened hrepeats | dropped hrepeats => simp [repeats_eq_false hoff] at hrepeats

/-- With nothing left out, the lines are passed on up to the first `message_stop`. -/
theorem Ends.items {trace : List (StreamAction SseEvent)} (h : normalizer.Ends lines trace) :
    let stop := lines.find? normalizer.stops
    ∃ error, itemsOf trace = ((lines.takeWhile (!normalizer.stops ·)).map normalizer.passed ++
        [stop.elim ((anthropicErrorEvent error).sse normalizer.writer) normalizer.passed]).map .ok ∧
      trace.findSome? StreamAction.mark? =
        some (stop.elim (.failed error.display) fun _ => .completed) := by
  intro stop
  obtain ⟨taken, sent, closing, hstops, hends, hsent, hitems, hclosing⟩ := h
  rw [ends_eq_stops hoff] at hends
  rw [flatten_of_carried hoff hsent, hends.eq_of_length_le hstops.length_le, upTo_eq] at hitems
  rw [← isSome_find?] at hclosing
  cases hstop : lines.find? normalizer.stops with
  | none =>
    rw [hstop] at hitems hclosing
    obtain ⟨error, rfl, hmarked⟩ := hclosing
    exact ⟨error, by simpa [stop, hstop] using hitems, by simpa [stop, hstop] using hmarked⟩
  | some line =>
    rw [hstop] at hitems hclosing
    obtain ⟨rfl, hmarked⟩ := hclosing
    exact ⟨.auth, by simpa [stop, hstop] using hitems, by simpa [stop, hstop] using hmarked⟩

end

end AnthropicNormalizer

end RouteSmith.Model
