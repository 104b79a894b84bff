import Mathlib.Data.List.Induction
import RouteSmith.Model.Providers.OpenAiStream

/-! # The client of an Anthropic stream

A client puts the message together event by event, and refuses an event that does not fit what
came before it. The streams that it accepts to the end are the well-formed ones.
-/

namespace RouteSmith.Model

open List
open Option hiding all_eq_true

inductive BlockKind where
  | text
  | toolUse (id name : String)
  deriving DecidableEq

structure Block where
  kind : BlockKind
  content : String := ""
  closed : Bool := false
  deriving DecidableEq

/-- The message as far as it is put together. -/
structure Assembled where
  started : Bool := false
  blocks : Std.TreeMap ℕ Block := ∅
  stopReason : Option String := none
  stopped : Bool := false

namespace Assembled

/-- Whether events of blocks are in place. -/
def live (m : Assembled) : Bool := m.started && m.stopReason.isNone

def put (m : Assembled) (i : ℕ) (b : Block) : Assembled :=
  { m with blocks := m.blocks.insert i b }

def openBlock (m : Assembled) (i : ℕ) (kind : BlockKind) : Option Assembled :=
  if m.live && (m.blocks[i]?).isNone then some (m.put i { kind }) else none

/-- The open block at an index, where its kind is as expected. -/
def block? (m : Assembled) (i : ℕ) (expected : BlockKind → Bool) : Option Block :=
  (m.blocks[i]?).filter fun b => m.live && !b.closed && expected b.kind

def extend (m : Assembled) (i : ℕ) (content : String) (expected : BlockKind → Bool) :
    Option Assembled :=
  (m.block? i expected).map fun b => m.put i { b with content := b.content ++ content }

def allClosed (m : Assembled) : Bool := m.blocks.toList.all (·.2.closed)

def take (m : Assembled) : AnthropicEvent → Option Assembled
  | .messageStart _ _ => if m.started then none else some { m with started := true }
  | .textBlockStart i => m.openBlock i .text
  | .toolUseBlockStart i id name => m.openBlock i (.toolUse id name)
  | .textDelta i text => m.extend i text (· = .text)
  | .inputJsonDelta i partialJson => m.extend i partialJson (· ≠ .text)
  | .contentBlockStop i => (m.block? i fun _ => true).map fun b => m.put i { b with closed := true }
  | .messageDelta reason =>
    if m.live && m.allClosed then some { m with stopReason := some reason } else none
  | .messageStop =>
    if m.stopReason.isSome && !m.stopped then some { m with stopped := true } else none
  | .error _ _ => none

end Assembled

def assemble (events : List AnthropicEvent) : Option Assembled := events.foldlM Assembled.take {}

variable {events : List AnthropicEvent} {m : Assembled} {i : ℕ} {b : Block}

theorem assemble_append_singleton (h : assemble events = some m) (event : AnthropicEvent) :
    assemble (events ++ [event]) = m.take event := by
  rw [assemble] at h
  rw [assemble, foldlM_append, h]
  simp

namespace Assembled

variable {m m' : Assembled} {i j : ℕ} {b : Block}

@[simp] theorem put_self : (m.put i b).blocks[i]? = some b := Std.TreeMap.getElem?_insert_self

theorem put_of_ne (h : j ≠ i) : (m.put i b).blocks[j]? = m.blocks[j]? := by
  simp [put, Std.TreeMap.getElem?_insert, h.symm]

theorem put_blocks (j : ℕ) : (m.put i b).blocks[j]? = if j = i then some b else m.blocks[j]? := by
  split_ifs with h
  · rw [h, put_self]
  · exact put_of_ne h

theorem openBlock_eq_some {kind : BlockKind} : m.openBlock i kind = some m' ↔
      m.live = true ∧ m.blocks[i]? = none ∧ m' = m.put i { kind } := by
  rw [openBlock, ite_none_right_eq_some]
  simp only [Bool.and_eq_true, isNone_iff_eq_none, some.injEq, and_assoc, eq_comm (a := m')]

theorem block?_eq_some {expected : BlockKind → Bool} :
    m.block? i expected = some b ↔ m.blocks[i]? = some b ∧ m.live = true ∧ b.closed = false ∧
      expected b.kind = true := by
  simp [block?, and_assoc]

theorem allClosed_iff :
    m.allClosed = true ↔ ∀ (i : ℕ) b, m.blocks[i]? = some b → b.closed = true := by
  simp [allClosed]

end Assembled

/-! ## What a message holds -/

/-- A tool call as the client sees it. -/
structure ToolUse where
  id : String
  name : String
  arguments : String
  deriving DecidableEq

def Block.toolUse? (b : Block) : Option ToolUse :=
  match b.kind with
  | .toolUse id name => some ⟨id, name, b.content⟩
  | .text => none

def Block.text? (b : Block) : Option String :=
  match b.kind with
  | .toolUse _ _ => none
  | .text => some b.content

namespace Assembled

/-- What the blocks hold of one kind, in the order of their indices. -/
def collect {β : Type} (m : Assembled) (f : Block → Option β) : List β :=
  m.blocks.toList.filterMap fun p => f p.2

def text (m : Assembled) : String := String.join (m.collect Block.text?)

def toolUses (m : Assembled) : List ToolUse := m.collect Block.toolUse?

theorem collect_eq_map_snd {β : Type} {m : Assembled} {f : Block → Option β} {l : List (ℕ × β)}
    (hl : l.Pairwise fun p q => p.1 < q.1)
    (hmem : ∀ i x, (i, x) ∈ l ↔ ∃ b, m.blocks[i]? = some b ∧ f b = some x) :
    m.collect f = l.map Prod.snd := by
  let before : ℕ × β → ℕ × β → Prop := fun p q => p.1 < q.1
  let pairs := m.blocks.toList.filterMap fun p => (f p.2).map (p.1, ·)
  have hpairs : pairs.Pairwise before := by
    refine pairwise_filterMap.mpr (Std.TreeMap.ordered_keys_toList.imp fun hlt x hx y hy => ?_)
    obtain ⟨_, -, rfl⟩ := map_eq_some_iff.mp hx
    obtain ⟨_, -, rfl⟩ := map_eq_some_iff.mp hy
    exact Nat.compare_eq_lt.mp hlt
  have heq : pairs = l := hpairs.eq_of_mem_iff hl fun p => by
    rw [hmem]
    simp only [pairs, mem_filterMap, Prod.exists, Std.TreeMap.mem_toList_iff_getElem?_eq_some,
      map_eq_some_iff]
    constructor
    · rintro ⟨i, b, hb, x, hx, rfl⟩
      exact ⟨b, hb, hx⟩
    · rintro ⟨b, hb, hx⟩
      exact ⟨p.1, b, hb, p.2, hx, rfl⟩
  rw [← heq, map_filterMap]
  refine filterMap_congr fun p _ => ?_
  cases f p.2 <;> rfl

end Assembled

/-! ## Well-formed streams -/

def AnthropicEvent.blockIndex? : AnthropicEvent → Option ℕ
  | textBlockStart i | toolUseBlockStart i _ _ | textDelta i _ | inputJsonDelta i _
  | contentBlockStop i => some i
  | messageStart _ _ | messageDelta _ | messageStop | error _ _ => none

/-- The events of one block. -/
def eventsAt (i : ℕ) (events : List AnthropicEvent) : List AnthropicEvent :=
  events.filter (·.blockIndex? = some i)

namespace BlockKind

def start (i : ℕ) : BlockKind → AnthropicEvent
  | text => .textBlockStart i
  | toolUse id name => .toolUseBlockStart i id name

def delta (i : ℕ) : BlockKind → String → AnthropicEvent
  | text => .textDelta i
  | toolUse _ _ => .inputJsonDelta i

end BlockKind

theorem Assembled.take_delta {kind : BlockKind} {content : String}
    (h : m.blocks[i]? = some ⟨kind, content, false⟩) (hlive : m.live = true) (text : String) :
    m.take (kind.delta i text) = some (m.put i ⟨kind, content ++ text, false⟩) := by
  cases kind with
  | text | toolUse =>
    rw [BlockKind.delta, take, extend, block?_eq_some.mpr ⟨h, hlive, rfl, rfl⟩]; rfl

theorem Assembled.take_stop (h : m.blocks[i]? = some b) (hlive : m.live = true)
    (hopen : b.closed = false) :
    m.take (.contentBlockStop i) = some (m.put i { b with closed := true }) := by
  rw [take, block?_eq_some.mpr ⟨h, hlive, hopen, rfl⟩]
  rfl

/-- The message starts first and once; a block has one start, then deltas of its kind, then one
stop; the reason to stop and the end of the message follow the last block. -/
def WellFormed (events : List AnthropicEvent) : Prop :=
  ∃ id model body reason,
    events = .messageStart id model :: (body ++ [.messageDelta reason, .messageStop]) ∧
    (∀ event ∈ body, event.blockIndex?.isSome = true) ∧
    ∀ i, eventsAt i body = [] ∨ ∃ (kind : BlockKind) (contents : List String),
      eventsAt i body = kind.start i :: (contents.map (kind.delta i) ++ [.contentBlockStop i])

/-- The events of a block as far as it is put together. -/
def Block.Explains (b : Block) (i : ℕ) (events : List AnthropicEvent) : Prop :=
  ∃ contents : List String, b.content = String.join contents ∧
    events = b.kind.start i :: (contents.map (b.kind.delta i) ++
      if b.closed then [.contentBlockStop i] else [])

structure Assembled.Explains (m : Assembled) (body : List AnthropicEvent) : Prop where
  of_block : ∀ event ∈ body, event.blockIndex?.isSome = true
  absent : ∀ i : ℕ, m.blocks[i]? = none → eventsAt i body = []
  present : ∀ (i : ℕ) b, m.blocks[i]? = some b → b.Explains i (eventsAt i body)

/-- What the client has taken of the end of a message. -/
def Assembled.ending (m : Assembled) : List AnthropicEvent :=
  m.stopReason.toList.map .messageDelta ++ if m.stopped then [.messageStop] else []

/-- What the client has accepted to get where it is. -/
inductive Accepted : List AnthropicEvent → Assembled → Prop
  | nil : Accepted [] {}
  | started {m : Assembled} (id model : String) (body : List AnthropicEvent)
      (hstarted : m.started = true) (hbody : m.Explains body)
      (hclosed : m.stopReason.isSome = true → m.allClosed = true)
      (hstopped : m.stopped = true → m.stopReason.isSome = true) :
      Accepted (.messageStart id model :: (body ++ m.ending)) m

theorem eventsAt_append_singleton (i : ℕ) (body : List AnthropicEvent) (event : AnthropicEvent) :
    eventsAt i (body ++ [event]) =
      eventsAt i body ++ if event.blockIndex? = some i then [event] else [] := by
  rw [eventsAt, eventsAt]
  split_ifs with h
  · simp [h]
  · simp [h]

theorem Assembled.Explains.put {body : List AnthropicEvent} (h : m.Explains body)
    {event : AnthropicEvent} (hindex : event.blockIndex? = some i)
    (hb : b.Explains i (eventsAt i body ++ [event])) : (m.put i b).Explains (body ++ [event]) where
  of_block := forall_mem_append.mpr ⟨h.of_block, forall_mem_singleton.mpr (by rw [hindex]; rfl)⟩
  absent j hj := by
    rw [put_blocks] at hj
    split_ifs at hj with hne
    rw [eventsAt_append_singleton, hindex, if_neg (by simpa using Ne.symm hne), append_nil]
    exact h.absent j hj
  present j c hc := by
    rw [put_blocks] at hc
    rw [eventsAt_append_singleton, hindex]
    split_ifs at hc with heq
    · cases hc
      rw [heq, if_pos rfl]
      exact hb
    · rw [if_neg (by simpa using Ne.symm heq), append_nil]
      exact h.present j c hc

theorem Block.Explains.delta (h : b.Explains i events) (hopen : b.closed = false)
    (content : String) :
    Explains { b with content := b.content ++ content } i
      (events ++ [b.kind.delta i content]) := by
  obtain ⟨contents, hcontent, hevents⟩ := h
  refine ⟨contents ++ [content], ?_, ?_⟩
  · simp [hcontent]
  · simp [hevents, hopen]

theorem Block.Explains.close (h : b.Explains i events) (hopen : b.closed = false) :
    Explains { b with closed := true } i (events ++ [.contentBlockStop i]) := by
  obtain ⟨contents, hcontent, hevents⟩ := h
  exact ⟨contents, hcontent, by simp [hevents, hopen]⟩

namespace Accepted

variable {events : List AnthropicEvent} {m m' : Assembled} {event : AnthropicEvent}

theorem of_live (h : Accepted events m) (hlive : m.live = true) :
    m.stopReason = none ∧ m.stopped = false ∧ ∃ id model body,
      events = .messageStart id model :: body ∧ m.started = true ∧ m.Explains body := by
  cases h with
  | nil => cases hlive
  | started id model body hstarted hbody _ hstopped =>
    have hreason : m.stopReason = none := by simpa [Assembled.live, hstarted] using hlive
    have hstop : m.stopped = false := by simpa [hreason] using hstopped
    refine ⟨hreason, hstop, id, model, body, ?_, hstarted, hbody⟩
    simp [Assembled.ending, hreason, hstop]

theorem put (h : Accepted events m) (hlive : m.live = true) {i : ℕ} {b : Block}
    (hindex : event.blockIndex? = some i)
    (hb : ∀ body, m.Explains body → b.Explains i (eventsAt i body ++ [event])) :
    Accepted (events ++ [event]) (m.put i b) := by
  obtain ⟨hreason, hstop, id, model, body, rfl, hstarted, hbody⟩ := h.of_live hlive
  have hending : (m.put i b).ending = [] := by
    simp [Assembled.ending, Assembled.put, hreason, hstop]
  have haccepted := started (m := m.put i b) id model _ hstarted
    (hbody.put hindex (hb body hbody)) (by simp [Assembled.put, hreason])
    (by simp [Assembled.put, hstop])
  rwa [hending, append_nil] at haccepted

theorem openBlock (h : Accepted events m) {i : ℕ} {kind : BlockKind}
    (htake : m.openBlock i kind = some m') : Accepted (events ++ [kind.start i]) m' := by
  obtain ⟨hlive, hnone, rfl⟩ := Assembled.openBlock_eq_some.mp htake
  refine h.put hlive (by cases kind <;> rfl) fun _ hbody => ⟨[], by simp, ?_⟩
  rw [hbody.absent i hnone]
  simp

theorem extend (h : Accepted events m) {i : ℕ} {content : String} {expected : BlockKind → Bool}
    (hdelta : ∀ kind, expected kind = true → event = kind.delta i content)
    (htake : m.extend i content expected = some m') : Accepted (events ++ [event]) m' := by
  obtain ⟨b, hb, rfl⟩ := map_eq_some_iff.mp htake
  obtain ⟨hblock, hlive, hopen, hkind⟩ := Assembled.block?_eq_some.mp hb
  have hevent := hdelta _ hkind
  refine h.put hlive (by rw [hevent]; cases b.kind <;> rfl) fun _ hbody => ?_
  rw [hevent]
  exact (hbody.present i b hblock).delta hopen _

theorem take (h : Accepted events m) (htake : m.take event = some m') :
    Accepted (events ++ [event]) m' := by
  cases event with
  | messageStart id model =>
    rw [Assembled.take, ite_none_left_eq_some] at htake
    obtain ⟨hstarted, htake⟩ := htake
    cases htake
    cases h with
    | nil =>
      exact started (m := { started := true }) id _ [] rfl
        ⟨by simp, fun _ _ => rfl, fun i b hb => by simp at hb⟩ nofun nofun
    | started _ _ _ h => exact absurd h hstarted
  | textBlockStart | toolUseBlockStart => exact h.openBlock htake
  | textDelta =>
    refine h.extend (fun kind hkind => ?_) htake
    cases of_decide_eq_true hkind
    rfl
  | inputJsonDelta =>
    refine h.extend (fun kind hkind => ?_) htake
    cases kind with
    | text => cases hkind
    | toolUse => rfl
  | contentBlockStop i =>
    obtain ⟨b, hb, rfl⟩ := map_eq_some_iff.mp htake
    obtain ⟨hblock, hlive, hopen, -⟩ := Assembled.block?_eq_some.mp hb
    exact h.put hlive rfl fun body hbody => (hbody.present i b hblock).close hopen
  | messageDelta reason =>
    rw [Assembled.take, ite_none_right_eq_some, Bool.and_eq_true] at htake
    obtain ⟨⟨hlive, hclosed⟩, htake⟩ := htake
    cases htake
    obtain ⟨hreason, hstop, id, model, body, rfl, hstarted, hbody⟩ := h.of_live hlive
    have haccepted := started (m := { m with stopReason := some reason }) id model body
      hstarted ⟨hbody.of_block, hbody.absent, hbody.present⟩ (fun _ => hclosed) (by simp)
    simpa [Assembled.ending, hstop] using haccepted
  | messageStop =>
    rw [Assembled.take, ite_none_right_eq_some, Bool.and_eq_true] at htake
    obtain ⟨⟨hreason, hstop⟩, htake⟩ := htake
    have hstop : m.stopped = false := by simpa using hstop
    cases htake
    cases h with
    | nil => cases hreason
    | started id model body hstarted hbody hclosed _ =>
      have haccepted := started (m := { m with stopped := true }) id model body
        hstarted ⟨hbody.of_block, hbody.absent, hbody.present⟩ hclosed fun _ => hreason
      simpa [Assembled.ending, hstop] using haccepted
  | error => cases htake

end Accepted

theorem accepted_of_assemble (h : assemble events = some m) : Accepted events m := by
  induction events using reverseRecOn generalizing m with
  | nil =>
    cases h
    exact .nil
  | append_singleton _ _ ih =>
    rw [assemble, foldlM_append] at h
    obtain ⟨_, hm₀, htake⟩ := bind_eq_some_iff.mp h
    exact (ih hm₀).take (by simpa using htake)

theorem wellFormed_of_assemble (h : assemble events = some m) (hstopped : m.stopped = true) :
    WellFormed events := by
  cases accepted_of_assemble h with
  | nil => cases hstopped
  | started id model body _ hbody hclosed hreason =>
    obtain ⟨reason, hsome⟩ := isSome_iff_exists.mp (hreason hstopped)
    refine ⟨id, model, body, reason, by simp [Assembled.ending, hsome, hstopped], hbody.of_block,
      fun i => ?_⟩
    cases hb : m.blocks[i]? with
    | none => exact .inl (hbody.absent i hb)
    | some b =>
      obtain ⟨contents, -, hevents⟩ := hbody.present i b hb
      have hclosed := Assembled.allClosed_iff.mp (hclosed (hreason hstopped)) i b hb
      exact .inr ⟨b.kind, contents, by simpa [hclosed] using hevents⟩

theorem assemble_ending (h : assemble events = some m) (hlive : m.live = true)
    (hclosed : m.allClosed = true) (reason : String) :
    assemble (events ++ [.messageDelta reason, .messageStop]) =
      some { m with stopReason := some reason, stopped := true } := by
  obtain ⟨-, hstop, -⟩ := (accepted_of_assemble h).of_live hlive
  have hreason : assemble (events ++ [.messageDelta reason]) =
      some { m with stopReason := some reason } := by
    rw [assemble_append_singleton h, Assembled.take, hlive, hclosed]
    rfl
  rw [append_cons, assemble_append_singleton hreason, Assembled.take]
  simp [hstop]

/-! ## Streams that break off -/

theorem exists_closing (indices : List ℕ) (h : assemble events = some m) (hlive : m.live = true)
    (hopen : ∀ i b, m.blocks[i]? = some b → b.closed = false → i ∈ indices) :
    ∃ rest m', assemble (events ++ rest) = some m' ∧ m'.live = true ∧ m'.allClosed = true := by
  induction indices generalizing events m with
  | nil =>
    refine ⟨[], m, by rwa [append_nil], hlive, Assembled.allClosed_iff.mpr fun i b hb => ?_⟩
    by_contra hclosed
    simpa using hopen i b hb (by simpa using hclosed)
  | cons j _ ih =>
    cases hblock : m.block? j fun _ => true with
    | none =>
      refine ih h hlive fun i b hb hclosed => ?_
      rcases mem_cons.mp (hopen i b hb hclosed) with rfl | hmem
      · rw [Assembled.block?_eq_some.mpr ⟨hb, hlive, hclosed, rfl⟩] at hblock
        cases hblock
      · exact hmem
    | some b =>
      have hstop : assemble (events ++ [.contentBlockStop j]) =
          some (m.put j { b with closed := true }) := by
        rw [assemble_append_singleton h, Assembled.take, hblock]
        rfl
      obtain ⟨rest, m', hm', hdone⟩ := ih hstop hlive fun i c hc hclosed => by
        rw [Assembled.put_blocks] at hc
        split_ifs at hc with hij
        · cases hc
          cases hclosed
        · exact (mem_cons.mp (hopen i c hc hclosed)).resolve_left hij
      exact ⟨.contentBlockStop j :: rest, m', by simpa using hm', hdone⟩

/-- What the client has accepted before the end is the beginning of a well-formed stream. -/
theorem exists_wellFormed_append (h : assemble events = some m) (hreason : m.stopReason = none) :
    ∃ rest, WellFormed (events ++ rest) := by
  obtain ⟨opening, m₀, h₀, hlive₀⟩ : ∃ opening m₀, assemble (events ++ opening) = some m₀ ∧
      m₀.live = true := by
    cases hstarted : m.started with
    | true => exact ⟨[], m, by rwa [append_nil], by simp [Assembled.live, hstarted, hreason]⟩
    | false =>
      refine ⟨[.messageStart "" ""], { m with started := true }, ?_, by
        simp [Assembled.live, hreason]⟩
      rw [assemble_append_singleton h, Assembled.take, hstarted]
      rfl
  obtain ⟨closing, _, h₁, hlive₁, hclosed₁⟩ := exists_closing (m₀.blocks.toList.map Prod.fst) h₀
    hlive₀ fun i b hb _ =>
      mem_map.mpr ⟨(i, b), Std.TreeMap.mem_toList_iff_getElem?_eq_some.mpr hb, rfl⟩
  exact ⟨opening ++ (closing ++ [.messageDelta "end_turn", .messageStop]), by
    simpa using wellFormed_of_assemble (assemble_ending h₁ hlive₁ hclosed₁ "end_turn") rfl⟩

end RouteSmith.Model
