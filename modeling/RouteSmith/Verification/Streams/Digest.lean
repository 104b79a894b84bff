import Mathlib.Data.List.Induction
import RouteSmith.Model.Providers.OpenAiStream

/-! # What an upstream stream says

The choices that are read from the frames of an OpenAI-compatible upstream, how the reading ends,
and the text, the finish reason and the tool calls that those choices describe, whatever is
emitted for them.
-/

namespace RouteSmith.Model

open Text List

/-! ## Reading -/

/-- What ends the reading of an upstream before its frames do: `[DONE]` or a finish reason, a line
that is no chunk, or an error of the transport. -/
inductive Ending where
  | terminated
  | invalid (data : String)
  | transport (error : AppError)

def OpenAiStreamChunk.finishes (chunk : OpenAiStreamChunk) : Bool :=
  chunk.choices.any (·.finishReason.isSome)

/-- What was read: the choices, and the end where it was met. -/
structure Reading where
  choices : List OpenAiStreamChoice := []
  ending : Option Ending := none

namespace Reading

/-- One more data line. -/
def line (decode : String → Option OpenAiStreamChunk) (r : Reading) (data : String) : Reading :=
  if r.ending.isSome then r
  else if data = "[DONE]" then { r with ending := some .terminated }
  else
    match decode data with
    | none => { r with ending := some (.invalid data) }
    | some chunk =>
      { choices := r.choices ++ chunk.choices
        ending := if chunk.finishes then some .terminated else none }

/-- One more item of the upstream. -/
def frame (decode : String → Option OpenAiStreamChunk) (r : Reading) :
    Except AppError SseFrame → Reading
  | .ok frame => frame.dataLines.foldl (line decode) r
  | .error error => if r.ending.isSome then r else { r with ending := some (.transport error) }

variable {decode : String → Option OpenAiStreamChunk} {r : Reading}

theorem line_of_ending_eq_none (h : r.ending = none) (data : String) : r.line decode data =
      if data = "[DONE]" then { r with ending := some .terminated }
      else
        match decode data with
        | none => { r with ending := some (.invalid data) }
        | some chunk =>
          { choices := r.choices ++ chunk.choices
            ending := if chunk.finishes then some .terminated else none } := by
  rw [line, h]
  rfl

theorem frame_error_of_ending_eq_none (h : r.ending = none) (error : AppError) :
    r.frame decode (.error error) = { r with ending := some (.transport error) } := by
  rw [frame, h]
  rfl

/-- A later reading keeps the choices, and adds nothing once the end was met. -/
structure Extends (r t : Reading) : Prop where
  choices : r.choices <+: t.choices
  eq_of_ending : r.ending.isSome = true → t = r

theorem Extends.refl (r : Reading) : Extends r r := ⟨prefix_refl _, fun _ => rfl⟩

theorem Extends.trans {r t u : Reading} (h : Extends r t) (h' : Extends t u) : Extends r u where
  choices := h.choices.trans h'.choices
  eq_of_ending hending := by
    obtain rfl := h.eq_of_ending hending
    exact h'.eq_of_ending hending

theorem Extends.foldl {α : Type} {f : Reading → α → Reading} (hf : ∀ r x, Extends r (f r x))
    (r : Reading) (xs : List α) : Extends r (xs.foldl f r) := by
  induction xs generalizing r with
  | nil => exact refl r
  | cons x xs ih => exact (hf r x).trans (ih _)

theorem Extends.foldl_of_split {α : Type} {f : Reading → α → Reading}
    (hf : ∀ r x, Extends r (f r x)) (r : Reading) {xs before after : List α} {x : α}
    (hxs : xs = before ++ x :: after) : Extends (f (before.foldl f r) x) (xs.foldl f r) := by
  rw [hxs, foldl_append]
  exact foldl hf _ _

theorem extends_line (decode : String → Option OpenAiStreamChunk) (r : Reading) (data : String) :
    Extends r (r.line decode data) := by
  cases hending : r.ending with
  | some =>
    rw [line, hending]
    exact .refl r
  | none =>
    refine ⟨?_, by simp [hending]⟩
    rw [line_of_ending_eq_none hending]
    split_ifs
    · exact prefix_refl _
    · split
      · exact prefix_refl _
      · exact prefix_append ..

theorem extends_frame (decode : String → Option OpenAiStreamChunk) (r : Reading)
    (item : Except AppError SseFrame) : Extends r (r.frame decode item) := by
  cases item with
  | ok => exact .foldl (extends_line decode) r _
  | error =>
    rw [frame]
    split_ifs with hending
    · exact .refl r
    · exact ⟨prefix_refl _, (absurd · hending)⟩

end Reading

/-- The reading of all frames of an upstream. -/
def readFrames (decode : String → Option OpenAiStreamChunk)
    (frames : List (Except AppError SseFrame)) : Reading :=
  frames.foldl (Reading.frame decode) {}

/-! ## Digests -/

/-- The text seen, the tool fragments handled and the last finish reason. -/
structure Digest where
  text : String := ""
  fragments : List ToolFragment := []
  finishReason : Option String := none

/-- Content that adds no text to what was seen hides the tool fragments beside it. -/
def Digest.add (deduplicate : Bool) (d : Digest) (choice : OpenAiStreamChoice) : Digest :=
  let finishReason := choice.finishReason.or d.finishReason
  match choice.delta.content with
  | none => ⟨d.text, d.fragments ++ choice.delta.fragments, finishReason⟩
  | some content =>
    let read := textDelta d.text content deduplicate
    ⟨read.2, d.fragments ++ (if isEmpty read.1 then [] else choice.delta.fragments), finishReason⟩

def digest (deduplicate : Bool) (choices : List OpenAiStreamChoice) : Digest :=
  choices.foldl (Digest.add deduplicate) {}

theorem digest_append (deduplicate : Bool) (choices choices' : List OpenAiStreamChoice) :
    digest deduplicate (choices ++ choices') =
      choices'.foldl (.add deduplicate) (digest deduplicate choices) :=
  foldl_append

theorem Digest.fragments_add (deduplicate : Bool) (d : Digest) (choice : OpenAiStreamChoice) :
    d.fragments <+: (d.add deduplicate choice).fragments := by
  rw [add]
  split
  · exact prefix_append ..
  · exact prefix_append ..

theorem Digest.fragments_foldl (deduplicate : Bool) (d : Digest)
    (choices : List OpenAiStreamChoice) :
    d.fragments <+: (choices.foldl (add deduplicate) d).fragments := by
  induction choices generalizing d with
  | nil => exact prefix_refl _
  | cons choice _ ih => exact (fragments_add deduplicate d choice).trans (ih _)

theorem Reading.Extends.fragments {r t : Reading} (h : r.Extends t) (deduplicate : Bool) :
    (digest deduplicate r.choices).fragments <+: (digest deduplicate t.choices).fragments := by
  obtain ⟨_, hrest⟩ := h.choices
  rw [← hrest, digest_append]
  exact Digest.fragments_foldl ..

/-! ## Tool calls -/

/-- The tool calls that fragments describe; only the block indices are left open. -/
def collectTools (deduplicate : Bool) (fragments : List ToolFragment) :
    Std.TreeMap ℕ ToolState :=
  fragments.foldl (fun tools fragment =>
    tools.insert fragment.key
      (((tools[fragment.key]?).getD { index := 0 }).take fragment deduplicate)) ∅

theorem collectTools_append_singleton (deduplicate : Bool) (fragments : List ToolFragment)
    (fragment : ToolFragment) :
    collectTools deduplicate (fragments ++ [fragment]) =
      (collectTools deduplicate fragments).insert fragment.key
        ((((collectTools deduplicate fragments)[fragment.key]?).getD { index := 0 }).take
          fragment deduplicate) :=
  foldl_append

@[simp] theorem ToolState.name_take (state : ToolState) (fragment : ToolFragment)
    (deduplicate : Bool) :
    (state.take fragment deduplicate).name = fragment.name.or state.name := by
  rw [take]
  split
  · rfl
  · rw [ingestToolArguments]
    split_ifs <;> rfl

@[simp] theorem ToolState.started_take (state : ToolState) (fragment : ToolFragment)
    (deduplicate : Bool) : (state.take fragment deduplicate).started = state.started := by
  rw [take]
  split
  · rfl
  · rw [ingestToolArguments]
    split_ifs <;> rfl

variable {fragments : List ToolFragment} {policy : ToolResponsePolicy}

/-- A call is without a name as long as no fragment of it brings one. -/
theorem name_collectTools_eq_none (deduplicate : Bool) {key : ℕ} :
    (collectTools deduplicate fragments)[key]?.bind ToolState.name = none ↔
      ∀ fragment ∈ fragments, fragment.key = key → fragment.name = none := by
  induction fragments using reverseRecOn with
  | nil => simp [collectTools]
  | append_singleton fragments fragment ih =>
    rw [collectTools_append_singleton, Std.TreeMap.getElem?_insert]
    simp only [forall_mem_append, forall_mem_singleton, ← ih]
    by_cases hkey : fragment.key = key
    · subst hkey
      cases (collectTools deduplicate fragments)[fragment.key]? <;> simp [and_comm]
    · simp [hkey]

/-- The first name a call is given is one the policy does not accept. -/
def NameRejected (policy : ToolResponsePolicy) (fragments : List ToolFragment) : Prop :=
  ∃ before fragment after name, fragments = before ++ fragment :: after ∧
    fragment.name = some name ∧ (policy.validateName (some name)).isOk = false ∧
    ∀ earlier ∈ before, earlier.key = fragment.key → earlier.name = none

theorem NameRejected.mono {all : List ToolFragment} (h : NameRejected policy fragments)
    (hfragments : fragments <+: all) : NameRejected policy all := by
  obtain ⟨before, fragment, after, name, rfl, hname⟩ := h
  obtain ⟨rest, rfl⟩ := hfragments
  exact ⟨before, fragment, after ++ rest, name, by simp, hname⟩

theorem nameRejected_append_singleton {fragment : ToolFragment} :
    NameRejected policy (fragments ++ [fragment]) ↔ NameRejected policy fragments ∨
      ∃ name, fragment.name = some name ∧ (policy.validateName (some name)).isOk = false ∧
        ∀ earlier ∈ fragments, earlier.key = fragment.key → earlier.name = none := by
  constructor
  · rintro ⟨before, f, after, name, hsplit, hname⟩
    rcases eq_nil_or_concat after with rfl | ⟨after, _, rfl⟩
    · obtain ⟨rfl, h⟩ := append_inj' hsplit rfl
      cases h
      exact .inr ⟨name, hname⟩
    · rw [concat_eq_append, ← cons_append, ← append_assoc] at hsplit
      obtain ⟨rfl, -⟩ := append_inj' hsplit rfl
      exact .inl ⟨before, f, after, name, rfl, hname⟩
  · rintro (h | ⟨name, hname⟩)
    · exact h.mono (prefix_append ..)
    · exact ⟨fragments, fragment, [], name, by simp, hname⟩

/-- A call as the upstream describes it: without its block, and without the arguments that wait
to be sent, unless they are kept to the end. -/
def ToolState.described (deduplicate : Bool) (state : ToolState) : ToolState :=
  { state with
    index := 0
    started := false
    pendingArguments := if deduplicate then state.pendingArguments else "" }

theorem ToolState.described_take_congr {deduplicate : Bool} {a b : ToolState}
    (h : a.described deduplicate = b.described deduplicate) (fragment : ToolFragment) :
    (a.take fragment deduplicate).described deduplicate =
      (b.take fragment deduplicate).described deduplicate := by
  cases deduplicate <;> cases harguments : fragment.arguments <;>
    simp_all [take, described, ingestToolArguments] <;> split_ifs <;> simp_all

/-- Calls that are described alike, key by key, are described alike in order. -/
theorem map_toolStates_congr {α : Type} {f : ToolState → α} {tools tools' : Std.TreeMap ℕ ToolState}
    (h : ∀ key : ℕ, (tools[key]?).map f = (tools'[key]?).map f) :
    (toolStates tools).map f = (toolStates tools').map f := by
  have hequiv : (tools.map fun _ => f).Equiv (tools'.map fun _ => f) :=
    .of_forall_constGet?_eq fun _ => by
      rw [Std.TreeMap.getElem?_map, Std.TreeMap.getElem?_map, h]
  have hlists := congrArg (map Prod.snd) hequiv.toList_eq
  rw [Std.TreeMap.toList_map, Std.TreeMap.toList_map, map_map, map_map] at hlists
  rw [toolStates, toolStates, map_map, map_map]
  exact hlists

end RouteSmith.Model
