import RouteSmith.Verification.Streams.Digest

/-! # The calls that fragments describe

The calls of a stream in the order in which they first appear, and what is known of a call at the
moment it gets its name.
-/

namespace RouteSmith.Model

open List hiding isEmpty

/-- The keys of the fragments, each where it first appears. -/
def firstKeys (fragments : List ToolFragment) : List ℕ :=
  fragments.foldl (fun keys f => if f.key ∈ keys then keys else keys ++ [f.key]) []

theorem firstKeys_append_singleton (fragments : List ToolFragment) (f : ToolFragment) :
    firstKeys (fragments ++ [f]) =
      if f.key ∈ firstKeys fragments then firstKeys fragments
      else firstKeys fragments ++ [f.key] :=
  foldl_append

variable {fragments : List ToolFragment}

theorem mem_firstKeys {key : ℕ} : key ∈ firstKeys fragments ↔ ∃ f ∈ fragments, f.key = key := by
  induction fragments using reverseRecOn with
  | nil => simp [firstKeys]
  | append_singleton fragments f ih =>
    have hsplit : (∃ g ∈ fragments ++ [f], g.key = key) ↔
        key ∈ firstKeys fragments ∨ f.key = key := by
      simp [ih]
    rw [hsplit, firstKeys_append_singleton]
    split_ifs with hmem
    · exact ⟨.inl, fun h => h.elim id fun hkey => hkey ▸ hmem⟩
    · simp [eq_comm]

theorem firstKeys_eq_nil_iff : firstKeys fragments = [] ↔ fragments = [] := by
  simp [eq_nil_iff_forall_not_mem, mem_firstKeys]

theorem nodup_firstKeys (fragments : List ToolFragment) : (firstKeys fragments).Nodup := by
  induction fragments using reverseRecOn with
  | nil => simp [firstKeys]
  | append_singleton _ _ ih =>
    rw [firstKeys_append_singleton]
    split_ifs with hmem
    · exact ih
    · refine nodup_append.mpr ⟨ih, by simp, fun _ _ _ hkey' heq => hmem ?_⟩
      rwa [← mem_singleton.mp hkey', ← heq]

/-- The last identifier of a call, and the identifier and name it is opened with. -/
structure Opening where
  id : Option String := none
  opened : Option (Option String × String) := none

def Opening.take (o : Opening) (f : ToolFragment) : Opening where
  id := f.id.or o.id
  opened := o.opened.or (f.name.map (f.id.or o.id, ·))

/-- The identifier and the name that a block is opened with: those of the opening, or what is known
in the end. -/
def Opening.upstreamId (o : Opening) : Option String := o.opened.elim o.id (·.1)

def Opening.name (o : Opening) : Option String := o.opened.map (·.2)

def openingOf (fragments : List ToolFragment) (key : ℕ) : Opening :=
  (fragments.filter (·.key = key)).foldl Opening.take {}

theorem openingOf_append_singleton (fragments : List ToolFragment) (f : ToolFragment) (key : ℕ) :
    openingOf (fragments ++ [f]) key =
      if f.key = key then (openingOf fragments key).take f else openingOf fragments key := by
  rw [openingOf, filter_append, openingOf]
  split_ifs with h
  · simp [h]
  · simp [h]

theorem openingOf_of_notMem {key : ℕ} (h : key ∉ firstKeys fragments) :
    openingOf fragments key = {} := by
  rw [openingOf, filter_eq_nil_iff.mpr]
  · rfl
  · intro f hf hkey
    exact h (mem_firstKeys.mpr ⟨f, hf, by simpa using hkey⟩)

/-- The argument text that was sent for a call. -/
def argumentsOf (fragments : List ToolFragment) (key : ℕ) : String :=
  String.join ((fragments.filter (·.key = key)).filterMap (·.arguments))

theorem argumentsOf_append_singleton (fragments : List ToolFragment) (f : ToolFragment) (key : ℕ) :
    argumentsOf (fragments ++ [f]) key =
      if f.key = key then argumentsOf fragments key ++ f.arguments.getD ""
      else argumentsOf fragments key := by
  rw [argumentsOf, filter_append, argumentsOf]
  split_ifs with h
  · cases hf : f.arguments <;> simp [h, hf]
  · simp [h]

/-! ## Fragments in a state -/

namespace ToolState

open Text

variable (state : ToolState) (fragment : ToolFragment)

@[simp] theorem index_take (deduplicate : Bool) :
    (state.take fragment deduplicate).index = state.index := by
  rw [take]
  split
  · rfl
  · rw [ingestToolArguments]
    split_ifs <;> rfl

@[simp] theorem upstreamId_take (deduplicate : Bool) :
    (state.take fragment deduplicate).upstreamId = fragment.id.or state.upstreamId := by
  rw [take]
  split
  · rfl
  · rw [ingestToolArguments]
    split_ifs <;> rfl

theorem allArguments_take (deduplicate : Bool) : (state.take fragment deduplicate).allArguments =
      state.allArguments ++ fragment.arguments.getD "" := by
  rw [take]
  split
  · simp [*]
  · rw [ingestToolArguments]
    split_ifs
    · simp_all [isEmpty]
    · simp [*]
    · simp [*]

theorem pendingArguments_take : (state.take fragment false).pendingArguments =
      state.pendingArguments ++ fragment.arguments.getD "" := by
  rw [take]
  split
  · simp [*]
  · rw [ingestToolArguments]
    split_ifs with hempty hfalse
    · simp_all [isEmpty]
    · cases hfalse
    · simp [*]

/-- What the upstream has said of a call makes it visible. -/
def visible : Bool := state.name.isSome || !isEmpty state.allArguments

/-- Argument data is kept where there is any, and only to deduplicate. -/
def Tidy (deduplicate : Bool) : Prop :=
  if deduplicate then state.hasArgumentData = !isEmpty state.allArguments
  else state.argumentsSeen = "" ∧ state.rawArguments = []

variable {state} in
theorem Tidy.take {deduplicate : Bool} (h : state.Tidy deduplicate) :
    (state.take fragment deduplicate).Tidy deduplicate := by
  rw [ToolState.take]
  split
  · exact h
  · next arguments _ =>
    rw [ingestToolArguments]
    cases deduplicate with
    | true =>
      split_ifs with hempty
      · exact h
      · have harguments : arguments.toList ≠ [] := by simpa [isEmpty] using hempty
        have hraw : (state.rawArguments ++ [arguments]).isEmpty = false := by simp
        have hall : (state.allArguments.toList ++ arguments.toList).isEmpty = false := by
          simp [harguments]
        simp [Tidy, hasArgumentData, isEmpty, hall]
      · contradiction
    | false =>
      split_ifs with hempty hfalse
      · exact h
      · cases hfalse
      · exact h

end ToolState

/-! ## The calls of a stream -/

section

variable (deduplicate : Bool) (fragments : List ToolFragment)

/-- The call of a key as the fragments describe it. -/
def callOf (key : ℕ) : ToolState :=
  ((collectTools deduplicate fragments)[key]?).getD { index := 0 }

/-- The keys of the calls that are visible, in the order of their first appearance. -/
def shownKeys : List ℕ :=
  (firstKeys fragments).filter fun key => (callOf deduplicate fragments key).visible

theorem callOf_append_singleton (fragment : ToolFragment) (key : ℕ) :
    callOf deduplicate (fragments ++ [fragment]) key =
      if fragment.key = key then (callOf deduplicate fragments key).take fragment deduplicate
      else callOf deduplicate fragments key := by
  rw [callOf, collectTools_append_singleton, Std.TreeMap.getElem?_insert]
  simp only [compare_eq_iff_eq]
  split_ifs with h
  · rw [← h]
    rfl
  · rfl

theorem isSome_collectTools (key : ℕ) :
    ((collectTools deduplicate fragments)[key]?).isSome = true ↔ key ∈ firstKeys fragments := by
  induction fragments using reverseRecOn with
  | nil => simp [collectTools, firstKeys]
  | append_singleton fragments fragment ih =>
    have hfirst : key ∈ firstKeys (fragments ++ [fragment]) ↔
        key ∈ firstKeys fragments ∨ fragment.key = key := by
      simp [mem_firstKeys]
    rw [hfirst, ← ih, collectTools_append_singleton, Std.TreeMap.getElem?_insert]
    simp only [compare_eq_iff_eq]
    split_ifs with hkey <;> simp [hkey]

theorem length_toolStates_collectTools :
    (toolStates (collectTools deduplicate fragments)).length = (firstKeys fragments).length := by
  have hnodup : ((collectTools deduplicate fragments).toList.map Prod.fst).Nodup :=
    pairwise_map.mpr (Std.TreeMap.distinct_keys_toList.imp fun h heq => h (by simp [heq]))
  have hperm := (perm_ext_iff_of_nodup hnodup (nodup_firstKeys fragments)).mpr fun _ => by
    rw [← isSome_collectTools deduplicate, Option.isSome_iff_exists]
    simp only [mem_map, Prod.exists, Std.TreeMap.mem_toList_iff_getElem?_eq_some,
      exists_and_right, exists_eq_right]
  simpa [toolStates] using hperm.length_eq

theorem tidy_callOf (key : ℕ) : (callOf deduplicate fragments key).Tidy deduplicate := by
  induction fragments using reverseRecOn with
  | nil => cases deduplicate <;> simp [callOf, collectTools, ToolState.Tidy,
      ToolState.hasArgumentData]
  | append_singleton _ fragment ih =>
    rw [callOf_append_singleton]
    split_ifs
    · exact ih.take _
    · exact ih

theorem allArguments_callOf (key : ℕ) :
    (callOf deduplicate fragments key).allArguments = argumentsOf fragments key := by
  induction fragments using reverseRecOn with
  | nil => simp [callOf, collectTools, argumentsOf]
  | append_singleton _ _ ih =>
    rw [callOf_append_singleton, argumentsOf_append_singleton]
    split_ifs
    · rw [ToolState.allArguments_take, ih]
    · exact ih

end

end RouteSmith.Model
