import RouteSmith.Verification.Streams.Blocks

/-! # Fragments that repeat text

The source slices a fragment at byte offsets, where the model drops characters. The two agree, as
every offset is a character boundary, and over whole histories the deltas add up to the text seen.
-/

namespace RouteSmith.Model

open Text List

/-! ## Slices -/

def width (cs : List Char) : ℕ := (cs.map Char.utf8Size).sum

/-- A text cut at a byte offset; there is none off a character boundary, where the source panics. -/
def splitAtByte : (offset : ℕ) → List Char → Option (List Char × List Char)
  | 0, cs => some ([], cs)
  | _, [] => none
  | offset, c :: cs =>
    if c.utf8Size ≤ offset then (splitAtByte (offset - c.utf8Size) cs).map fun r => (c :: r.1, r.2)
    else none

/-- `suffix_prefix_overlap` in bytes. -/
def overlapBytes (seen content : String) : Option ℕ :=
  let cs := content.toList
  ((range (cs.length + 1)).map fun n => width (cs.take n)).tail.foldlM (fun best stop => do
    let (start, _) ← splitAtByte stop cs
    pure (if 2 ≤ start.length && endsWith seen (String.ofList start) then stop else best)) 0

/-- `text_delta` with deduplication, on bytes. -/
def textDeltaBytes (seen content : String) : Option (String × String) :=
  if Text.isEmpty content then some ("", seen)
  else if startsWith content seen then do
    let (_, delta) ← splitAtByte (width seen.toList) content.toList
    pure (String.ofList delta, content)
  else if startsWith seen content then some ("", seen)
  else if endsWith seen content then some ("", seen)
  else if 3 ≤ content.toList.length && contains seen content then some ("", seen)
  else do
    let (_, delta) ← splitAtByte (← overlapBytes seen content) content.toList
    pure (String.ofList delta, seen ++ String.ofList delta)

theorem splitAtByte_width (before after : List Char) :
    splitAtByte (width before) (before ++ after) = some (before, after) := by
  induction before with
  | nil => cases after <;> rfl
  | cons c before ih =>
    have hwidth : width (c :: before) = c.utf8Size + width before := by simp [width]
    have hpos := c.utf8Size_pos
    rw [cons_append, splitAtByte.eq_3 _ _ _ (by omega), if_pos (by omega), hwidth,
      Nat.add_sub_cancel_left, ih]
    rfl

theorem splitAtByte_take (cs : List Char) (n : ℕ) :
    splitAtByte (width (cs.take n)) cs = some (cs.take n, cs.drop n) := by
  conv_lhs => rw [← take_append_drop n cs, take_append_drop]
  simpa using splitAtByte_width (cs.take n) (cs.drop n)

theorem overlapBytes_eq (seen content : String) : overlapBytes seen content =
    some (width (content.toList.take (suffixPrefixOverlap seen content))) := by
  have hfold : ∀ (ns : List ℕ) best, (∀ n ∈ ns, n ≤ content.toList.length) →
      (ns.map fun n => width (content.toList.take n)).foldlM (fun best stop => do
        let (start, _) ← splitAtByte stop content.toList
        pure (if 2 ≤ start.length && endsWith seen (.ofList start) then stop else best))
        (width (content.toList.take best)) =
      some (width (content.toList.take (ns.foldl (fun best n =>
        if 2 ≤ n && endsWith seen (.ofList (content.toList.take n)) then n else best)
        best))) := by
    intro ns
    induction ns with
    | nil => exact fun _ _ => rfl
    | cons n ns ih =>
      intro _ hle
      have hn := min_eq_left (hle n mem_cons_self)
      rw [map_cons, foldlM_cons, splitAtByte_take, foldl_cons,
        ← ih _ fun m hm => hle m (mem_cons_of_mem _ hm)]
      simp only [Option.bind_eq_bind, Option.bind_some, length_take, hn, Option.pure_def]
      congr 1
      exact (apply_ite (fun n => width (content.toList.take n)) ..).symm
  rw [overlapBytes, suffixPrefixOverlap, range_succ_eq_map, map_cons]
  exact hfold _ 0 (by simp [Nat.succ_le_iff])

/-- No slice is off a character boundary. -/
theorem textDeltaBytes_eq (seen content : String) :
    textDeltaBytes seen content = some (textDelta seen content true) := by
  simp only [textDeltaBytes, textDelta, Bool.not_true, Bool.false_eq_true, if_false]
  split_ifs with _ hstart
  · rfl
  · obtain ⟨_, hrest⟩ := isPrefixOf_iff_prefix.mp hstart
    simp [dropChars, ← hrest, splitAtByte_width]
  · rfl
  · rfl
  · rfl
  · simp [overlapBytes_eq, splitAtByte_take, dropChars]

/-! ## Histories -/

/-- Of two starts of one text the longer one is kept. -/
theorem textDelta_snd_of_starts {text seen content : String} (hseen : startsWith text seen = true)
    (hcontent : startsWith text content = true) :
    startsWith (textDelta seen content true).2 seen = true ∧
      startsWith (textDelta seen content true).2 content = true ∧
      ((textDelta seen content true).2 = seen ∨ (textDelta seen content true).2 = content) := by
  simp only [textDelta, Bool.not_true, Bool.false_eq_true, if_false]
  simp only [startsWith, isPrefixOf_iff_prefix] at *
  split_ifs with hempty hlonger hshorter
  · simp_all [Text.isEmpty]
  · exact ⟨hlonger, prefix_rfl, .inr rfl⟩
  · exact ⟨prefix_rfl, hshorter, .inl rfl⟩
  all_goals
    have hstarts := prefix_or_prefix_of_prefix hseen hcontent
    exact absurd hstarts (not_or_intro hlonger hshorter)

/-- Fed with fragments, `text_delta` never slices off a character boundary, its deltas add up to the
text seen, and of fragments that start one text the longest is seen. -/
theorem textDelta_history (fragments : List String) : ∃ deltas seen,
    fragments.foldlM (fun (deltas, seen) content => do
      let (delta, seen) ← textDeltaBytes seen content
      pure (deltas ++ [delta], seen)) ([], "") = some (deltas, seen) ∧
    String.join deltas = seen ∧
    ∀ text, (∀ content ∈ fragments, startsWith text content = true) →
      seen ∈ "" :: fragments ∧ ∀ content ∈ fragments, startsWith seen content = true := by
  induction fragments using reverseRecOn with
  | nil => exact ⟨[], "", rfl, rfl, by simp⟩
  | append_singleton fragments content ih =>
    obtain ⟨deltas, seen, hrun, hjoin, hstarts⟩ := ih
    refine ⟨deltas ++ [(textDelta seen content true).1], (textDelta seen content true).2,
      ?_, ?_, ?_⟩
    · rw [foldlM_append, hrun]
      simp [textDeltaBytes_eq]
    · rw [textDelta_snd, ← hjoin]
      simp
    · intro text htext
      obtain ⟨hmem, hall⟩ := hstarts text fun c hc => htext c (by simp [hc])
      have hseen : startsWith text seen = true := by
        rcases mem_cons.mp hmem with rfl | hmem
        · rfl
        · exact htext _ (by simp [hmem])
      obtain ⟨hlonger, hcontent, hsame⟩ := textDelta_snd_of_starts hseen (htext content (by simp))
      constructor
      · rcases hsame with hsame | hsame <;> rw [hsame] <;> simp_all
        tauto
      · simp only [startsWith, isPrefixOf_iff_prefix] at *
        intro c hc
        rcases mem_append.mp hc with hc | hc
        · exact (hall c hc).trans hlonger
        · exact mem_singleton.mp hc ▸ hcontent

end RouteSmith.Model
