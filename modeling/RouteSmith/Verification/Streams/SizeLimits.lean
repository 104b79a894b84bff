import RouteSmith.Verification.Streams.Framing

/-! # Size limits of a body

The bytes of an event are counted from one frame to the next, so a body whose blocks are all within
the limit is refused if the blocks without data between two frames add up to more.
-/

namespace RouteSmith.Model

open Control List Text

def isBlankLine (line : List UInt8) : Bool := isEmpty (trim (fromUtf8Lossy line))

def carriesData (line : List UInt8) : Bool := !(handleSseLine line {}).2.data.isEmpty

/-- The lines of a body as they are counted; the last one has no end. -/
def countedLines : List (List UInt8) → List (List UInt8)
  | [] => []
  | [rest] => [rest]
  | line :: lines => withoutReturn line :: countedLines lines

def bodyLines (body : List UInt8) : List (List UInt8) := countedLines (body.splitOn lineFeed)

/-- Lines are within a limit, counted from one cut to the next. A cut comes after a blank line, if
one of the lines before it `fills` the count or the count is full from the `start`. -/
def fits (limit : ℕ) (fills : List UInt8 → Bool) (start : Bool) :
    (size : ℕ) → (full : Bool) → List (List UInt8) → Bool
  | _, _, [] => true
  | size, full, line :: lines =>
    size + line.length ≤ limit &&
      if isBlankLine line && full then fits limit fills start 0 start lines
      else fits limit fills start (size + line.length) (full || fills line) lines

/-- A block ends at every blank line. -/
def blocksFit (limit : ℕ) (body : List UInt8) : Bool :=
  fits limit (fun _ => true) true 0 true (bodyLines body)

/-- A frame ends at the first blank line after data. -/
def framesFit (limit : ℕ) (body : List UInt8) : Bool :=
  fits limit carriesData false 0 false (bodyLines body)

/-- Every field has a colon, and a blank line has none. -/
theorem stripStart_of_blank {line : List UInt8} (hline : isBlankLine line = true) (start : String)
    (hstart : ':' ∈ start.toList) : stripStart start (fromUtf8Lossy line) = none := by
  refine if_neg fun hstarts => ?_
  rw [startsWith, isPrefixOf_iff_prefix] at hstarts
  have htrim := mem_trimChars_of_not_whitespace (hstarts.subset hstart) rfl
  rw [isBlankLine, Text.isEmpty, trim, String.toList_ofList, List.isEmpty_iff] at hline
  rw [hline] at htrim
  cases htrim

/-- A blank line ends a frame that has data. After other lines there is data if there was data
before or the line carries it. -/
theorem handleSseLine_data (line : List UInt8) (fields : SseFields) :
    (handleSseLine line fields).1.isSome = (isBlankLine line && !fields.data.isEmpty) ∧
      (!(handleSseLine line fields).2.data.isEmpty) =
        if isBlankLine line && !fields.data.isEmpty then false
        else !fields.data.isEmpty || carriesData line := by
  cases hline : isBlankLine line with
  | true =>
    have hnone := stripStart_of_blank hline
    rw [isBlankLine] at hline
    cases hfields : fields.data <;> simp [handleSseLine, carriesData, hnone "event:" (by simp),
      hnone "id:" (by simp), hnone "retry:" (by simp), hnone "data:" (by simp),
      hnone ":" (by simp), hline, hfields]
  | false =>
    rw [isBlankLine] at hline
    simp only [handleSseLine, carriesData, hline]
    split
    · simp
    split
    · simp
    split
    · simp
    split
    · simp
    split <;> simp

namespace HttpTransport

variable (transport : HttpTransport)

def sizeLimitErrors : List AppError :=
  [lineLimitError transport.maxSseLineBytes, transport.eventLimitError,
    sseLimitError "stream" "MODELPORT_HTTP_SSE_MAX_STREAM_BYTES" transport.maxSseStreamBytes]

theorem emptyBodyError_not_mem (rawBody : List String) :
    transport.emptyBodyError rawBody ∉ transport.sizeLimitErrors := by
  have hstart : ∀ s t, s.toList.take 14 ≠ t.toList.take 14 →
      AppError.upstreamProtocol s ≠ .upstreamProtocol t := by
    rintro s t hne ⟨⟩
    exact hne rfl
  simp only [sizeLimitErrors, mem_cons, not_mem_nil, or_false, not_or, emptyBodyError,
    lineLimitError, sseLimitError]
  split_ifs <;> refine ⟨hstart _ _ ?_, hstart _ _ ?_, hstart _ _ ?_⟩ <;> simp

/-- What is counted from here on stays within the limit of an event. -/
def Within (p : SseParser) (lines : List (List UInt8)) : Prop :=
  fits transport.maxSseEventBytes.val carriesData false p.eventReceivedBytes
    (!p.fields.data.isEmpty) lines = true

variable {transport} {line : List UInt8} {p : SseParser}

theorem not_within (lines : List (List UInt8))
    (h : transport.maxSseEventBytes.val < p.eventReceivedBytes + line.length) :
    ¬transport.Within p (line :: lines) := by
  simp [Within, fits, h]

theorem ensures_takeLine (hline : line.length ≤ transport.maxSseLineBytes.val) :
    Ensures (transport.takeLine line)
      (fun _ q => q.eventReceivedBytes ≤ transport.maxSseEventBytes.val ∧
        ∀ lines, transport.Within p (line :: lines) ↔ transport.Within q lines)
      (fun e _ => e ∈ transport.sizeLimitErrors ∧
        ∀ lines, ¬transport.Within p (line :: lines)) p := by
  refine ensures_counted (fun h => absurd hline h.not_ge)
    (fun hover => ⟨by simp [sizeLimitErrors], fun _ => not_within _ hover⟩) fun hle => ?_
  obtain ⟨hframe, hdata⟩ := handleSseLine_data line _
  rw [ensures_bind, ensures_modify, ensures_bind, ensures_get]
  simp only [Within, fits]
  split
  · next hnone =>
    rw [hnone] at hframe
    rw [← hframe] at hdata ⊢
    simp [hdata, hle]
  · next frame hsome =>
    rw [hsome] at hframe
    rw [← hframe] at hdata ⊢
    simp [hdata, yieldFrame, hle]

theorem ensures_finish (hline : line.length ≤ transport.maxSseLineBytes.val)
    (hp : p.eventReceivedBytes ≤ transport.maxSseEventBytes.val) :
    Ensures (transport.finish line) (fun _ _ => transport.Within p [line])
      (fun e _ => e ∈ transport.sizeLimitErrors ↔ ¬transport.Within p [line]) p := by
  have hend (h : p.eventReceivedBytes + line.length ≤ transport.maxSseEventBytes.val)
      (q : SseParser) :
      Ensures (yieldRest >>= fun _ => transport.ensureYieldedFrame)
        (fun _ _ => transport.Within p [line])
        (fun e _ => e ∈ transport.sizeLimitErrors ↔ ¬transport.Within p [line]) q := by
    have hwithin : transport.Within p [line] := by simp [Within, fits, h]
    simp only [yieldRest, ensureYieldedFrame, yieldFrame, ensures_bind, ensures_get]
    split_ifs <;> simp only [ensures_bind, ensures_modify, ensures_pure, ensures_get] <;>
      split_ifs <;> simp [hwithin, emptyBodyError_not_mem]
  rw [finish, takeRest]
  split_ifs with hempty
  · exact hend (by simpa [isEmpty_iff.mp hempty] using hp) p
  · rw [ensures_bind]
    refine ensures_counted (fun h => absurd hline h.not_ge)
      (fun hover => iff_of_true (by simp [sizeLimitErrors]) (not_within _ hover)) fun hle => ?_
    rw [ensures_bind, ensures_get]
    dsimp only
    split
    · exact hend hle _
    · exact hend hle _

theorem ensures_readLines (lines : List (List UInt8)) (hne : lines ≠ [])
    (hlines : ∀ line ∈ countedLines lines, line.length ≤ transport.maxSseLineBytes.val)
    (p : SseParser) (hp : p.eventReceivedBytes ≤ transport.maxSseEventBytes.val) :
    Ensures (transport.readLines lines) (fun _ _ => transport.Within p (countedLines lines))
      (fun e _ => e ∈ transport.sizeLimitErrors ↔ ¬transport.Within p (countedLines lines)) p := by
  induction lines generalizing p with
  | nil => contradiction
  | cons line lines ih =>
    cases lines with
    | nil => exact ensures_finish (hlines line mem_cons_self) hp
    | cons line' lines =>
      have hcounted : countedLines (line :: line' :: lines) =
          withoutReturn line :: countedLines (line' :: lines) := rfl
      rw [hcounted, forall_mem_cons] at hlines
      rw [hcounted, readLines_cons (by simp), ensures_bind]
      refine (ensures_takeLine hlines.1).mono (fun _ q hq => ?_) fun e _ he =>
        iff_of_true he.1 (he.2 _)
      rw [hq.2]
      exact ih (by simp) hlines.2 q hq.1

end HttpTransport

variable {transport : HttpTransport} {chunks : List (List UInt8)}
  (hstream : chunks.flatten.length ≤ transport.maxSseStreamBytes.val)
  (hlines : ∀ line ∈ bodyLines chunks.flatten, line.length ≤ transport.maxSseLineBytes.val)

include hstream hlines

theorem exists_limit_error_iff :
    (∃ e ∈ transport.sizeLimitErrors, .error e ∈ postJsonSse transport (chunks.map .ok)) ↔
      framesFit transport.maxSseEventBytes.val chunks.flatten = false := by
  have hread := HttpTransport.ensures_readLines _ (splitOn_ne_nil _ _) hlines {} (Nat.zero_le _)
  rw [postJsonSse_eq_readLines hstream, ← Bool.not_eq_true]
  rw [Ensures] at hread
  cases hresult : transport.readLines (chunks.flatten.splitOn lineFeed) {} with
  | ok =>
    rw [hresult] at hread
    exact iff_of_false (by simp [frameItems]) (not_not_intro hread)
  | error =>
    rw [hresult] at hread
    exact .trans (by simp [frameItems]) hread

/-- A body whose size and lines are within the limits is refused for its size if and only if the
lines from one frame to the next add up to more than the limit of an event. -/
theorem postJsonSse_within_limits_iff :
    (∀ e ∈ transport.sizeLimitErrors, .error e ∉ postJsonSse transport (chunks.map .ok)) ↔
      framesFit transport.maxSseEventBytes.val chunks.flatten = true := by
  rw [← Bool.not_eq_false, ← exists_limit_error_iff hstream hlines]
  simp

omit hstream hlines

/-- `: ping` and an empty line, again and again. -/
def pings (n : ℕ) : List UInt8 := (replicate n [58, 32, 112, 105, 110, 103, 10, 10]).flatten

theorem pings_within_limits :
    framesFit smallTransport.maxSseEventBytes.val (pings 5) = true ∧
      ∀ e ∈ smallTransport.sizeLimitErrors, .error e ∉ postJsonSse smallTransport [.ok (pings 5)] :=
  ⟨by decide, (@postJsonSse_within_limits_iff _ [pings 5] (by decide) (by decide)).mpr (by decide)⟩

/-- Six pings of six bytes each are too much where an event may have 32 bytes. -/
theorem pings_refused :
    (pings 6).length ≤ smallTransport.maxSseStreamBytes.val ∧
      (∀ line ∈ bodyLines (pings 6), line.length ≤ smallTransport.maxSseLineBytes.val) ∧
      blocksFit smallTransport.maxSseEventBytes.val (pings 6) = true ∧
      ∃ e ∈ smallTransport.sizeLimitErrors, .error e ∈ postJsonSse smallTransport [.ok (pings 6)] :=
  have hlines : ∀ line ∈ bodyLines (pings 6), line.length ≤ smallTransport.maxSseLineBytes.val := by
    decide
  ⟨by decide, hlines, by decide,
    (@exists_limit_error_iff _ [pings 6] (by decide) hlines).mpr (by decide)⟩

end RouteSmith.Model
