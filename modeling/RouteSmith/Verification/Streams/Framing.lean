import RouteSmith.Control.Pieces
import RouteSmith.Model.Http

/-! # Frames of a body

The frames of a body are those of its lines, however the body was cut into chunks.
-/

namespace RouteSmith.Model

open Control List HttpTransport

/-! ## Lines of a body -/

/-- The frames of a run, and the error that ends it. -/
def frameItems : EStateM.Result AppError SseParser Unit → List (Except AppError SseFrame)
  | .ok _ parser => parser.frames.map .ok
  | .error e parser => parser.frames.map .ok ++ [.error e]

def withoutReturn (line : List UInt8) : List UInt8 :=
  if line.getLast? = some carriageReturn then line.dropLast else line

theorem trimLineEnding_concat (line : List UInt8) :
    trimLineEnding (line ++ [lineFeed]) = withoutReturn line := by
  simp [trimLineEnding, withoutReturn]

theorem idxOf?_append_cons {line : List UInt8} (h : lineFeed ∉ line) (rest : List UInt8) :
    (line ++ lineFeed :: rest).idxOf? lineFeed = some line.length := by
  have hline : line.findIdx? (· == lineFeed) = none := by
    rw [findIdx?_eq_none_iff]
    intro b hb
    simpa using ne_of_mem_of_not_mem hb h
  simp [idxOf?, findIdx?_cons, hline]

theorem length_withoutReturn_le (line : List UInt8) :
    (withoutReturn line).length ≤ line.length := by
  rw [withoutReturn]
  split_ifs <;> simp

theorem length_withoutReturn_append (line rest : List UInt8) :
    (withoutReturn line).length ≤ (withoutReturn (line ++ rest)).length := by
  cases rest with
  | nil => rw [append_nil]
  | cons b rest =>
    have hlonger : line.length ≤ (withoutReturn (line ++ b :: rest)).length := by
      rw [withoutReturn]
      split_ifs <;> simp
    exact (length_withoutReturn_le line).trans hlonger

theorem ensurePendingSseLineLimit_error {line : List UInt8} {limit : Numeric.U64} {e : AppError}
    (h : ensurePendingSseLineLimit line limit = .error e) :
    limit.val < (withoutReturn line).length ∧ e = lineLimitError limit := by
  have hlength : (withoutReturn line).length =
      if line.getLast? = some carriageReturn then line.length - 1 else line.length := by
    rw [withoutReturn]
    split_ifs <;> simp
  rw [ensurePendingSseLineLimit, ← hlength] at h
  split_ifs at h with hlong
  exact ⟨hlong, (Except.error.inj h).symm⟩

theorem ensures_parse {α : Type} {x : EStateM AppError SseParser α} {Q : α → SseReader → Prop}
    {E : AppError → SseReader → Prop} {s : SseReader} :
    Ensures (SseReader.parse x) Q E s ↔
      Ensures x (fun a p => Q a { s with parser := p }) (fun e p => E e { s with parser := p })
        s.parser := by
  rw [Ensures, Ensures, SseReader.parse]
  cases x s.parser <;> rfl

namespace HttpTransport

variable (transport : HttpTransport)

/-- The lines of a body, the last of which has no end. -/
def readLines : List (List UInt8) → EStateM AppError SseParser Unit
  | [] => pure ()
  | [rest] => transport.finish rest
  | line :: lines => do
    transport.takeLine (withoutReturn line)
    readLines lines

/-- What a reader yields in the end if `bytes` are still to come. -/
def yields (s : SseReader) (bytes : List UInt8) : List (Except AppError SseFrame) :=
  frameItems (transport.readLines ((s.lineBuffer ++ bytes).splitOn lineFeed) s.parser)

variable {transport}

theorem readLines_cons {line : List UInt8} {lines : List (List UInt8)} (h : lines ≠ []) :
    transport.readLines (line :: lines) =
      transport.takeLine (withoutReturn line) >>= fun _ => transport.readLines lines := by
  cases lines with
  | nil => contradiction
  | cons => rfl

theorem takeLine_of_long {line : List UInt8} (h : transport.maxSseLineBytes.val < line.length)
    (p : SseParser) :
    transport.takeLine line p = .error (lineLimitError transport.maxSseLineBytes) p := by
  rw [takeLine, ensureSseLineLimit, if_pos h]
  rfl

theorem finish_of_long {rest : List UInt8} (h : transport.maxSseLineBytes.val < rest.length)
    (p : SseParser) :
    transport.finish rest p = .error (lineLimitError transport.maxSseLineBytes) p := by
  have hne : rest.isEmpty = false := by
    cases rest with
    | nil => cases h
    | cons => rfl
  rw [finish, takeRest, hne, ensureSseLineLimit, if_pos h]
  rfl

def eventLimitError (transport : HttpTransport) : AppError :=
  sseLimitError "event" "MODELPORT_HTTP_SSE_MAX_EVENT_BYTES" transport.maxSseEventBytes

theorem ensures_counted {line : List UInt8} {p : SseParser} {α : Type}
    {next : ℕ → EStateM AppError SseParser α} {Q : α → SseParser → Prop}
    {E : AppError → SseParser → Prop}
    (hlong : transport.maxSseLineBytes.val < line.length →
      E (lineLimitError transport.maxSseLineBytes) p)
    (hover : transport.maxSseEventBytes.val < p.eventReceivedBytes + line.length →
      E transport.eventLimitError p)
    (hnext : p.eventReceivedBytes + line.length ≤ transport.maxSseEventBytes.val →
      Ensures (next (p.eventReceivedBytes + line.length)) Q E p) :
    Ensures (ofExcept (ensureSseLineLimit line transport.maxSseLineBytes) >>= fun _ =>
      get >>= fun q => ofExcept
        (transport.checkedEventBytes q.eventReceivedBytes line.length) >>= next) Q E p := by
  have hmax := transport.maxSseEventBytes.le_max
  rw [ensureSseLineLimit]
  split_ifs with h
  · exact hlong h
  change Ensures (ofExcept (checkedEventBytes transport _ _) >>= next) Q E p
  rw [checkedEventBytes, checkedSseBytes]
  split_ifs with hwide h
  · exact hover (by omega)
  · exact hover h
  · exact hnext (by omega)

/-- A line that is too long while it is pending is too long in the end. -/
theorem yields_of_long {s : SseReader} (hbuffer : lineFeed ∉ s.lineBuffer)
    (hlong : transport.maxSseLineBytes.val < (withoutReturn s.lineBuffer).length)
    (bytes : List UInt8) :
    transport.yields s bytes =
      frameItems (.error (lineLimitError transport.maxSseLineBytes) s.parser) := by
  rw [yields]
  by_cases hmem : lineFeed ∈ bytes
  · obtain ⟨line, _, rfl, hline⟩ := eq_append_cons_of_mem hmem
    have hnotMem : lineFeed ∉ s.lineBuffer ++ line := by simp [hbuffer, hline]
    have hlonger := hlong.trans_le (length_withoutReturn_append _ line)
    rw [← append_assoc, splitOn_append_cons_self_of_not_mem hnotMem,
      readLines_cons (splitOn_ne_nil _ _)]
    change frameItems (EStateM.bind _ _ s.parser) = _
    rw [EStateM.bind, takeLine_of_long hlonger]
  · have hnotMem : lineFeed ∉ s.lineBuffer ++ bytes := by simp [hbuffer, hmem]
    have hlonger := hlong.trans_le ((length_withoutReturn_append _ bytes).trans
      (length_withoutReturn_le _))
    rw [splitOn_eq_singleton hnotMem, readLines, finish_of_long hlonger]

theorem ensures_takeLines (fuel : ℕ) (s : SseReader) (hfuel : s.lineBuffer.length ≤ fuel) :
    Ensures (transport.takeLines fuel)
      (fun _ t => lineFeed ∉ t.lineBuffer ∧ t.streamReceivedBytes = s.streamReceivedBytes ∧
        ∀ rest, transport.yields t rest = transport.yields s rest)
      (fun e t => ∀ rest, frameItems (.error e t.parser) = transport.yields s rest) s := by
  induction fuel generalizing s with
  | zero =>
    have hnil := length_eq_zero_iff.mp (Nat.le_zero.mp hfuel)
    exact ⟨by simp [hnil], rfl, fun _ => rfl⟩
  | succ fuel ih =>
    rw [takeLines, ensures_bind, ensures_get]
    by_cases hmem : lineFeed ∈ s.lineBuffer
    · obtain ⟨line, rest, hbuffer, hline⟩ := eq_append_cons_of_mem hmem
      have htake : s.lineBuffer.take (line.length + 1) = line ++ [lineFeed] := by
        simp [hbuffer, take_append]
      have hdrop : s.lineBuffer.drop (line.length + 1) = rest := by
        simp [hbuffer]
      have hyields : ∀ bytes, transport.yields s bytes =
          frameItems ((transport.takeLine (withoutReturn line) >>= fun _ =>
            transport.readLines ((rest ++ bytes).splitOn lineFeed)) s.parser) := by
        intro bytes
        rw [yields, hbuffer, append_assoc, cons_append,
          splitOn_append_cons_self_of_not_mem hline,
          readLines_cons (splitOn_ne_nil _ _)]
      have hindex : s.lineBuffer.idxOf? lineFeed = some line.length := by
        rw [hbuffer, idxOf?_append_cons hline]
      dsimp only
      rw [hindex]
      dsimp only
      rw [htake, hdrop, trimLineEnding_concat, ensures_bind, ensures_modify, ensures_bind,
        ensures_parse]
      refine (ensures_self _ _).mono (fun _ p hp => ?_) fun e p hp bytes => ?_
      · have hshorter : rest.length ≤ fuel := by
          simp [hbuffer] at hfuel
          omega
        have hsame : ∀ bytes, transport.yields { s with lineBuffer := rest, parser := p } bytes =
            transport.yields s bytes := by
          intro bytes
          rw [hyields]
          change _ = frameItems (EStateM.bind _ _ s.parser)
          rw [EStateM.bind, hp]
          rfl
        refine (ih { s with lineBuffer := rest, parser := p } hshorter).mono
          (fun _ t ht => ⟨ht.1, ht.2.1, fun bytes => (ht.2.2 bytes).trans (hsame bytes)⟩)
          fun e t ht bytes => (ht bytes).trans (hsame bytes)
      · rw [hyields]
        change _ = frameItems (EStateM.bind _ _ s.parser)
        rw [EStateM.bind, hp]
    · dsimp only
      rw [idxOf?_eq_none_iff.mpr hmem]
      exact ⟨hmem, rfl, fun _ => rfl⟩

/-- A chunk within the limit of the stream leaves a reader that stands for the rest. -/
theorem ensures_takeChunk {s : SseReader} {chunk : List UInt8}
    (hlimit : s.streamReceivedBytes + chunk.length ≤ transport.maxSseStreamBytes.val) :
    Ensures (transport.takeChunk (.ok chunk)) (fun _ t => lineFeed ∉ t.lineBuffer ∧
        t.streamReceivedBytes = s.streamReceivedBytes + chunk.length ∧
        ∀ rest, transport.yields t rest = transport.yields s (chunk ++ rest))
      (fun e t => ∀ rest, frameItems (.error e t.parser) = transport.yields s (chunk ++ rest))
      s := by
  have hreceived : checkedSseBytes s.streamReceivedBytes chunk.length transport.maxSseStreamBytes
      "stream" "MODELPORT_HTTP_SSE_MAX_STREAM_BYTES" =
        .ok (s.streamReceivedBytes + chunk.length) := by
    have := transport.maxSseStreamBytes.le_max
    rw [checkedSseBytes, if_neg (by omega), if_neg (by omega)]
  have hbuffered : ∀ rest, transport.yields
      { s with
        lineBuffer := s.lineBuffer ++ chunk
        streamReceivedBytes := s.streamReceivedBytes + chunk.length } rest =
      transport.yields s (chunk ++ rest) := by
    intro rest
    rw [yields, yields, append_assoc]
  rw [takeChunk, ensures_bind]
  refine ensures_ofExcept (fun _ hchunk => ?_) nofun
  cases hchunk
  rw [ensures_bind, ensures_get, ensures_bind]
  refine ensures_ofExcept (fun _ hsum => ?_) fun e hsum => ?_
  · cases hreceived.symm.trans hsum
    rw [ensures_bind, ensures_modify, ensures_bind, ensures_get, ensures_bind]
    refine (ensures_takeLines _ _ le_rfl).mono (fun _ t ht => ?_) fun e t ht rest => ?_
    · obtain ⟨hbuffer, hcount, hyields⟩ := ht
      refine ensures_ofExcept (fun _ _ => ⟨hbuffer, hcount, fun _ => ?_⟩) fun e hpending _ => ?_
      · rw [hyields, hbuffered]
      · rw [← hbuffered, ← hyields]
        obtain ⟨hlong, rfl⟩ := ensurePendingSseLineLimit_error hpending
        rw [yields_of_long hbuffer hlong]
    · rw [ht, hbuffered]
  · cases hreceived.symm.trans hsum

def finishReader (transport : HttpTransport) : EStateM AppError SseReader Unit := do
  let buffer := (← get).lineBuffer
  SseReader.parse (transport.finish buffer)

theorem readSse_map_ok (chunks : List (List UInt8)) : transport.readSse (chunks.map .ok) =
      feedAll (fun chunk => transport.takeChunk (.ok chunk)) transport.finishReader chunks := by
  simp [readSse, feedAll, finishReader, foldlM_map]

end HttpTransport

def readerItems : EStateM.Result AppError SseReader Unit → List (Except AppError SseFrame)
  | .ok a s => frameItems (.ok a s.parser)
  | .error e s => frameItems (.error e s.parser)

theorem postJsonSse_eq_readLines {transport : HttpTransport} {chunks : List (List UInt8)}
    (hlimit : chunks.flatten.length ≤ transport.maxSseStreamBytes.val) :
    postJsonSse transport (chunks.map .ok) =
      frameItems (transport.readLines (chunks.flatten.splitOn lineFeed) {}) := by
  have hitems : postJsonSse transport (chunks.map .ok) =
      readerItems (transport.readSse (chunks.map .ok) {}) := by
    rw [postJsonSse]
    cases transport.readSse (chunks.map .ok) {} <;> rfl
  rw [hitems, readSse_map_ok]
  -- between two chunks no complete line waits, and the rest is within the limit
  refine observe_feedAll transport.yields (fun pieces s => lineFeed ∉ s.lineBuffer ∧
      s.streamReceivedBytes + pieces.flatten.length ≤ transport.maxSseStreamBytes.val)
    (fun _ _ s ⟨_, hsum⟩ => ?_) (fun s ⟨hbuffer, _⟩ => ?_) ⟨by simp, by simpa using hlimit⟩
  · rw [flatten_cons, length_append] at hsum
    refine (ensures_takeChunk (by omega)).mono (fun _ t ht => ?_) fun _ _ ht => ht
    exact ⟨⟨ht.1, by omega⟩, ht.2.2⟩
  · rw [yields, append_nil, splitOn_eq_singleton hbuffer,
      readLines]
    change readerItems (SseReader.parse (transport.finish s.lineBuffer) s) = _
    rw [SseReader.parse]
    cases transport.finish s.lineBuffer s.parser <;> rfl

/-- Where a body is cut into chunks makes no difference. -/
theorem postJsonSse_eq_of_flatten_eq {transport : HttpTransport} {body : List UInt8}
    (hlimit : body.length ≤ transport.maxSseStreamBytes.val) {chunks chunks' : List (List UInt8)}
    (h : chunks.flatten = body) (h' : chunks'.flatten = body) :
    postJsonSse transport (chunks.map .ok) = postJsonSse transport (chunks'.map .ok) := by
  subst h
  rw [postJsonSse_eq_readLines hlimit, postJsonSse_eq_readLines (h' ▸ hlimit), h']

/-- A transport with small limits; no body of it is a JSON value. -/
def smallTransport : HttpTransport where
  reader := { parse := fun _ => none, report := fun _ => "expected value", first := fun _ => none }
  writer := { float := fun _ => "0.0", numeral := fun _ => Json.numeral_zero }
  maxSseLineBytes := .ofNat _ 16
  maxSseEventBytes := .ofNat _ 32
  maxSseStreamBytes := .ofNat _ 64

/-- `data: é` and an empty line, cut inside a character and inside line endings. -/
theorem postJsonSse_eq_of_flatten_eq_sample : postJsonSse smallTransport
        [.ok [100, 97, 116, 97, 58, 32, 0xC3], .ok [], .ok [0xA9, 13], .ok [10, 13], .ok [10]] =
      postJsonSse smallTransport [.ok [100, 97, 116, 97, 58, 32, 0xC3, 0xA9, 13, 10, 13, 10]] :=
  @postJsonSse_eq_of_flatten_eq _
    [100, 97, 116, 97, 58, 32, 0xC3, 0xA9, 13, 10, 13, 10] (by decide)
    [[100, 97, 116, 97, 58, 32, 0xC3], [], [0xA9, 13], [10, 13], [10]]
    [[100, 97, 116, 97, 58, 32, 0xC3, 0xA9, 13, 10, 13, 10]] rfl rfl

end RouteSmith.Model
