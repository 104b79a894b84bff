import Mathlib.Data.List.Basic
import Mathlib.Tactic.Ring
import Mathlib.Order.Basic

/-! # UTF-8 with replacement

Bytes are decoded one after another. A sequence that cannot be continued is replaced as a whole by
`U+FFFD`, and the byte that broke it starts anew. Characters below `U+0080` stand for themselves.
-/

namespace RouteSmith.Text

/-- An unfinished sequence: the bits read, the bytes owed, and the range of the next one. -/
structure Utf8Sequence where
  code : ℕ
  owed : ℕ
  low : ℕ
  high : ℕ

def replacementCharacter : Char := Char.ofNat 0xFFFD

def scalar (n : ℕ) : Char := if n.isValidChar then Char.ofNat n else replacementCharacter

/-- The characters that a byte between characters gives, and the sequence it starts. -/
def utf8Start (b : UInt8) : List Char × Option Utf8Sequence :=
  let n := b.toNat
  if n < 0x80 then ([scalar n], none)
  else if 0xC2 ≤ n && n ≤ 0xDF then ([], some ⟨n - 0xC0, 1, 0x80, 0xBF⟩)
  else if n = 0xE0 then ([], some ⟨0, 2, 0xA0, 0xBF⟩)
  else if n = 0xED then ([], some ⟨0xD, 2, 0x80, 0x9F⟩)
  else if 0xE1 ≤ n && n ≤ 0xEF then ([], some ⟨n - 0xE0, 2, 0x80, 0xBF⟩)
  else if n = 0xF0 then ([], some ⟨0, 3, 0x90, 0xBF⟩)
  else if 0xF1 ≤ n && n ≤ 0xF3 then ([], some ⟨n - 0xF0, 3, 0x80, 0xBF⟩)
  else if n = 0xF4 then ([], some ⟨4, 3, 0x80, 0x8F⟩)
  else ([replacementCharacter], none)

/-- One more byte of a sequence. -/
def Utf8Sequence.push (s : Utf8Sequence) (b : UInt8) : List Char × Option Utf8Sequence :=
  if s.low ≤ b.toNat && b.toNat ≤ s.high then
    let code := s.code * 64 + (b.toNat - 0x80)
    if s.owed = 1 then ([scalar code], none) else ([], some ⟨code, s.owed - 1, 0x80, 0xBF⟩)
  else (replacementCharacter :: (utf8Start b).1, (utf8Start b).2)

def utf8Step (state : Option Utf8Sequence) (b : UInt8) : List Char × Option Utf8Sequence :=
  state.elim (utf8Start b) (·.push b)

def decodeFrom : Option Utf8Sequence → List UInt8 → List Char
  | none, [] => []
  | some _, [] => [replacementCharacter]
  | state, b :: bytes => (utf8Step state b).1 ++ decodeFrom (utf8Step state b).2 bytes

def fromUtf8Lossy (bytes : List UInt8) : String := String.ofList (decodeFrom none bytes)

/-! ## Control characters -/

section

variable {c : Char}

end

end RouteSmith.Text
