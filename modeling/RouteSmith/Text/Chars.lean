import Mathlib.Algebra.Group.Nat.Defs
import Mathlib.Data.List.DropRight

/-! # Text operations

Strings are handled through their characters; byte lengths are UTF-8 lengths.
-/

namespace RouteSmith.Text

open List

/-- The Unicode `White_Space` property. -/
def isWhitespace (c : Char) : Bool :=
  let n := c.toNat
  (0x09 ≤ n && n ≤ 0x0D) || n == 0x20 || n == 0x85 || n == 0xA0 || n == 0x1680 ||
    (0x2000 ≤ n && n ≤ 0x200A) || n == 0x2028 || n == 0x2029 || n == 0x202F || n == 0x205F ||
    n == 0x3000

/-- The Unicode general category `Cc`. -/
def isControl (c : Char) : Bool :=
  let n := c.toNat
  n ≤ 0x1F || (0x7F ≤ n && n ≤ 0x9F)

def trimChars (cs : List Char) : List Char :=
  ((cs.dropWhile isWhitespace).reverse.dropWhile isWhitespace).reverse

def trim (s : String) : String := String.ofList (trimChars s.toList)

def trimStart (s : String) : String := String.ofList (s.toList.dropWhile isWhitespace)

/-- Length in UTF-8 bytes. -/
def len (s : String) : ℕ := s.utf8ByteSize

def isEmpty (s : String) : Bool := s.toList.isEmpty

def hasNul (s : String) : Bool := s.toList.contains '\x00'

def hasControl (s : String) : Bool := s.toList.any isControl

/-- Between one and `max` bytes, none of them a control character. -/
def boundedText (max : ℕ) (s : String) : Bool :=
  !(isEmpty s || max < len s || hasControl s)

def startsWith (s start : String) : Bool := start.toList.isPrefixOf s.toList

def endsWith (s final : String) : Bool := final.toList.isSuffixOf s.toList

/-- The text after a beginning. -/
def stripStart (start s : String) : Option String :=
  if startsWith s start then some (String.ofList (s.toList.drop start.toList.length)) else none

/-- The text before a final character. -/
def stripFinal (c : Char) (s : String) : Option String :=
  if s.toList.getLast? = some c then some (String.ofList s.toList.dropLast) else none

/-- The text after the first characters. -/
def dropChars (n : ℕ) (s : String) : String := String.ofList (s.toList.drop n)

def contains (s part : String) : Bool :=
  s.toList.tails.any fun tail => part.toList.isPrefixOf tail

def toAsciiLowercase (s : String) : String :=
  String.ofList (s.toList.map fun c =>
    if 'A' ≤ c && c ≤ 'Z' then Char.ofNat (c.toNat + 32) else c)

def eqIgnoreAsciiCase (a b : String) : Bool := toAsciiLowercase a == toAsciiLowercase b

/-- A decimal numeral, with an optional plus sign, of a number below `2 ^ 64`. -/
def parseU64 (s : String) : Option ℕ :=
  let digits := match s.toList with
    | '+' :: digits => digits
    | digits => digits
  let value := digits.foldl (fun n c => 10 * n + (c.toNat - 48)) 0
  if !digits.isEmpty && digits.all Char.isDigit && value < 2 ^ 64 then some value else none

/-- Lines end at a line feed, with an optional carriage return before it; the characters of the
current line are collected in reverse. -/
def linesFrom : (current : List Char) → List Char → List (List Char)
  | [], [] => []
  | current, [] => [current.reverse]
  | '\r' :: current, '\n' :: cs => current.reverse :: linesFrom [] cs
  | current, '\n' :: cs => current.reverse :: linesFrom [] cs
  | current, c :: cs => linesFrom (c :: current) cs

def lines (s : String) : List String := (linesFrom [] s.toList).map String.ofList

/-- The parts before and after the first occurrence of a character. -/
def splitOnce (sep : Char) (s : String) : Option (String × String) :=
  match s.toList.span (· != sep) with
  | (_, []) => none
  | (before, _ :: after) => some (String.ofList before, String.ofList after)

/-! ## What is left of a text -/

variable {cs : List Char} {c : Char} {s : String}

/-- Trimming cuts off white space only. -/
theorem mem_trimChars_of_not_whitespace (hc : c ∈ cs) (hblack : isWhitespace c = false) :
    c ∈ trimChars cs := by
  have hdrop : ∀ {cs : List Char}, c ∈ cs → c ∈ cs.dropWhile isWhitespace := by
    intro cs hc
    rw [← takeWhile_append_dropWhile (p := isWhitespace) (l := cs), mem_append] at hc
    rcases hc with htake | hdrop
    · rw [mem_takeWhile_imp htake] at hblack
      cases hblack
    · exact hdrop
  rw [trimChars, mem_reverse]
  exact hdrop (mem_reverse.mpr (hdrop hc))

theorem isEmpty_trim_trim (s : String) : isEmpty (trim (trim s)) = isEmpty (trim s) := by
  rw [Bool.eq_iff_iff, isEmpty, isEmpty, List.isEmpty_iff, List.isEmpty_iff]
  constructor
  · intro h
    by_contra hne
    obtain ⟨c, hc, hblack⟩ : ∃ c ∈ s.toList, isWhitespace c = false := by
      by_contra hall
      push Not at hall
      refine hne ?_
      have hdrop := dropWhile_eq_nil_iff.mpr fun c hc => by simpa using hall c hc
      rw [trim, trimChars, hdrop]
      rfl
    have hmem : c ∈ (trim (trim s)).toList := by
      rw [trim, String.toList_ofList, trim, String.toList_ofList]
      exact mem_trimChars_of_not_whitespace (mem_trimChars_of_not_whitespace hc hblack) hblack
    rw [h] at hmem
    cases hmem
  · intro h
    rw [trim, h]
    rfl

theorem isWhitespace_lowercase (c : Char) :
    isWhitespace (if 'A' ≤ c && c ≤ 'Z' then .ofNat (c.toNat + 32) else c) =
      isWhitespace c := by
  split_ifs with hupper
  · simp only [Bool.and_eq_true, decide_eq_true_eq] at hupper
    have hlow : 65 ≤ c.toNat := hupper.1
    have hhigh : c.toNat ≤ 90 := hupper.2
    have hvalid : (c.toNat + 32).isValidChar := .inl (by omega)
    have hnat : (Char.ofNat (c.toNat + 32)).toNat = c.toNat + 32 := by
      rw [Char.ofNat, dif_pos hvalid]
      rfl
    rw [isWhitespace, isWhitespace, Bool.eq_iff_iff]
    simp only [Bool.or_eq_true, Bool.and_eq_true, decide_eq_true_eq, beq_iff_eq]
    omega
  · rfl

theorem toAsciiLowercase_trim (s : String) :
    toAsciiLowercase (trim s) = trim (toAsciiLowercase s) := by
  have hdrop : ∀ cs : List Char, (cs.map fun c =>
      if 'A' ≤ c && c ≤ 'Z' then .ofNat (c.toNat + 32) else c).dropWhile isWhitespace =
      (cs.dropWhile isWhitespace).map fun c =>
        if 'A' ≤ c && c ≤ 'Z' then .ofNat (c.toNat + 32) else c := by
    intro _
    rw [dropWhile_map]
    congr 2
    funext c
    exact isWhitespace_lowercase c
  rw [toAsciiLowercase, trim, trim, toAsciiLowercase, String.toList_ofList, String.toList_ofList,
    trimChars, trimChars, hdrop, ← map_reverse, hdrop, ← map_reverse]

/-! ## Lines that are joined -/

end RouteSmith.Text
