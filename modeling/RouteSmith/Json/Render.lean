import RouteSmith.Json.Value

/-! # The text of a JSON value

Values are written without white space. Of the members of an object the last of each name is
written, in the order of the names.
-/

namespace RouteSmith.Json

open Numeric List

def hexDigit (n : ℕ) : Char := Char.ofNat (if n < 10 then 48 + n else 87 + n)

def escapeChar (c : Char) : List Char :=
  if c = '"' then ['\\', '"']
  else if c = '\\' then ['\\', '\\']
  else if c.toNat < 0x20 then
    match c.toNat with
    | 0x08 => ['\\', 'b']
    | 0x09 => ['\\', 't']
    | 0x0A => ['\\', 'n']
    | 0x0C => ['\\', 'f']
    | 0x0D => ['\\', 'r']
    | n => ['\\', 'u', '0', '0', hexDigit (n / 16), hexDigit (n % 16)]
  else [c]

def quote (s : String) : List Char := '"' :: (s.toList.flatMap escapeChar ++ ['"'])

section

variable {α : Type}

/-- A member put in its place, or in that of the member of its name. -/
def insertMember (key : String) (value : α) : List (String × α) → List (String × α)
  | [] => [(key, value)]
  | member :: members =>
    if key < member.1 then (key, value) :: member :: members
    else if key = member.1 then (key, value) :: members
    else member :: insertMember key value members

def ordered (members : List (String × α)) : List (String × α) :=
  members.foldl (fun ordered member => insertMember member.1 member.2 ordered) []

end

/-- What is left open of the text of a value is how floating-point numbers are written. -/
structure Writer where
  float : F64 → String
  numeral : ∀ x, ∀ c ∈ (float x).toList, c.isDigit = true ∨ c ∈ ['+', '-', '.', 'e']

theorem numeral_zero : ∀ c ∈ "0.0".toList, c.isDigit = true ∨ c ∈ ['+', '-', '.', 'e'] := by
  simp

namespace Writer

variable (writer : Writer)

def number : Json.Number → String
  | .posInt n => toString n.val
  | .negInt n => toString n
  | .float x => writer.float x

mutual

def chars : Json → List Char
  | .null => "null".toList
  | .bool b => (if b then "true" else "false").toList
  | .number n => (writer.number n).toList
  | .string s => quote s
  | .array items => '[' :: ((itemChars items).intersperse [',']).flatten ++ [']']
  | .object members =>
    '{' :: (((ordered (memberChars members)).map fun member =>
      quote member.1 ++ ':' :: member.2).intersperse [',']).flatten ++ ['}']

def itemChars : List Json → List (List Char)
  | [] => []
  | item :: items => chars item :: itemChars items

def memberChars : List (String × Json) → List (String × List Char)
  | [] => []
  | member :: members => (member.1, memberValueChars member) :: memberChars members

def memberValueChars : String × Json → List Char
  | (_, value) => chars value

end

def write (json : Json) : String := String.ofList (writer.chars json)

end Writer

/-! ## Control characters -/

/-- A text without control characters of ASCII. -/
def Printable (cs : List Char) : Prop := ∀ c ∈ cs, 0x20 ≤ c.toNat

instance (cs : List Char) : Decidable (Printable cs) := decidableBAll _ cs

@[simp] theorem printable_nil : Printable [] := nofun

variable {cs : List Char} {css : List (List Char)} {key name : String}

@[simp] theorem printable_cons {c : Char} :
    Printable (c :: cs) ↔ 0x20 ≤ c.toNat ∧ Printable cs := forall_mem_cons

@[simp] theorem printable_append {ds : List Char} :
    Printable (cs ++ ds) ↔ Printable cs ∧ Printable ds := forall_mem_append

theorem printable_flatten (h : ∀ cs ∈ css, Printable cs) : Printable css.flatten := by
  intro c hc
  obtain ⟨cs, hcs, hmem⟩ := mem_flatten.mp hc
  exact h cs hcs c hmem

theorem printable_escapeChar (c : Char) : Printable (escapeChar c) := by
  have hhex : ∀ n < 16, 0x20 ≤ (hexDigit n).toNat := by decide
  rw [escapeChar]
  split_ifs with hquote hbackslash hcontrol
  · decide
  · decide
  · split
    · decide
    · decide
    · decide
    · decide
    · decide
    · have := hhex (c.toNat / 16) (by omega)
      have := hhex (c.toNat % 16) (by omega)
      simp [*]
  · simpa using hcontrol

theorem printable_quote (s : String) : Printable (quote s) := by
  have hescaped : Printable (s.toList.flatMap escapeChar) := by
    intro c hc
    obtain ⟨d, -, hmem⟩ := mem_flatMap.mp hc
    exact printable_escapeChar d c hmem
  simp [quote, hescaped]

theorem printable_intersperse (h : ∀ cs ∈ css, Printable cs) :
    Printable (css.intersperse [',']).flatten := by
  refine printable_flatten ?_
  induction css with
  | nil => simp
  | cons cs css ih =>
    cases css with
    | nil => simpa using h
    | cons =>
      rw [intersperse_cons_cons]
      simp only [forall_mem_cons] at h ih ⊢
      exact ⟨h.1, by decide, ih h.2⟩

theorem mem_insertMember {α : Type} {value : α} {members : List (String × α)} {member : String × α}
    (h : member ∈ insertMember key value members) : member = (key, value) ∨ member ∈ members := by
  induction members with
  | nil => simpa [insertMember] using h
  | cons _ _ ih =>
    rw [insertMember] at h
    split_ifs at h
    · simpa using h
    · rcases mem_cons.mp h with rfl | h
      · exact .inl rfl
      · exact .inr (mem_cons_of_mem _ h)
    · rcases mem_cons.mp h with rfl | h
      · exact .inr mem_cons_self
      · exact (ih h).imp_right (mem_cons_of_mem _)

theorem mem_keys_insertMember {α : Type} {value : α} {members : List (String × α)} :
    name ∈ (insertMember key value members).map (·.1) ↔ name = key ∨ name ∈ members.map (·.1) := by
  induction members with
  | nil => simp [insertMember]
  | cons _ _ ih =>
    rw [insertMember]
    split_ifs with hlt heq
    · simp
    · simp [heq]
    · rw [map_cons, mem_cons, ih, map_cons, mem_cons]
      exact or_left_comm

theorem mem_keys_ordered {α : Type} {members : List (String × α)} :
    name ∈ (ordered members).map (·.1) ↔ name ∈ members.map (·.1) := by
  suffices hfold : ∀ (members done : List (String × α)),
      name ∈ (members.foldl (fun ordered member => insertMember member.1 member.2 ordered)
        done).map (·.1) ↔ name ∈ members.map (·.1) ∨ name ∈ done.map (·.1) by
    simpa [ordered] using hfold _ []
  intro members
  induction members with
  | nil => simp
  | cons head members ih =>
    intro _
    rw [foldl_cons, ih, mem_keys_insertMember, map_cons, mem_cons]
    tauto

theorem mem_of_mem_ordered {α : Type} {members : List (String × α)} {member : String × α}
    (h : member ∈ ordered members) : member ∈ members := by
  suffices hfold : ∀ (members done : List _),
      member ∈ members.foldl (fun ordered member => insertMember member.1 member.2 ordered) done →
        member ∈ members ∨ member ∈ done by
    simpa using hfold _ [] h
  intro members
  induction members with
  | nil => exact fun _ => .inr
  | cons _ _ ih =>
    intro _ h
    rcases ih _ h with h | h
    · exact .inl (mem_cons_of_mem _ h)
    · rcases mem_insertMember h with rfl | h
      · exact .inl mem_cons_self
      · exact .inr h

namespace Writer

variable (writer : Writer)

/-- The characters of a number. -/
def IsNumeral (c : Char) : Prop := c.isDigit = true ∨ c ∈ ['+', '-', '.', 'e']

theorem isNumeral_of_mem_toString {n : ℕ} {c : Char} (h : c ∈ (toString n).toList) :
    IsNumeral c := by
  rw [Nat.toString_eq_repr, Nat.repr, String.toList_ofList] at h
  exact .inl (Nat.isDigit_of_mem_toDigits (by decide) (by decide) h)

theorem isNumeral_of_mem_number {n : Number} {c : Char} (h : c ∈ (writer.number n).toList) :
    IsNumeral c := by
  match n with
  | .posInt n => exact isNumeral_of_mem_toString h
  | .negInt (.ofNat n) => exact isNumeral_of_mem_toString h
  | .negInt (.negSucc n) =>
    have htext : (toString (Int.negSucc n)).toList = '-' :: (toString (n + 1)).toList := by
      change (("-" ++ Nat.repr (n + 1)).toList) = _
      simp
    rcases mem_cons.mp (htext ▸ h) with rfl | h
    · exact .inr (by decide)
    · exact isNumeral_of_mem_toString h
  | .float x => exact writer.numeral x c h

theorem printable_number (n : Number) : Printable (writer.number n).toList := by
  have hsigns : ∀ c ∈ ['+', '-', '.', 'e'], 0x20 ≤ c.toNat := by simp
  have hdigit : 0x20 ≤ '0'.toNat := by decide
  intro c hc
  rcases writer.isNumeral_of_mem_number hc with h | h
  · exact hdigit.trans (Char.isDigit_iff_toNat.mp h).1
  · exact hsigns c h

mutual

theorem printable_chars : ∀ json : Json, Printable (writer.chars json)
  | .null => by simp only [chars]; decide
  | .bool b => by cases b <;> simp only [chars] <;> decide
  | .number n => by rw [chars]; exact writer.printable_number n
  | .string s => by rw [chars]; exact printable_quote s
  | .array items => by
    rw [chars]
    simpa using printable_intersperse (printable_itemChars items)
  | .object members => by
    rw [chars]
    have hmembers : ∀ cs ∈ (ordered (writer.memberChars members)).map fun member =>
        quote member.1 ++ ':' :: member.2, Printable cs := by
      intro cs hcs
      obtain ⟨member, hmember, rfl⟩ := mem_map.mp hcs
      have hvalue := printable_memberChars members member (mem_of_mem_ordered hmember)
      simp [printable_quote, hvalue]
    simpa using printable_intersperse hmembers

theorem printable_itemChars : ∀ items : List Json, ∀ cs ∈ writer.itemChars items, Printable cs
  | [] => by simp [itemChars]
  | item :: items => by
    rw [itemChars, forall_mem_cons]
    exact ⟨printable_chars item, printable_itemChars items⟩

theorem printable_memberChars : ∀ members : List (String × Json),
    ∀ member ∈ writer.memberChars members, Printable member.2
  | [] => by simp [memberChars]
  | member :: members => by
    rw [memberChars, forall_mem_cons]
    exact ⟨printable_memberValueChars member, printable_memberChars members⟩

theorem printable_memberValueChars : ∀ member : String × Json,
    Printable (writer.memberValueChars member)
  | (_, value) => by
    rw [memberValueChars]
    exact printable_chars value

end

/-- Control characters are written as escapes. -/
theorem printable_write (json : Json) : Printable (writer.write json).toList := by
  rw [write, String.toList_ofList]
  exact writer.printable_chars json

end Writer

end RouteSmith.Json
