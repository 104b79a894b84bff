import RouteSmith.Numeric.F64

/-! # JSON trees with total access

The tree model of Jackson: a member that is not there reads as a missing node, and a node read as
a type it does not have reads as a default. A literal without fraction or exponent is kept as the
integer it is, any other number as a double.
-/

namespace RouteSmith

open Numeric

inductive JsonNode where
  | missing
  | null
  | boolean (b : Bool)
  | integer (n : ℤ)
  | double (x : F64)
  | text (s : String)
  | array (items : List JsonNode)
  | object (members : List (String × JsonNode))

/-- The members of an object, each name once, in the order they were put in. -/
abbrev ObjectNode := List (String × JsonNode)

namespace ObjectNode

def get? (node : ObjectNode) (field : String) : Option JsonNode :=
  (node.find? (·.1 = field)).map (·.2)

def has (node : ObjectNode) (field : String) : Bool := (node.get? field).isSome

/-- `put` and `set`: a member that is there is replaced where it stands. -/
def put (node : ObjectNode) (field : String) (value : JsonNode) : ObjectNode :=
  if node.has field then node.map fun m => if m.1 = field then (field, value) else m
  else node ++ [(field, value)]

def path (node : ObjectNode) (field : String) : JsonNode := (node.get? field).getD .missing

theorem get?_put_self (node : ObjectNode) (field : String) (value : JsonNode) :
    (node.put field value).get? field = some value := by
  unfold put
  split
  next h =>
    rw [has, get?, Option.isSome_map, List.find?_isSome] at h
    obtain ⟨m, hm, hfield⟩ := h
    induction node with
    | nil => cases hm
    | cons n node ih =>
      by_cases hn : n.1 = field
      · simp [get?, hn]
      · have hm : m ∈ node := (List.mem_cons.mp hm).resolve_left fun h =>
          hn (by simpa [h] using hfield)
        simpa [get?, hn] using ih hm
  next h =>
    rw [has, Option.not_isSome_iff_eq_none, get?, Option.map_eq_none_iff] at h
    simp [get?, h]

theorem get?_put_of_ne {field other : String} (h : other ≠ field) (node : ObjectNode)
    (value : JsonNode) : (node.put field value).get? other = node.get? other := by
  unfold put
  split
  next hhas =>
    clear hhas
    induction node with
    | nil => rfl
    | cons n node ih =>
      by_cases hn : n.1 = field
      · by_cases ho : n.1 = other
        · exact absurd (ho.symm.trans hn) h
        · simpa [get?, hn, symm h] using ih
      · by_cases ho : n.1 = other
        · simp [get?, ho, h]
        · simpa [get?, hn, ho] using ih
  · have hnone : [(field, value)].find? (fun m => decide (m.1 = other)) = none := by
      simp [symm h]
    rw [get?, get?, List.find?_append, hnone, Option.or_none]

/-- What a sequence of writes leaves of one field is what the last write to it has put there. -/
theorem get?_put (node : ObjectNode) (field other : String) (value : JsonNode) :
    (node.put field value).get? other = if other = field then some value else node.get? other := by
  split
  next h => rw [h, get?_put_self]
  · exact get?_put_of_ne ‹_› node _

end ObjectNode

namespace JsonNode

/-- What the reading and writing of texts makes of nodes and numbers. -/
structure Mapper where
  /-- `readTree`; nothing where the text is no JSON -/
  readTree : String → Option JsonNode
  /-- `writeValueAsString`, and `toString` of a node -/
  write : JsonNode → String
  doubleText : F64 → String
  /-- a text read as an integer -/
  parseAsInt : String → Option ℤ

def get? (field : String) : JsonNode → Option JsonNode
  | object members => ObjectNode.get? members field
  | _ => none

def path (field : String) (node : JsonNode) : JsonNode := (node.get? field).getD missing

/-- An element of an array. -/
def item (index : ℕ) : JsonNode → JsonNode
  | array items => items.getD index missing
  | _ => missing

/-- What an iteration over a node goes through: the elements of an array, the values of an
object. -/
def elements : JsonNode → List JsonNode
  | array items => items
  | object members => members.map (·.2)
  | _ => []

def isTextual : JsonNode → Bool
  | text _ => true
  | _ => false

def isArray : JsonNode → Bool
  | array _ => true
  | _ => false

/-- Explicitly null, or not there at all. -/
def isAbsent : JsonNode → Bool
  | null => true
  | missing => true
  | _ => false

def asText (mapper : Mapper) : JsonNode → String
  | text s => s
  | null => "null"
  | boolean b => if b then "true" else "false"
  | integer n => toString n
  | double x => mapper.doubleText x
  | _ => ""

def asTextOr (mapper : Mapper) (default : String) (node : JsonNode) : String :=
  if node.isAbsent then default else node.asText mapper

/-- The cast of a double to a 32-bit integer: truncating, saturating, with NaN at zero. -/
def intOfDouble : F64 → ℤ
  | .nan => 0
  | .inf negative => if negative then -2 ^ 31 else 2 ^ 31 - 1
  | .fin q => max (-2 ^ 31) (min (2 ^ 31 - 1) (if q < 0 then ⌈q⌉ else ⌊q⌋))

/-- `asInt`: of an integer the lowest 32 bits, with sign. -/
def asInt (mapper : Mapper) (default : ℤ) : JsonNode → ℤ
  | integer n => n.bmod (2 ^ 32)
  | double x => intOfDouble x
  | boolean b => if b then 1 else 0
  | text s => (mapper.parseAsInt s).getD default
  | _ => default

/-- A text without the control characters and blanks around it. -/
def trimmed (s : String) : List Char :=
  ((s.toList.dropWhile (·.toNat ≤ 0x20)).reverse.dropWhile (·.toNat ≤ 0x20)).reverse

def asBoolean (default : Bool) : JsonNode → Bool
  | boolean b => b
  | integer n => n ≠ 0
  | text s =>
    if trimmed s = "true".toList then true
    else if trimmed s = "false".toList then false
    else default
  | _ => default

end JsonNode

end RouteSmith
