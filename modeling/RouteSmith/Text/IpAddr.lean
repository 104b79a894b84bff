import Mathlib.Data.List.Basic

/-! # IP addresses

The textual forms accepted by `std::net::IpAddr`: dotted decimal without leading zeros, and
hexadecimal groups with at most one `::` and an optional trailing dotted-decimal part.
-/

namespace RouteSmith.Text

inductive IpAddr where
  | v4 (octets : List ℕ)
  | v6 (segments : List ℕ)
  deriving DecidableEq

namespace IpAddr

/-- A parser step: the value read and the characters left. -/
abbrev Reader (α : Type) := List Char → Option (α × List Char)

def digitValue (radix : ℕ) (c : Char) : Option ℕ :=
  let n := c.toNat
  let value :=
    if '0' ≤ c && c ≤ '9' then n - 48
    else if 'a' ≤ c && c ≤ 'f' then n - 87
    else if 'A' ≤ c && c ≤ 'F' then n - 55
    else radix
  if value < radix then some value else none

/-- The digits at the front, with the characters after them. -/
def readDigits (radix : ℕ) : List Char → List ℕ × List Char
  | [] => ([], [])
  | c :: cs =>
    match digitValue radix c with
    | none => ([], c :: cs)
    | some d => let (ds, rest) := readDigits radix cs; (d :: ds, rest)

/-- `read_number`: at most `maxDigits` digits and a value of at most `limit`. -/
def readNumber (radix maxDigits limit : ℕ) (allowZeroPrefix : Bool) : Reader ℕ := fun cs =>
  let (ds, rest) := readDigits radix cs
  let value := ds.foldl (fun acc d => acc * radix + d) 0
  if ds.isEmpty || maxDigits < ds.length || limit < value then none
  else if !allowZeroPrefix && ds.head? == some 0 && 1 < ds.length then none
  else some (value, rest)

/-- `read_separator`: the separator is required before every item but the first. -/
def readSeparator {α : Type} (sep : Char) (index : ℕ) (inner : Reader α) : Reader α := fun cs =>
  if index = 0 then inner cs
  else match cs with
    | [] => none
    | c :: cs => if c == sep then inner cs else none

def readIpv4 : Reader (List ℕ) := fun cs => do
  let octet := readNumber 10 3 255 false
  let (a, cs) ← octet cs
  let (b, cs) ← readSeparator '.' 1 octet cs
  let (c, cs) ← readSeparator '.' 1 octet cs
  let (d, cs) ← readSeparator '.' 1 octet cs
  return ([a, b, c, d], cs)

/-- `read_groups` into `slots` places starting at `index`: the segments read, whether the
last two came from an embedded IPv4 address, and the characters left. -/
def readGroups : (slots index : ℕ) → List Char → List ℕ × Bool × List Char
  | 0, _, cs => ([], false, cs)
  | slots + 1, index, cs =>
    let embedded := if 0 < slots then readSeparator ':' index readIpv4 cs else none
    match embedded with
    | some ([a, b, c, d], rest) => ([a * 256 + b, c * 256 + d], true, rest)
    | _ =>
      match readSeparator ':' index (readNumber 16 4 0xFFFF true) cs with
      | none => ([], false, cs)
      | some (group, rest) =>
        let (groups, ipv4, rest) := readGroups slots (index + 1) rest
        (group :: groups, ipv4, rest)

def readIpv6 : Reader (List ℕ) := fun cs =>
  let (head, headIpv4, rest) := readGroups 8 0 cs
  if head.length = 8 then some (head, rest)
  else if headIpv4 then none
  else match rest with
    | ':' :: ':' :: rest =>
      let (tail, _, rest) := readGroups (8 - (head.length + 1)) 0 rest
      some (head ++ List.replicate (8 - head.length - tail.length) 0 ++ tail, rest)
    | _ => none

def parse (s : String) : Option IpAddr :=
  match readIpv4 s.toList with
  | some (octets, rest) => if rest.isEmpty then some (v4 octets) else none
  | none =>
    match readIpv6 s.toList with
    | some (segments, rest) => if rest.isEmpty then some (v6 segments) else none
    | none => none

end IpAddr

end RouteSmith.Text
