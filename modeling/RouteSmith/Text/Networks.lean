import RouteSmith.Text.IpAddr
import Mathlib.Tactic.Ring
import Mathlib.Tactic.IntervalCases

/-! # Networks of IP addresses

An address as a number of 32 or 128 bits, and the addresses that share their first bits with a
given one. What the parser accepts is an address of one of the two sizes.
-/

namespace RouteSmith.Text

open List

namespace IpAddr

/-- The digits of a number, the first one first. -/
def ofDigits (base : ℕ) (digits : List ℕ) : ℕ := digits.foldl (fun acc d => acc * base + d) 0

def bits : IpAddr → ℕ
  | v4 _ => 32
  | v6 _ => 128

def value : IpAddr → ℕ
  | v4 octets => ofDigits 256 octets
  | v6 segments => ofDigits 65536 segments

def sameFamily : IpAddr → IpAddr → Bool
  | v4 _, v4 _ => true
  | v6 _, v6 _ => true
  | _, _ => false

/-- The address lies in the network of those that agree with `base` in the first `len` bits. -/
def InNetwork (base : IpAddr) (len : ℕ) (addr : IpAddr) : Prop :=
  sameFamily base addr = true ∧
    addr.value / 2 ^ (base.bits - len) = base.value / 2 ^ (base.bits - len)

instance (base : IpAddr) (len : ℕ) (addr : IpAddr) : Decidable (InNetwork base len addr) :=
  inferInstanceAs (Decidable (_ ∧ _))

/-- An IPv4-mapped IPv6 address is read as the IPv4 address in it. -/
def unmapped : IpAddr → IpAddr
  | v6 [0, 0, 0, 0, 0, 0xFFFF, ab, cd] => v4 [ab / 256, ab % 256, cd / 256, cd % 256]
  | addr => addr

/-! ## What the parser accepts -/

def WellFormed : IpAddr → Prop
  | v4 octets => octets.length = 4 ∧ ∀ n ∈ octets, n < 256
  | v6 segments => segments.length = 8 ∧ ∀ n ∈ segments, n < 65536

variable {limit maxDigits radix : ℕ} {allowZeroPrefix : Bool} {cs rest : List Char}

variable {n : ℕ} {s : String} {addr : IpAddr} {c : Char}

theorem readNumber_le (h : readNumber radix maxDigits limit allowZeroPrefix cs = some (n, rest)) :
    n ≤ limit := by
  unfold readNumber at h
  dsimp only at h
  split_ifs at h with hbad
  cases h
  simp only [Bool.or_eq_true, decide_eq_true_eq, not_or, not_lt] at hbad
  exact hbad.2

theorem readSeparator_le {index : ℕ} {sep : Char}
    (h : readSeparator sep index (readNumber radix maxDigits limit allowZeroPrefix) cs =
      some (n, rest)) : n ≤ limit := by
  unfold readSeparator at h
  split_ifs at h
  · exact readNumber_le h
  · split at h
    · cases h
    · split_ifs at h
      exact readNumber_le h

theorem readIpv4_wellFormed {octets : List ℕ} (h : readIpv4 cs = some (octets, rest)) :
    (v4 octets).WellFormed := by
  simp only [readIpv4, Option.bind_eq_bind, Option.bind_eq_some_iff, Prod.exists] at h
  obtain ⟨a, _, ha, b, _, hb, c, _, hc, d, _, hd, rfl, -⟩ := h
  refine ⟨rfl, ?_⟩
  have hle := readNumber_le ha
  have hle := readSeparator_le hb
  have hle := readSeparator_le hc
  have hle := readSeparator_le hd
  simp only [mem_cons, not_mem_nil, or_false]
  omega

theorem readGroups_wellFormed (slots index : ℕ) (cs : List Char) :
    (readGroups slots index cs).1.length ≤ slots ∧
      ∀ n ∈ (readGroups slots index cs).1, n < 65536 := by
  induction slots generalizing index cs with
  | zero => exact ⟨le_refl 0, nofun⟩
  | succ slots ih =>
    rw [readGroups]
    split
    next a b c d rest hembedded =>
      split_ifs at hembedded
      have hwf : (v4 [a, b, c, d]).WellFormed := by
        unfold readSeparator at hembedded
        split_ifs at hembedded
        · exact readIpv4_wellFormed hembedded
        · split at hembedded
          · cases hembedded
          · split_ifs at hembedded
            exact readIpv4_wellFormed hembedded
      simp only [WellFormed, mem_cons, forall_eq_or_imp] at hwf
      simp only [length_cons, length_nil, mem_cons, not_mem_nil, or_false,
        forall_eq_or_imp, forall_eq]
      omega
    · split
      · exact ⟨Nat.zero_le _, nofun⟩
      next group rest hgroup =>
        have hle := readSeparator_le hgroup
        obtain ⟨hlength, hsmall⟩ := ih _ rest
        exact ⟨Nat.succ_le_succ hlength, forall_mem_cons.mpr ⟨by omega, hsmall⟩⟩

theorem readIpv6_wellFormed {segments : List ℕ} (h : readIpv6 cs = some (segments, rest)) :
    (v6 segments).WellFormed := by
  obtain ⟨hlength, hsmall⟩ := readGroups_wellFormed 8 0 cs
  unfold readIpv6 at h
  dsimp only at h
  split_ifs at h with hfull
  · cases h
    exact ⟨hfull, hsmall⟩
  · split at h
    next tail _ =>
      cases h
      obtain ⟨htail, hsmall'⟩ :=
        readGroups_wellFormed (8 - ((readGroups 8 0 cs).1.length + 1)) 0 tail
      constructor
      · simp only [length_append, length_replicate]
        omega
      · refine forall_mem_append.mpr ⟨forall_mem_append.mpr ⟨hsmall, fun n hn => ?_⟩, hsmall'⟩
        rw [eq_of_mem_replicate hn]
        decide
    · cases h

theorem parse_wellFormed (h : parse s = some addr) : addr.WellFormed := by
  unfold parse at h
  split at h
  next octets rest hread =>
    split_ifs at h
    cases h
    exact readIpv4_wellFormed hread
  · split at h
    next segments rest hread =>
      split_ifs at h
      cases h
      exact readIpv6_wellFormed hread
    · cases h

theorem readNumber_eq_none (hc : digitValue radix c = none) (cs : List Char) :
    readNumber radix maxDigits limit allowZeroPrefix (c :: cs) = none := by
  simp [readNumber, readDigits, hc]

theorem parse_eq_none_of_head (hs : s.toList = c :: cs) (hdecimal : digitValue 10 c = none)
    (hhex : digitValue 16 c = none) (hc : c ≠ ':') : parse s = none := by
  have hipv4 : readIpv4 (c :: cs) = none := by
    simp [readIpv4, readNumber_eq_none hdecimal]
  have hgroups : readGroups 8 0 (c :: cs) = ([], false, c :: cs) := by
    rw [readGroups]
    simp [readSeparator, hipv4, readNumber_eq_none hhex]
  have hipv6 : readIpv6 (c :: cs) = none := by
    unfold readIpv6
    rw [hgroups]
    simp only [length_nil, OfNat.zero_ne_ofNat, if_false, Bool.false_eq_true]
    split
    next heq =>
      cases heq
      exact absurd rfl hc
    · rfl
  rw [parse, hs, hipv4, hipv6]

theorem WellFormed.unmapped (h : addr.WellFormed) : addr.unmapped.WellFormed := by
  unfold IpAddr.unmapped
  split
  next ab cd =>
    have hab := h.2 ab (by simp)
    have hcd := h.2 cd (by simp)
    refine ⟨rfl, ?_⟩
    simp only [mem_cons, not_mem_nil, or_false]
    omega
  · exact h

end IpAddr

end RouteSmith.Text
