import RouteSmith.Model.ProviderUrl
import RouteSmith.Text.Networks

/-! # Base URLs do not reach inside

A base URL whose host is an IP address is accepted only if the address lies outside the networks
that are not public, whatever way the address is written.
-/

namespace RouteSmith.Model

open Text List IpAddr

/-! ## The networks -/

/-- The private, link-local, unique-local and unspecified addresses. The metadata services at
169.254.169.254, which the source names, and fd00:ec2::254 lie in networks listed before them; those
elsewhere are not here. -/
def internalNetworks : List (IpAddr × ℕ) :=
  [(.v4 [10, 0, 0, 0], 8), (.v4 [172, 16, 0, 0], 12), (.v4 [192, 168, 0, 0], 16),
    (.v4 [169, 254, 0, 0], 16), (.v6 [0xFE80, 0, 0, 0, 0, 0, 0, 0], 10),
    (.v6 [0xFC00, 0, 0, 0, 0, 0, 0, 0], 7),
    (.v4 [0, 0, 0, 0], 32), (.v6 [0, 0, 0, 0, 0, 0, 0, 0], 128),
    (.v4 [169, 254, 169, 254], 32), (.v6 [0xFD00, 0xEC2, 0, 0, 0, 0, 0, 0x254], 128)]

def loopbackNetworks : List (IpAddr × ℕ) :=
  [(.v4 [127, 0, 0, 0], 8), (.v6 [0, 0, 0, 0, 0, 0, 0, 1], 128)]

def LiesIn (networks : List (IpAddr × ℕ)) (addr : IpAddr) : Prop :=
  ∃ network ∈ networks, network.1.InNetwork network.2 addr

theorem value_v4 (a b c d : ℕ) : (v4 [a, b, c, d]).value = ((a * 256 + b) * 256 + c) * 256 + d := by
  simp [value, ofDigits]

theorem value_v6 (s t u v w x y z : ℕ) : (v6 [s, t, u, v, w, x, y, z]).value =
      ((((((s * 65536 + t) * 65536 + u) * 65536 + v) * 65536 + w) * 65536 + x) * 65536 + y) *
        65536 + z := by
  simp [value, ofDigits]

theorem privateOrMetadataIpv4_of_liesIn {octets : List ℕ} (hwf : (v4 octets).WellFormed)
    (h : LiesIn (internalNetworks ++ loopbackNetworks) (.v4 octets)) :
    privateOrMetadataIpv4 octets = true := by
  obtain ⟨hlength, hsmall⟩ := hwf
  match octets, hlength with
  | [a, b, c, d], _ =>
    simp only [mem_cons, forall_eq_or_imp] at hsmall
    simp only [LiesIn, internalNetworks, loopbackNetworks, InNetwork, sameFamily, cons_append,
      nil_append, mem_cons, not_mem_nil, or_false, exists_eq_or_imp, exists_eq_left, value_v4,
      bits, Bool.false_eq_true, false_and, false_or] at h
    rcases h with h | h | h | h | h | h | h
    · obtain rfl : a = 10 := by omega
      rfl
    · obtain ⟨rfl, hb⟩ : a = 172 ∧ 16 ≤ b ∧ b ≤ 31 := by omega
      simp [privateOrMetadataIpv4, isPrivateIpv4, hb]
    · obtain ⟨rfl, rfl⟩ : a = 192 ∧ b = 168 := by omega
      rfl
    · obtain ⟨rfl, rfl⟩ : a = 169 ∧ b = 254 := by omega
      rfl
    · obtain ⟨rfl, rfl, rfl, rfl⟩ : a = 0 ∧ b = 0 ∧ c = 0 ∧ d = 0 := by omega
      rfl
    · obtain ⟨rfl, rfl, rfl, rfl⟩ : a = 169 ∧ b = 254 ∧ c = 169 ∧ d = 254 := by omega
      rfl
    · obtain rfl : a = 127 := by omega
      rfl

/-- The two tests of the first segment of an IPv6 address cover their networks. -/
theorem masks_cover (s : ℕ) :
    (s / 512 = 126 → s &&& 0xFE00 = 0xFC00) ∧ (s / 64 = 1018 → s &&& 0xFFC0 = 0xFE80) := by
  have hunique : ∀ r < 512, (64512 + r) &&& 0xFE00 = 0xFC00 := by decide +kernel
  have hlink : ∀ r < 64, (65152 + r) &&& 0xFFC0 = 0xFE80 := by decide
  constructor
  · intro h
    obtain ⟨r, hr, rfl⟩ : ∃ r < 512, s = 64512 + r := ⟨s - 64512, by omega⟩
    exact hunique r hr
  · intro h
    obtain ⟨r, hr, rfl⟩ : ∃ r < 64, s = 65152 + r := ⟨s - 65152, by omega⟩
    exact hlink r hr

theorem privateOrMetadataIpv6_of_liesIn {segments : List ℕ} (hwf : (v6 segments).WellFormed)
    (h : LiesIn (internalNetworks ++ loopbackNetworks) (.v6 segments)) :
    (isLoopback (.v6 segments) || segments = replicate 8 0 || ipv6IsUniqueLocal segments ||
      ipv6IsUnicastLinkLocal segments) = true := by
  obtain ⟨hlength, hsmall⟩ := hwf
  match segments, hlength with
  | [s, t, u, v, w, x, y, z], _ =>
    simp only [mem_cons, forall_eq_or_imp] at hsmall
    simp only [LiesIn, internalNetworks, loopbackNetworks, InNetwork, sameFamily, cons_append,
      nil_append, mem_cons, not_mem_nil, or_false, exists_eq_or_imp, exists_eq_left, value_v6,
      bits, Bool.false_eq_true, false_and, false_or] at h
    obtain ⟨hunique, hlink⟩ := masks_cover s
    simp only [Bool.or_eq_true]
    rcases h with h | h | h | h | h
    · exact .inr (decide_eq_true (hlink (by omega)))
    · exact .inl (.inr (decide_eq_true (hunique (by omega))))
    · obtain ⟨⟨rfl, rfl, rfl, rfl⟩, rfl, rfl, rfl, rfl⟩ :
          (s = 0 ∧ t = 0 ∧ u = 0 ∧ v = 0) ∧ w = 0 ∧ x = 0 ∧ y = 0 ∧ z = 0 := by omega
      exact .inl (.inl (.inr rfl))
    · exact .inl (.inr (decide_eq_true (hunique (by omega))))
    · obtain ⟨⟨rfl, rfl, rfl, rfl⟩, rfl, rfl, rfl, rfl⟩ :
          (s = 0 ∧ t = 0 ∧ u = 0 ∧ v = 0) ∧ w = 0 ∧ x = 0 ∧ y = 0 ∧ z = 1 := by omega
      exact .inl (.inl (.inl rfl))

variable {addr : IpAddr} {host providerId : String}

theorem privateOrMetadataIp_of_liesIn (hwf : addr.WellFormed)
    (h : LiesIn (internalNetworks ++ loopbackNetworks) addr.unmapped) :
    privateOrMetadataIp addr = true := by
  cases addr with
  | v4 => exact privateOrMetadataIpv4_of_liesIn hwf h
  | v6 segments =>
    rw [privateOrMetadataIp]
    cases hmapped : toIpv4Mapped segments with
    | some octets =>
      have hunmapped : (v6 segments).unmapped = .v4 octets := by
        unfold toIpv4Mapped at hmapped
        split at hmapped
        · cases hmapped
          rfl
        · cases hmapped
      have hwf' := hwf.unmapped
      rw [hunmapped] at h hwf'
      exact privateOrMetadataIpv4_of_liesIn hwf' h
    | none =>
      have hunmapped : (v6 segments).unmapped = .v6 segments := by
        unfold unmapped
        split
        next heq =>
          cases heq
          cases hmapped
        · rfl
      rw [hunmapped] at h
      exact privateOrMetadataIpv6_of_liesIn hwf h

/-! ## The policy -/

/-- Local, custom and CPA providers may have a loopback base URL. -/
def MayUseLoopback (providerId : String) : Prop :=
  providerAllowsLoopbackBaseUrl providerId = true ∨ startsWith providerId "cpa_" = true

/-- The parser writes an IP address so that the same address is read back from its text without
brackets. -/
def UrlEnv.WritesAddresses (env : UrlEnv) : Prop :=
  ∀ baseUrl url addr text, env.parse baseUrl = .ok url → url.host = some (.ip addr text) →
    IpAddr.parse (bareHost text) = some addr

theorem mayUseLoopback_of_permitted (h : (providerAllowsLoopbackBaseUrl providerId ||
      providerAllowsTrustedInternalHttp providerId host) = true) : MayUseLoopback providerId := by
  rcases Bool.or_eq_true_iff.mp h with h | h
  · exact .inl h
  · exact .inr (Bool.and_eq_true_iff.mp h).1

theorem lowercase_cases {c d : Char}
    (h : (if 'A' ≤ c && c ≤ 'Z' then .ofNat (c.toNat + 32) else c) = d) :
    c = d ∨ c = .ofNat (d.toNat - 32) := by
  split_ifs at h with hupper
  · simp only [Bool.and_eq_true, decide_eq_true_eq] at hupper
    have hhigh : c.toNat ≤ 90 := hupper.2
    have hnat : (Char.ofNat (c.toNat + 32)).toNat = c.toNat + 32 := by
      rw [Char.ofNat, dif_pos (.inl (by omega))]
      rfl
    rw [← h, hnat, Nat.add_sub_cancel, Char.ofNat_toNat]
    exact .inr rfl
  · exact .inl h

theorem parse_name {name : String} (hname : name ∈ ["localhost", "host.docker.internal"])
    (h : eqIgnoreAsciiCase host name = true) : parse host = none := by
  have hmap := congrArg String.toList (beq_iff_eq.mp h)
  rw [toAsciiLowercase, toAsciiLowercase, String.toList_ofList] at hmap
  rcases mem_pair.mp hname with rfl | rfl <;> cases hcs : host.toList <;> rw [hcs] at hmap
  case inl.nil | inr.nil => cases hmap
  case inl.cons | inr.cons =>
    rcases lowercase_cases (cons.inj hmap).1 with rfl | rfl <;>
      exact parse_eq_none_of_head hcs (by decide) (by decide) (by decide)

theorem not_internal_of_isLoopback (hwf : addr.WellFormed) (h : isLoopback addr = true) :
    ¬LiesIn internalNetworks addr.unmapped := by
  cases addr with
  | v4 octets =>
    obtain ⟨hlength, hsmall⟩ := hwf
    match octets, hlength with
    | [a, b, c, d], _ =>
      simp only [mem_cons, forall_eq_or_imp] at hsmall
      simp only [isLoopback, head?_cons, Option.some.injEq, decide_eq_true_eq] at h
      simp only [unmapped, LiesIn, internalNetworks, InNetwork, sameFamily, mem_cons, not_mem_nil,
        or_false, exists_eq_or_imp, exists_eq_left, value_v4, bits, Bool.false_eq_true, false_and,
        false_or]
      omega
  | v6 segments =>
    obtain rfl := of_decide_eq_true h
    unfold LiesIn
    decide

/-- A host that is accepted with private URLs not allowed is a loopback address of a provider that
may have one, or passes the test of its address. -/
theorem validateHost_ok {env : UrlEnv} {scheme : String}
    (hok : validateHost env providerId scheme host false = .ok ())
    (haddr : parse host = some addr) :
    isLoopback addr = true ∧ MayUseLoopback providerId ∨ privateOrMetadataIp addr = false := by
  have hname : ¬eqIgnoreAsciiCase host "localhost" = true := fun h => by
    rw [parse_name mem_cons_self h] at haddr
    cases haddr
  unfold validateHost at hok
  rw [haddr] at hok
  dsimp only at hok
  split_ifs at hok with hhttp hfalse hloopback hprivate
  · exact hfalse.elim
  · obtain ⟨hloopback, hpermitted⟩ := Bool.and_eq_true_iff.mp hloopback
    exact .inl ⟨hloopback, mayUseLoopback_of_permitted hpermitted⟩
  · exact .inr (Bool.eq_false_iff.mpr hprivate)

/-- An accepted base URL whose host is an IP address, however it is written, does not lead to an
internal address, and to a loopback address only for the providers that may have one. -/
theorem accepted_base_url_outside {env : UrlEnv} (henv : env.WritesAddresses)
    {providerId baseUrl : String}
    (hok : validateProviderBaseUrlPolicy env providerId baseUrl false = .ok ()) {url : ParsedUrl}
    {addr : IpAddr} {text : String} (hurl : env.parse baseUrl = .ok url)
    (hhost : url.host = some (.ip addr text)) :
    ¬LiesIn internalNetworks addr.unmapped ∧
      (LiesIn loopbackNetworks addr.unmapped → MayUseLoopback providerId) := by
  have haddr := henv _ url addr text hurl hhost
  have hwf := parse_wellFormed haddr
  unfold validateProviderBaseUrlPolicy at hok
  rw [hurl] at hok
  dsimp only at hok
  rw [hhost] at hok
  dsimp only at hok
  split_ifs at hok
  have hcovers : ∀ {networks}, networks ⊆ internalNetworks ++ loopbackNetworks →
      LiesIn networks addr.unmapped → privateOrMetadataIp addr = true := by
    rintro _ hsub ⟨network, hnetwork, hin⟩
    exact privateOrMetadataIp_of_liesIn hwf ⟨network, hsub hnetwork, hin⟩
  rcases validateHost_ok hok haddr with ⟨hloopback, hmay⟩ | hpublic
  · exact ⟨not_internal_of_isLoopback hwf hloopback, fun _ => hmay⟩
  · refine ⟨fun h => ?_, fun h => ?_⟩
    · rw [hcovers (subset_append_left _ _) h] at hpublic
      cases hpublic
    · rw [hcovers (subset_append_right _ _) h] at hpublic
      cases hpublic

/-- A parser that knows three URLs. -/
def sampleUrlEnv : UrlEnv where
  parse
    | "https://[::ffff:808:808]/v1" => .ok {
        scheme := "https"
        host := some (.ip (.v6 [0, 0, 0, 0, 0, 0xFFFF, 0x808, 0x808]) "[::ffff:808:808]") }
    | "http://0x7f.1/v1" => .ok {
        scheme := "http", host := some (.ip (.v4 [127, 0, 0, 1]) "127.0.0.1") }
    | "https://100.100.100.200/v1" => .ok {
        scheme := "https", host := some (.ip (.v4 [100, 100, 100, 200]) "100.100.100.200") }
    | _ => .error "invalid domain character"
  displayIp _ := ""
  insecureProviderHttp := false

theorem sample_base_urls_outside : ¬LiesIn internalNetworks (.v4 [8, 8, 8, 8]) ∧
      LiesIn loopbackNetworks (.v4 [127, 0, 0, 1]) ∧ MayUseLoopback "ollama" := by
  have henv : sampleUrlEnv.WritesAddresses := by
    intro _ _ _ _ hurl hhost
    unfold sampleUrlEnv at hurl
    dsimp only at hurl
    split at hurl
    case h_1 | h_2 | h_3 =>
      cases hurl
      cases hhost
      decide
    case h_4 => cases hurl
  have hloopback : LiesIn loopbackNetworks (.v4 [127, 0, 0, 1]) := by
    unfold LiesIn
    decide
  have hgoogle : validateProviderBaseUrlPolicy sampleUrlEnv "openai" "https://[::ffff:808:808]/v1"
      false = .ok () := by
    decide
  have hollama : validateProviderBaseUrlPolicy sampleUrlEnv "ollama" "http://0x7f.1/v1" false =
      .ok () := by
    decide
  exact ⟨(accepted_base_url_outside henv hgoogle rfl rfl).1, hloopback,
    (accepted_base_url_outside henv hollama rfl rfl).2 hloopback⟩

/-- The metadata service of a cloud that has it at a public address is accepted. -/
theorem metadata_base_url_accepted :
    (∃ url, sampleUrlEnv.parse "https://100.100.100.200/v1" = .ok url ∧
      url.host = some (.ip (.v4 [100, 100, 100, 200]) "100.100.100.200")) ∧
    validateProviderBaseUrlPolicy sampleUrlEnv "openai" "https://100.100.100.200/v1" false =
      .ok () :=
  ⟨⟨_, rfl, rfl⟩, by decide⟩

/-! ## Plain HTTP -/

/-- The hosts that plain HTTP is meant for. -/
def StaysInside (providerId host : String) : Prop :=
  eqIgnoreAsciiCase host "localhost" = true ∨
    eqIgnoreAsciiCase host "host.docker.internal" = true ∨
    (∃ addr, parse host = some addr ∧ isLoopback addr = true) ∨
    startsWith providerId "cpa_" = true ∧ parse host = none ∧ '.' ∉ host.toList

theorem providerAllowsLoopbackBaseUrl_cpa (h : startsWith providerId "cpa_" = true) :
    providerAllowsLoopbackBaseUrl providerId = false := by
  obtain ⟨_, hrest⟩ := isPrefixOf_iff_prefix.mp h
  rw [providerAllowsLoopbackBaseUrl, startsWith, ← hrest, Bool.or_eq_false_iff]
  refine ⟨rfl, Bool.eq_false_iff.mpr fun hlisted => ?_⟩
  have hother : ∀ id ∈ ["custom", "ollama", "local_sglang", "local_vllm", "local_llamacpp"],
      startsWith id "cpa_" = false := by decide
  cases h.symm.trans (hother _ (contains_iff_mem.mp hlisted))

/-- An accepted URL with plain HTTP stays inside iff an IP address in it is a loopback address, and
the host name of a local or custom provider is one of the two that stand for this machine. -/
theorem plain_http_inside_iff {env : UrlEnv} {baseUrl : String} {url : ParsedUrl} {host : UrlHost}
    (hsecure : env.insecureProviderHttp = false)
    (hok : validateProviderBaseUrlPolicy env providerId baseUrl false = .ok ())
    (hurl : env.parse baseUrl = .ok url) (hscheme : url.scheme = "http")
    (hhost : url.host = some host) : StaysInside providerId (bareHost host.text) ↔
      (∀ addr, parse (bareHost host.text) = some addr → isLoopback addr = true) ∧
        (providerAllowsLoopbackBaseUrl providerId = true → parse (bareHost host.text) = none →
          eqIgnoreAsciiCase (bareHost host.text) "localhost" = true ∨
            eqIgnoreAsciiCase (bareHost host.text) "host.docker.internal" = true) := by
  unfold validateProviderBaseUrlPolicy at hok
  rw [hurl] at hok
  dsimp only at hok
  rw [hhost] at hok
  dsimp only at hok
  split_ifs at hok
  generalize bareHost host.text = host at hok
  rw [validateHost, hscheme, hsecure] at hok
  have hpermitted : (providerAllowsLoopbackBaseUrl providerId ||
      providerAllowsTrustedInternalHttp providerId host) = true := by
    by_contra hnot
    rw [if_pos (by simp [hnot])] at hok
    cases hok
  constructor
  · rintro (hname | hname | ⟨_, haddr, hloopback⟩ | ⟨hcpa, hnone, -⟩)
    · refine ⟨fun _ h => ?_, fun _ _ => .inl hname⟩
      cases (parse_name mem_cons_self hname).symm.trans h
    · refine ⟨fun _ h => ?_, fun _ _ => .inr hname⟩
      cases (parse_name (mem_cons_of_mem _ mem_cons_self) hname).symm.trans h
    · refine ⟨fun _ h => ?_, fun _ h => nomatch haddr.symm.trans h⟩
      cases haddr.symm.trans h
      exact hloopback
    · refine ⟨fun _ h => (nomatch hnone.symm.trans h), fun h => ?_⟩
      cases (providerAllowsLoopbackBaseUrl_cpa hcpa).symm.trans h
  · rintro ⟨haddr, hname⟩
    cases hparse : parse host with
    | some addr => exact .inr (.inr (.inl ⟨addr, hparse, haddr addr hparse⟩))
    | none =>
      by_cases hlocal : providerAllowsLoopbackBaseUrl providerId = true
      · exact (hname hlocal hparse).imp_right .inl
      · simp [hlocal, providerAllowsTrustedInternalHttp, hparse] at hpermitted
        obtain ⟨hcpa, (hname | hname) | hdots⟩ := hpermitted
        · exact .inl hname
        · exact .inr (.inl hname)
        · exact .inr (.inr (.inr ⟨hcpa, hparse, hdots⟩))

theorem loopback_stays_inside : StaysInside "ollama" (bareHost "127.0.0.1") := by
  have haddr : parse (bareHost "127.0.0.1") = some (.v4 [127, 0, 0, 1]) := by decide
  refine (@plain_http_inside_iff "ollama" sampleUrlEnv "http://0x7f.1/v1" _ _ rfl
    (by decide) rfl rfl rfl).mpr ⟨fun _ h => ?_, fun _ h => nomatch haddr.symm.trans h⟩
  cases haddr.symm.trans h
  rfl

/-- Knows a public IPv6 address only. -/
def publicUrlEnv : UrlEnv where
  parse _ := .ok { scheme := "http", host := some (.ip
    (.v6 [0x2001, 0x4860, 0x4860, 0, 0, 0, 0, 0x8888]) "[2001:4860:4860::8888]") }
  displayIp _ := ""
  insecureProviderHttp := false

/-- A CPA provider gets plain HTTP to a public IPv6 address, whose text has no dots. -/
theorem plain_http_to_public_ipv6 : validateProviderBaseUrlPolicy publicUrlEnv "cpa_codex"
      "http://[2001:4860:4860::8888]:8317/v1" false = .ok () ∧
    ¬StaysInside "cpa_codex" (bareHost "[2001:4860:4860::8888]") := by
  have haddr : parse (bareHost "[2001:4860:4860::8888]") =
    some (.v6 [0x2001, 0x4860, 0x4860, 0, 0, 0, 0, 0x8888]) := by decide
  refine ⟨by decide, ?_⟩
  rintro (h | h | ⟨_, h, hloopback⟩ | ⟨-, h, -⟩)
  · exact absurd h (by decide)
  · exact absurd h (by decide)
  · cases haddr.symm.trans h
    cases hloopback
  · cases haddr.symm.trans h

end RouteSmith.Model
