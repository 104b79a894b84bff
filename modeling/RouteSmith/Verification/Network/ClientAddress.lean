import RouteSmith.Model.ClientAddress

/-! # Whom a forwarded address depends on

The address of a client is the last one in the chain of forwarded addresses that is no trusted
proxy. What stands to the left of it is the client's own and must not matter.
-/

namespace RouteSmith.Model

open Text List IpAddr

/-! ## Addresses with ports and brackets -/

/-- The textual forms in which proxies write an address, and whether it stands in brackets. -/
inductive AddressForm : String → IpAddr → (bracketed : Bool) → Prop
  | plain {text : String} {ip : IpAddr} (h : IpAddr.parse text = some ip) :
    AddressForm text ip false
  | withPort {text port : String} {octets : List ℕ} (h : IpAddr.parse text = some (.v4 octets))
    (hport : port.toList.all Char.isDigit = true) :
    AddressForm (text ++ ":" ++ port) (.v4 octets) false
  | bracketed {text : String} {segments : List ℕ} (h : IpAddr.parse text = some (.v6 segments)) :
    AddressForm ("[" ++ text ++ "]") (.v6 segments) true
  | bracketedWithPort {text port : String} {segments : List ℕ}
    (h : IpAddr.parse text = some (.v6 segments)) (hport : port.toList.all Char.isDigit = true) :
    AddressForm ("[" ++ text ++ "]:" ++ port) (.v6 segments) true

/-- An entry of the header that stands for an address. -/
structure Denotes (text : String) (ip : IpAddr) (bracketed : Bool) : Prop where
  form : AddressForm (trim text) ip bracketed
  visible : text.toList.all isVisibleAscii = true
  entry : ',' ∉ text.toList

theorem readDigits_append {radix : ℕ} {c : Char} (hc : digitValue radix c = none)
    (cs more : List Char) :
    readDigits radix (cs ++ c :: more) =
      ((readDigits radix cs).1, (readDigits radix cs).2 ++ c :: more) := by
  induction cs with
  | nil => simp [readDigits, hc]
  | cons d cs ih =>
    rw [cons_append, readDigits, readDigits]
    cases digitValue radix d with
    | none => rfl
    | some =>
      rw [ih]

variable {cs rest : List Char} {octets : List ℕ} {port text : String} {sep : Char}
  {entries : List String}

theorem readOctet_append {n : ℕ} (h : readNumber 10 3 255 false cs = some (n, rest))
    (more : List Char) :
    readNumber 10 3 255 false (cs ++ ':' :: more) = some (n, rest ++ ':' :: more) := by
  unfold readNumber at h ⊢
  rw [readDigits_append (by decide)]
  dsimp only at h ⊢
  split_ifs at h ⊢
  cases h
  rfl

theorem readSeparator_append {n : ℕ}
    (h : readSeparator '.' 1 (readNumber 10 3 255 false) cs = some (n, rest))
    (more : List Char) :
    readSeparator '.' 1 (readNumber 10 3 255 false) (cs ++ ':' :: more) =
      some (n, rest ++ ':' :: more) := by
  cases cs with
  | nil => cases h
  | cons =>
    unfold readSeparator at h ⊢
    rw [if_neg one_ne_zero] at h ⊢
    dsimp only [cons_append] at h ⊢
    split_ifs at h ⊢
    exact readOctet_append h more

theorem readIpv4_append (h : readIpv4 cs = some (octets, rest)) (more : List Char) :
    readIpv4 (cs ++ ':' :: more) = some (octets, rest ++ ':' :: more) := by
  simp only [readIpv4, Option.bind_eq_bind, Option.bind_eq_some_iff, Prod.exists,
    Option.pure_def, Option.some.injEq, Prod.mk.injEq] at h ⊢
  obtain ⟨a, _, ha, b, _, hb, c, _, hc, d, _, hd, rfl, rfl⟩ := h
  exact ⟨a, _, readOctet_append ha more, b, _, readSeparator_append hb more, c, _,
    readSeparator_append hc more, d, _, readSeparator_append hd more, rfl, rfl⟩

theorem readIpv4_of_parse (h : parse text = some (.v4 octets)) :
    readIpv4 text.toList = some (octets, []) := by
  unfold parse at h
  split at h
  next read rest hread =>
    split_ifs at h with hrest
    cases h
    rw [hread, isEmpty_iff.mp hrest]
  · split at h
    · split_ifs at h
      cases h
    · cases h

theorem parse_withPort (h : parse text = some (.v4 octets)) :
    parse (text ++ ":" ++ port) = none := by
  have hchars : (text ++ ":" ++ port).toList = text.toList ++ ':' :: port.toList := by
    simp
  rw [parse, hchars, readIpv4_append (readIpv4_of_parse h)]
  rfl

theorem rsplitOnce_append {host : String} (hport : sep ∉ port.toList) :
    rsplitOnce sep (host ++ .singleton sep ++ port) = some (host, port) := by
  have hspan : (host ++ .singleton sep ++ port).toList.reverse.span (· != sep) =
      (port.toList.reverse, sep :: host.toList.reverse) := by
    have hsplit : (host ++ .singleton sep ++ port).toList.reverse =
        port.toList.reverse ++ sep :: host.toList.reverse := by
      simp
    rw [hsplit, span_eq_takeWhile_dropWhile]
    have hall : ∀ c ∈ port.toList.reverse, (c != sep) = true := by
      intro c hc
      rw [bne_iff_ne]
      rintro rfl
      exact hport (mem_reverse.mp hc)
    rw [takeWhile_append_of_pos hall, dropWhile_append_of_pos hall]
    simp
  rw [rsplitOnce, hspan]
  simp

theorem toList_of_rsplitOnce {s host : String} (h : rsplitOnce sep s = some (host, port)) :
    s.toList = host.toList ++ sep :: port.toList := by
  have hparts := takeWhile_append_dropWhile (p := (· != sep)) (l := s.toList.reverse)
  rw [rsplitOnce, span_eq_takeWhile_dropWhile] at h
  cases hdrop : s.toList.reverse.dropWhile (· != sep) with
  | nil =>
    rw [hdrop] at h
    cases h
  | cons c =>
    rw [hdrop] at h hparts
    cases h
    have hsep : c = sep := by
      have hhead := head?_dropWhile_not (· != sep) s.toList.reverse
      rw [hdrop] at hhead
      simpa using hhead
    have hreverse := congrArg reverse hparts
    rw [reverse_reverse, reverse_append] at hreverse
    refine hreverse.symm.trans ?_
    rw [hsep]
    simp

theorem parseIp_bracket {text : String} {cs : List Char} (h : (trim text).toList = '[' :: cs) :
    parseIpWithOptionalPort text = none := by
  have hparse : ∀ {s : String} {cs : List Char}, s.toList = '[' :: cs → parse s = none :=
    fun hs => parse_eq_none_of_head hs (by decide) (by decide) (by decide)
  rw [parseIpWithOptionalPort, hparse h]
  cases hsplit : rsplitOnce ':' (trim text) with
  | none => rfl
  | some parts =>
    obtain ⟨host, port⟩ := parts
    have hchars := toList_of_rsplitOnce hsplit
    rw [h] at hchars
    cases hhost : host.toList with
    | nil =>
      rw [hhost] at hchars
      exact absurd (cons.inj hchars).1 (by decide)
    | cons =>
      rw [hhost] at hchars
      obtain rfl := (cons.inj hchars).1
      exact hparse hhost

/-- The addresses that stand without brackets are read, the others are not. -/
theorem Denotes.read {ip : IpAddr} {bracketed : Bool} (h : Denotes text ip bracketed) :
    parseIpWithOptionalPort text = if bracketed then none else some ip := by
  have hform := h.form
  generalize hcore : trim text = core at hform
  cases hform with
  | plain hparse =>
    rw [parseIpWithOptionalPort, hcore, hparse]
    rfl
  | @withPort core port _ hparse hport =>
    have hcolon : ':' ∉ port.toList := fun hmem =>
      absurd (all_eq_true.mp hport ':' hmem) (by decide)
    have hsplit : rsplitOnce ':' (core ++ ":" ++ port) = some (core, port) :=
      rsplitOnce_append hcolon
    rw [parseIpWithOptionalPort, hcore, parse_withPort hparse, hsplit]
    exact hparse
  | bracketed | bracketedWithPort =>
    exact parseIp_bracket (by rw [hcore]; simp; rfl)

/-! ## Header lines -/

def joinEntries (entries : List String) : String :=
  String.ofList ([','].intercalate (entries.map String.toList))

/-- The forwarded addresses from the client's own on: the client's entry, what follows on its line,
and the lines after it. -/
structure ForwardedTail where
  client : String
  right : List String
  later : List (List String)

/-- The lines of the header, with lines and entries of the client's choosing in front. -/
def ForwardedTail.lines (tail : ForwardedTail) (earlier left : List String) : List String :=
  earlier ++ joinEntries (left ++ tail.client :: tail.right) :: tail.later.map joinEntries

def withForwarded (others : HeaderLines) (lines : List String) : HeaderLines := fun name =>
  if name = "x-forwarded-for" then lines else others name

theorem mem_intercalate {c : Char} {parts : List (List Char)} (h : c ∈ [sep].intercalate parts) :
    c = sep ∨ ∃ part ∈ parts, c ∈ part := by
  induction parts with
  | nil => cases h
  | cons part parts ih =>
    cases parts with
    | nil => exact .inr ⟨part, mem_cons_self, by simpa using h⟩
    | cons =>
      rw [intercalate_cons_cons, mem_append, mem_append, mem_singleton] at h
      rcases h with (hc | hc) | hc
      · exact .inr ⟨part, mem_cons_self, hc⟩
      · exact .inl hc
      · rcases ih hc with hsep | ⟨other, hother, hc⟩
        · exact .inl hsep
        · exact .inr ⟨other, mem_cons_of_mem _ hother, hc⟩

/-- What may stand between the commas of a line of text. -/
abbrev IsEntry (text : String) : Prop :=
  ',' ∉ text.toList ∧ text.toList.all isVisibleAscii = true

theorem splitOn_joinEntries (hne : entries ≠ []) (h : ∀ entry ∈ entries, IsEntry entry) :
    (joinEntries entries).toList.splitOn ',' = entries.map String.toList := by
  have hparts : ∀ part ∈ entries.map String.toList, ',' ∉ part := by
    intro _ hpart
    obtain ⟨_, hmem, rfl⟩ := mem_map.mp hpart
    exact (h _ hmem).1
  rw [joinEntries, String.toList_ofList]
  exact splitOn_intercalate ',' hparts (mt map_eq_nil_iff.mp hne)

theorem visible_joinEntries (h : ∀ entry ∈ entries, IsEntry entry) :
    (joinEntries entries).toList.all isVisibleAscii = true := by
  rw [joinEntries, String.toList_ofList, all_eq_true]
  intro c hc
  rcases mem_intercalate hc with rfl | ⟨_, hpart, hc⟩
  · decide
  · obtain ⟨_, hentry, rfl⟩ := mem_map.mp hpart
    exact all_eq_true.mp (h _ hentry).2 c hc

variable {config : TrustedProxyConfig} {peerIp : IpAddr} {others : HeaderLines}

theorem forwardedClientIp_eq (config : TrustedProxyConfig) (peerIp : IpAddr) (others : HeaderLines)
    (more : List String) (hne : entries ≠ []) (hentry : ∀ entry ∈ entries, IsEntry entry)
    (hread : entries.filterMap parseIpWithOptionalPort ≠ []) :
    forwardedClientIp (withForwarded others (joinEntries entries :: more)) peerIp config =
      some (((entries.filterMap parseIpWithOptionalPort ++ [peerIp]).reverse.find? fun ip =>
        !config.isTrusted ip).getD peerIp) := by
  have htext : (withForwarded others (joinEntries entries :: more)).text "x-forwarded-for" =
      some (joinEntries entries) := by
    rw [HeaderLines.text, withForwarded, if_pos rfl, head?_cons, Option.filter_some,
      if_pos (visible_joinEntries hentry)]
  have hsplit : ((joinEntries entries).toList.splitOn ',').filterMap
      (fun item => parseIpWithOptionalPort (.ofList item)) =
        entries.filterMap parseIpWithOptionalPort := by
    have hfun : (fun item => parseIpWithOptionalPort (.ofList item)) ∘ String.toList =
        parseIpWithOptionalPort := by
      funext _
      rw [Function.comp_apply, String.ofList_toList]
    rw [splitOn_joinEntries hne hentry, filterMap_map, hfun]
  unfold forwardedClientIp
  rw [htext]
  simp only [Option.elim_some, hsplit]
  rw [if_pos (by simpa using hread)]

theorem find_untrusted_none {chain : List IpAddr} (h : ∀ ip ∈ chain, config.isTrusted ip = true) :
    (chain.reverse.find? fun ip => !config.isTrusted ip) = none :=
  find?_eq_none.mpr fun ip hmem => by simpa using h ip (mem_reverse.mp hmem)

/-- The walk from the peer to the left stops at the first address that is not trusted. -/
theorem find_untrusted {left right : List IpAddr} {ip : IpAddr}
    (hright : ∀ ip ∈ right, config.isTrusted ip = true) (hip : config.isTrusted ip = false) :
    ((left ++ ip :: right).reverse.find? fun ip => !config.isTrusted ip) = some ip := by
  rw [reverse_append, reverse_cons, append_assoc, find?_append, find_untrusted_none hright]
  simp [hip]

theorem clientIp_of_forwarded {headers : HeaderLines} {ip : Option IpAddr}
    (hpeer : config.isTrusted peerIp = true) (h : forwardedClientIp headers peerIp config = ip) :
    clientIp headers (some peerIp) config = ip.or (some peerIp) := by
  rw [clientIp, if_pos hpeer, h]

/-! ## What the client's address depends on -/

section

variable {tail : ForwardedTail} {a : IpAddr} {bracketed : Bool}
  (hpeer : config.isTrusted peerIp = true) (hclient : Denotes tail.client a bracketed)
  (huntrusted : config.isTrusted a = false)
  (htrusted : ∀ entry ∈ tail.right ++ tail.later.flatten, ∃ ip b, Denotes entry ip b ∧
    config.isTrusted ip = true)

include htrusted in
theorem trusted_of_mem_right {ip : IpAddr}
    (h : ip ∈ tail.right.filterMap parseIpWithOptionalPort) : config.isTrusted ip = true := by
  obtain ⟨entry, hentry, hread⟩ := mem_filterMap.mp h
  obtain ⟨_, b, hdenotes, hother⟩ := htrusted entry (mem_append_left _ hentry)
  rw [hdenotes.read] at hread
  split_ifs at hread
  cases hread
  exact hother

include hclient htrusted in
theorem line_entries {left : List String} (hleft : ∀ entry ∈ left, IsEntry entry) :
    ∀ entry ∈ left ++ tail.client :: tail.right, IsEntry entry := by
  refine forall_mem_append.mpr ⟨hleft, forall_mem_cons.mpr
    ⟨⟨hclient.entry, hclient.visible⟩, fun entry hmem => ?_⟩⟩
  obtain ⟨_, _, hdenotes, -⟩ := htrusted entry (mem_append_left _ hmem)
  exact ⟨hdenotes.entry, hdenotes.visible⟩

include hpeer hclient huntrusted htrusted in
/-- With the client's address and all before it on the first line, as text and without brackets,
the address is the client's. -/
theorem clientIp_of_plain (hplain : bracketed = false) {left : List String}
    (hleft : ∀ entry ∈ left, IsEntry entry) :
    clientIp (withForwarded others (tail.lines [] left)) (some peerIp) config = some a := by
  have hread : (left ++ tail.client :: tail.right).filterMap parseIpWithOptionalPort =
      left.filterMap parseIpWithOptionalPort ++
        a :: tail.right.filterMap parseIpWithOptionalPort := by
    rw [filterMap_append, filterMap_cons_some (hclient.read.trans (by rw [hplain]; rfl))]
  have hforwarded := forwardedClientIp_eq config peerIp others (tail.later.map joinEntries)
    (append_ne_nil_of_right_ne_nil left (cons_ne_nil _ _)) (line_entries hclient htrusted hleft)
    (by rw [hread]; simp)
  have hright := forall_mem_append.mpr
    ⟨fun _ => trusted_of_mem_right htrusted, forall_mem_singleton.mpr hpeer⟩
  rw [hread, append_assoc, cons_append, find_untrusted hright huntrusted] at hforwarded
  exact clientIp_of_forwarded hpeer hforwarded

include hpeer in
theorem clientIp_of_trusted (others : HeaderLines) (entries more : List String)
    (hentry : ∀ entry ∈ entries, IsEntry entry)
    (hread : entries.filterMap parseIpWithOptionalPort ≠ [])
    (hall : ∀ ip ∈ entries.filterMap parseIpWithOptionalPort, config.isTrusted ip = true) :
    clientIp (withForwarded others (joinEntries entries :: more)) (some peerIp) config =
      some peerIp := by
  have hne : entries ≠ [] := by
    rintro rfl
    exact hread rfl
  have hforwarded := forwardedClientIp_eq config peerIp others more hne hentry hread
  have hchain := forall_mem_append.mpr ⟨hall, forall_mem_singleton.mpr hpeer⟩
  rw [find_untrusted_none hchain] at hforwarded
  exact clientIp_of_forwarded hpeer hforwarded

include hpeer in
theorem clientIp_of_not_text {line : String} {more : List String}
    (h : line.toList.all isVisibleAscii = false) :
    clientIp (withForwarded (fun _ => []) (line :: more)) (some peerIp) config = some peerIp := by
  have htext : ∀ name, (withForwarded (fun _ => []) (line :: more)).text name = none := by
    intro _
    unfold HeaderLines.text withForwarded
    split_ifs
    · rw [head?_cons, Option.filter_some, h]
      rfl
    · rfl
  have hforwarded : forwardedClientIp (withForwarded (fun _ => []) (line :: more)) peerIp config =
      none := by
    simp [forwardedClientIp, htext]
  exact clientIp_of_forwarded hpeer hforwarded

theorem loopback_entry (config : TrustedProxyConfig) :
    IsEntry "127.0.0.1" ∧ ∃ ip, parseIpWithOptionalPort "127.0.0.1" = some ip ∧
      config.isTrusted ip = true := by
  refine ⟨by decide, .v4 [127, 0, 0, 1], by decide, ?_⟩
  rfl

include hpeer hclient huntrusted htrusted in
/-- Whatever the client writes in front, in whatever other headers, its address is found, exactly if
all it writes stands on the same line as its address, that line is the first one and is text, and
the address stands without brackets. -/
theorem client_ip_guarded_iff (lines : ℕ) (visible : Bool) :
    (∀ earlier left others, earlier.length = lines → (∀ entry ∈ left, ',' ∉ entry.toList) →
      (visible = true → ∀ text ∈ earlier ++ left, text.toList.all isVisibleAscii = true) →
      clientIp (withForwarded others (tail.lines earlier left)) (some peerIp) config = some a) ↔
    lines = 0 ∧ visible = true ∧ bracketed = false := by
  obtain ⟨hloopback, loopbackIp, hreadLoopback, hloopbackTrusted⟩ := loopback_entry config
  have hne : some peerIp ≠ some a := by
    intro heq
    rw [Option.some.inj heq, huntrusted] at hpeer
    cases hpeer
  constructor
  · intro h
    -- a line with a trusted address in front hides the lines after it
    have hlines : lines = 0 := by
      by_contra hlines
      obtain ⟨n, rfl⟩ := Nat.exists_eq_succ_of_ne_zero hlines
      have hforged := h (replicate (n + 1) "127.0.0.1") [] (fun _ => [])
        (length_replicate ..) nofun (fun _ _ hmem => by
          rw [append_nil] at hmem
          rw [eq_of_mem_replicate hmem]
          exact hloopback.2)
      have hpeerIp := clientIp_of_trusted hpeer (fun _ => []) ["127.0.0.1"]
        (replicate n "127.0.0.1" ++
          joinEntries (tail.client :: tail.right) :: tail.later.map joinEntries)
        (by simpa using hloopback) (by simp [hreadLoopback]) (by simpa [hreadLoopback])
      exact hne (hpeerIp.symm.trans hforged)
    subst hlines
    refine ⟨rfl, ?_, ?_⟩
    · -- an entry that is no text hides the line
      by_contra hvisible
      have hforged := h [] ["é"] (fun _ => []) rfl (by decide)
        (absurd · hvisible)
      refine hne ((clientIp_of_not_text hpeer ?_).symm.trans hforged)
      rw [joinEntries, String.toList_ofList, all_eq_false]
      exact ⟨'é', by simp [intercalate_cons_cons], by decide⟩
    · -- a trusted address in front of one in brackets stands in for it
      by_contra hbracketed
      have hclientRead : parseIpWithOptionalPort tail.client = none := by
        rw [hclient.read, if_pos (Bool.eq_true_of_not_eq_false hbracketed)]
      have hfront := forall_mem_singleton.mpr hloopback
      have hread : (["127.0.0.1"] ++ tail.client :: tail.right).filterMap
          parseIpWithOptionalPort = loopbackIp :: tail.right.filterMap parseIpWithOptionalPort := by
        rw [singleton_append, filterMap_cons_some hreadLoopback, filterMap_cons_none hclientRead]
      have hforged := h [] ["127.0.0.1"] (fun _ => []) rfl (fun entry hmem => (hfront entry hmem).1)
        fun _ entry hmem => (hfront entry hmem).2
      refine hne ((clientIp_of_trusted hpeer _ _ _
        (line_entries hclient htrusted hfront) ?_ ?_).symm.trans hforged)
      · rw [hread]
        exact cons_ne_nil _ _
      · rw [hread]
        exact forall_mem_cons.mpr ⟨hloopbackTrusted, fun _ => trusted_of_mem_right htrusted⟩
  · rintro ⟨hlines, hvisible, hplain⟩ _ _ _ hearlier hentry htext
    obtain rfl := eq_nil_of_length_eq_zero (hearlier.trans hlines)
    exact clientIp_of_plain hpeer hclient huntrusted htrusted hplain
      fun entry hmem => ⟨hentry entry hmem, htext hvisible entry hmem⟩

end

def privateProxies : TrustedProxyConfig where
  rules := TrustedProxyConfig.loopbackRules ++ [.cidr (.v4 [10, 0, 0, 0]) 8]

/-- A client sends a line of its own, or an entry before an address in brackets, and is taken for
whom it likes. -/
theorem forwarded_client_forged : Denotes "8.8.8.8" (.v4 [8, 8, 8, 8]) false ∧
    privateProxies.isTrusted (.v4 [8, 8, 8, 8]) = false ∧
    clientIp (withForwarded (fun _ => []) ["6.6.6.6", "8.8.8.8"]) (some (.v4 [10, 0, 0, 1]))
      privateProxies = some (.v4 [6, 6, 6, 6]) ∧
    Denotes " [2001:db8::1]:443" (.v6 [0x2001, 0xDB8, 0, 0, 0, 0, 0, 1]) true ∧
    privateProxies.isTrusted (.v6 [0x2001, 0xDB8, 0, 0, 0, 0, 0, 1]) = false ∧
    clientIp (withForwarded (fun _ => []) ["6.6.6.6, [2001:db8::1]:443"])
      (some (.v4 [10, 0, 0, 1])) privateProxies = some (.v4 [6, 6, 6, 6]) := by
  have hplain : AddressForm (trim "8.8.8.8") (.v4 [8, 8, 8, 8]) false :=
    .plain (by decide)
  have hbracketed : AddressForm (trim " [2001:db8::1]:443")
      (.v6 [0x2001, 0xDB8, 0, 0, 0, 0, 0, 1]) true := by
    have htrim : trim " [2001:db8::1]:443" = "[" ++ "2001:db8::1" ++ "]:" ++ "443" := by
      decide
    rw [htrim]
    exact .bracketedWithPort (by decide) (by decide)
  exact ⟨⟨hplain, by decide, by decide⟩, by decide, by decide,
    ⟨hbracketed, by decide, by decide⟩, by decide, by decide⟩

theorem forwarded_client_guarded :
    privateProxies.isTrusted (.v4 [10, 0, 0, 1]) = true ∧
      ∀ left others, (∀ entry ∈ left, ',' ∉ entry.toList) →
        (∀ text ∈ left, text.toList.all isVisibleAscii = true) →
        clientIp (withForwarded others
          (ForwardedTail.lines ⟨" 8.8.8.8:443", ["10.0.0.2"], [["::1"]]⟩ [] left))
          (some (.v4 [10, 0, 0, 1])) privateProxies = some (.v4 [8, 8, 8, 8]) := by
  have hclient : Denotes " 8.8.8.8:443" (.v4 [8, 8, 8, 8]) false := by
    refine ⟨?_, by decide, by decide⟩
    have htrim : trim " 8.8.8.8:443" = "8.8.8.8" ++ ":" ++ "443" := by decide
    rw [htrim]
    exact .withPort (by decide) (by decide)
  have htrusted : ∀ entry ∈ ["10.0.0.2"] ++ [["::1"]].flatten, ∃ ip b, Denotes entry ip b ∧
      privateProxies.isTrusted ip = true := by
    intro _ hentry
    rcases mem_cons.mp hentry with rfl | hentry
    · exact ⟨.v4 [10, 0, 0, 2], false, ⟨.plain (by decide), by decide,
        by decide⟩, by decide⟩
    · rw [mem_singleton.mp hentry]
      exact ⟨.v6 [0, 0, 0, 0, 0, 0, 0, 1], false, ⟨.plain (by decide), by decide,
        by decide⟩, by decide⟩
  refine ⟨by decide, fun left _ hentry htext => ?_⟩
  exact (client_ip_guarded_iff (by decide) hclient (by decide) htrusted 0 true).mpr
    ⟨rfl, rfl, rfl⟩ [] left _ rfl hentry fun _ => htext

end RouteSmith.Model
