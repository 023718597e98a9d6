import EestReplay.Verification.Text.Numerals
import EestReplay.Verification.Url.Split

/-! # What stripping credentials does to the endpoint

`split_basic_auth` puts the network location together from the host in small letters and the
number of the port. The brackets of an address and a port of zero are lost on the way. -/

namespace EestReplay.Url

/-! ## The host -/

/-- A raw host as `hostname` returns it. -/
def lowerHost (host : List Char) : List Char :=
  Text.lower (partition '%' host).1 ++
    if (partition '%' host).2.1 then '%' :: (partition '%' host).2.2 else []

theorem hostname_eq (parts : SplitResult) :
    parts.hostname = if parts.hostinfo.1 = [] then none else some (lowerHost parts.hostinfo.1) :=
  rfl

theorem partition_eq (sep : Char) (s : List Char) :
    (partition sep s).1 ++ (if (partition sep s).2.1 then sep :: (partition sep s).2.2 else []) =
      s := by
  by_cases h : sep ∈ s
  · obtain ⟨a, b, rfl, ha⟩ := List.eq_append_cons_of_mem h
    rw [partition_append ha]
    rfl
  · rw [partition_of_not_mem h]
    simp

/-- The characters that delimit a URL, which no letter has as its small form. -/
def delimiters : List Char := ['/', '?', '#', '@', ':', '[', ']', '%', '\t', '\r', '\n']

theorem isSmall_delimiter {c : Char} (h : c ∈ delimiters) : Text.isSmall c.toNat = false := by
  have hall : delimiters.all (fun c => !Text.isSmall c.toNat) = true := by decide +kernel
  simpa using List.all_eq_true.mp hall c h

theorem isSmall_compatibility : ∀ n ∈ compatibilityDelimiters, Text.isSmall n = false := by
  decide +kernel

theorem mem_of_mem_lowerHost {host : List Char} {d : Char} (hsmall : Text.isSmall d.toNat = false)
    (h : d ∈ lowerHost host) : d ∈ host := by
  have heq := partition_eq '%' host
  rw [lowerHost, List.mem_append] at h
  rw [← heq, List.mem_append]
  rcases h with h | h
  · exact .inl (Text.mem_of_mem_lower hsmall h)
  · exact .inr h

theorem not_mem_lower {a : List Char} (h : '%' ∉ a) : '%' ∉ Text.lower a := by
  intro hmem
  exact h (Text.mem_of_mem_lower (isSmall_delimiter (c := '%') (by decide)) hmem)

theorem lowerHost_zone {a : List Char} (h : '%' ∉ a) (zone : List Char) :
    lowerHost (a ++ '%' :: zone) = Text.lower a ++ '%' :: zone := by
  rw [lowerHost, partition_append h]
  rfl

theorem lowerHost_of_not_mem {host : List Char} (h : '%' ∉ host) :
    lowerHost host = Text.lower host := by
  rw [lowerHost, partition_of_not_mem h]
  exact List.append_nil _

theorem lowerHost_lowerHost (host : List Char) : lowerHost (lowerHost host) = lowerHost host := by
  by_cases h : '%' ∈ host
  · obtain ⟨a, zone, rfl, ha⟩ := List.eq_append_cons_of_mem h
    rw [lowerHost_zone ha, lowerHost_zone (not_mem_lower ha), Text.lower_lower]
  · rw [lowerHost_of_not_mem h, lowerHost_of_not_mem (not_mem_lower h), Text.lower_lower]

theorem lowerHost_eq_nil_iff {host : List Char} : lowerHost host = [] ↔ host = [] := by
  have heq := partition_eq '%' host
  rw [lowerHost, List.append_eq_nil_iff, Text.lower_eq_nil_iff, ← List.append_eq_nil_iff, heq]

/-- The host of a URL, empty when it has none. -/
def SplitResult.host (parts : SplitResult) : List Char := parts.hostname.getD []

theorem host_eq (parts : SplitResult) : parts.host = lowerHost parts.hostinfo.1 := by
  rw [SplitResult.host, hostname_eq]
  split
  case isTrue hnil => rw [hnil]; rfl
  case isFalse => rfl

theorem hostname_of_host {parts other : SplitResult} (h : other.host = parts.host) :
    other.hostname = parts.hostname := by
  rw [host_eq, host_eq] at h
  have hnil : other.hostinfo.1 = [] ↔ parts.hostinfo.1 = [] := by
    rw [← lowerHost_eq_nil_iff, h, lowerHost_eq_nil_iff]
  rw [hostname_eq, hostname_eq, h]
  simp only [hnil]

theorem hostinfo_subset (parts : SplitResult) :
    parts.hostinfo.1 ⊆ (rpartition '@' parts.netloc).2.2 := by
  rw [SplitResult.hostinfo]
  dsimp only
  split
  · exact List.Subset.trans (partition_fst_subset _ _) (partition_snd_subset _ _)
  · exact partition_fst_subset _ _

theorem mem_of_mem_host {parts : SplitResult} {d : Char} (hsmall : Text.isSmall d.toNat = false)
    (h : d ∈ parts.host) : d ∈ parts.netloc ∧ d ≠ '@' := by
  rw [host_eq] at h
  have hmem := hostinfo_subset parts (mem_of_mem_lowerHost hsmall h)
  refine ⟨rpartition_snd_subset _ _ hmem, ?_⟩
  rintro rfl
  exact not_mem_rpartition _ _ hmem

/-! ## The network location put together -/

theorem isDigit_of_mem_toString {n : ℕ} {c : Char} (h : c ∈ (toString n).toList) :
    c.isDigit = true := by
  rw [Text.toList_toString] at h
  exact Nat.isDigit_of_mem_toDigits (by decide) (by decide) h

/-- The port in the network location, where none and zero leave no trace. -/
def portText : Option ℕ → List Char
  | some n => if n ≠ 0 then ':' :: (toString n).toList else []
  | none => []

theorem authority_eq (parts : SplitResult) (port : Option ℕ) :
    authority parts.hostname port = parts.host ++ portText port := by
  cases port <;> rfl

theorem mem_portText {port : Option ℕ} {d : Char} (h : d ∈ portText port) :
    d = ':' ∨ d.isDigit = true := by
  cases port with
  | none => cases h
  | some n =>
      rw [portText] at h
      split at h
      · rcases List.mem_cons.mp h with h | h
        · exact .inl h
        · exact .inr (isDigit_of_mem_toString h)
      · cases h

theorem mem_rebuilt {parts : SplitResult} {port : Option ℕ} {d : Char}
    (h : d ∈ (parts.rebuilt port).netloc) : d ∈ parts.host ∨ d = ':' ∨ d.isDigit = true := by
  rw [SplitResult.rebuilt, authority_eq, List.mem_append] at h
  rcases h with h | h
  · exact .inl h
  · exact .inr (mem_portText h)

theorem mem_host_of_mem_rebuilt {parts : SplitResult} {port : Option ℕ} {d : Char}
    (hcolon : d ≠ ':') (hdigit : d.isDigit = false) (h : d ∈ (parts.rebuilt port).netloc) :
    d ∈ parts.host := by
  rcases mem_rebuilt h with h | h | h
  · exact h
  · exact absurd h hcolon
  · rw [hdigit] at h
    cases h

/-- A character that is no letter, digit or colon comes from the network location. -/
theorem mem_of_mem_rebuilt {parts : SplitResult} {port : Option ℕ} {d : Char}
    (hsmall : Text.isSmall d.toNat = false) (hcolon : d ≠ ':') (hdigit : d.isDigit = false)
    (h : d ∈ (parts.rebuilt port).netloc) : d ∈ parts.netloc ∧ d ≠ '@' :=
  mem_of_mem_host hsmall (mem_host_of_mem_rebuilt hcolon hdigit h)

theorem not_mem_at_rebuilt (parts : SplitResult) (port : Option ℕ) :
    '@' ∉ (parts.rebuilt port).netloc := by
  intro h
  have hsmall := isSmall_delimiter (c := '@') (by decide)
  exact (mem_of_mem_rebuilt hsmall (by decide) (by decide) h).2 rfl

theorem compatibility_not_digit : ∀ n ∈ compatibilityDelimiters,
    (Char.ofNat n).isDigit = false ∧ Char.ofNat n ≠ ':' := by
  decide +kernel

theorem checkNetloc_ok_iff {netloc : List Char} :
    checkNetloc netloc = .ok () ↔ ∀ c ∈ netloc, c.toNat ∉ compatibilityDelimiters := by
  rw [checkNetloc]
  split
  case isTrue h =>
    simp only [List.any_eq_true, decide_eq_true_eq] at h
    simp only [reduceCtorEq, false_iff]
    intro hnone
    obtain ⟨c, hc, hmem⟩ := h
    exact hnone c hc hmem
  case isFalse h =>
    simp only [List.any_eq_true, decide_eq_true_eq, not_exists, not_and] at h
    simpa using h

theorem rebuilt_avoids {parts : SplitResult} {port : Option ℕ} {bad : Char → Prop}
    (hbad : ∀ c, bad c → Text.isSmall c.toNat = false ∧ c ≠ ':' ∧ c.isDigit = false)
    (h : ∀ c ∈ parts.netloc, ¬ bad c) : ∀ c ∈ (parts.rebuilt port).netloc, ¬ bad c := by
  intro c hc hbadc
  obtain ⟨hsmall, hcolon, hdigit⟩ := hbad c hbadc
  exact h c (mem_of_mem_rebuilt hsmall hcolon hdigit hc).1 hbadc

theorem wellFormed_rebuilt {parts : SplitResult} (h : WellFormed parts) (port : Option ℕ) :
    WellFormed (parts.rebuilt port) := by
  have hends : ∀ c ∈ (parts.rebuilt port).netloc, ¬ isNetlocEnd c = true := by
    refine rebuilt_avoids ?_ fun c hc => by rw [h.netloc c hc]; exact Bool.false_ne_true
    intro c hc
    rcases isNetlocEnd_iff.mp hc with rfl | rfl | rfl
    · exact ⟨isSmall_delimiter (c := '/') (by decide), by decide, by decide⟩
    · exact ⟨isSmall_delimiter (c := '?') (by decide), by decide, by decide⟩
    · exact ⟨isSmall_delimiter (c := '#') (by decide), by decide, by decide⟩
  have hnormal : ∀ c ∈ (parts.rebuilt port).netloc, ¬ c.toNat ∈ compatibilityDelimiters := by
    refine rebuilt_avoids ?_ (checkNetloc_ok_iff.mp h.normal)
    intro c hc
    have hchar := compatibility_not_digit c.toNat hc
    rw [Char.ofNat_toNat] at hchar
    exact ⟨isSmall_compatibility c.toNat hc, hchar.2, hchar.1⟩
  have hsafe : ∀ c ∈ (parts.rebuilt port).netloc, ¬ unsafeChars.contains c = true := by
    refine rebuilt_avoids ?_ fun c hc => by rw [h.netlocSafe c hc]; exact Bool.false_ne_true
    intro c hc
    have hall : unsafeChars.all (fun d =>
        decide (Text.isSmall d.toNat = false ∧ d ≠ ':' ∧ d.isDigit = false)) = true := by
      decide +kernel
    exact of_decide_eq_true (List.all_eq_true.mp hall c (List.contains_iff_mem.mp hc))
  refine ⟨h.scheme, ?_, checkNetloc_ok_iff.mpr hnormal, h.rooted, h.path, h.query, ?_, h.pathSafe,
    h.querySafe, h.fragmentSafe⟩
  · exact fun c hc => Bool.eq_false_iff.mpr (hends c hc)
  · exact fun c hc => Bool.eq_false_iff.mpr (hsafe c hc)

/-! ## Reading it back -/

theorem userinfo_of_not_mem {parts : SplitResult} (h : '@' ∉ parts.netloc) :
    parts.userinfo = (none, none) := by
  rw [SplitResult.userinfo, rpartition_of_not_mem h]
  rfl

theorem hostinfo_of_not_mem {parts : SplitResult} (hat : '@' ∉ parts.netloc)
    (hopen : '[' ∉ parts.netloc) : parts.hostinfo = ((partition ':' parts.netloc).1,
      if (partition ':' parts.netloc).2.2 = [] then none
      else some (partition ':' parts.netloc).2.2) := by
  rw [SplitResult.hostinfo, rpartition_of_not_mem hat]
  dsimp only
  rw [partition_of_not_mem hopen]
  rfl

theorem hostinfo_bracketed {parts : SplitResult} (hat : '@' ∉ parts.netloc)
    (hopen : '[' ∈ parts.netloc) : ']' ∉ parts.hostinfo.1 := by
  have hfound : (partition '[' parts.netloc).2.1 = true := by simpa [partition] using hopen
  rw [SplitResult.hostinfo, rpartition_of_not_mem hat]
  dsimp only
  rw [hfound]
  exact not_mem_partition ']' _

/-- A host that can stand in a network location without brackets. -/
def Bare (host : List Char) : Prop := ∀ c ∈ host, c ≠ ':' ∧ c ≠ '[' ∧ c ≠ ']'

theorem Bare.not_mem_open {parts : SplitResult} (h : Bare parts.host) (port : Option ℕ) :
    '[' ∉ (parts.rebuilt port).netloc ∧ ']' ∉ (parts.rebuilt port).netloc := by
  constructor
  · intro hmem
    exact (h '[' (mem_host_of_mem_rebuilt (by decide) (by decide) hmem)).2.1 rfl
  · intro hmem
    exact (h ']' (mem_host_of_mem_rebuilt (by decide) (by decide) hmem)).2.2 rfl

/-- The port that a rebuilt network location names. -/
def portNumeral (port : Option ℕ) : Option (List Char) :=
  (port.filter (· ≠ 0)).map fun n => (toString n).toList

theorem partition_portText {host : List Char} (h : ':' ∉ host) (port : Option ℕ) :
    (partition ':' (host ++ portText port)).1 = host ∧
      (if (partition ':' (host ++ portText port)).2.2 = [] then none
        else some (partition ':' (host ++ portText port)).2.2) = portNumeral port := by
  cases port with
  | none =>
      rw [portText, List.append_nil, partition_of_not_mem h]
      exact ⟨rfl, rfl⟩
  | some n =>
      rw [portText]
      split
      case isTrue hne =>
        have hdigits : (toString n).toList ≠ [] := by
          rw [Text.toList_toString]
          exact Nat.toDigits_ne_nil
        rw [partition_append h, if_neg hdigits]
        simp [portNumeral, hne]
      case isFalse hzero =>
        obtain rfl : n = 0 := not_not.mp hzero
        rw [List.append_nil, partition_of_not_mem h]
        exact ⟨rfl, rfl⟩

theorem hostinfo_rebuilt {parts : SplitResult} (h : Bare parts.host) (port : Option ℕ) :
    (parts.rebuilt port).hostinfo = (parts.host, portNumeral port) := by
  have hcolon : ':' ∉ parts.host := fun hmem => (h ':' hmem).1 rfl
  have hnetloc : (parts.rebuilt port).netloc = parts.host ++ portText port :=
    authority_eq parts port
  rw [hostinfo_of_not_mem (not_mem_at_rebuilt parts port) (h.not_mem_open port).1, hnetloc,
    (partition_portText hcolon port).1, (partition_portText hcolon port).2]

theorem hostname_rebuilt {parts : SplitResult} (h : Bare parts.host) (port : Option ℕ) :
    (parts.rebuilt port).hostname = parts.hostname := by
  apply hostname_of_host
  rw [host_eq, hostinfo_rebuilt h, host_eq, lowerHost_lowerHost]

theorem port_le {parts : SplitResult} {n : ℕ} (h : parts.port = .ok (some n)) : n ≤ 65535 := by
  rw [SplitResult.port] at h
  cases hport : parts.hostinfo.2 with
  | none => rw [hport] at h; cases h
  | some text =>
      rw [hport] at h
      dsimp only at h
      split at h
      · cases hint : Text.int 10 (String.ofList text) with
        | error e => rw [hint] at h; cases h
        | ok m =>
            rw [hint] at h
            change (if 0 ≤ m ∧ m ≤ 65535 then _ else _) = _ at h
            split at h
            case isTrue hbound =>
              cases h
              omega
            case isFalse => cases h
      · cases h

theorem port_of_numeral {parts : SplitResult} {n : ℕ} (hn : n ≤ 65535)
    (h : parts.hostinfo.2 = some (toString n).toList) : parts.port = .ok (some n) := by
  have hdigits : (toString n).toList.all Char.isDigit = true :=
    List.all_eq_true.mpr fun c hc => isDigit_of_mem_toString hc
  have hint : Text.int 10 (String.ofList (toString n).toList) = .ok (n : ℤ) := by
    rw [String.ofList_toList]
    apply Text.int_toString
    calc
      n < 10 ^ 5 := by omega
      _ ≤ 10 ^ Text.maxDigits := Nat.pow_le_pow_right (by decide) (by decide)
  rw [SplitResult.port, h]
  dsimp only
  rw [if_pos hdigits, hint]
  change (if (0 : ℤ) ≤ n ∧ (n : ℤ) ≤ 65535 then _ else _) = _
  rw [if_pos (by omega)]
  rfl

theorem port_rebuilt {parts : SplitResult} (hbare : Bare parts.host) {port : Option ℕ}
    (h : parts.port = .ok port) : (parts.rebuilt port).port = .ok (port.filter (· ≠ 0)) := by
  have hinfo : (parts.rebuilt port).hostinfo.2 = portNumeral port := by rw [hostinfo_rebuilt hbare]
  cases hport : port.filter (· ≠ 0) with
  | none =>
      rw [portNumeral, hport] at hinfo
      rw [SplitResult.port, hinfo]
      rfl
  | some n =>
      obtain ⟨hsome, -⟩ := Option.filter_eq_some_iff.mp hport
      rw [portNumeral, hport] at hinfo
      exact port_of_numeral (port_le (h.trans (congrArg _ hsome))) hinfo

/-! ## The endpoint -/

/-- Two URLs lead to the same endpoint. -/
structure SameEndpoint (parts other : SplitResult) : Prop where
  scheme : other.scheme = parts.scheme
  hostname : other.hostname = parts.hostname
  port : other.port = parts.port
  path : other.path = parts.path
  query : other.query = parts.query
  fragment : other.fragment = parts.fragment

/-- The clean URL is returned, and parses again to the endpoint of the URL it came from and
no userinfo. -/
def KeepsEndpoint (url : String) : Prop :=
  ∃ parts clean headers other, urlsplit url.toList = .ok parts ∧
    splitBasicAuth url = .ok (clean, headers) ∧ urlsplit clean.toList = .ok other ∧
      SameEndpoint parts other ∧ other.userinfo = (none, none)

/-- A URL whose network location can be put together again: with a user name, a port that is
absent or readable and not zero, and a host that needs no brackets. -/
structure Rebuildable (parts : SplitResult) : Prop where
  username : parts.username.getD [] ≠ []
  port : ∃ port, parts.port = .ok port ∧ port ≠ some 0
  host : Bare parts.host

theorem username_of_mem {parts : SplitResult} (h : '@' ∈ parts.netloc) :
    parts.userinfo ≠ (none, none) := by
  have hfound : (rpartition '@' parts.netloc).2.1 = true := by simpa [rpartition] using h
  rw [SplitResult.userinfo]
  dsimp only
  rw [hfound]
  exact fun heq => Option.some_ne_none _ (congrArg Prod.fst heq)

theorem mem_iff_of_checkBrackets {netloc : List Char} (h : checkBrackets netloc = .ok ()) :
    '[' ∈ netloc ↔ ']' ∈ netloc := by
  rw [checkBrackets] at h
  split at h
  · cases h
  case isFalse heq =>
    rw [Bool.not_eq_true, bne_eq_false_iff_eq] at heq
    rw [← List.contains_iff_mem, heq, List.contains_iff_mem]

theorem not_mem_host {parts : SplitResult} {d : Char} (hsmall : Text.isSmall d.toNat = false)
    (h : d ∉ parts.hostinfo.1) : d ∉ parts.host := by
  rw [host_eq]
  exact fun hmem => h (mem_of_mem_lowerHost hsmall hmem)

/-- Brackets and colons of a host are not read back from a network location without the
brackets around it. -/
theorem bare_of_hostname {parts : SplitResult} {port : Option ℕ}
    (hbrackets : checkBrackets (parts.rebuilt port).netloc = .ok ())
    (h : (parts.rebuilt port).hostname = parts.hostname) : Bare parts.host := by
  have hat := not_mem_at_rebuilt parts port
  have hiff := mem_iff_of_checkBrackets hbrackets
  have hhost : (parts.rebuilt port).host = parts.host := congrArg (Option.getD · []) h
  have hsub : parts.host ⊆ (parts.rebuilt port).netloc := by
    rw [SplitResult.rebuilt, authority_eq]
    exact List.subset_append_left _ _
  have hopen : '[' ∉ (parts.rebuilt port).netloc := by
    intro hmem
    have hclose : ']' ∈ parts.host :=
      mem_host_of_mem_rebuilt (by decide) (by decide) (hiff.mp hmem)
    rw [← hhost] at hclose
    exact not_mem_host (isSmall_delimiter (c := ']') (by decide)) (hostinfo_bracketed hat hmem) hclose
  have hclose : ']' ∉ (parts.rebuilt port).netloc := fun hmem => hopen (hiff.mpr hmem)
  have hcolon : ':' ∉ parts.host := by
    rw [← hhost]
    refine not_mem_host (isSmall_delimiter (c := ':') (by decide)) ?_
    rw [hostinfo_of_not_mem hat hopen]
    exact not_mem_partition ':' _
  intro c hc
  refine ⟨?_, ?_, ?_⟩
  · rintro rfl
    exact hcolon hc
  · rintro rfl
    exact hopen (hsub hc)
  · rintro rfl
    exact hclose (hsub hc)

theorem rebuildable_of_keeps {url : String} {parts : SplitResult}
    (hsplit : urlsplit url.toList = .ok parts) (huserinfo : '@' ∈ parts.netloc)
    (h : KeepsEndpoint url) : Rebuildable parts := by
  have hwell : WellFormed parts := wellFormed_of_urlsplit hsplit (List.ne_nil_of_mem huserinfo)
  obtain ⟨parts', clean, headers, other, hparts, hauth, hother, hsame, hnone⟩ := h
  obtain rfl : parts = parts' := Except.ok.inj (hsplit.symm.trans hparts)
  rw [splitBasicAuth_eq hsplit] at hauth
  split at hauth
  case isTrue hempty =>
    -- Nothing was stripped.
    cases hauth
    obtain rfl : parts = other := Except.ok.inj (hsplit.symm.trans hother)
    exact absurd hnone (username_of_mem huserinfo)
  case isFalse huser =>
    cases hport : parts.port with
    | error e => rw [hport] at hauth; cases hauth
    | ok port =>
        rw [hport] at hauth
        cases hauth
        rw [String.toList_ofList, urlsplit_urlunsplit_iff (wellFormed_rebuilt hwell port)] at hother
        obtain ⟨hbrackets, rfl⟩ := hother
        have hbare := bare_of_hostname hbrackets hsame.hostname
        refine ⟨huser, ⟨port, hport, ?_⟩, hbare⟩
        rintro rfl
        have hread := (port_rebuilt hbare hport).symm.trans (hsame.port.trans hport)
        cases hread

theorem keeps_of_rebuildable {url : String} {parts : SplitResult}
    (hsplit : urlsplit url.toList = .ok parts) (huserinfo : '@' ∈ parts.netloc)
    (h : Rebuildable parts) : KeepsEndpoint url := by
  have hwell : WellFormed parts := wellFormed_of_urlsplit hsplit (List.ne_nil_of_mem huserinfo)
  obtain ⟨port, hport, hne⟩ := h.port
  have hfilter : port.filter (· ≠ 0) = port := by
    cases port with
    | none => rfl
    | some n =>
        have hn : n ≠ 0 := fun hzero => hne (congrArg some hzero)
        simp [hn]
  have hbrackets : checkBrackets (parts.rebuilt port).netloc = .ok () := by
    obtain ⟨hopen, hclose⟩ := h.host.not_mem_open port
    simp [checkBrackets, hopen, hclose]
  have hauth : splitBasicAuth url = .ok (String.ofList (urlunsplit (parts.rebuilt port)),
      [("Authorization", "Basic " ++ String.ofList parts.token)]) := by
    rw [splitBasicAuth_eq hsplit, if_neg h.username, hport]
    rfl
  refine ⟨parts, _, _, parts.rebuilt port, hsplit, hauth, ?_, ?_, ?_⟩
  · rw [String.toList_ofList, urlsplit_urlunsplit_iff (wellFormed_rebuilt hwell port)]
    exact ⟨hbrackets, rfl⟩
  · refine ⟨rfl, hostname_rebuilt h.host port, ?_, rfl, rfl, rfl⟩
    rw [port_rebuilt h.host hport, hfilter, hport]
  · exact userinfo_of_not_mem (not_mem_at_rebuilt parts port)

/-- The clean URL keeps the endpoint just when its network location can be put together again.
An address in brackets, a port of zero and an empty user name before the at sign lose it. -/
theorem keepsEndpoint_iff {url : String} {parts : SplitResult}
    (hsplit : urlsplit url.toList = .ok parts) (huserinfo : '@' ∈ parts.netloc) :
    KeepsEndpoint url ↔ Rebuildable parts :=
  ⟨rebuildable_of_keeps hsplit huserinfo, keeps_of_rebuildable hsplit huserinfo⟩

/-- A named host with a password that has both separators. -/
def named : SplitResult where
  scheme := "https".toList
  netloc := "user:p@ss:word@RPC.example:8545".toList
  path := "/v1".toList
  query := "key=1".toList
  fragment := []

theorem keepsEndpoint_named :
    KeepsEndpoint "https://user:p@ss:word@RPC.example:8545/v1?key=1" := by
  have hsplit : urlsplit "https://user:p@ss:word@RPC.example:8545/v1?key=1".toList = .ok named := by
    decide +kernel
  have hhost : named.host.all (fun c => decide (c ≠ ':' ∧ c ≠ '[' ∧ c ≠ ']')) = true := by
    decide +kernel
  exact (keepsEndpoint_iff hsplit (by decide)).mpr
    ⟨by decide, ⟨some 8545, by decide, by decide⟩,
      fun c hc => of_decide_eq_true (List.all_eq_true.mp hhost c hc)⟩

def bracketed : SplitResult where
  scheme := "http".toList
  netloc := "u:p@[::1]:8545".toList
  path := "/".toList
  query := []
  fragment := []

/-- The address comes out as a network location without a host. -/
theorem not_keepsEndpoint_bracketed :
    urlsplit "http://u:p@[::1]:8545/".toList = .ok bracketed ∧ '@' ∈ bracketed.netloc ∧
      ¬ KeepsEndpoint "http://u:p@[::1]:8545/" := by
  have hsplit : urlsplit "http://u:p@[::1]:8545/".toList = .ok bracketed := by decide +kernel
  have hat : '@' ∈ bracketed.netloc := by decide
  refine ⟨hsplit, hat, fun hkeeps => ?_⟩
  have hbare := (rebuildable_of_keeps hsplit hat hkeeps).host
  have hcolon : ':' ∈ bracketed.host := by decide +kernel
  exact (hbare ':' hcolon).1 rfl

end EestReplay.Url
