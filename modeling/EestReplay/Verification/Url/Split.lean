import EestReplay.Model.Url
import EestReplay.Verification.Text.Lower

/-! # Splitting inverts putting together

What `urlsplit` returns is well formed, and parts that are well formed survive `urlunsplit`
and `urlsplit`, but for the check of brackets in the network location. -/

namespace EestReplay.Url

/-! ## Partitions -/

theorem decide_ne_of_not_mem {sep : Char} {s : List Char} (h : sep ∉ s) :
    ∀ c ∈ s, decide (c ≠ sep) = true := by
  intro c hc
  rw [decide_eq_true_eq]
  rintro rfl
  exact h hc

theorem partition_append {sep : Char} {a : List Char} (h : sep ∉ a) (b : List Char) :
    partition sep (a ++ sep :: b) = (a, true, b) := by
  have htrue := decide_ne_of_not_mem h
  rw [partition, List.takeWhile_append_of_pos htrue, List.dropWhile_append_of_pos htrue]
  simp

theorem partition_of_not_mem {sep : Char} {s : List Char} (h : sep ∉ s) :
    partition sep s = (s, false, []) := by
  have htrue := decide_ne_of_not_mem h
  rw [partition, List.takeWhile_eq_self_iff.mpr htrue, List.dropWhile_eq_nil_iff.mpr htrue]
  simpa using h

theorem not_mem_partition (sep : Char) (s : List Char) : sep ∉ (partition sep s).1 := by
  intro h
  have hne := List.mem_takeWhile_imp h
  simp at hne

theorem partition_fst_subset (sep : Char) (s : List Char) : (partition sep s).1 ⊆ s :=
  (List.takeWhile_prefix _).subset

theorem partition_snd_subset (sep : Char) (s : List Char) : (partition sep s).2.2 ⊆ s :=
  ((List.drop_suffix _ _).trans (List.dropWhile_suffix _)).subset

theorem rpartition_of_not_mem {sep : Char} {s : List Char} (h : sep ∉ s) :
    rpartition sep s = ([], false, s) := by
  have htrue := decide_ne_of_not_mem (s := s.reverse) (mt List.mem_reverse.mp h)
  rw [rpartition, List.takeWhile_eq_self_iff.mpr htrue, List.dropWhile_eq_nil_iff.mpr htrue]
  simpa using h

theorem not_mem_rpartition (sep : Char) (s : List Char) : sep ∉ (rpartition sep s).2.2 := by
  intro h
  have hne := List.mem_takeWhile_imp (List.mem_reverse.mp h)
  simp at hne

theorem rpartition_snd_subset (sep : Char) (s : List Char) : (rpartition sep s).2.2 ⊆ s := by
  intro c hc
  exact List.mem_reverse.mp ((List.takeWhile_prefix _).subset (List.mem_reverse.mp hc))

/-- A part with its separator in front, left out when it is empty. -/
def optional (sep : Char) (s : List Char) : List Char := if s ≠ [] then sep :: s else []

theorem partition_optional {sep : Char} {a : List Char} (h : sep ∉ a) (s : List Char) :
    (partition sep (a ++ optional sep s)).1 = a ∧ (partition sep (a ++ optional sep s)).2.2 = s := by
  rw [optional]
  split
  · rw [partition_append h]
    exact ⟨rfl, rfl⟩
  case isFalse hs =>
    rw [List.append_nil, partition_of_not_mem h]
    exact ⟨rfl, (not_not.mp hs).symm⟩

theorem mem_optional {sep c : Char} {s : List Char} (h : c ∈ optional sep s) : c = sep ∨ c ∈ s := by
  rw [optional] at h
  split at h
  · exact List.mem_cons.mp h
  · cases h

/-! ## Well-formed parts -/

def Safe (s : List Char) : Prop := ∀ c ∈ s, unsafeChars.contains c = false

structure IsScheme (s : List Char) : Prop where
  head : (s.head?.map Char.isAlpha).getD false = true
  chars : ∀ c ∈ s, isSchemeChar c = true
  lower : Text.lower s = s

/-- What `urlsplit` makes of a URL with a network location. -/
structure WellFormed (parts : SplitResult) : Prop where
  scheme : parts.scheme = [] ∨ IsScheme parts.scheme
  netloc : ∀ c ∈ parts.netloc, isNetlocEnd c = false
  normal : checkNetloc parts.netloc = .ok ()
  rooted : parts.path = [] ∨ parts.path.head? = some '/'
  path : '?' ∉ parts.path ∧ '#' ∉ parts.path
  query : '#' ∉ parts.query
  netlocSafe : Safe parts.netloc
  pathSafe : Safe parts.path
  querySafe : Safe parts.query
  fragmentSafe : Safe parts.fragment

/-- A URL as `urlsplit` reads it, without what may stand before it and inside it. -/
def stripped (text : List Char) : List Char :=
  (text.dropWhile isC0OrSpace).filter fun c => !unsafeChars.contains c

/-- The parts of a URL before they are checked. -/
def pieces (url : List Char) : SplitResult where
  scheme := (splitScheme url).1
  netloc := (splitNetloc (splitScheme url).2).1
  path := (partition '?' (partition '#' (splitNetloc (splitScheme url).2).2).1).1
  query := (partition '?' (partition '#' (splitNetloc (splitScheme url).2).2).1).2.2
  fragment := (partition '#' (splitNetloc (splitScheme url).2).2).2.2

theorem urlsplit_eq (text : List Char) : urlsplit text = do
    checkBrackets (pieces (stripped text)).netloc
    checkNetloc (pieces (stripped text)).netloc
    return pieces (stripped text) := rfl

theorem urlsplit_ok_iff {text : List Char} {parts : SplitResult} :
    urlsplit text = .ok parts ↔ checkBrackets parts.netloc = .ok () ∧
      checkNetloc parts.netloc = .ok () ∧ parts = pieces (stripped text) := by
  rw [urlsplit_eq]
  constructor
  · intro h
    cases hbrackets : checkBrackets (pieces (stripped text)).netloc with
    | error e => rw [hbrackets] at h; cases h
    | ok u =>
        cases hnormal : checkNetloc (pieces (stripped text)).netloc with
        | error e => rw [hbrackets, hnormal] at h; cases h
        | ok v =>
            rw [hbrackets, hnormal] at h
            cases h
            exact ⟨hbrackets, hnormal, rfl⟩
  · rintro ⟨hbrackets, hnormal, rfl⟩
    rw [hbrackets, hnormal]
    rfl

theorem safe_stripped (text : List Char) : Safe (stripped text) := by
  intro c hc
  simpa using (List.mem_filter.mp hc).2

theorem Safe.of_subset {s t : List Char} (h : Safe t) (hsub : s ⊆ t) : Safe s :=
  fun c hc => h c (hsub hc)

/-! ## The scheme -/

theorem isSchemeChar_ascii {c : Char} (h : isSchemeChar c = true) : c.toNat < 0x80 := by
  delta isSchemeChar Char.isAlphanum Char.isAlpha Char.isUpper Char.isLower Char.isDigit at h
  simp only [Bool.or_eq_true, Bool.and_eq_true, decide_eq_true_eq, UInt32.le_iff_toNat_le,
    ge_iff_le, beq_iff_eq] at h
  rw [Char.toNat]
  rcases h with ((((⟨-, h⟩ | ⟨-, h⟩) | ⟨-, h⟩) | rfl) | rfl) | rfl
  · exact h.trans_lt (by decide)
  · exact h.trans_lt (by decide)
  · exact h.trans_lt (by decide)
  · decide
  · decide
  · decide

/-- In ASCII, small letters are letters and scheme characters as their capitals are. -/
theorem toLower_ofNat : ∀ n < 0x80,
    (Char.ofNat n).toLower.isAlpha = (Char.ofNat n).isAlpha ∧
      isSchemeChar (Char.ofNat n).toLower = isSchemeChar (Char.ofNat n) := by
  decide +kernel

theorem toLower_scheme {c : Char} (h : c.toNat < 0x80) :
    c.toLower.isAlpha = c.isAlpha ∧ isSchemeChar c.toLower = isSchemeChar c := by
  simpa using toLower_ofNat c.toNat h

theorem isScheme_lower {s : List Char} (hhead : (s.head?.map Char.isAlpha).getD false = true)
    (hchars : ∀ c ∈ s, isSchemeChar c = true) : IsScheme (Text.lower s) := by
  have hascii : ∀ c ∈ s, c.toNat < 0x80 := fun c hc => isSchemeChar_ascii (hchars c hc)
  refine ⟨?_, ?_, Text.lower_lower s⟩
  · rw [Text.lower_ascii hascii]
    cases s with
    | nil => exact hhead
    | cons c cs =>
        have halpha := (toLower_scheme (hascii c List.mem_cons_self)).1
        exact halpha.trans hhead
  · intro d hd
    rw [Text.lower_ascii hascii] at hd
    obtain ⟨c, hc, rfl⟩ := List.mem_map.mp hd
    rw [(toLower_scheme (hascii c hc)).2]
    exact hchars c hc

/-- Either the text has a scheme in front of its first colon, or it is left as it is. -/
theorem splitScheme_cases (url : List Char) :
    (IsScheme (splitScheme url).1 ∧ (splitScheme url).2 ⊆ url) ∨ splitScheme url = ([], url) := by
  rw [splitScheme]
  dsimp only
  split
  case isTrue h =>
    simp only [Bool.and_eq_true, List.all_eq_true] at h
    exact .inl ⟨isScheme_lower h.1.2 h.2, partition_snd_subset ':' url⟩
  case isFalse => exact .inr rfl

theorem IsScheme.not_mem_colon {s : List Char} (h : IsScheme s) : ':' ∉ s := by
  intro hmem
  exact absurd (h.chars ':' hmem) (by decide)

theorem splitScheme_append {s : List Char} (h : IsScheme s) (rest : List Char) :
    splitScheme (s ++ ':' :: rest) = (s, rest) := by
  rw [splitScheme, partition_append h.not_mem_colon]
  dsimp only
  rw [if_pos, h.lower]
  simp only [Bool.and_eq_true, List.all_eq_true, true_and]
  exact ⟨h.head, h.chars⟩

/-! ## The network location -/

/-- What may follow a network location. -/
def Rooted (s : List Char) : Prop := ∀ c cs, s = c :: cs → c = '/' ∨ c = '?' ∨ c = '#'

theorem isNetlocEnd_iff {c : Char} : isNetlocEnd c = true ↔ c = '/' ∨ c = '?' ∨ c = '#' := by
  simp [isNetlocEnd, or_assoc]

theorem splitScheme_of_rooted {url : List Char} (h : Rooted url) : splitScheme url = ([], url) := by
  rw [splitScheme]
  dsimp only
  rw [if_neg]
  cases url with
  | nil => simp [partition]
  | cons c cs =>
      have halpha : c.isAlpha = false ∧ c ≠ ':' := by
        rcases h c cs rfl with rfl | rfl | rfl
        · decide
        · decide
        · decide
      simp [partition, halpha]

theorem splitNetloc_append {netloc rest : List Char} (h : ∀ c ∈ netloc, isNetlocEnd c = false)
    (hrest : Rooted rest) : splitNetloc ('/' :: '/' :: netloc ++ rest) = (netloc, rest) := by
  have htrue : ∀ c ∈ netloc, (!isNetlocEnd c) = true := by
    intro c hc
    rw [h c hc]
    rfl
  have hstop : rest.takeWhile (fun c => !isNetlocEnd c) = [] ∧
      rest.dropWhile (fun c => !isNetlocEnd c) = rest := by
    cases rest with
    | nil => exact ⟨rfl, rfl⟩
    | cons c cs =>
        have hc : isNetlocEnd c = true := isNetlocEnd_iff.mpr (hrest c cs rfl)
        simp [hc]
  rw [List.cons_append, List.cons_append, splitNetloc, List.takeWhile_append_of_pos htrue,
    List.dropWhile_append_of_pos htrue, hstop.1, hstop.2, List.append_nil]

theorem splitNetloc_of_ne {url : List Char} (h : ∀ rest, url ≠ '/' :: '/' :: rest) :
    splitNetloc url = ([], url) := by
  rw [splitNetloc]
  exact h

/-- What `_splitnetloc` cuts off, and what it leaves behind. -/
inductive Splitting (url : List Char) : List Char × List Char → Prop where
  | absent : Splitting url ([], url)
  | cut {netloc rest : List Char} (hurl : url = '/' :: '/' :: netloc ++ rest)
      (hnetloc : ∀ c ∈ netloc, isNetlocEnd c = false) (hrest : Rooted rest) :
      Splitting url (netloc, rest)

theorem splitting (url : List Char) : Splitting url (splitNetloc url) := by
  fun_cases splitNetloc url with
  | case1 url =>
      refine .cut (by simp) ?_ ?_
      · intro c hc
        simpa using List.mem_takeWhile_imp hc
      · intro c cs hrest
        have hhead := List.head?_dropWhile_not (fun c => !isNetlocEnd c) url
        rw [hrest] at hhead
        exact isNetlocEnd_iff.mp (by simpa using hhead)
  | case2 => exact .absent

/-- The path behind a network location is empty or starts with a slash. -/
theorem Rooted.path {rest : List Char} (h : Rooted rest) :
    (partition '?' (partition '#' rest).1).1 = [] ∨
      (partition '?' (partition '#' rest).1).1.head? = some '/' := by
  cases rest with
  | nil => exact .inl rfl
  | cons c cs =>
      rcases h c cs rfl with rfl | rfl | rfl
      · exact .inr rfl
      · exact .inl rfl
      · exact .inl rfl

theorem Splitting.subset {url netloc rest : List Char} (h : Splitting url (netloc, rest)) :
    netloc ⊆ url ∧ rest ⊆ url := by
  cases h with
  | absent => exact ⟨List.nil_subset _, List.Subset.refl _⟩
  | cut hurl =>
      rw [hurl]
      constructor
      · intro c hc
        simp [hc]
      · intro c hc
        simp [hc]

theorem Splitting.rooted {url netloc rest : List Char} (h : Splitting url (netloc, rest))
    (hne : netloc ≠ []) : (∀ c ∈ netloc, isNetlocEnd c = false) ∧ Rooted rest := by
  cases h with
  | absent => exact absurd rfl hne
  | cut hurl hnetloc hrest => exact ⟨hnetloc, hrest⟩

theorem wellFormed_of_urlsplit {text : List Char} {parts : SplitResult}
    (h : urlsplit text = .ok parts) (hnetloc : parts.netloc ≠ []) : WellFormed parts := by
  obtain ⟨-, hnormal, rfl⟩ := urlsplit_ok_iff.mp h
  have hsafe := safe_stripped text
  have hscheme := splitScheme_cases (stripped text)
  have hrest : (splitScheme (stripped text)).2 ⊆ stripped text := by
    rcases hscheme with ⟨-, hsub⟩ | heq
    · exact hsub
    · rw [heq]
      exact List.Subset.refl _
  have hsplit := splitting (splitScheme (stripped text)).2
  obtain ⟨hnetlocSub, htailSub⟩ := hsplit.subset
  obtain ⟨hends, hrooted⟩ := hsplit.rooted hnetloc
  have htail : Safe (splitNetloc (splitScheme (stripped text)).2).2 :=
    hsafe.of_subset (List.Subset.trans htailSub hrest)
  have hhead : Safe (partition '#' (splitNetloc (splitScheme (stripped text)).2).2).1 :=
    htail.of_subset (partition_fst_subset _ _)
  refine ⟨?_, hends, hnormal, hrooted.path, ⟨not_mem_partition _ _, ?_⟩, ?_,
    hsafe.of_subset (List.Subset.trans hnetlocSub hrest), hhead.of_subset (partition_fst_subset _ _),
    hhead.of_subset (partition_snd_subset _ _), htail.of_subset (partition_snd_subset _ _)⟩
  · rcases hscheme with ⟨hscheme, -⟩ | heq
    · exact .inr hscheme
    · exact .inl (congrArg Prod.fst heq)
  · exact fun hmem => not_mem_partition _ _ (partition_fst_subset _ _ hmem)
  · exact fun hmem => not_mem_partition _ _ (partition_snd_subset _ _ hmem)

/-! ## Putting together -/

/-- The network location behind its slashes, where `urlunsplit` writes them. -/
def slashed (parts : SplitResult) : List Char :=
  if parts.hasSlashes then '/' :: '/' :: parts.netloc else []

/-- The query and the fragment with the marks in front of them. -/
def marked (parts : SplitResult) : List Char :=
  optional '?' parts.query ++ optional '#' parts.fragment

/-- What stands behind the scheme. -/
def hierarchy (parts : SplitResult) : List Char := slashed parts ++ (parts.path ++ marked parts)

theorem urlunsplit_eq {parts : SplitResult}
    (h : parts.path = [] ∨ parts.path.head? = some '/') :
    urlunsplit parts =
      if parts.scheme ≠ [] then parts.scheme ++ ':' :: hierarchy parts else hierarchy parts := by
  have hpath : (if parts.path ≠ [] ∧ parts.path.take 1 ≠ ['/'] then '/' :: parts.path
      else parts.path) = parts.path := by
    rw [if_neg]
    rintro ⟨hne, htake⟩
    rcases h with h | h
    · exact hne h
    · cases hlist : parts.path with
      | nil => exact hne hlist
      | cons c cs =>
          rw [hlist] at h htake
          exact htake (by simpa using h)
  rw [urlunsplit, hpath, hierarchy, slashed, marked, optional, optional]
  split_ifs <;> simp

theorem marked_head (parts : SplitResult) {c : Char} {cs : List Char}
    (h : marked parts = c :: cs) : c = '?' ∨ c = '#' := by
  rw [marked, optional, optional] at h
  split_ifs at h
  · exact .inl (List.cons.inj h).1.symm
  · exact .inl (List.cons.inj h).1.symm
  · exact .inr (List.cons.inj h).1.symm
  · cases h

theorem rooted_path_marked {parts : SplitResult}
    (h : parts.path = [] ∨ parts.path.head? = some '/') : Rooted (parts.path ++ marked parts) := by
  intro c cs hlist
  cases hpath : parts.path with
  | nil =>
      rw [hpath] at hlist
      exact .inr (marked_head parts hlist)
  | cons d ds =>
      rw [hpath] at h hlist
      obtain rfl : d = c := (List.cons.inj hlist).1
      exact .inl (by simpa using h)

theorem rooted_hierarchy {parts : SplitResult}
    (h : parts.path = [] ∨ parts.path.head? = some '/') : Rooted (hierarchy parts) := by
  rw [hierarchy, slashed]
  split
  · intro c cs hlist
    exact .inl (List.cons.inj hlist).1.symm
  · exact rooted_path_marked h

theorem splitNetloc_hierarchy {parts : SplitResult} (h : WellFormed parts) :
    splitNetloc (hierarchy parts) = (parts.netloc, parts.path ++ marked parts) := by
  rw [hierarchy, slashed]
  split
  · exact splitNetloc_append h.netloc (rooted_path_marked h.rooted)
  case isFalse hcond =>
    have hparts : parts.netloc = [] ∧ parts.path.take 2 ≠ ['/', '/'] := by
      simp only [SplitResult.hasSlashes, Bool.or_eq_true, decide_eq_true_eq, not_or] at hcond
      exact ⟨not_not.mp hcond.1.1, hcond.2⟩
    obtain ⟨hnetloc, htake⟩ := hparts
    rw [hnetloc, List.nil_append]
    -- Without slashes of its own the text behind the scheme does not begin with two.
    refine splitNetloc_of_ne fun rest hrest => ?_
    match hpath : parts.path with
    | [] =>
        rw [hpath] at hrest
        rcases marked_head parts hrest with heq | heq
        · cases heq
        · cases heq
    | [c] =>
        rw [hpath] at hrest
        rcases marked_head parts (List.cons.inj hrest).2 with heq | heq
        · cases heq
        · cases heq
    | c :: d :: cs =>
        rw [hpath] at hrest htake
        have hc := (List.cons.inj hrest).1
        have hd := (List.cons.inj (List.cons.inj hrest).2).1
        exact htake (by rw [hc, hd]; rfl)

theorem splitScheme_urlunsplit {parts : SplitResult} (h : WellFormed parts) :
    splitScheme (urlunsplit parts) = (parts.scheme, hierarchy parts) := by
  rw [urlunsplit_eq h.rooted]
  split
  case isTrue hne =>
    rcases h.scheme with hnil | hscheme
    · exact absurd hnil hne
    · exact splitScheme_append hscheme _
  case isFalse hnil =>
    rw [splitScheme_of_rooted (rooted_hierarchy h.rooted), not_not.mp hnil]

theorem pieces_urlunsplit {parts : SplitResult} (h : WellFormed parts) :
    pieces (urlunsplit parts) = parts := by
  have hmark : '#' ∉ parts.path ++ optional '?' parts.query := by
    intro hmem
    rcases List.mem_append.mp hmem with hmem | hmem
    · exact h.path.2 hmem
    · rcases mem_optional hmem with heq | hmem
      · cases heq
      · exact h.query hmem
  have hfragment := partition_optional hmark parts.fragment
  have hquery := partition_optional h.path.1 parts.query
  rw [pieces, splitScheme_urlunsplit h, splitNetloc_hierarchy h]
  dsimp only
  rw [marked, ← List.append_assoc, hfragment.1, hfragment.2, hquery.1, hquery.2]

theorem Safe.append {s t : List Char} (hs : Safe s) (ht : Safe t) : Safe (s ++ t) := by
  intro c hc
  rcases List.mem_append.mp hc with hc | hc
  · exact hs c hc
  · exact ht c hc

theorem Safe.cons {c : Char} {s : List Char} (hc : unsafeChars.contains c = false) (hs : Safe s) :
    Safe (c :: s) := by
  intro d hd
  rcases List.mem_cons.mp hd with rfl | hd
  · exact hc
  · exact hs d hd

theorem Safe.optional {c : Char} {s : List Char} (hc : unsafeChars.contains c = false)
    (hs : Safe s) : Safe (optional c s) := by
  intro d hd
  rcases mem_optional hd with rfl | hd
  · exact hc
  · exact hs d hd

theorem IsScheme.safe {s : List Char} (h : IsScheme s) : Safe s := by
  intro c hc
  have hchar := h.chars c hc
  rw [Bool.eq_false_iff]
  intro hunsafe
  simp only [unsafeChars, List.contains_iff_mem, List.mem_cons, List.not_mem_nil, or_false]
    at hunsafe
  rcases hunsafe with rfl | rfl | rfl
  · exact absurd hchar (by decide)
  · exact absurd hchar (by decide)
  · exact absurd hchar (by decide)

theorem safe_hierarchy {parts : SplitResult} (h : WellFormed parts) : Safe (hierarchy parts) := by
  have hslashed : Safe (slashed parts) := by
    rw [slashed]
    split
    · exact .cons (by decide) (.cons (by decide) h.netlocSafe)
    · exact fun _ hc => absurd hc List.not_mem_nil
  have hmarked : Safe (marked parts) :=
    .append (.optional (by decide) h.querySafe) (.optional (by decide) h.fragmentSafe)
  exact hslashed.append (h.pathSafe.append hmarked)

theorem safe_urlunsplit {parts : SplitResult} (h : WellFormed parts) : Safe (urlunsplit parts) := by
  rw [urlunsplit_eq h.rooted]
  split
  case isTrue hne =>
    rcases h.scheme with hnil | hscheme
    · exact absurd hnil hne
    · exact hscheme.safe.append (.cons (by decide) (safe_hierarchy h))
  case isFalse => exact safe_hierarchy h

theorem isAlpha_not_space : ∀ n ≤ 0x20, (Char.ofNat n).isAlpha = false := by decide

theorem urlunsplit_head {parts : SplitResult} (h : WellFormed parts) {c : Char} {cs : List Char}
    (hlist : urlunsplit parts = c :: cs) : isC0OrSpace c = false := by
  rw [urlunsplit_eq h.rooted] at hlist
  split at hlist
  case isTrue hne =>
    rcases h.scheme with hnil | hscheme
    · exact absurd hnil hne
    · obtain ⟨d, ds, hcons⟩ := List.exists_cons_of_ne_nil hne
      rw [hcons] at hlist
      obtain rfl : d = c := (List.cons.inj hlist).1
      have halpha := hscheme.head
      rw [hcons] at halpha
      rw [isC0OrSpace, decide_eq_false_iff_not]
      intro hspace
      have hnot := isAlpha_not_space d.toNat hspace
      rw [Char.ofNat_toNat] at hnot
      rw [List.head?_cons, Option.map_some, Option.getD_some, hnot] at halpha
      cases halpha
  case isFalse =>
    rcases rooted_hierarchy h.rooted c cs hlist with rfl | rfl | rfl
    · decide
    · decide
    · decide

theorem stripped_urlunsplit {parts : SplitResult} (h : WellFormed parts) :
    stripped (urlunsplit parts) = urlunsplit parts := by
  have hdrop : (urlunsplit parts).dropWhile isC0OrSpace = urlunsplit parts := by
    cases hlist : urlunsplit parts with
    | nil => rfl
    | cons c cs => rw [List.dropWhile_cons, urlunsplit_head h hlist]; rfl
  rw [stripped, hdrop, List.filter_eq_self]
  intro c hc
  rw [safe_urlunsplit h c hc]
  rfl

/-- Well-formed parts are read back, if the brackets in their network location are allowed. -/
theorem urlsplit_urlunsplit_iff {parts other : SplitResult} (h : WellFormed parts) :
    urlsplit (urlunsplit parts) = .ok other ↔
      checkBrackets parts.netloc = .ok () ∧ other = parts := by
  rw [urlsplit_ok_iff, stripped_urlunsplit h, pieces_urlunsplit h]
  constructor
  · rintro ⟨hbrackets, -, rfl⟩
    exact ⟨hbrackets, rfl⟩
  · rintro ⟨hbrackets, rfl⟩
    exact ⟨hbrackets, h.normal, rfl⟩

/-! ## `split_basic_auth` -/

/-- The parts with the network location that `split_basic_auth` puts together. -/
def SplitResult.rebuilt (parts : SplitResult) (port : Option ℕ) : SplitResult :=
  { parts with netloc := authority parts.hostname port }

/-- The token of the header, for a user name and a password as they stand in the URL. -/
def SplitResult.token (parts : SplitResult) : List Char :=
  Base64.encode (encodeUtf8 (parts.username.getD [] ++ ':' :: parts.password.getD []))

theorem splitBasicAuth_eq {url : String} {parts : SplitResult}
    (h : urlsplit url.toList = .ok parts) :
    splitBasicAuth url =
      if parts.username.getD [] = [] then .ok (url, [])
      else parts.port.map fun port => (String.ofList (urlunsplit (parts.rebuilt port)),
        [("Authorization", "Basic " ++ String.ofList parts.token)]) := by
  rw [splitBasicAuth, h]
  change (if parts.username.getD [] = [] then _ else _) = _
  split
  · rfl
  · cases parts.port <;> rfl

end EestReplay.Url
