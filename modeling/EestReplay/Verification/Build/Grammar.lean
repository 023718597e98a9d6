import EestReplay.Verification.Build.Attributes

/-! # The grammar of numbers

A number of a request is hex digits, none or more, behind `0x`, `0X` or nothing. `parseHexU64`
reads exactly these, up to 64 bits, but for a mark with nothing behind it. -/

namespace EestReplay.Simbuild

open Digits

/-! ## The grammar -/

/-- The string denotes the number. -/
def Denotes (s : String) (n : ℕ) : Prop :=
  ∃ mark ∈ ["", "0x", "0X"], ∃ ds, s.toList = mark.toList ++ ds ∧ readDigits 16 0 ds = some n

/-- The digits of a numeral. -/
def behindMark : List Char → List Char
  | '0' :: 'x' :: ds => ds
  | '0' :: 'X' :: ds => ds
  | ds => ds

/-- A mark is not read as digits, so digits have none. -/
theorem behindMark_of_readDigits {n : ℕ} {ds : List Char} (h : readDigits 16 0 ds = some n) :
    behindMark ds = ds := by
  have hdigits : ∀ c ∈ ds, digit 16 c ≠ none := by
    intro c hc hnone
    rw [readDigits_eq_none.mpr ⟨c, hc, hnone⟩] at h
    cases h
  unfold behindMark
  split
  · exact absurd rfl (hdigits 'x' (by simp))
  · exact absurd rfl (hdigits 'X' (by simp))
  · rfl

theorem denotes_iff {s : String} {n : ℕ} :
    Denotes s n ↔ readDigits 16 0 (behindMark s.toList) = some n := by
  constructor
  · rintro ⟨mark, hmark, ds, hs, hread⟩
    rw [hs]
    simp only [List.mem_cons, List.not_mem_nil, or_false] at hmark
    rcases hmark with rfl | rfl | rfl
    · show readDigits 16 0 (behindMark ds) = some n
      rw [behindMark_of_readDigits hread]
      exact hread
    · exact hread
    · exact hread
  · intro h
    unfold behindMark at h
    split at h
    · rename_i ds hs
      exact ⟨"0x", by simp, ds, hs, h⟩
    · rename_i ds hs
      exact ⟨"0X", by simp, ds, hs, h⟩
    · exact ⟨"", by simp, s.toList, rfl, h⟩

/-- A string denotes at most one number. -/
theorem Denotes.unique {s : String} {n m : ℕ} (hn : Denotes s n) (hm : Denotes s m) : n = m := by
  rw [denotes_iff] at hn hm
  exact Option.some.inj (hn.symm.trans hm)

/-! ## The parser -/

theorem parseUintLoop_of_not_digit {n : UInt64} {cs : List Char}
    (h : ∃ c ∈ cs, digit 16 c = none) : ∃ e, parseUintLoop n cs = .error e := by
  induction cs generalizing n with
  | nil => simp at h
  | cons c cs ih =>
      unfold parseUintLoop
      cases hd : digit 16 c with
      | none => exact ⟨_, rfl⟩
      | some d =>
          have hrest : ∃ c ∈ cs, digit 16 c = none := by
            simpa [hd] using h
          dsimp only
          split
          · exact ⟨_, rfl⟩
          · split
            · exact ⟨_, rfl⟩
            · exact ih hrest

/-- The loop accepts what its digits say, and nothing that does not fit. -/
theorem parseUintLoop_eq_ok {n m : UInt64} {cs : List Char} :
    parseUintLoop n cs = .ok m ↔ readDigits 16 n.toNat cs = some m.toNat := by
  cases hread : readDigits 16 n.toNat cs with
  | none =>
      obtain ⟨e, he⟩ := parseUintLoop_of_not_digit (n := n) (readDigits_eq_none.mp hread)
      simp [he]
  | some k =>
      rw [parseUintLoop_of_readDigits hread, Option.some.injEq]
      by_cases hk : k < 2 ^ 64
      · rw [if_pos hk, Except.ok.injEq, ← UInt64.toNat_inj, UInt64.toNat_ofNat_of_lt' hk]
      · have hm := m.toNat_lt
        rw [if_neg hk]
        simp only [reduceCtorEq, false_iff]
        omega

theorem parseUint_eq_ok {s : String} {m : UInt64} (h : s ≠ "") :
    parseUint s = .ok m ↔ readDigits 16 0 s.toList = some m.toNat := by
  have hloop : parseUintLoop 0 s.toList = .ok m ↔ readDigits 16 0 s.toList = some m.toNat :=
    parseUintLoop_eq_ok
  rw [parseUint, if_neg h, ← hloop]
  cases parseUintLoop 0 s.toList with
  | error e => simp [Except.mapError]
  | ok k => simp [Except.mapError]

/-- The second test of `parseHexU64` never holds. -/
theorem trimHex_ne_empty {s : String} (h : s ≠ "") : trimHex s ≠ "" := by
  unfold trimHex
  split
  · exact ne_empty_of_toList (by simp)
  · exact ne_empty_of_toList (by simp)
  · exact h

/-- Trimming leaves the digits, where there is something behind the mark. -/
theorem toList_trimHex {s : String} (hlower : s ≠ "0x") (hupper : s ≠ "0X") :
    (trimHex s).toList = behindMark s.toList := by
  unfold trimHex
  split
  · rename_i c cs hs
    rw [hs, String.toList_ofList]
    rfl
  · rename_i c cs hs
    rw [hs, String.toList_ofList]
    rfl
  · rename_i hmarked hmarked'
    unfold behindMark
    split
    · rename_i ds hs
      cases ds with
      | nil => exact absurd (String.ext hs) hlower
      | cons c cs => exact absurd hs (hmarked c cs)
    · rename_i ds hs
      cases ds with
      | nil => exact absurd (String.ext hs) hupper
      | cons c cs => exact absurd hs (hmarked' c cs)
    · rfl

theorem parseHexU64_eq_ok {s : String} {m : UInt64} (hlower : s ≠ "0x") (hupper : s ≠ "0X") :
    parseHexU64 s = .ok m ↔ Denotes s m.toNat := by
  rw [denotes_iff]
  by_cases hempty : s = ""
  · subst hempty
    show Except.ok 0 = Except.ok m ↔ some 0 = some m.toNat
    rw [Except.ok.injEq, Option.some.injEq, ← UInt64.toNat_inj, UInt64.toNat_zero]
  · have htrim := trimHex_ne_empty hempty
    rw [parseHexU64, if_neg hempty, if_neg htrim, parseUint_eq_ok htrim,
      toList_trimHex hlower hupper]

/-! ## What is accepted -/

def Accepts {ε α : Type} (r : Except ε α) : Prop := ∃ a, r = .ok a

/-- A numeral of 64 bits, and not a mark alone. -/
def Legible (s : String) : Prop := s ≠ "0x" ∧ s ≠ "0X" ∧ ∃ n < 2 ^ 64, Denotes s n

theorem accepts_parseHexU64 {s : String} : Accepts (parseHexU64 s) ↔ Legible s := by
  constructor
  · rintro ⟨m, hm⟩
    have hlower : s ≠ "0x" := by
      rintro rfl
      cases hm
    have hupper : s ≠ "0X" := by
      rintro rfl
      cases hm
    exact ⟨hlower, hupper, m.toNat, m.toNat_lt, (parseHexU64_eq_ok hlower hupper).mp hm⟩
  · rintro ⟨hlower, hupper, n, hn, hdenotes⟩
    refine ⟨UInt64.ofNat n, (parseHexU64_eq_ok hlower hupper).mpr ?_⟩
    rw [UInt64.toNat_ofNat_of_lt' hn]
    exact hdenotes

/-- The string is accepted exactly when it denotes a number of 64 bits, and as that number. -/
structure ReadExactly (s : String) : Prop where
  accepted : Accepts (parseHexU64 s) ↔ ∃ n < 2 ^ 64, Denotes s n
  value : ∀ m n, parseHexU64 s = .ok m → Denotes s n → m.toNat = n

/-- A number that is denoted is not accepted. -/
theorem not_readExactly {s : String} {e : NumError} {n : ℕ} (hdenotes : Denotes s n)
    (hn : n < 2 ^ 64) (hparse : parseHexU64 s = .error e) : ¬ ReadExactly s := by
  intro h
  obtain ⟨m, hm⟩ := h.accepted.mpr ⟨n, hn, hdenotes⟩
  rw [hparse] at hm
  cases hm

theorem denotes_lower : Denotes "0x" 0 := ⟨"0x", by simp, [], rfl, rfl⟩

theorem denotes_upper : Denotes "0X" 0 := ⟨"0X", by simp, [], rfl, rfl⟩

/-- The parser reads exactly the grammar but for a bare mark, which denotes 0 and is refused. -/
theorem readExactly_iff (s : String) : ReadExactly s ↔ s ≠ "0x" ∧ s ≠ "0X" := by
  constructor
  · intro h
    refine ⟨?_, ?_⟩
    · rintro rfl
      exact not_readExactly denotes_lower (by decide) rfl h
    · rintro rfl
      exact not_readExactly denotes_upper (by decide) rfl h
  · rintro ⟨hlower, hupper⟩
    constructor
    · rw [accepts_parseHexU64]
      exact ⟨fun h => h.2.2, fun h => ⟨hlower, hupper, h⟩⟩
    · intro m n hm hn
      exact ((parseHexU64_eq_ok hlower hupper).mp hm).unique hn

theorem bare_mark_refused :
    Denotes "0x" 0 ∧ parseHexU64 "0x" = .error ⟨"0x", .errSyntax⟩ ∧ ¬ ReadExactly "0x" :=
  ⟨denotes_lower, rfl, not_readExactly denotes_lower (by decide) rfl⟩

end EestReplay.Simbuild
