import EestReplay.Model.Lower

/-! # Lower case is settled in one pass

No small letter has a small form of its own, by a check of the table against itself. What
`lower` returns it leaves as it is, and it puts no character into a text that is no small
letter. -/

namespace EestReplay.Text

/-- The last small letter of a row. -/
def CaseRow.lastLowered (row : CaseRow) : ℕ := row.lowered row.last

/-- No small letter of the first row is a capital letter of the second: the rows lie apart, or
the letters of both alternate. -/
def CaseRow.apart (row other : CaseRow) : Bool :=
  row.lastLowered.blt other.first || other.last.blt row.lower ||
    (other.step == 2 && (row.step == 2 || row.first == row.last) &&
      (row.lower + other.first) % 2 == 1)

theorem caseRows_apart {row other : CaseRow} (hrow : row ∈ caseRows) (hother : other ∈ caseRows) :
    row.apart other = true := by
  have hall : caseRows.all (fun row => caseRows.all fun other => row.apart other) = true := by
    decide +kernel
  exact List.all_eq_true.mp (List.all_eq_true.mp hall row hrow) other hother

/-- The steps are one or two, and the small letters are characters. -/
theorem caseRows_valid : ∀ row ∈ caseRows, (row.step = 1 ∨ row.step = 2) ∧
    (row.lastLowered < 0xD800 ∨ 0xDFFF < row.lower ∧ row.lastLowered < 0x110000) := by
  decide +kernel

theorem CaseRow.le_lastLowered {row : CaseRow} {n : ℕ} (h : row.covers n = true) :
    row.lower ≤ row.lowered n ∧ row.lowered n ≤ row.lastLowered := by
  simp only [covers, Bool.and_eq_true, decide_eq_true_eq] at h
  simp only [lowered, lastLowered]
  omega

theorem CaseRow.not_covers_lowered {row other : CaseRow} (hrow : row ∈ caseRows)
    (hother : other ∈ caseRows) {n : ℕ} (h : row.covers n = true) :
    other.covers (row.lowered n) = false := by
  have hapart := caseRows_apart hrow hother
  obtain ⟨hlow, hhigh⟩ := le_lastLowered h
  rw [Bool.eq_false_iff]
  intro hcovers
  simp only [apart, Bool.or_eq_true, Bool.and_eq_true, Nat.blt_eq, beq_iff_eq] at hapart
  simp only [covers, Bool.and_eq_true, decide_eq_true_eq, beq_iff_eq] at h hcovers
  obtain ⟨⟨hfirst, hlast⟩, hstep⟩ := h
  obtain ⟨⟨hotherFirst, hotherLast⟩, hotherStep⟩ := hcovers
  rcases hapart with (hapart | hapart) | ⟨⟨hother, hrow⟩, hodd⟩
  · omega
  · omega
  · -- Both numbers lie at even distances from the first letters of their rows.
    rw [hother] at hotherStep
    rw [lowered] at hotherStep hotherFirst
    rcases hrow with hrow | hrow
    · rw [hrow] at hstep
      omega
    · omega

/-- A character without a small form. -/
def Settled (c : Char) : Prop :=
  c.toNat ≠ 0x130 ∧ ∀ row ∈ caseRows, row.covers c.toNat = false

instance (c : Char) : Decidable (Settled c) :=
  inferInstanceAs (Decidable (c.toNat ≠ 0x130 ∧ ∀ row ∈ caseRows, row.covers c.toNat = false))

theorem Settled.lowerChar {c : Char} (h : Settled c) : lowerChar c = [c] := by
  have hnone : (caseRows.find? fun row => row.covers c.toNat) = none := by
    simpa using h.2
  rw [Text.lowerChar, if_neg h.1, hnone]

theorem not_settled_sigma : ¬ Settled 'Σ' := by decide +kernel

/-- The dotted capital I has no row, and is no small letter. -/
theorem caseRows_dotted : ∀ row ∈ caseRows, 0x130 < row.lower ∨ row.lastLowered < 0x130 := by
  decide +kernel

theorem toNat_ofNat {n : ℕ} (h : n < 0xD800 ∨ 0xDFFF < n ∧ n < 0x110000) :
    (Char.ofNat n).toNat = n := by
  rw [Char.ofNat, dif_pos h]
  rfl

theorem toNat_lowered {row : CaseRow} (hrow : row ∈ caseRows) {n : ℕ} (h : row.covers n = true) :
    (Char.ofNat (row.lowered n)).toNat = row.lowered n := by
  obtain ⟨hlow, hhigh⟩ := CaseRow.le_lastLowered h
  have hvalid := (caseRows_valid row hrow).2
  exact toNat_ofNat (by omega)

theorem settled_lowered {row : CaseRow} (hrow : row ∈ caseRows) {n : ℕ}
    (h : row.covers n = true) : Settled (Char.ofNat (row.lowered n)) := by
  obtain ⟨hlow, hhigh⟩ := CaseRow.le_lastLowered h
  have hdotted := caseRows_dotted row hrow
  refine ⟨?_, ?_⟩
  · rw [toNat_lowered hrow h]
    omega
  · intro other hother
    rw [toNat_lowered hrow h]
    exact CaseRow.not_covers_lowered hrow hother h

/-- What a character becomes: the two characters of the dotted capital I, a small letter, or
itself when it has none. -/
inductive Lowering (c : Char) : List Char → Prop where
  | dotted : Lowering c ['i', Char.ofNat 0x307]
  | row {row : CaseRow} (hrow : row ∈ caseRows) (h : row.covers c.toNat = true) :
      Lowering c [Char.ofNat (row.lowered c.toNat)]
  | settled (h : Settled c) : Lowering c [c]

theorem lowering (c : Char) : Lowering c (lowerChar c) := by
  rw [lowerChar]
  split
  · exact .dotted
  case isFalse hne =>
    cases hfind : caseRows.find? fun row => row.covers c.toNat with
    | some row =>
        have hcovers : row.covers c.toNat = true :=
          List.find?_some (p := fun row : CaseRow => row.covers c.toNat) hfind
        exact .row (List.mem_of_find?_eq_some hfind) hcovers
    | none =>
        refine .settled ⟨hne, fun row hrow => ?_⟩
        have hnone := List.find?_eq_none.mp hfind row hrow
        simpa using hnone

theorem settled_small {c : Char} (h : c ∈ ['i', Char.ofNat 0x307, 'σ', 'ς']) : Settled c := by
  have hall : ['i', Char.ofNat 0x307, 'σ', 'ς'].all (fun c => decide (Settled c)) = true := by
    decide +kernel
  exact of_decide_eq_true (List.all_eq_true.mp hall c h)

theorem Lowering.settled_of_mem {c d : Char} {cs : List Char} (h : Lowering c cs) (hd : d ∈ cs) :
    Settled d := by
  cases h with
  | dotted => exact settled_small (List.mem_append_left ['σ', 'ς'] hd)
  | row hrow h =>
      rw [List.mem_singleton.mp hd]
      exact settled_lowered hrow h
  | settled h => rwa [List.mem_singleton.mp hd]

theorem Lowering.ne_nil {c : Char} {cs : List Char} (h : Lowering c cs) : cs ≠ [] := by
  cases h <;> exact List.cons_ne_nil _ _

/-! ## Whole texts -/

theorem settled_of_mem_lowerFrom {before cs : List Char} {d : Char}
    (h : d ∈ lowerFrom before cs) : Settled d := by
  induction cs generalizing before with
  | nil => cases h
  | cons c cs ih =>
      rw [lowerFrom, List.mem_append] at h
      rcases h with h | h
      · split at h
        · have hsigma : d = 'ς' ∨ d = 'σ' := by
            split at h
            · exact .inl (List.mem_singleton.mp h)
            · exact .inr (List.mem_singleton.mp h)
          exact settled_small (by rcases hsigma with rfl | rfl <;> simp)
        · exact (lowering c).settled_of_mem h
      · exact ih h

theorem lowerFrom_of_settled {before cs : List Char} (h : ∀ c ∈ cs, Settled c) :
    lowerFrom before cs = cs := by
  induction cs generalizing before with
  | nil => rfl
  | cons c cs ih =>
      have hc := h c List.mem_cons_self
      have hne : c ≠ 'Σ' := fun heq => not_settled_sigma (heq ▸ hc)
      rw [lowerFrom, if_neg hne, hc.lowerChar, ih fun d hd => h d (List.mem_cons_of_mem c hd)]
      rfl

theorem lower_of_settled {cs : List Char} (h : ∀ c ∈ cs, Settled c) : lower cs = cs :=
  lowerFrom_of_settled h

theorem lower_lower (cs : List Char) : lower (lower cs) = lower cs :=
  lower_of_settled fun _ h => settled_of_mem_lowerFrom h

theorem lower_eq_nil_iff {cs : List Char} : lower cs = [] ↔ cs = [] := by
  cases cs with
  | nil => simp [lower, lowerFrom]
  | cons c cs =>
      simp only [lower, lowerFrom, List.append_eq_nil_iff, reduceCtorEq, iff_false, not_and]
      intro hnil
      split at hnil
      · cases hnil
      · exact absurd hnil (lowering c).ne_nil

/-! ## Characters that are no small letters -/

/-- A code point that may be a small letter, by the bounds of the rows. -/
def isSmall (n : ℕ) : Bool :=
  caseRows.any (fun row => row.lower ≤ n && n ≤ row.lastLowered) ||
    [0x69, 0x307, 0x3C3, 0x3C2].contains n

theorem CaseRow.isSmall_lowered {row : CaseRow} (hrow : row ∈ caseRows) {n : ℕ}
    (h : row.covers n = true) : isSmall (row.lowered n) = true := by
  obtain ⟨hlow, hhigh⟩ := le_lastLowered h
  rw [isSmall, Bool.or_eq_true, List.any_eq_true]
  exact .inl ⟨row, hrow, by simpa using ⟨hlow, hhigh⟩⟩

theorem Lowering.eq_of_mem {c d : Char} {cs : List Char} (h : Lowering c cs)
    (hsmall : isSmall d.toNat = false) (hd : d ∈ cs) : d = c := by
  cases h with
  | dotted =>
      exfalso
      rcases List.mem_pair.mp hd with rfl | rfl
      · simp [isSmall] at hsmall
      · simp [isSmall] at hsmall
  | row hrow h =>
      rw [List.mem_singleton.mp hd, toNat_lowered hrow h, CaseRow.isSmall_lowered hrow h] at hsmall
      cases hsmall
  | settled h => exact List.mem_singleton.mp hd

theorem mem_of_mem_lowerFrom {before cs : List Char} {d : Char} (hsmall : isSmall d.toNat = false)
    (h : d ∈ lowerFrom before cs) : d ∈ cs := by
  induction cs generalizing before with
  | nil => cases h
  | cons c cs ih =>
      rw [lowerFrom, List.mem_append] at h
      rcases h with h | h
      · split at h
        · exfalso
          split at h
          · rw [List.mem_singleton.mp h] at hsmall
            simp [isSmall] at hsmall
          · rw [List.mem_singleton.mp h] at hsmall
            simp [isSmall] at hsmall
        · rw [(lowering c).eq_of_mem hsmall h]
          exact List.mem_cons_self
      · exact List.mem_cons_of_mem c (ih h)

theorem mem_of_mem_lower {cs : List Char} {d : Char} (hsmall : isSmall d.toNat = false)
    (h : d ∈ lower cs) : d ∈ cs :=
  mem_of_mem_lowerFrom hsmall h

/-! ## ASCII -/

theorem lowerChar_ofNat : ∀ n < 0x80, lowerChar (Char.ofNat n) = [(Char.ofNat n).toLower] := by
  decide +kernel

theorem lowerChar_ascii {c : Char} (h : c.toNat < 0x80) : lowerChar c = [c.toLower] := by
  simpa using lowerChar_ofNat c.toNat h

theorem lowerFrom_ascii {before cs : List Char} (h : ∀ c ∈ cs, c.toNat < 0x80) :
    lowerFrom before cs = cs.map Char.toLower := by
  induction cs generalizing before with
  | nil => rfl
  | cons c cs ih =>
      have hc := h c List.mem_cons_self
      have hne : c ≠ 'Σ' := by
        rintro rfl
        exact absurd hc (by decide)
      rw [lowerFrom, if_neg hne, lowerChar_ascii hc, ih fun d hd => h d (List.mem_cons_of_mem c hd)]
      rfl

theorem lower_ascii {cs : List Char} (h : ∀ c ∈ cs, c.toNat < 0x80) :
    lower cs = cs.map Char.toLower :=
  lowerFrom_ascii h

end EestReplay.Text
