import Mathlib.Data.List.Basic
import Mathlib.Tactic.IntervalCases

/-! # Positional numerals

Reading a numeral digit by digit, and that it inverts printing in every base up to 16. -/

namespace Digits

/-- The value of a digit or a letter, in a base large enough for it. -/
def digitValue (c : Char) : Option ℕ :=
  if '0' ≤ c ∧ c ≤ '9' then some (c.toNat - '0'.toNat)
  else if 'a' ≤ c ∧ c ≤ 'z' then some (c.toNat - 'a'.toNat + 10)
  else if 'A' ≤ c ∧ c ≤ 'Z' then some (c.toNat - 'A'.toNat + 10)
  else none

/-- The value of a digit of the base. -/
def digit (base : ℕ) (c : Char) : Option ℕ := (digitValue c).filter (· < base)

/-- Read digits behind the ones that gave `acc`. -/
def readDigits (base : ℕ) : ℕ → List Char → Option ℕ
  | acc, [] => some acc
  | acc, c :: cs =>
    match digit base c with
    | some d => readDigits base (acc * base + d) cs
    | none => none

/-! ## Reading -/

theorem digit_lt {base d : ℕ} {c : Char} (h : digit base c = some d) : d < base := by
  simpa using (Option.filter_eq_some_iff.mp h).2

theorem digit_digitChar {base n : ℕ} (hbase : base ≤ 16) (hn : n < base) :
    digit base n.digitChar = some n := by
  have hvalue : digitValue n.digitChar = some n := by
    have hlt : n < 16 := by omega
    interval_cases n <;> rfl
  simp [digit, hvalue, hn]

theorem readDigits_append {base acc : ℕ} {cs ds : List Char} :
    readDigits base acc (cs ++ ds) = (readDigits base acc cs).bind fun n => readDigits base n ds := by
  induction cs generalizing acc with
  | nil => rfl
  | cons c cs ih =>
      simp only [List.cons_append, readDigits]
      cases digit base c with
      | none => rfl
      | some d => exact ih

/-- Leading zeros do not count. -/
theorem readDigits_zeros {base : ℕ} (hbase : 0 < base) (k : ℕ) :
    readDigits base 0 (List.replicate k '0') = some 0 := by
  have hzero : digit base '0' = some 0 := by
    have hvalue : digitValue '0' = some 0 := rfl
    simp [digit, hvalue, hbase]
  induction k with
  | zero => rfl
  | succ k ih =>
      rw [List.replicate_succ, readDigits, hzero]
      simpa using ih

theorem readDigits_eq_none {base acc : ℕ} {cs : List Char} :
    readDigits base acc cs = none ↔ ∃ c ∈ cs, digit base c = none := by
  induction cs generalizing acc with
  | nil => simp [readDigits]
  | cons c cs ih =>
      unfold readDigits
      cases hd : digit base c with
      | none => simp [hd]
      | some d => simp [hd, ih]

/-- A digit read after others only adds to them. -/
theorem le_of_readDigits {base acc n : ℕ} {cs : List Char} (hbase : 0 < base)
    (h : readDigits base acc cs = some n) : acc ≤ n := by
  induction cs generalizing acc with
  | nil =>
      obtain rfl : acc = n := by simpa [readDigits] using h
      exact Nat.le_refl _
  | cons c cs ih =>
      simp only [readDigits] at h
      cases hd : digit base c with
      | none => simp [hd] at h
      | some d =>
          rw [hd] at h
          have hle : acc * base + d ≤ n := ih h
          have hmul : acc ≤ acc * base := Nat.le_mul_of_pos_right acc hbase
          omega

/-- A printed number consists of digits of its base. -/
theorem eq_digitChar_of_mem_toDigits {base n : ℕ} (hbase : 1 < base) {c : Char}
    (h : c ∈ Nat.toDigits base n) : ∃ d < base, c = d.digitChar := by
  induction n using Nat.strongRecOn with
  | ind n ih =>
      by_cases hlt : n < base
      · rw [Nat.toDigits_of_lt_base hlt] at h
        exact ⟨n, hlt, List.mem_singleton.mp h⟩
      · have hge : base ≤ n := by omega
        rw [Nat.toDigits_of_base_le hbase hge] at h
        rcases List.mem_append.mp h with h | h
        · exact ih (n / base) (Nat.div_lt_self (by omega) hbase) h
        · exact ⟨n % base, Nat.mod_lt n (by omega), List.mem_singleton.mp h⟩

/-- Reading inverts printing. -/
theorem readDigits_toDigits {base : ℕ} (hlo : 1 < base) (hhi : base ≤ 16) (n : ℕ) :
    readDigits base 0 (Nat.toDigits base n) = some n := by
  induction n using Nat.strongRecOn with
  | ind n ih =>
      by_cases h : n < base
      · rw [Nat.toDigits_of_lt_base h]
        simp [readDigits, digit_digitChar hhi h]
      · have hge : base ≤ n := by omega
        have hdiv : n / base < n := Nat.div_lt_self (by omega) hlo
        have hmod : n % base < base := Nat.mod_lt n (by omega)
        have hsplit : n / base * base + n % base = n := Nat.div_add_mod' n base
        rw [Nat.toDigits_of_base_le hlo hge, readDigits_append, ih (n / base) hdiv]
        simp [readDigits, digit_digitChar hhi hmod, hsplit]

end Digits
