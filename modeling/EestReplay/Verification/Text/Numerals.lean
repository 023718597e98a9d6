import EestReplay.Model.Text

/-! # Printed numbers read back -/

namespace EestReplay.Text

open Digits

theorem readUnderscored_eq {base : ℕ} (cs : List Char) (h : ∀ c ∈ cs, c ≠ '_') (acc : ℕ) :
    readUnderscored base acc true cs = readDigits base acc cs := by
  induction cs generalizing acc with
  | nil => rfl
  | cons c cs ih =>
      have hc : c ≠ '_' := h c List.mem_cons_self
      simp only [readUnderscored, readDigits, if_neg hc]
      cases digit base c with
      | none => rfl
      | some d => exact ih (fun x hx => h x (List.mem_cons_of_mem c hx)) (acc * base + d)

theorem readUnderscored_eq_some {base n : ℕ} {cs : List Char} (hne : cs ≠ [])
    (h : ∀ c ∈ cs, c ≠ '_') (hread : readDigits base 0 cs = some n) :
    readUnderscored base 0 false cs = some n := by
  cases cs with
  | nil => exact absurd rfl hne
  | cons c cs =>
      have hc : c ≠ '_' := h c List.mem_cons_self
      simp only [readUnderscored, if_neg hc]
      simp only [readDigits] at hread
      cases hd : digit base c with
      | none => simp [hd] at hread
      | some d =>
          simp only [hd] at hread
          show readUnderscored base (0 * base + d) true cs = some n
          rw [readUnderscored_eq cs (fun x hx => h x (List.mem_cons_of_mem c hx))]
          exact hread

/-- The characters that `str` prints a natural number with. -/
theorem isDigit_cases {c : Char} (h : c.isDigit) :
    toAscii c = c ∧ isSpace c = false ∧ c ≠ '_' ∧ c ≠ '-' ∧ c ≠ '+' := by
  have hlo : 48 ≤ c.toNat := by
    simpa [Char.isDigit, Char.le_def, UInt32.le_iff_toNat_le] using (Bool.and_eq_true_iff.mp h).1
  have hhi : c.toNat ≤ 57 := by
    simpa [Char.isDigit, Char.le_def, UInt32.le_iff_toNat_le] using (Bool.and_eq_true_iff.mp h).2
  have hne : ∀ d : Char, d.toNat < 48 ∨ 57 < d.toNat → c ≠ d := by
    rintro d hd rfl
    omega
  refine ⟨?_, ?_, hne '_' (by decide), hne '-' (by decide), hne '+' (by decide)⟩
  · have hlt : c.toNat < 127 := by omega
    simp [toAscii, hlt]
  · have hspace : c ≠ ' ' := hne ' ' (by decide)
    have hcontrol : ¬ c.toNat ≤ 13 := by omega
    simp [isSpace, hspace, hcontrol]

theorem strip_of_forall {cs : List Char} (h : ∀ c ∈ cs, isSpace c = false) : strip cs = cs := by
  have hfirst : cs.dropWhile isSpace = cs := by
    cases cs with
    | nil => rfl
    | cons c cs => simp [h c List.mem_cons_self]
  have hlast : cs.reverse.dropWhile isSpace = cs.reverse := by
    cases hrev : cs.reverse with
    | nil => rfl
    | cons c ds =>
        have hc : c ∈ cs := List.mem_reverse.mp (hrev ▸ List.mem_cons_self)
        simp [h c hc]
  rw [strip, hfirst, hlast, List.reverse_reverse]

theorem readSigned_of_forall {base : ℕ} {cs : List Char} (h : ∀ c ∈ cs, c ≠ '-' ∧ c ≠ '+') :
    readSigned base cs = (readMagnitude base cs).map fun n => (n : ℤ) := by
  cases cs with
  | nil => rfl
  | cons c cs =>
      obtain ⟨hminus, hplus⟩ := h c List.mem_cons_self
      unfold readSigned
      split
      · rename_i heq
        exact absurd (List.cons.inj heq).1 hminus
      · rename_i heq
        exact absurd (List.cons.inj heq).1 hplus
      · rfl

/-- A numeral without a sign or spaces is read as its magnitude. -/
theorem int_of_readMagnitude {base n : ℕ} {s : String} {cs : List Char} (hlist : s.toList = cs)
    (h : ∀ c ∈ cs, toAscii c = c ∧ isSpace c = false ∧ c ≠ '-' ∧ c ≠ '+')
    (hread : readMagnitude base cs = some n) : int base s = .ok (n : ℤ) := by
  have hascii : cs.map toAscii = cs := by
    calc
      cs.map toAscii = cs.map id := List.map_congr_left fun c hc => (h c hc).1
      _ = cs := List.map_id _
  have hstrip : strip cs = cs := strip_of_forall fun c hc => (h c hc).2.1
  rw [int, hlist, hascii, hstrip, readSigned_of_forall fun c hc => (h c hc).2.2, hread]
  rfl

theorem toList_toString (n : ℕ) : (toString n).toList = Nat.toDigits 10 n := by
  rw [Nat.toString_eq_ofList_toDigits, String.toList_ofList]

/-- `int(str(n)) == n`, up to the limit on the digits of a decimal numeral. -/
theorem int_toString {n : ℕ} (h : n < 10 ^ maxDigits) : int 10 (toString n) = .ok (n : ℤ) := by
  have hchars : ∀ c ∈ Nat.toDigits 10 n,
      toAscii c = c ∧ isSpace c = false ∧ c ≠ '_' ∧ c ≠ '-' ∧ c ≠ '+' :=
    fun c hc => isDigit_cases (Nat.isDigit_of_mem_toDigits (by decide) (by decide) hc)
  have hunder : ∀ c ∈ Nat.toDigits 10 n, c ≠ '_' := fun c hc => (hchars c hc).2.2.1
  have hlength : (Nat.toDigits 10 n).countP (· ≠ '_') ≤ maxDigits := by
    calc
      (Nat.toDigits 10 n).countP (· ≠ '_') ≤ (Nat.toDigits 10 n).length := List.countP_le_length
      _ ≤ maxDigits := (Nat.length_toDigits_le_iff (by decide) (by decide)).mpr h
  have hread : readMagnitude 10 (Nat.toDigits 10 n) = some n := by
    rw [readMagnitude, if_neg (by decide), if_pos hlength]
    exact readUnderscored_eq_some Nat.toDigits_ne_nil hunder
      (readDigits_toDigits (by decide) (by decide) n)
  apply int_of_readMagnitude (toList_toString n) _ hread
  intro c hc
  obtain ⟨hascii, hspace, -, hminus, hplus⟩ := hchars c hc
  exact ⟨hascii, hspace, hminus, hplus⟩

/-- The characters that `hex` prints a number with. -/
theorem hexDigit_cases {c : Char} {n : ℕ} (h : c ∈ Nat.toDigits 16 n) :
    toAscii c = c ∧ isSpace c = false ∧ c ≠ '_' ∧ c ≠ '-' ∧ c ≠ '+' := by
  obtain ⟨d, hd, rfl⟩ := eq_digitChar_of_mem_toDigits (by decide) h
  have hall : ∀ d < 16, toAscii (Nat.digitChar d) = Nat.digitChar d ∧
      isSpace (Nat.digitChar d) = false ∧ Nat.digitChar d ≠ '_' ∧ Nat.digitChar d ≠ '-' ∧
        Nat.digitChar d ≠ '+' := by
    decide
  exact hall d hd

/-- `int(hex(n), 16) == n` -/
theorem int_hex (n : ℕ) : int 16 (hex n) = .ok (n : ℤ) := by
  obtain ⟨d, ds, hds⟩ := List.exists_cons_of_ne_nil (Nat.toDigits_ne_nil (b := 16) (n := n))
  have hchars : ∀ c ∈ d :: ds, toAscii c = c ∧ isSpace c = false ∧ c ≠ '_' ∧ c ≠ '-' ∧ c ≠ '+' := by
    intro c hc
    rw [← hds] at hc
    exact hexDigit_cases hc
  have hunder : ∀ c ∈ d :: ds, c ≠ '_' := fun c hc => (hchars c hc).2.2.1
  have hlist : (hex n).toList = '0' :: 'x' :: d :: ds := by
    rw [← hds]
    simp [hex]
  have hdrop : dropHexPrefix ('0' :: 'x' :: d :: ds) = d :: ds := by
    have hne : d ≠ '_' := hunder d List.mem_cons_self
    unfold dropHexPrefix
    split <;> simp_all
  have hread : readMagnitude 16 ('0' :: 'x' :: d :: ds) = some n := by
    rw [readMagnitude, if_pos rfl, hdrop]
    apply readUnderscored_eq_some (List.cons_ne_nil d ds) hunder
    rw [← hds]
    exact readDigits_toDigits (by decide) (by decide) n
  apply int_of_readMagnitude hlist _ hread
  intro c hc
  rcases List.mem_cons.mp hc with rfl | hc
  · decide
  · rcases List.mem_cons.mp hc with rfl | hc
    · decide
    · obtain ⟨hascii, hspace, -, hminus, hplus⟩ := hchars c hc
      exact ⟨hascii, hspace, hminus, hplus⟩

end EestReplay.Text
