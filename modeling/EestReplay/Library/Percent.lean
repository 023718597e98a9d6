import EestReplay.Library.Digits

/-! # Percent decoding

Percent escapes stand for bytes, and the bytes of a run of ASCII for UTF-8 text with
a replacement character for what is no text. A text is its own decoding just when no escape
occurs in it. -/

namespace Percent

open Digits

/-- The byte of two hexadecimal digits. -/
def hexByte (a b : Char) : Option ℕ :=
  match digit 16 a, digit 16 b with
  | some hi, some lo => some (hi * 16 + lo)
  | _, _ => none

def decodeBytes : List Char → List ℕ
  | [] => []
  | '%' :: a :: b :: cs =>
    match hexByte a b with
    | some n => n :: decodeBytes cs
    | none => '%'.toNat :: decodeBytes (a :: b :: cs)
  | c :: cs => c.toNat :: decodeBytes cs

/-- What a sequence of several bytes still needs: how many bytes, between which bounds the
next one lies, and the bits read so far. -/
structure Pending where
  count : ℕ
  low : ℕ
  high : ℕ
  bits : ℕ

/-- The well-formed sequences by their first bytes. -/
def leading (b : ℕ) : Option Pending :=
  if 0xC2 ≤ b ∧ b ≤ 0xDF then some ⟨1, 0x80, 0xBF, b - 0xC0⟩
  else if b = 0xE0 then some ⟨2, 0xA0, 0xBF, 0⟩
  else if b = 0xED then some ⟨2, 0x80, 0x9F, 0xD⟩
  else if 0xE1 ≤ b ∧ b ≤ 0xEF then some ⟨2, 0x80, 0xBF, b - 0xE0⟩
  else if b = 0xF0 then some ⟨3, 0x90, 0xBF, 0⟩
  else if b = 0xF4 then some ⟨3, 0x80, 0x8F, 4⟩
  else if 0xF1 ≤ b ∧ b ≤ 0xF3 then some ⟨3, 0x80, 0xBF, b - 0xF0⟩
  else none

def replacement : Char := Char.ofNat 0xFFFD

def start (b : ℕ) : List Char × Option Pending :=
  if b < 0x80 then ([Char.ofNat b], none)
  else
    match leading b with
    | some pending => ([], some pending)
    | none => ([replacement], none)

def Pending.read (pending : Pending) (b : ℕ) : List Char × Option Pending :=
  let bits := pending.bits * 64 + (b - 0x80)
  if pending.count = 1 then ([Char.ofNat bits], none)
  else ([], some ⟨pending.count - 1, 0x80, 0xBF, bits⟩)

/-- A byte out of bounds ends the sequence, which is replaced as a whole, and starts anew. -/
def step : Option Pending → ℕ → List Char × Option Pending
  | none, b => start b
  | some pending, b =>
    if pending.low ≤ b ∧ b ≤ pending.high then pending.read b
    else (replacement :: (start b).1, (start b).2)

def decodeFrom : Option Pending → List ℕ → List Char
  | none, [] => []
  | some _, [] => [replacement]
  | pending, b :: bs => (step pending b).1 ++ decodeFrom (step pending b).2 bs

/-- `bytes.decode("utf-8", "replace")` -/
def decodeUtf8 (bytes : List ℕ) : List Char := decodeFrom none bytes

/-- Escapes are decoded in each run of ASCII on its own. -/
def unquoteFrom : List Char → List Char → List Char
  | run, [] => decodeUtf8 (decodeBytes run)
  | run, c :: cs =>
    if c.toNat < 0x80 then unquoteFrom (run ++ [c]) cs
    else decodeUtf8 (decodeBytes run) ++ c :: unquoteFrom [] cs

/-- `urllib.parse.unquote` -/
def unquote (cs : List Char) : List Char := unquoteFrom [] cs

/-- A percent sign stands before two hexadecimal digits. -/
def opens (c : Char) : List Char → Bool
  | a :: b :: _ => c == '%' && (hexByte a b).isSome
  | _ => false

def hasEscape : List Char → Bool
  | [] => false
  | c :: cs => opens c cs || hasEscape cs

theorem opens_of_forall {c : Char} {cs : List Char}
    (h : ∀ a b ds, c = '%' → cs = a :: b :: ds → False) : opens c cs = false := by
  match cs, h with
  | [], _ => rfl
  | [_], _ => rfl
  | a :: b :: ds, h =>
      have hne : c ≠ '%' := fun heq => h a b ds heq rfl
      simp [opens, hne]

/-! ## Bytes -/

theorem decodeBytes_of_not_hasEscape {cs : List Char} (h : hasEscape cs = false) :
    decodeBytes cs = cs.map Char.toNat := by
  induction cs using decodeBytes.induct with
  | case1 => rfl
  | case2 a b cs n hn ih => simp [hasEscape, opens, hn] at h
  | case3 a b cs hn ih =>
      obtain ⟨-, htail⟩ := Bool.or_eq_false_iff.mp h
      rw [decodeBytes, hn]
      exact congrArg _ (ih htail)
  | case4 c cs hc ih =>
      obtain ⟨-, htail⟩ := Bool.or_eq_false_iff.mp h
      rw [decodeBytes]
      · exact congrArg _ (ih htail)
      · exact hc

theorem length_decodeBytes_le (cs : List Char) : (decodeBytes cs).length ≤ cs.length := by
  induction cs using decodeBytes.induct with
  | case1 => simp [decodeBytes]
  | case2 a b cs n hn ih =>
      rw [decodeBytes, hn]
      simp only [List.length_cons]
      omega
  | case3 a b cs hn ih =>
      rw [decodeBytes, hn]
      simpa using ih
  | case4 c cs hc ih =>
      rw [decodeBytes]
      · simpa using ih
      · exact hc

/-- An escape makes one byte of three characters. -/
theorem length_decodeBytes_lt {cs : List Char} (h : hasEscape cs = true) :
    (decodeBytes cs).length < cs.length := by
  induction cs using decodeBytes.induct with
  | case1 => simp [hasEscape] at h
  | case2 a b cs n hn ih =>
      have hle := length_decodeBytes_le cs
      rw [decodeBytes, hn]
      simp only [List.length_cons]
      omega
  | case3 a b cs hn ih =>
      have htail : hasEscape (a :: b :: cs) = true := by simpa [hasEscape, opens, hn] using h
      rw [decodeBytes, hn]
      simpa using ih htail
  | case4 c cs hc ih =>
      have htail : hasEscape cs = true := by simpa [hasEscape, opens_of_forall hc] using h
      rw [decodeBytes]
      · simpa using ih htail
      · exact hc

/-! ## Text -/

/-- A sequence that is not complete counts as the character that may replace it. -/
def owed : Option Pending → ℕ
  | none => 0
  | some _ => 1

theorem length_start (b : ℕ) : (start b).1.length + owed (start b).2 = 1 := by
  rw [start]
  split
  · rfl
  · cases leading b with
    | none => rfl
    | some pending => rfl

theorem length_step (pending : Option Pending) (b : ℕ) :
    (step pending b).1.length + owed (step pending b).2 ≤ owed pending + 1 := by
  have hstart := length_start b
  cases pending with
  | none =>
      rw [step, owed]
      omega
  | some pending =>
      rw [step, owed]
      split
      · rw [Pending.read]
        split <;> simp [owed]
      · simp only [List.length_cons]
        omega

theorem length_decodeFrom_le (pending : Option Pending) (bytes : List ℕ) :
    (decodeFrom pending bytes).length ≤ bytes.length + owed pending := by
  induction bytes generalizing pending with
  | nil => cases pending <;> simp [decodeFrom, owed]
  | cons b bs ih =>
      have hstep := length_step pending b
      have hrest := ih (step pending b).2
      rw [decodeFrom, List.length_append, List.length_cons]
      omega

theorem length_decodeUtf8_le (bytes : List ℕ) : (decodeUtf8 bytes).length ≤ bytes.length :=
  length_decodeFrom_le none bytes

theorem decodeUtf8_ascii {cs : List Char} (h : ∀ c ∈ cs, c.toNat < 0x80) :
    decodeUtf8 (cs.map Char.toNat) = cs := by
  induction cs with
  | nil => rfl
  | cons c cs ih =>
      have hc : c.toNat < 0x80 := h c List.mem_cons_self
      have hrest := ih fun d hd => h d (List.mem_cons_of_mem c hd)
      have hstep : step none c.toNat = ([c], none) := by simp [step, start, hc]
      rw [decodeUtf8] at hrest ⊢
      rw [List.map_cons, decodeFrom, hstep, hrest]
      rfl

/-! ## Runs -/

theorem digit_of_not_ascii {c : Char} (h : ¬ c.toNat < 0x80) : digit 16 c = none := by
  have hvalue : digitValue c = none := by
    have hchar : ∀ d : Char, d.toNat < 0x80 → ¬ c ≤ d := by
      intro d hd hle
      have hnat : c.toNat ≤ d.toNat := hle
      omega
    simp [digitValue, hchar '9' (by decide), hchar 'z' (by decide), hchar 'Z' (by decide)]
  simp [digit, hvalue]

theorem hexByte_of_not_ascii {a b : Char} (h : ¬ a.toNat < 0x80 ∨ ¬ b.toNat < 0x80) :
    hexByte a b = none := by
  rcases h with h | h
  · simp [hexByte, digit_of_not_ascii h]
  · cases ha : digit 16 a <;> simp [hexByte, ha, digit_of_not_ascii h]

theorem opens_append {c : Char} (h : ¬ c.toNat < 0x80) (d : Char) (run cs : List Char) :
    opens d (run ++ c :: cs) = opens d run := by
  match run, cs with
  | [], [] => rfl
  | [], b :: cs => simp [opens, hexByte_of_not_ascii (.inl h)]
  | [a], cs => simp [opens, hexByte_of_not_ascii (.inr h)]
  | a :: b :: run, cs => rfl

/-- No escape reaches over a character beyond ASCII. -/
theorem hasEscape_append {c : Char} (h : ¬ c.toNat < 0x80) (run cs : List Char) :
    hasEscape (run ++ c :: cs) = (hasEscape run || hasEscape cs) := by
  induction run with
  | nil =>
      have hopens : opens c cs = false := by
        refine opens_of_forall fun a b ds hc _ => h ?_
        rw [hc]
        decide
      simp [hasEscape, hopens]
  | cons d run ih =>
      rw [List.cons_append, hasEscape, hasEscape, opens_append h, ih, Bool.or_assoc]

theorem length_decoded_le (run : List Char) :
    (decodeUtf8 (decodeBytes run)).length ≤ run.length :=
  (length_decodeUtf8_le _).trans (length_decodeBytes_le run)

theorem length_decoded_lt {run : List Char} (h : hasEscape run = true) :
    (decodeUtf8 (decodeBytes run)).length < run.length :=
  (length_decodeUtf8_le _).trans_lt (length_decodeBytes_lt h)

theorem length_unquoteFrom_le (run cs : List Char) :
    (unquoteFrom run cs).length ≤ run.length + cs.length := by
  induction cs generalizing run with
  | nil => exact length_decoded_le run
  | cons c cs ih =>
      rw [unquoteFrom]
      split
      · have hrest := ih (run ++ [c])
        simp only [List.length_append, List.length_cons, List.length_nil] at hrest ⊢
        omega
      · have hrun := length_decoded_le run
        have hrest := ih []
        simp only [List.length_append, List.length_cons, List.length_nil] at hrest ⊢
        omega

theorem length_unquoteFrom_lt {run cs : List Char} (h : hasEscape (run ++ cs) = true) :
    (unquoteFrom run cs).length < run.length + cs.length := by
  induction cs generalizing run with
  | nil =>
      rw [List.append_nil] at h
      exact length_decoded_lt h
  | cons c cs ih =>
      rw [unquoteFrom]
      split
      case isTrue hc =>
        have happend : hasEscape (run ++ [c] ++ cs) = true := by simpa using h
        have hrest := ih happend
        simp only [List.length_append, List.length_cons, List.length_nil] at hrest ⊢
        omega
      case isFalse hc =>
        have hrun := length_decoded_le run
        have hrest := length_unquoteFrom_le [] cs
        rw [hasEscape_append hc, Bool.or_eq_true] at h
        simp only [List.length_append, List.length_cons, List.length_nil] at hrest ⊢
        rcases h with h | h
        · have hlt := length_decoded_lt h
          omega
        · have hlt : (unquoteFrom [] cs).length < 0 + cs.length := ih h
          omega

theorem decoded_of_not_hasEscape {run : List Char} (hascii : ∀ c ∈ run, c.toNat < 0x80)
    (h : hasEscape run = false) : decodeUtf8 (decodeBytes run) = run := by
  rw [decodeBytes_of_not_hasEscape h, decodeUtf8_ascii hascii]

theorem unquoteFrom_of_not_hasEscape {run cs : List Char} (hascii : ∀ c ∈ run, c.toNat < 0x80)
    (h : hasEscape (run ++ cs) = false) : unquoteFrom run cs = run ++ cs := by
  induction cs generalizing run with
  | nil =>
      rw [List.append_nil] at h ⊢
      exact decoded_of_not_hasEscape hascii h
  | cons c cs ih =>
      rw [unquoteFrom]
      split
      case isTrue hc =>
        have hrun : ∀ d ∈ run ++ [c], d.toNat < 0x80 := by
          intro d hd
          rcases List.mem_append.mp hd with hd | hd
          · exact hascii d hd
          · rwa [List.mem_singleton.mp hd]
        simpa using ih hrun (by simpa using h)
      case isFalse hc =>
        rw [hasEscape_append hc, Bool.or_eq_false_iff] at h
        have hrest : unquoteFrom [] cs = cs := ih (by simp) h.2
        rw [decoded_of_not_hasEscape hascii h.1, hrest]

theorem length_unquote_le (cs : List Char) : (unquote cs).length ≤ cs.length := by
  simpa [unquote] using length_unquoteFrom_le [] cs

theorem unquote_eq_self_iff {cs : List Char} : unquote cs = cs ↔ hasEscape cs = false := by
  constructor
  · intro h
    cases hescape : hasEscape cs with
    | false => rfl
    | true =>
        have hlt : (unquote cs).length < 0 + cs.length := length_unquoteFrom_lt hescape
        rw [h, Nat.zero_add] at hlt
        exact absurd hlt (Nat.lt_irrefl _)
  · exact fun h => unquoteFrom_of_not_hasEscape (fun _ hc => absurd hc List.not_mem_nil) h

end Percent
