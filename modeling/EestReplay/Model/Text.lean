import EestReplay.Library.Digits
import EestReplay.Model.Json

/-! # Python strings

The string operations of the standard library that the modules use. -/

namespace EestReplay.Text

open Digits

/-- The zeros of the blocks of decimal digits, each ten code points long. -/
def decimalZeros : List ℕ :=
  [0x30, 0x660, 0x6F0, 0x7C0, 0x966, 0x9E6, 0xA66, 0xAE6, 0xB66, 0xBE6, 0xC66, 0xCE6, 0xD66, 0xDE6,
    0xE50, 0xED0, 0xF20, 0x1040, 0x1090, 0x17E0, 0x1810, 0x1946, 0x19D0, 0x1A80, 0x1A90, 0x1B50,
    0x1BB0, 0x1C40, 0x1C50, 0xA620, 0xA8D0, 0xA900, 0xA9D0, 0xA9F0, 0xAA50, 0xABF0, 0xFF10, 0x104A0,
    0x10D30, 0x11066, 0x110F0, 0x11136, 0x111D0, 0x112F0, 0x11450, 0x114D0, 0x11650, 0x116C0,
    0x11730, 0x118E0, 0x11950, 0x11C50, 0x11D50, 0x11DA0, 0x16A60, 0x16AC0, 0x16B50, 0x1D7CE,
    0x1D7D8, 0x1D7E2, 0x1D7EC, 0x1D7F6, 0x1E140, 0x1E2F0, 0x1E950, 0x1FBF0]

/-- White space beyond ASCII. -/
def unicodeSpaces : List ℕ :=
  [0x85, 0xA0, 0x1680, 0x2000, 0x2001, 0x2002, 0x2003, 0x2004, 0x2005, 0x2006, 0x2007, 0x2008, 0x2009,
    0x200A, 0x2028, 0x2029, 0x202F, 0x205F, 0x3000]

/-- ASCII white space, as `int` and `bytes.fromhex` skip it. -/
def isSpace (c : Char) : Bool := c == ' ' || (9 ≤ c.toNat && c.toNat ≤ 13)

/-- What `int` reads a character as: decimal digits and spaces of any script count as
their ASCII forms, and nothing else beyond ASCII is a digit. -/
def toAscii (c : Char) : Char :=
  if c.toNat < 127 then c
  else if c.toNat ∈ unicodeSpaces then ' '
  else
    match decimalZeros.find? fun first => first ≤ c.toNat && c.toNat < first + 10 with
    | some first => Nat.digitChar (c.toNat - first)
    | none => '?'

/-- `s.strip()` on what `toAscii` returns. -/
def strip (cs : List Char) : List Char := ((cs.dropWhile isSpace).reverse.dropWhile isSpace).reverse

/-- What `str.isspace` holds of. -/
def isWhite (c : Char) : Bool :=
  isSpace c || (0x1C ≤ c.toNat && c.toNat ≤ 0x1F) || unicodeSpaces.contains c.toNat

/-- `s.strip()` -/
def stripWhite (s : String) : String :=
  String.ofList ((s.toList.dropWhile isWhite).reverse.dropWhile isWhite).reverse

/-- Digits with single underscores between them. -/
def readUnderscored (base : ℕ) : ℕ → Bool → List Char → Option ℕ
  | acc, afterDigit, [] => if afterDigit then some acc else none
  | acc, afterDigit, c :: cs =>
    if c = '_' then
      if afterDigit then readUnderscored base acc false cs else none
    else
      match digit base c with
      | some d => readUnderscored base (acc * base + d) true cs
      | none => none

/-- The optional prefix of base 16, with the underscore that may follow it. -/
def dropHexPrefix : List Char → List Char
  | '0' :: 'x' :: '_' :: cs => cs
  | '0' :: 'X' :: '_' :: cs => cs
  | '0' :: 'x' :: cs => cs
  | '0' :: 'X' :: cs => cs
  | cs => cs

/-- The limit on the digits of a numeral in a base that is no power of two. -/
def maxDigits : ℕ := 4300

def readMagnitude (base : ℕ) (cs : List Char) : Option ℕ :=
  if base = 16 then readUnderscored 16 0 false (dropHexPrefix cs)
  else if cs.countP (· ≠ '_') ≤ maxDigits then readUnderscored base 0 false cs
  else none

def readSigned (base : ℕ) : List Char → Option ℤ
  | '-' :: cs => (readMagnitude base cs).map fun n => -(n : ℤ)
  | '+' :: cs => (readMagnitude base cs).map fun n => (n : ℤ)
  | cs => (readMagnitude base cs).map fun n => (n : ℤ)

/-- `int(s, base)` for the bases 10 and 16. -/
def int (base : ℕ) (s : String) : Except PyError ℤ :=
  match readSigned base (strip (s.toList.map toAscii)) with
  | some n => .ok n
  | none => .error ⟨.valueError, "invalid literal for int() with base " ++ toString base⟩

example : int 10 " -1_000 " = .ok (-1000) := by decide

/-- `s.startswith(prefix)` -/
def startsWith (s start : String) : Bool := start.toList.isPrefixOf s.toList

/-- `s.removeprefix(prefix)` -/
def removePrefix (s start : String) : String :=
  if startsWith s start then String.ofList (s.toList.drop start.toList.length) else s

/-- `part in s` -/
def contains (s part : String) : Bool := decide (part.toList <:+: s.toList)

/-- `bytes.fromhex(s)` -/
def fromHexChars : List Char → Except PyError (List ℕ)
  | [] => .ok []
  | [c] => if isSpace c then .ok [] else .error ⟨.valueError, "non-hexadecimal number found"⟩
  | c :: d :: cs =>
    if isSpace c then fromHexChars (d :: cs)
    else
      match digit 16 c, digit 16 d with
      | some hi, some lo => (fromHexChars cs).map ((hi * 16 + lo) :: ·)
      | _, _ => .error ⟨.valueError, "non-hexadecimal number found"⟩

def fromHex (s : String) : Except PyError (List ℕ) := fromHexChars s.toList

def lineBreaks : List ℕ := [0xA, 0xB, 0xC, 0xD, 0x1C, 0x1D, 0x1E, 0x85, 0x2028, 0x2029]

def splitLineChars : List Char → List Char → List (List Char)
  | [], [] => []
  | line, [] => [line]
  | line, '\r' :: '\n' :: cs => line :: splitLineChars [] cs
  | line, c :: cs =>
    if c.toNat ∈ lineBreaks then line :: splitLineChars [] cs else splitLineChars (line ++ [c]) cs

/-- `s.splitlines()` -/
def splitLines (s : String) : List String := (splitLineChars [] s.toList).map String.ofList

/-- `hex(n)` -/
def hex (n : ℕ) : String := "0x" ++ String.ofList (Nat.toDigits 16 n)

end EestReplay.Text

namespace EestReplay

/-- `int(value, 16)` -/
def hexInt : Json → Except PyError ℤ
  | .str s => Text.int 16 s
  | _ => .error ⟨.typeError, "int() can't convert non-string with explicit base"⟩

end EestReplay
