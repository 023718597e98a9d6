import EestReplay.Model.Json

/-! # Paths

The part of `pathlib` that derives one path from another. -/

namespace EestReplay

/-- A POSIX path, parsed: its root and its names. -/
structure Path where
  root : String := ""
  tail : List String
  deriving DecidableEq, Repr

namespace Path

/-- `path.name` -/
def name (path : Path) : String := path.tail.getLast?.getD ""

/-- `path.parent` -/
def parent (path : Path) : Path := { path with tail := path.tail.dropLast }

/-- Where the suffix of a name starts: at its last dot, unless that is its first or last
character. -/
def suffixStart (name : List Char) : Option ℕ :=
  match name.reverse.findIdx? (· == '.') with
  | some fromEnd =>
    let i := name.length - 1 - fromEnd
    if 0 < i ∧ i < name.length - 1 then some i else none
  | none => none

/-- `path.with_suffix(suffix)` for a suffix that starts with a dot. -/
def withSuffix (path : Path) (suffix : String) : Except PyError Path :=
  if path.name = "" then .error ⟨.valueError, "has an empty name"⟩
  else
    let name := path.name.toList
    let stem := name.take ((suffixStart name).getD name.length)
    .ok { path with tail := path.tail.dropLast ++ [String.ofList stem ++ suffix] }

/-- `path / name` -/
def child (path : Path) (name : String) : Path := { path with tail := path.tail ++ [name] }

/-- `path.stem` -/
def stem (path : Path) : String :=
  let name := path.name.toList
  String.ofList (name.take ((suffixStart name).getD name.length))

/-- `str(path)` -/
def str (path : Path) : String :=
  if path.root = "" ∧ path.tail = [] then "." else path.root ++ "/".intercalate path.tail

example : withSuffix ⟨"/", ["tmp", "run.1.csv"]⟩ ".recovery.json" =
    .ok ⟨"/", ["tmp", "run.1.recovery.json"]⟩ := rfl

end Path

end EestReplay
