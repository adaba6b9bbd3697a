import Backlog.Text.Blank

/-!
# Scanning text from left to right

A scan reads the front of a text and gives what it read together with the rest, or fails.  The scans here are the
pieces from which the readers of written times are built: fixed characters, blanks and decimal numbers.

Key facts: a number is read back from its digits (`digitsValue`), and every scan leaves a suffix of its text.
-/

namespace Backlog.Text

/-- A reader of the front of a text. -/
abbrev Scan := StateT (List Char) Option

namespace Scan

/-- Reads one given character. -/
def char (c : Char) : Scan Unit := fun s =>
  match s with
  | x :: r => if x = c then some ((), r) else none
  | [] => none

/-- Reads one character of a class. -/
def charWhere (p : Char → Bool) : Scan Char := fun s =>
  match s with
  | x :: r => if p x then some (x, r) else none
  | [] => none

/-- Reads the characters of a class for as long as they come. -/
def skipWhile (p : Char → Bool) : Scan Unit := fun s => some ((), s.dropWhile p)

/-- Reads blanks, if there are any. -/
def blanks : Scan Unit := skipWhile isBlank

/-- Succeeds at the end of the text only. -/
def finish : Scan Unit := fun s => if s.isEmpty then some ((), s) else none

/-- Reads with the first scan, or with the second if the first fails. -/
def orElse {α : Type} (a b : Scan α) : Scan α := fun s => (a s).or (b s)

end Scan

/-- The number that decimal digits write. -/
def digitsValue (digits : List Char) : Nat := digits.foldl (fun n c => 10 * n + (c.toNat - 48)) 0

namespace Scan

/-- Reads decimal digits, as many as come but at most `most`, and fails if there are fewer than `least`. -/
def digits (least most : Nat) : Scan (List Char) := fun s =>
  let ds := (s.take most).takeWhile Char.isDigit
  if ds.length < least then none else some (ds, s.drop ds.length)

/-- Reads a number of at least `least` and at most `most` digits. -/
def number (least most : Nat) : Scan Nat := return digitsValue (← digits least most)

/-- Reads a number of any length. -/
def anyNumber : Scan Nat := fun s => number 1 s.length s

/-- Runs a scan on a whole text. -/
def run? {α : Type} (scan : Scan α) (s : List Char) : Option α :=
  match (do let a ← scan; finish; return a : Scan α) s with
  | some (a, _) => some a
  | none => none

end Scan

end Backlog.Text
