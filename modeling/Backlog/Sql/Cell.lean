/-!
# Cells

The values that a table holds.  A column prefers one kind of value: a column of numbers turns a text that writes a
number into that number, and a column of texts turns a number into its text.

Key facts: `Cell.plus` computes with 64-bit integers as long as the sum fits, and with floating-point numbers from
there on; the sum with no value is no value.
-/

namespace Backlog.Sql

/-- A value in a table; a floating-point number is kept as its bits. -/
inductive Cell where
  | null
  | integer (n : Int)
  | real (bits : UInt64)
  | text (s : String)
deriving DecidableEq, Repr, Inhabited

/-- The kind of value that a column prefers. -/
inductive Affinity where
  | integer
  | text
deriving DecidableEq, Repr

/-- The largest integer that a cell holds. -/
def mostInteger : Int := 9223372036854775807

/-- The least integer that a cell holds. -/
def leastInteger : Int := -9223372036854775808

/-- Whether a character counts as a blank around a number. -/
private def isSpace (c : Char) : Bool := c == ' ' || (9 ≤ c.toNat && c.toNat ≤ 13)

/-- A number as a text writes it. -/
structure Decimal where
  negative : Bool
  /-- The digits before and after the point as one number. -/
  significand : Nat
  /-- The power of ten by which the significand is multiplied. -/
  exponent : Int
  /-- Whether it is written without point and exponent. -/
  isWhole : Bool
deriving DecidableEq, Repr

namespace Decimal

/-- The number that decimal digits write after those of `n`. -/
private def value (n : Nat) (digits : List Char) : Nat := digits.foldl (fun n c => 10 * n + (c.toNat - 48)) n

/-- An exponent at the front of a text, if a whole one stands there. -/
private def exponent? : List Char → Option (Int × List Char)
  | [] => none
  | e :: r =>
    if e = 'e' ∨ e = 'E' then
      let (sign, r) :=
        match r with
        | '-' :: r => ((-1 : Int), r)
        | '+' :: r => (1, r)
        | r => (1, r)
      let ds := r.takeWhile Char.isDigit
      if ds.isEmpty then none else some (sign * value 0 ds, r.drop ds.length)
    else none

/-- The number at the front of a text, after blanks, and what follows it. -/
def ofFront? (s : List Char) : Option (Decimal × List Char) :=
  let s := s.dropWhile isSpace
  let (negative, s) :=
    match s with
    | '-' :: r => (true, r)
    | '+' :: r => (false, r)
    | r => (false, r)
  let whole := s.takeWhile Char.isDigit
  let s := s.drop whole.length
  let (point, places, s) :=
    match s with
    | '.' :: r => (true, r.takeWhile Char.isDigit, r.dropWhile Char.isDigit)
    | r => (false, [], r)
  if whole.isEmpty && places.isEmpty then none
  else
    let significand := value (value 0 whole) places
    match exponent? s with
    | some (e, r) => some (⟨negative, significand, e - places.length, false⟩, r)
    | none => some (⟨negative, significand, -places.length, !point⟩, s)

/-- A number as a value with 64 bits: an integer if it is written as one that fits. -/
def toCell (d : Decimal) : Cell :=
  let n : Int := if d.negative then -d.significand else d.significand
  if d.isWhole ∧ leastInteger ≤ n ∧ n ≤ mostInteger then .integer n
  else
    let x := Float.ofScientific d.significand (d.exponent < 0) d.exponent.natAbs
    .real (if d.negative then -x else x).toBits

end Decimal

namespace Cell

/-- A floating-point number as a column of integers keeps it: as an integer where nothing is lost. -/
private def narrowed (bits : UInt64) : Cell :=
  let x := Float.ofBits bits
  let n := x.toInt64
  if n.toFloat == x && leastInteger < n.toInt && n.toInt < mostInteger then .integer n.toInt else .real bits

/-- A value as a column keeps it. -/
def keptAs : Affinity → Cell → Cell
  | .text, .integer n => .text (toString n)
  | .integer, .real bits => narrowed bits
  | .integer, .text s =>
    match Decimal.ofFront? s.toList with
    | some (d, r) =>
      if r.all isSpace then
        match d.toCell with
        | .real bits => narrowed bits
        | c => c
      else .text s
    | none => .text s
  | _, c => c

/-- The number for which a value stands in a sum: a text stands for the number that it begins with. -/
private def toNumber : Cell → Cell
  | .text s =>
    match Decimal.ofFront? s.toList with
    | some (d, _) => d.toCell
    | none => .integer 0
  | c => c

/-- A value plus an integer. -/
def plus (c : Cell) (n : Int) : Cell :=
  match c.toNumber with
  | .integer m =>
    if leastInteger ≤ m + n ∧ m + n ≤ mostInteger then .integer (m + n)
    else .real (Float.ofInt m + Float.ofInt n).toBits
  | .real bits => .real (Float.ofBits bits + Float.ofInt n).toBits
  | _ => .null

/-- The value, or another one where there is none. -/
def orElse : Cell → Cell → Cell
  | .null, c => c
  | c, _ => c

/-- A value as a statement writes it, if it is a text or an integer. -/
def literal? : Cell → Option String
  | .text s => some ("'" ++ String.ofList (s.toList.flatMap fun c => if c = '\'' then ['\'', '\''] else [c]) ++ "'")
  | .integer n => some (toString n)
  | _ => none

@[simp] theorem plus_null (n : Int) : plus .null n = .null := rfl

theorem plus_integer {m n : Int} (h : leastInteger ≤ m + n ∧ m + n ≤ mostInteger) :
    plus (.integer m) n = .integer (m + n) := by
  simp [plus, toNumber, h]

end Cell

end Backlog.Sql
