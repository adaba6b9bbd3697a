/-!
# Scanning JSON

The tokens of a JSON text, read from left to right: blanks, literal names, strings and numbers.  A text can be at fault
in three ways, and the first fault that is met decides: it ends too early, it is no JSON, or it is JSON of another
type than the reader wants.

Key facts: a string may hold any character except the controls, and an escaped surrogate only as half of a pair; a
number is an integer only if it is written without fraction and exponent, is no negative zero, and fits 64 bits.
-/

namespace Backlog.Json

/-- What is wrong with a text. -/
inductive Fault where
  /-- The text ends too early. -/
  | truncated
  /-- The text is no JSON. -/
  | malformed
  /-- The text is JSON of another type. -/
  | mistyped
deriving DecidableEq, Repr

/-- A reader of the front of a text. -/
abbrev Reader (α : Type) := List Char → Except Fault (α × List Char)

/-- Whether JSON allows a character between its tokens. -/
def isSpace (c : Char) : Bool := c == ' ' || c == '\n' || c == '\t' || c == '\r'

/-- A text without the blanks that it starts with. -/
def skipSpace (s : List Char) : List Char := s.dropWhile isSpace

/-- Reads the given characters. -/
def word : List Char → List Char → Except Fault (List Char)
  | [], s => .ok s
  | _ :: _, [] => .error .truncated
  | c :: w, x :: r => if x = c then word w r else .error .malformed

/-! ### Strings -/

/-- The value of a hexadecimal digit. -/
def hexValue? (c : Char) : Option Nat :=
  if '0' ≤ c ∧ c ≤ '9' then some (c.toNat - 48)
  else if 'a' ≤ c ∧ c ≤ 'f' then some (c.toNat - 87)
  else if 'A' ≤ c ∧ c ≤ 'F' then some (c.toNat - 55)
  else none

/-- The bytes that a text takes when it is encoded. -/
def byteCount : List Char → Nat
  | [] => 0
  | c :: r => c.utf8Size + byteCount r

/-- Reads the four digits of an escaped code unit.  The text is too short if fewer than four bytes are left. -/
def codeUnit : Reader Nat
  | a :: b :: c :: d :: r =>
    match hexValue? a, hexValue? b, hexValue? c, hexValue? d with
    | some a, some b, some c, some d => .ok (((a * 16 + b) * 16 + c) * 16 + d, r)
    | _, _, _, _ => .error .malformed
  | s => if byteCount s < 4 then .error .truncated else .error .malformed

/-- The character that a pair of surrogates stands for. -/
def ofSurrogates (high low : Nat) : Char := Char.ofNat (0x10000 + (high - 0xD800) * 0x400 + (low - 0xDC00))

/-- Reads what follows the mark of an escaped code unit: the unit, and a second one if the first is half of a pair. -/
def unicodeEscape : Reader Char := fun s =>
  match codeUnit s with
  | .error e => .error e
  | .ok (n, r) =>
    if 0xDC00 ≤ n ∧ n ≤ 0xDFFF then .error .malformed
    else if n < 0xD800 ∨ 0xDBFF < n then .ok (Char.ofNat n, r)
    else
      match word ['\\', 'u'] r with
      | .error e => .error e
      | .ok r =>
        match codeUnit r with
        | .error e => .error e
        | .ok (m, r) => if 0xDC00 ≤ m ∧ m ≤ 0xDFFF then .ok (ofSurrogates n m, r) else .error .malformed

/-- The character that a letter stands for after a backslash. -/
def escaped? : Char → Option Char
  | '"' => some '"'
  | '\\' => some '\\'
  | '/' => some '/'
  | 'b' => some '\x08'
  | 'f' => some '\x0c'
  | 'n' => some '\n'
  | 'r' => some '\r'
  | 't' => some '\t'
  | _ => none

/-- Reads one character of a string, or its end. -/
def stringChar : Reader (Option Char)
  | [] => .error .truncated
  | '"' :: r => .ok (none, r)
  | '\\' :: [] => .error .truncated
  | '\\' :: 'u' :: r => (unicodeEscape r).map fun (c, r) => (some c, r)
  | '\\' :: e :: r =>
    match escaped? e with
    | some c => .ok (some c, r)
    | none => .error .malformed
  | c :: r => if c.toNat < 0x20 then .error .malformed else .ok (some c, r)

/-- Reads a string behind its opening quote. -/
def stringTail (s : List Char) : Except Fault (List Char × List Char) :=
  match stringChar s with
  | .error e => .error e
  | .ok (none, r) => .ok ([], r)
  | .ok (some c, r) =>
    if r.length < s.length then (stringTail r).map fun (cs, r) => (c :: cs, r) else .error .malformed
termination_by s.length

/-! ### Numbers -/

/-- A number as it is written: an integer of at most 64 bits, or any other number. -/
inductive Number where
  | integer (n : Int)
  | other
deriving DecidableEq, Repr

/-- The largest significand that is read exactly. -/
def mostSignificand : Nat := 18446744073709551615

/-- Reads digits into a significand while it fits: the significand, the count of digits read, and the rest. -/
def absorb (n count : Nat) : List Char → Nat × Nat × List Char
  | [] => (n, count, [])
  | c :: r =>
    if c.isDigit ∧ 10 * n + (c.toNat - 48) ≤ mostSignificand then absorb (10 * n + (c.toNat - 48)) (count + 1) r
    else (n, count, c :: r)

/-- Whether a significand with a decimal exponent lies beyond the floating-point numbers. -/
def isHuge (significand : Nat) (exponent : Int) : Bool :=
  significand ≠ 0 && (308 < exponent
    || (0 ≤ exponent && (significand.toUInt64.toFloat * Float.ofScientific 1 false exponent.toNat).isInf))

/-- A number that is no integer, if it is a floating-point number at all. -/
def realNumber (significand : Nat) (exponent : Int) (rest : List Char) : Except Fault (Number × List Char) :=
  if isHuge significand exponent then .error .malformed else .ok (.other, rest)

/-- The largest exponent that is read exactly. -/
def mostExponent : Nat := 2147483647

/-- Reads the digits of an exponent; a digit too many makes any significand but zero too large. -/
def exponentDigits (significand : Nat) (start : Int) (negative : Bool) (e : Nat) :
    List Char → Except Fault (Number × List Char)
  | [] => realNumber significand (if negative then start - e else start + e) []
  | c :: r =>
    if c.isDigit then
      let e' := 10 * e + (c.toNat - 48)
      if e' ≤ mostExponent then exponentDigits significand start negative e' r
      else if significand ≠ 0 ∧ !negative then .error .malformed
      else .ok (.other, r.dropWhile Char.isDigit)
    else realNumber significand (if negative then start - e else start + e) (c :: r)

/-- Reads an exponent behind its letter. -/
def exponentTail (significand : Nat) (start : Int) (s : List Char) : Except Fault (Number × List Char) :=
  let (negative, s) :=
    match s with
    | '-' :: r => (true, r)
    | '+' :: r => (false, r)
    | r => (false, r)
  match s with
  | [] => .error .truncated
  | c :: _ => if c.isDigit then exponentDigits significand start negative 0 s else .error .malformed

/-- Reads a fraction behind its point. -/
def fractionTail (significand : Nat) (start : Int) (s : List Char) : Except Fault (Number × List Char) :=
  match s with
  | [] => .error .truncated
  | c :: _ =>
    if c.isDigit then
      let (significand, count, r) := absorb significand 0 s
      let exponent := start - count
      match r.dropWhile Char.isDigit with
      | 'e' :: r => exponentTail significand exponent r
      | 'E' :: r => exponentTail significand exponent r
      | r => realNumber significand exponent r
    else .error .malformed

/-- Reads what may follow the whole part of a number. -/
def numberTail (negative : Bool) (significand dropped : Nat) :
    List Char → Except Fault (Number × List Char)
  | '.' :: r => fractionTail significand dropped r
  | 'e' :: r => exponentTail significand dropped r
  | 'E' :: r => exponentTail significand dropped r
  | r =>
    if dropped ≠ 0 then realNumber significand dropped r
    else if !negative then .ok (.integer significand, r)
    else if significand = 0 ∨ 9223372036854775808 < significand then .ok (.other, r)
    else .ok (.integer (-significand), r)

/-- Reads a number behind its sign. -/
def unsigned (negative : Bool) : Reader Number
  | [] => .error .truncated
  | '0' :: r =>
    match r with
    | c :: _ => if c.isDigit then .error .malformed else numberTail negative 0 0 r
    | [] => numberTail negative 0 0 r
  | c :: r =>
    if c.isDigit then
      let (significand, _, r) := absorb (c.toNat - 48) 1 r
      numberTail negative significand (r.takeWhile Char.isDigit).length (r.dropWhile Char.isDigit)
    else .error .malformed

/-- Reads past a value of a type that is not wanted: its first token decides what is wrong with the text. -/
def unwanted {α : Type} : List Char → Except Fault α
  | [] => .error .truncated
  | 'n' :: r => word "ull".toList r >>= fun _ => .error .mistyped
  | 't' :: r => word "rue".toList r >>= fun _ => .error .mistyped
  | 'f' :: r => word "alse".toList r >>= fun _ => .error .mistyped
  | '-' :: r => unsigned true r >>= fun _ => .error .mistyped
  | '"' :: r => stringTail r >>= fun _ => .error .mistyped
  | '[' :: _ => .error .mistyped
  | '{' :: _ => .error .mistyped
  | c :: r => if c.isDigit then unsigned false (c :: r) >>= fun _ => .error .mistyped else .error .malformed

/-- Reads a colon after blanks. -/
def colon (s : List Char) : Except Fault (List Char) :=
  match skipSpace s with
  | ':' :: r => .ok r
  | [] => .error .truncated
  | _ => .error .malformed

end Backlog.Json
