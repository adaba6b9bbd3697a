/-!
# Numerals and truth values in settings

A setting that counts something is written with decimal digits, after one plus sign if the writer likes.  A setting
that is on or off is written `true` or `false`.

Key facts: a word is refused at the first character that is no digit or that makes the number too large, whichever
stands further left (`naturalFrom`); a sign alone is refused as a wrong digit.
-/

namespace Backlog.Text

/-- What is wrong with a word that should be a number or a truth value. -/
inductive WordError where
  | empty
  | badDigit
  | tooLarge
  | notTruth
deriving DecidableEq, Repr

/-- The complaint about a word. -/
def WordError.message : WordError → String
  | empty => "cannot parse integer from empty string"
  | badDigit => "invalid digit found in string"
  | tooLarge => "number too large to fit in target type"
  | notTruth => "provided string was not `true` or `false`"

/-- Reads digits after those that have given `n` so far. -/
def naturalFrom (most n : Nat) : List Char → Except WordError Nat
  | [] => .ok n
  | c :: r =>
    if c.isDigit then
      let m := 10 * n + (c.toNat - 48)
      if m ≤ most then naturalFrom most m r else .error .tooLarge
    else .error .badDigit

/-- The number that a word writes, if it is at most `most`. -/
def natural? (most : Nat) : List Char → Except WordError Nat
  | [] => .error .empty
  | ['+'] => .error .badDigit
  | '+' :: digits => naturalFrom most 0 digits
  | digits => naturalFrom most 0 digits

/-- The truth value that a word writes. -/
def truth? (word : List Char) : Except WordError Bool :=
  if word = "true".toList then .ok true
  else if word = "false".toList then .ok false
  else .error .notTruth

end Backlog.Text
