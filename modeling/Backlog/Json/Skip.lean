import Backlog.Json.Scan

/-!
# Skipping JSON values

A value that nobody wants is read past without being kept, however deep it is nested.  Its grammar is checked, but not
the pairing of escaped surrogates and not the size of numbers.
-/

namespace Backlog.Json

/-- Reads past a string behind its opening quote. -/
def skipString : List Char → Except Fault (List Char)
  | [] => .error .truncated
  | '"' :: r => .ok r
  | '\\' :: [] => .error .truncated
  | '\\' :: 'u' :: a :: b :: c :: d :: r =>
    if [a, b, c, d].all fun x => (hexValue? x).isSome then skipString r else .error .malformed
  | '\\' :: 'u' :: s => if byteCount s < 4 then .error .truncated else .error .malformed
  | '\\' :: e :: r => if (escaped? e).isSome then skipString r else .error .malformed
  | c :: r => if c.toNat < 0x20 then .error .malformed else skipString r

/-- Reads past the digits of an exponent behind its letter. -/
def skipExponent (s : List Char) : Except Fault (List Char) :=
  let s :=
    match s with
    | '-' :: r => r
    | '+' :: r => r
    | r => r
  match s with
  | c :: r => if c.isDigit then .ok (r.dropWhile Char.isDigit) else .error .malformed
  | [] => .error .malformed

/-- Reads past what may follow the whole part of a number. -/
def skipNumberTail : List Char → Except Fault (List Char)
  | '.' :: r =>
    match r with
    | c :: r =>
      if c.isDigit then
        match r.dropWhile Char.isDigit with
        | 'e' :: r => skipExponent r
        | 'E' :: r => skipExponent r
        | r => .ok r
      else .error .malformed
    | [] => .error .malformed
  | 'e' :: r => skipExponent r
  | 'E' :: r => skipExponent r
  | r => .ok r

/-- Reads past a number behind its sign. -/
def skipNumber : List Char → Except Fault (List Char)
  | '0' :: r =>
    match r with
    | c :: _ => if c.isDigit then .error .malformed else skipNumberTail r
    | [] => .ok []
  | c :: r => if c.isDigit then skipNumberTail (r.dropWhile Char.isDigit) else .error .malformed
  | [] => .error .malformed

/-- A bracket that is open. -/
inductive Frame where
  | array
  | object
deriving DecidableEq, Repr

/-- Where in a value the skipping stands. -/
inductive Place where
  /-- A value must come. -/
  | value
  /-- A bracket has just been opened. -/
  | opened
  /-- A member of an object must come. -/
  | member
  /-- A value has just ended. -/
  | ended
deriving DecidableEq, Repr

/-- Reads past values in at most so many steps, with the given brackets open. -/
def skipWithin : Nat → Place → List Frame → List Char → Except Fault (List Char)
  | 0, _, _, _ => .error .malformed
  | n + 1, .value, frames, s =>
    match skipSpace s with
    | [] => .error .truncated
    | '[' :: r => skipWithin n .opened (.array :: frames) r
    | '{' :: r => skipWithin n .opened (.object :: frames) r
    | 'n' :: r => word "ull".toList r >>= skipWithin n .ended frames
    | 't' :: r => word "rue".toList r >>= skipWithin n .ended frames
    | 'f' :: r => word "alse".toList r >>= skipWithin n .ended frames
    | '"' :: r => skipString r >>= skipWithin n .ended frames
    | '-' :: r => skipNumber r >>= skipWithin n .ended frames
    | c :: r => if c.isDigit then skipNumber (c :: r) >>= skipWithin n .ended frames else .error .malformed
  | n + 1, .opened, frames, s =>
    match skipSpace s, frames with
    | [], _ => .error .truncated
    | ']' :: r, .array :: frames => skipWithin n .ended frames r
    | '}' :: r, .object :: frames => skipWithin n .ended frames r
    | s, .object :: frames => skipWithin n .member (.object :: frames) s
    | s, frames => skipWithin n .value frames s
  | n + 1, .member, frames, s =>
    match skipSpace s with
    | [] => .error .truncated
    | '"' :: r => skipString r >>= colon >>= skipWithin n .value frames
    | _ => .error .malformed
  | n + 1, .ended, frames, s =>
    match frames with
    | [] => .ok s
    | frame :: outer =>
      match skipSpace s, frame with
      | [], _ => .error .truncated
      | ',' :: r, .array => skipWithin n .value frames r
      | ',' :: r, .object => skipWithin n .member frames r
      | ']' :: r, .array => skipWithin n .ended outer r
      | '}' :: r, .object => skipWithin n .ended outer r
      | _, _ => .error .malformed

/-- Reads past one value.  Every two steps consume a character, which bounds their number. -/
def skipValue (s : List Char) : Except Fault (List Char) := skipWithin (2 * s.length + 2) .value [] s

end Backlog.Json
