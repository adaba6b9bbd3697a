/-!
# Writing JSON

Strings and records as compact JSON.  The quote, the backslash and the controls are written with a backslash, by
letter where there is one and as a code unit otherwise; every other character is written as it is.
-/

namespace Backlog.Json

/-- A number below 16 as a lower-case hexadecimal digit. -/
def hexDigit (n : Nat) : Char := if n < 10 then Char.ofNat (48 + n) else Char.ofNat (87 + n)

/-- One character inside a string. -/
def encodeChar (c : Char) : List Char :=
  if c = '"' then ['\\', '"']
  else if c = '\\' then ['\\', '\\']
  else if c = '\x08' then ['\\', 'b']
  else if c = '\t' then ['\\', 't']
  else if c = '\n' then ['\\', 'n']
  else if c = '\x0c' then ['\\', 'f']
  else if c = '\r' then ['\\', 'r']
  else if c.toNat < 0x20 then ['\\', 'u', '0', '0', hexDigit (c.toNat / 16), hexDigit (c.toNat % 16)]
  else [c]

/-- A string with its quotes. -/
def encodeString (s : List Char) : List Char := '"' :: s.flatMap encodeChar ++ ['"']

/-- Texts with commas between them. -/
def commaSeparated : List (List Char) → List Char
  | [] => []
  | [s] => s
  | s :: r => s ++ ',' :: commaSeparated r

/-- A record of named values. -/
def encodeObject (members : List (String × List Char)) : List Char :=
  '{' :: commaSeparated (members.map fun (name, value) => encodeString name.toList ++ ':' :: value) ++ ['}']

/-- A list of values. -/
def encodeArray (values : List (List Char)) : List Char := '[' :: commaSeparated values ++ [']']

end Backlog.Json
