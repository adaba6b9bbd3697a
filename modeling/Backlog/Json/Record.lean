import Backlog.Json.Skip
import Backlog.Json.Writer
import Backlog.Task.Status
import Backlog.Timestamp.Reader
import Backlog.Timestamp.Text

/-!
# Records in JSON

A record is a fixed list of fields, each of a kind.  It is read from an object, whose members may come in any order and
beside members of other names, or from an array of its fields in their order.  A field with a fallback may be left
out.  It is written as an object of its fields in their order, without the times that are not set.

Key facts: what is wrong first in the text decides (`readRecord`), a field may be given only once
(`readMembers`), and a status may also be written as an object with one empty member (`readStatus`).
-/

namespace Backlog.Json

/-- What a field holds. -/
inductive Kind where
  | integer (least most : Int)
  | text
  | status
  | time
  | optionalTime
deriving DecidableEq, Repr

/-- A value of a field. -/
inductive Value where
  | integer (n : Int)
  | text (s : String)
  | status (s : Status)
  | time (t : Timestamp)
  /-- A time that is not set. -/
  | unset
deriving DecidableEq, Repr

/-- A field of a record. -/
structure Field where
  name : String
  kind : Kind
  /-- The value of the field where it is left out; without one it must be there. -/
  fallback : Option Value := none
deriving DecidableEq, Repr

/-! ### Reading -/

/-- Reads a status given by its name. -/
def statusName (s : List Char) : Except Fault Status :=
  match Status.ofName? (String.ofList s) with
  | some a => .ok a
  | none => .error .mistyped

/-- Reads a status: its name, or an object whose only member has that name and is null. -/
def readStatus : Reader Status := fun s =>
  match skipSpace s with
  | [] => .error .truncated
  | '"' :: r => do
    let (name, r) ← stringTail r
    return (← statusName name, r)
  | '{' :: r =>
    match skipSpace r with
    | '"' :: r => do
      let (name, r) ← stringTail r
      let a ← statusName name
      let r ← colon r
      match skipSpace r with
      | 'n' :: r =>
        let r ← word "ull".toList r
        match skipSpace r with
        | '}' :: r => return (a, r)
        | [] => throw .truncated
        | _ => throw .malformed
      | r => unwanted r
    | r => unwanted r
  | _ => .error .malformed

/-- Reads a string. -/
def readText : Reader String := fun s =>
  match skipSpace s with
  | '"' :: r => (stringTail r).map fun (cs, r) => (String.ofList cs, r)
  | r => unwanted r

/-- Reads a moment written in the relaxed form. -/
def readTime : Reader Timestamp := fun s => do
  let (text, r) ← readText s
  match Timestamp.ofRelaxed? text with
  | some t => return (t, r)
  | none => throw .mistyped

/-- Accepts an integer between two bounds. -/
def bounded (least most : Int) : Number → Except Fault Int
  | .integer n => if least ≤ n ∧ n ≤ most then .ok n else .error .mistyped
  | .other => .error .mistyped

/-- Reads an integer between two bounds. -/
def readInteger (least most : Int) : Reader Int := fun s =>
  match skipSpace s with
  | '-' :: r => do
    let (n, r) ← unsigned true r
    return (← bounded least most n, r)
  | c :: r =>
    if c.isDigit then do
      let (n, r) ← unsigned false (c :: r)
      return (← bounded least most n, r)
    else unwanted (c :: r)
  | [] => .error .truncated

/-- Reads a value of a kind. -/
def readValue : Kind → Reader Value
  | .integer least most, s => (readInteger least most s).map fun (n, r) => (.integer n, r)
  | .text, s => (readText s).map fun (t, r) => (.text t, r)
  | .status, s => (readStatus s).map fun (a, r) => (.status a, r)
  | .time, s => (readTime s).map fun (t, r) => (.time t, r)
  | .optionalTime, s =>
    match skipSpace s with
    | 'n' :: r => (word "ull".toList r).map fun r => (.unset, r)
    | r => (readTime r).map fun (t, r) => (.time t, r)

/-- The values of a record from those that were given, with fallbacks for the others. -/
def complete : List Field → List (Option Value) → Except Fault (List Value)
  | [], _ => .ok []
  | f :: fs, given =>
    match (given.head?.bind id).or f.fallback with
    | none => .error .mistyped
    | some v => (complete fs given.tail).map (v :: ·)

/-- What comes next between two brackets. -/
inductive Next where
  /-- The closing bracket, with the text behind it. -/
  | close (rest : List Char)
  /-- Another item, which starts this text. -/
  | item (text : List Char)

/-- Looks for the next item between brackets: behind a comma unless it is the first one. -/
def next (close : Char) (first : Bool) (s : List Char) : Except Fault Next :=
  match skipSpace s with
  | [] => .error .truncated
  | c :: r =>
    if c = close then .ok (.close r)
    else if first then .ok (.item (c :: r))
    else if c = ',' then
      match skipSpace r with
      | [] => .error .truncated
      | x :: r => if x = close then .error .malformed else .ok (.item (x :: r))
    else .error .malformed

/-- Reads one member of an object and adds its value to those that are given. -/
def readMember (fields : List Field) (given : List (Option Value)) : Reader (List (Option Value))
  | '"' :: r => do
    let (name, r) ← stringTail r
    match fields.findIdx? fun f => f.name.toList = name with
    | none => return (given, ← skipValue (← colon r))
    | some i =>
      if (given[i]?.bind id).isSome then throw .mistyped
      let r ← colon r
      let (v, r) ← readValue ((fields[i]?.map (·.kind)).getD .text) r
      return (given.set i (some v), r)
  | _ => .error .malformed

/-- Reads the members of an object up to its end, in at most so many steps. -/
def readMembers (fields : List Field) : Nat → Bool → List (Option Value) → Reader (List Value)
  | 0, _, _, _ => .error .malformed
  | n + 1, first, given, s => do
    match ← next '}' first s with
    | .close r => return (← complete fields given, r)
    | .item r =>
      let (given, r) ← readMember fields given r
      readMembers fields n false given r

/-- Reads the elements of an array as the fields of a record in their order. -/
def readElements : List Field → Bool → Reader (List Value)
  | [], _, s =>
    match skipSpace s with
    | ']' :: r => .ok ([], r)
    | [] => .error .truncated
    | _ => .error .malformed
  | f :: fs, first, s => do
    match ← next ']' first s with
    | .close r => return (← complete (f :: fs) [], r)
    | .item r =>
      let (v, r) ← readValue f.kind r
      let (vs, r) ← readElements fs false r
      return (v :: vs, r)

/-- Reads a record from an object or an array. -/
def readRecord (fields : List Field) : Reader (List Value) := fun s =>
  match skipSpace s with
  | '{' :: r => readMembers fields (r.length + 1) true (fields.map fun _ => none) r
  | '[' :: r => readElements fields true r
  | r => unwanted r

/-- Reads the elements of an array of records up to its end, in at most so many steps. -/
def readRecordsWithin (fields : List Field) : Nat → Bool → Reader (List (List Value))
  | 0, _, _ => .error .malformed
  | n + 1, first, s => do
    match ← next ']' first s with
    | .close r => return ([], r)
    | .item r =>
      let (v, r) ← readRecord fields r
      let (vs, r) ← readRecordsWithin fields n false r
      return (v :: vs, r)

/-- Reads an array of records.  Every element has a character at least, which bounds their number. -/
def readRecords (fields : List Field) : Reader (List (List Value)) := fun s =>
  match skipSpace s with
  | '[' :: r => readRecordsWithin fields (r.length + 1) true r
  | r => unwanted r

/-- Reads a whole text, after which only blanks may come. -/
def readDocument {α : Type} (read : Reader α) (text : String) : Except Fault α := do
  let (a, r) ← read text.toList
  if (skipSpace r).isEmpty then return a else throw .malformed

/-! ### Writing -/

/-- The decimal digits of an integer. -/
def integerText (n : Int) : List Char :=
  if n < 0 then '-' :: Nat.toDigits 10 n.natAbs else Nat.toDigits 10 n.natAbs

/-- The text of a value. -/
def Value.encode : Value → List Char
  | .integer n => integerText n
  | .text s => encodeString s.toList
  | .status a => encodeString a.name.toList
  | .time t => encodeString t.text.toList
  | .unset => "null".toList

/-- The text of a record. -/
def writeRecord (fields : List Field) (values : List Value) : List Char :=
  encodeObject (((fields.zip values).filter fun (_, v) => v ≠ .unset).map fun (f, v) => (f.name, v.encode))

end Backlog.Json
