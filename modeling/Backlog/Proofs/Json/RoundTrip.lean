import Backlog.Proofs.Json.Records
import Backlog.Task.Json

/-!
# Exchanged records are read back

Tasks, lists of tasks, requests to create one and notices, as the JSON texts in which they are exchanged.  The numbers
of a task are kept in 64 bits with a sign, its claims are counted in 32 bits without one, and every text that is read
has kept to these ranges.

Key facts: a record whose numbers are in range is read back from the text that is written of it, and what has been read
from any text is in range (`json_roundTrip`).
-/

namespace Backlog

open Json

/-- Whether a number fits 64 bits with a sign. -/
def IsSigned64 (n : Int) : Prop := -9223372036854775808 ≤ n ∧ n ≤ 9223372036854775807

instance (n : Int) : Decidable (IsSigned64 n) := inferInstanceAs (Decidable (_ ∧ _))

/-- The numbers of a task fit the types in which they are kept. -/
structure Task.Exchangeable (t : Task) : Prop where
  id : IsSigned64 t.id
  version : IsSigned64 t.version
  attempts : t.attempts ≤ 4294967295

namespace Json

theorem allows_ofTime? (t : Option Timestamp) : Kind.optionalTime.Allows (.ofTime? t) := by
  cases t with
  | none => exact .unset
  | some t => exact .set t

theorem bounds_of_allows {least most n : Int} (h : (Kind.integer least most).Allows (.integer n)) :
    least ≤ n ∧ n ≤ most := by
  cases h
  assumption

@[simp] theorem toTime?_ofTime? (t : Option Timestamp) : (Value.ofTime? t).toTime? = some t := by
  cases t <;> rfl

end Json

namespace Task

theorem readable_fields : Readable fields where
  names := by decide
  narrow := by simp [fields, signed64, unsigned32]
  fallback := by
    simp only [fields, List.forall_mem_cons, Option.mem_def, reduceCtorEq, Option.some.injEq]
    refine ⟨by simp, by simp, by simp, by simp, ?_, ?_, by simp, ?_, ?_, by simp⟩
    · rintro v rfl
      exact .unset
    · rintro v rfl
      exact .unset
    · rintro v rfl
      exact .integer (by decide)
    · rintro v rfl
      exact .integer (by decide)
  unset := by simp [fields, signed64, unsigned32]

theorem ofValues_values (t : Task) : ofValues t.values = .ok t := by
  simp [ofValues, values]

theorem fits_values {t : Task} (h : t.Exchangeable) : Fits fields t.values := by
  have hid : signed64.Allows (.integer t.id) := .integer h.id
  have hversion : signed64.Allows (.integer t.version) := .integer h.version
  have hattempts : unsigned32.Allows (.integer t.attempts) := .integer ⟨by omega, by exact_mod_cast h.attempts⟩
  exact .cons hid (.cons (.text _) (.cons (.status _) (.cons (.time _) (.cons (allows_ofTime? _)
    (.cons (allows_ofTime? _) (.cons (.text _) (.cons hversion (.cons hattempts .nil))))))))

theorem exchangeable_of_ofValues {vs : List Value} {t : Task} (hvs : Fits fields vs) (h : ofValues vs = .ok t) :
    t.Exchangeable := by
  unfold ofValues at h
  split at h
  · split at h
    · cases h
      simp only [Fits, fields, List.forall₂_cons] at hvs
      obtain ⟨hid, -, -, -, -, -, -, hversion, hattempts, -⟩ := hvs
      exact ⟨bounds_of_allows hid, bounds_of_allows hversion, Int.toNat_le.2 (bounds_of_allows hattempts).2⟩
    · cases h
  · cases h

theorem ofJson?_toJson {t : Task} (h : t.Exchangeable) : ofJson? t.toJson = .ok t := by
  have hread := readRecord_writeRecord readable_fields (fits_values h) []
  rw [List.append_nil] at hread
  unfold ofJson? toJson encode
  rw [readDocument_ofList hread]
  exact ofValues_values t

theorem exchangeable_of_ofJson? {text : String} {t : Task} (h : ofJson? text = .ok t) : t.Exchangeable := by
  obtain ⟨vs, hvs, ht⟩ := bind_eq_ok h
  obtain ⟨r, hread⟩ := exists_of_readDocument hvs
  exact exchangeable_of_ofValues (fits_of_readRecord readable_fields hread) ht

private theorem mapM_ofValues (ts : List Task) : (ts.map values).mapM ofValues = .ok ts := by
  induction ts with
  | nil => rfl
  | cons t ts ih =>
    rw [List.map_cons, List.mapM_cons, ofValues_values, ih]
    rfl

private theorem exchangeable_of_mapM {vss : List (List Value)} {ts : List Task} (hvss : ∀ vs ∈ vss, Fits fields vs)
    (h : vss.mapM ofValues = .ok ts) : ∀ t ∈ ts, t.Exchangeable := by
  induction vss generalizing ts with
  | nil =>
    cases h
    simp
  | cons vs vss ih =>
    rw [List.mapM_cons] at h
    obtain ⟨t, ht, h⟩ := bind_eq_ok h
    obtain ⟨us, hus, h⟩ := bind_eq_ok h
    cases h
    have hfirst := exchangeable_of_ofValues (hvss vs List.mem_cons_self) ht
    have hrest := ih (fun ws hws => hvss ws (List.mem_cons_of_mem _ hws)) hus
    simpa using ⟨hfirst, hrest⟩

theorem listOfJson?_listToJson {ts : List Task} (h : ∀ t ∈ ts, t.Exchangeable) :
    listOfJson? (listToJson ts) = .ok ts := by
  have hfits : ∀ vs ∈ ts.map values, Fits fields vs := by
    intro vs hvs
    obtain ⟨t, ht, rfl⟩ := List.mem_map.1 hvs
    exact fits_values (h t ht)
  have hread := readRecords_encodeArray readable_fields hfits []
  rw [List.append_nil, List.map_map] at hread
  unfold listOfJson? listToJson
  rw [show ts.map encode = ts.map (writeRecord fields ∘ values) from rfl, readDocument_ofList hread]
  exact mapM_ofValues ts

theorem exchangeable_of_listOfJson? {text : String} {ts : List Task} (h : listOfJson? text = .ok ts) :
    ∀ t ∈ ts, t.Exchangeable := by
  obtain ⟨vss, hvss, hts⟩ := bind_eq_ok h
  obtain ⟨r, hread⟩ := exists_of_readDocument hvss
  exact exchangeable_of_mapM (fits_of_readRecords readable_fields hread) hts

end Task

namespace NewTask

theorem readable_fields : Readable fields where
  names := by decide
  narrow := by simp [fields]
  fallback := by simp [fields]
  unset := by simp [fields]

theorem ofJson?_toJson (t : NewTask) : ofJson? t.toJson = .ok t := by
  have hfits : Fits fields t.values := .cons (.text _) (.cons (.text _) .nil)
  have hread := readRecord_writeRecord readable_fields hfits []
  rw [List.append_nil] at hread
  unfold ofJson? toJson
  rw [readDocument_ofList hread]
  rfl

end NewTask

namespace StatusEvent

theorem readable_fields : Readable fields where
  names := by decide
  narrow := by simp [fields, signed64]
  fallback := by simp [fields]
  unset := by simp [fields, signed64]

theorem ofJson?_toJson {e : StatusEvent} (h : IsSigned64 e.taskId) : ofJson? e.toJson = .ok e := by
  have hid : signed64.Allows (.integer e.taskId) := .integer h
  have hfits : Fits fields e.values := .cons (.text _) (.cons hid (.cons (.text _) (.cons (.status _)
    (.cons (.time _) .nil))))
  have hread := readRecord_writeRecord readable_fields hfits []
  rw [List.append_nil] at hread
  unfold ofJson? toJson
  rw [readDocument_ofList hread]
  rfl

theorem isSigned64_of_ofJson? {text : String} {e : StatusEvent} (h : ofJson? text = .ok e) :
    IsSigned64 e.taskId := by
  obtain ⟨vs, hvs, he⟩ := bind_eq_ok h
  obtain ⟨r, hread⟩ := exists_of_readDocument hvs
  have hfits := fits_of_readRecord readable_fields hread
  unfold ofValues at he
  split at he
  · cases he
    simp only [Fits, fields, List.forall₂_cons] at hfits
    exact bounds_of_allows hfits.2.1
  · cases he

end StatusEvent

/-- Every record whose numbers are in range is read back from its text as it was; and a record that any text was read as
is read again, as it is, from the text that is then written of it. -/
theorem json_roundTrip :
    (∀ t : Task, t.Exchangeable → Task.ofJson? t.toJson = .ok t) ∧
    (∀ ts : List Task, (∀ t ∈ ts, t.Exchangeable) → Task.listOfJson? (Task.listToJson ts) = .ok ts) ∧
    (∀ t : NewTask, NewTask.ofJson? t.toJson = .ok t) ∧
    (∀ e : StatusEvent, IsSigned64 e.taskId → StatusEvent.ofJson? e.toJson = .ok e) ∧
    ∀ text : String,
      (∀ t, Task.ofJson? text = .ok t → Task.ofJson? t.toJson = .ok t) ∧
      (∀ ts, Task.listOfJson? text = .ok ts → Task.listOfJson? (Task.listToJson ts) = .ok ts) ∧
      (∀ t, NewTask.ofJson? text = .ok t → NewTask.ofJson? t.toJson = .ok t) ∧
      ∀ e, StatusEvent.ofJson? text = .ok e → StatusEvent.ofJson? e.toJson = .ok e := by
  refine ⟨fun t => Task.ofJson?_toJson, fun ts => Task.listOfJson?_listToJson, NewTask.ofJson?_toJson,
    fun e => StatusEvent.ofJson?_toJson, fun text => ⟨?_, ?_, ?_, ?_⟩⟩
  · intro t ht
    exact Task.ofJson?_toJson (Task.exchangeable_of_ofJson? ht)
  · intro ts hts
    exact Task.listOfJson?_listToJson (Task.exchangeable_of_listOfJson? hts)
  · intro t _
    exact NewTask.ofJson?_toJson t
  · intro e he
    exact StatusEvent.ofJson?_toJson (StatusEvent.isSigned64_of_ofJson? he)

/-- A task with its numbers at their ends, and characters that are written with a backslash or lie beyond 16 bits; its
times are a leap second, the last nanosecond of the calendar and its first second. -/
def extreme : Task where
  id := -9223372036854775808
  text := "a \"quoted\"\\\n\u0001\u001f\u007f line\u2028 𝄞"
  status := .failed
  createdAt := ⟨1483228799, 1000000001, by decide, by decide, by decide⟩
  startedAt := some .earliest
  endedAt := some ⟨8210266876799, 1999999999, by decide, by decide, by decide⟩
  userId := "\x00é"
  version := 9223372036854775807
  attempts := 4294967295

/-- A task as it may come from elsewhere: as an array that ends early, with its status as an object and its time with an
offset. -/
def foreignText : String :=
  "[7, \"\\ud834\\udd1e\", \x7b\"failed\": null\x7d, \"2017-01-01 00:59:60.5+01:00\", null, null, \"\"]"

def foreign : Task where
  id := 7
  text := "𝄞"
  status := .failed
  createdAt := ⟨1483228799, 1500000000, by decide, by decide, by decide⟩
  startedAt := none
  endedAt := none
  userId := ""
  version := 0
  attempts := 0

/-- A request as it may come from elsewhere, with its members in another order and one that nobody knows. -/
def foreignRequest : String := "\x7b\"user_id\": \"u\", \"more\": [1.5e9], \"text\": \"\"\x7d"

/-- A notice as it may come from elsewhere. -/
def foreignNotice : String := "[\"k\", 7 , \"\", \"failed\", \"2017-01-01 00:59:60.5+01:00\"]"

/-- The extreme task is read back, alone, in a list and from a notice of its number, and so is what was read of texts
that are written in another way. -/
theorem json_roundTrip_of_extreme :
    (extreme.Exchangeable ∧ Task.ofJson? extreme.toJson = .ok extreme) ∧
    ((∀ t ∈ [extreme, foreign], t.Exchangeable) ∧
      Task.listOfJson? (Task.listToJson [extreme, foreign]) = .ok [extreme, foreign]) ∧
    (IsSigned64 extreme.id ∧
      StatusEvent.ofJson? (StatusEvent.toJson ⟨"\"", extreme.id, extreme.text, .completed, extreme.createdAt⟩)
        = .ok ⟨"\"", extreme.id, extreme.text, .completed, extreme.createdAt⟩) ∧
    (Task.ofJson? foreignText = .ok foreign ∧ Task.ofJson? foreign.toJson = .ok foreign) ∧
    (Task.listOfJson? ("[" ++ foreignText ++ "]") = .ok [foreign] ∧
      Task.listOfJson? (Task.listToJson [foreign]) = .ok [foreign]) ∧
    (NewTask.ofJson? foreignRequest = .ok ⟨"", "u"⟩ ∧ NewTask.ofJson? (NewTask.toJson ⟨"", "u"⟩) = .ok ⟨"", "u"⟩) ∧
    StatusEvent.ofJson? foreignNotice = .ok ⟨"k", 7, "", .failed, foreign.createdAt⟩ ∧
      StatusEvent.ofJson? (StatusEvent.toJson ⟨"k", 7, "", .failed, foreign.createdAt⟩)
        = .ok ⟨"k", 7, "", .failed, foreign.createdAt⟩ := by
  have hextreme : extreme.Exchangeable := ⟨by decide, by decide, by decide⟩
  have hboth : ∀ t ∈ [extreme, foreign], t.Exchangeable := by
    simp only [List.forall_mem_cons]
    exact ⟨hextreme, ⟨by decide, by decide, by decide⟩, by simp⟩
  have htask : Task.ofJson? foreignText = .ok foreign := by decide +kernel
  have hlist : Task.listOfJson? ("[" ++ foreignText ++ "]") = .ok [foreign] := by decide +kernel
  have hrequest : NewTask.ofJson? foreignRequest = .ok ⟨"", "u"⟩ := by decide +kernel
  have hnotice : StatusEvent.ofJson? foreignNotice = .ok ⟨"k", 7, "", .failed, foreign.createdAt⟩ := by
    decide +kernel
  obtain ⟨written, writtenList, -, writtenNotice, read⟩ := json_roundTrip
  exact ⟨⟨hextreme, written _ hextreme⟩, ⟨hboth, writtenList _ hboth⟩, ⟨hextreme.id, writtenNotice _ hextreme.id⟩,
    ⟨htask, (read _).1 _ htask⟩, ⟨hlist, (read _).2.1 _ hlist⟩, ⟨hrequest, (read _).2.2.1 _ hrequest⟩,
    hnotice, (read _).2.2.2 _ hnotice⟩

end Backlog
