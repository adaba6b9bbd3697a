import Backlog.Proofs.Settings.Words
import Backlog.Settings.Environment

/-!
# Settings are read from well-formed texts and from no others

Every setting is an entry of one table: its name, how its value is written, and where it stands in the settings.  Named
texts describe settings if each entry has the value that its text writes, or its default if it has none; what the loops
cannot run with is a table of checks.

Key facts: an entry is read iff its text says a value (`Entry.outcome_eq_ok_iff`) and refused with the complaint of its
own text otherwise (`Entry.outcome_eq_error_iff`); of several unreadable entries the first one is reported
(`readAll_eq_error_iff`), and of several checks that fail the first one (`fault?_eq_some_iff`).  So settings are read
exactly from texts that describe valid ones, and settings that were written out are read back (`ofLookup?_reads`).
-/

namespace Backlog.Settings

open Text

/-! ### The first of several -/

/-- The first member of a list that has a property. -/
def IsFirst {α : Type*} (p : α → Prop) (l : List α) (a : α) : Prop :=
  ∃ before after, l = before ++ a :: after ∧ (∀ x ∈ before, ¬ p x) ∧ p a

section

variable {α : Type*} {p : α → Prop} {a b : α} {l : List α}

theorem not_isFirst_nil : ¬ IsFirst p [] a := by
  rintro ⟨before, after, h, -⟩
  exact absurd h (by simp)

theorem isFirst_cons_of_pos (h : p b) : IsFirst p (b :: l) a ↔ a = b := by
  constructor
  · rintro ⟨before, after, hsplit, hbefore, -⟩
    cases before with
    | nil =>
      cases hsplit
      rfl
    | cons x before =>
      cases hsplit
      exact absurd h (hbefore b List.mem_cons_self)
  · rintro rfl
    exact ⟨[], l, rfl, by simp, h⟩

theorem isFirst_cons_of_neg (h : ¬ p b) : IsFirst p (b :: l) a ↔ IsFirst p l a := by
  constructor
  · rintro ⟨before, after, hsplit, hbefore, ha⟩
    cases before with
    | nil =>
      cases hsplit
      exact absurd ha h
    | cons x before =>
      cases hsplit
      exact ⟨before, after, rfl, fun y hy => hbefore y (List.mem_cons_of_mem _ hy), ha⟩
  · rintro ⟨before, after, rfl, hbefore, ha⟩
    exact ⟨b :: before, after, rfl, by simpa [h] using hbefore, ha⟩

end

/-! ### Entries -/

/-- How the value of a setting is written. -/
inductive Kind where
  /-- A span in whole milliseconds. -/
  | millis
  /-- A span in whole seconds. -/
  | secs
  /-- A count that is at most so large. -/
  | count (most : Nat)
  /-- On or off. -/
  | truth

namespace Kind

/-- The type of a value. -/
def Value : Kind → Type
  | millis => Duration
  | secs => Duration
  | count _ => Nat
  | truth => Bool

/-- The reader of a value. -/
def read : (k : Kind) → List Char → Except WordError k.Value
  | millis => millis?
  | secs => secs?
  | count most => natural? most
  | truth => truth?

/-- A word writes a value. -/
def Writes : (k : Kind) → List Char → k.Value → Prop
  | millis, word, span => ∃ n, WritesNatural most64 word n ∧ Duration.ofMillis n = span
  | secs, word, span => ∃ n, WritesNatural most64 word n ∧ Duration.ofSecs n = span
  | count most, word, n => WritesNatural most word n
  | truth, word, b => WritesTruth word b

/-- What is wrong with a word that should write a value. -/
def Refuses : Kind → List Char → WordError → Prop
  | millis, word, e => RefusesNatural most64 word e
  | secs, word, e => RefusesNatural most64 word e
  | count most, word, e => RefusesNatural most word e
  | truth, word, e => (∀ b, ¬ WritesTruth word b) ∧ e = .notTruth

/-- A value that can be written: a whole number of units, which the reader of the number allows. -/
def IsWhole : (k : Kind) → k.Value → Prop
  | millis, span => ∃ n ≤ most64, Duration.ofMillis n = span
  | secs, span => ∃ n ≤ most64, Duration.ofSecs n = span
  | count most, (n : Nat) => n ≤ most
  | truth, _ => True

/-- A value in decimal digits, with zeros in front that make up the given width, or as a truth value. -/
def spelled : (k : Kind) → (width : Nat) → k.Value → List Char
  | millis, width, span => Timestamp.padded width span.millis
  | secs, width, span => Timestamp.padded width span.secs
  | count _, width, n => Timestamp.padded width n
  | truth, _, (b : Bool) => (if b then "true" else "false").toList

variable {k : Kind} {word : List Char}

private theorem map_eq_ok_iff {α β : Type} {x : Except WordError α} {f : α → β} {b : β} :
    x.map f = .ok b ↔ ∃ a, x = .ok a ∧ f a = b := by
  cases x <;> simp [Except.map]

private theorem map_eq_error_iff {α β : Type} {x : Except WordError α} {f : α → β} {e : WordError} :
    x.map f = .error e ↔ x = .error e := by
  cases x <;> simp [Except.map]

theorem read_eq_ok_iff {v : k.Value} : k.read word = .ok v ↔ k.Writes word v := by
  cases k with
  | millis | secs =>
    refine map_eq_ok_iff.trans (exists_congr fun n => ?_)
    rw [natural?_eq_ok_iff]
  | count most => exact natural?_eq_ok_iff
  | truth => exact truth?_eq_ok_iff

theorem read_eq_error_iff {e : WordError} : k.read word = .error e ↔ k.Refuses word e := by
  cases k with
  | millis | secs => exact map_eq_error_iff.trans natural?_eq_error_iff
  | count most => exact natural?_eq_error_iff
  | truth => exact truth?_eq_error_iff

/-- A word writes a value or is refused. -/
theorem not_writes_iff : (∀ v, ¬ k.Writes word v) ↔ ∃ e, k.Refuses word e := by
  simp only [← read_eq_ok_iff, ← read_eq_error_iff]
  cases k.read word with
  | ok v => simp
  | error e => simp

theorem writes_spelled (width : Nat) {v : k.Value} (h : k.IsWhole v) : k.Writes (k.spelled width v) v := by
  cases k with
  | millis =>
    obtain ⟨n, hn, rfl⟩ := h
    have hmillis : (Duration.ofMillis n).millis = n := Nat.mul_div_cancel n (by decide)
    refine ⟨n, ?_, rfl⟩
    show WritesNatural most64 (Timestamp.padded width (Duration.ofMillis n).millis) n
    rw [hmillis]
    exact writesNatural_padded width hn
  | secs =>
    obtain ⟨n, hn, rfl⟩ := h
    have hsecs : (Duration.ofSecs n).secs = n := Nat.mul_div_cancel n (by decide)
    refine ⟨n, ?_, rfl⟩
    show WritesNatural most64 (Timestamp.padded width (Duration.ofSecs n).secs) n
    rw [hsecs]
    exact writesNatural_padded width hn
  | count most => exact writesNatural_padded width h
  | truth =>
    cases v with
    | true => exact .on
    | false => exact .off

/-- No blank stands in a value that is written out. -/
theorem isBlank_of_mem_spelled {width : Nat} {v : k.Value} {c : Char} (h : c ∈ k.spelled width v) :
    isBlank c = false := by
  cases k with
  | millis | secs | count => exact isBlank_of_isDigit (Timestamp.isDigit_of_mem_padded h)
  | truth =>
    have hall (b : Bool) : ((if b then "true" else "false").toList.all fun c => !isBlank c) = true := by
      cases b <;> decide
    simpa using List.all_eq_true.1 (hall v) c h

end Kind

/-- A setting: its name, how its value is written, and where the value stands. -/
structure Entry where
  name : String
  kind : Kind
  field : Settings → kind.Value

/-- All settings, in the order in which they are read. -/
def entries : List Entry :=
  [⟨"POLL_INTERVAL_MS", .millis, (·.pollInterval)⟩,
   ⟨"QUERY_TIMEOUT_MS", .millis, (·.queryTimeout)⟩,
   ⟨"STORE_TIMEOUT_MS", .millis, (·.storeTimeout)⟩,
   ⟨"QUEUE_CAPACITY", .count most64, (·.queueCapacity)⟩,
   ⟨"WORKERS", .count most64, (·.workers)⟩,
   ⟨"WORK_MIN_MS", .millis, (·.workMin)⟩,
   ⟨"WORK_MAX_MS", .millis, (·.workMax)⟩,
   ⟨"STALE_AFTER_SECS", .secs, (·.staleAfter)⟩,
   ⟨"MAX_ATTEMPTS", .count most32, (·.maxAttempts)⟩,
   ⟨"UPDATE_RETRIES", .count most32, (·.updateRetries)⟩,
   ⟨"RETRY_BACKOFF_MS", .millis, (·.retryBackoff)⟩,
   ⟨"RECLAIM_ON_START", .truth, (·.reclaimOnStart)⟩]

namespace Entry

variable {e : Entry} {lookup : Lookup} {c : SettingError}

/-- A setting has a text, with this word between its blanks. -/
structure HasWord (e : Entry) (lookup : Lookup) (raw : String) (word : List Char) : Prop where
  text : lookup (family ++ e.name) = some raw
  trims : Trims raw.toList word

/-- The named texts say the value of a setting: the one that its text writes, or its default if it has none. -/
inductive Says (e : Entry) (lookup : Lookup) (v : e.kind.Value) : Prop
  | absent (none : lookup (family ++ e.name) = none) (default : v = e.field standard)
  | present {raw : String} {word : List Char} (has : e.HasWord lookup raw word) (writes : e.kind.Writes word v)

/-- A setting has a text that writes no value. -/
def Malformed (lookup : Lookup) (e : Entry) : Prop :=
  ∃ raw word, e.HasWord lookup raw word ∧ ∀ v, ¬ e.kind.Writes word v

/-- The complaint about the text of a setting: it names the setting, shows the text, and tells what is wrong with it. -/
def Complains (lookup : Lookup) (c : SettingError) (e : Entry) : Prop :=
  ∃ raw word reason, e.HasWord lookup raw word ∧ e.kind.Refuses word reason ∧
    c = invalid e.name (quoted raw ++ ": " ++ reason.message)

theorem not_hasWord {raw : String} {word : List Char} (h : lookup (family ++ e.name) = none) :
    ¬ e.HasWord lookup raw word := by
  intro has
  have htext := has.text
  rw [h] at htext
  cases htext

/-- The word of a text is what is left when it is trimmed. -/
theorem hasWord_iff {raw raw' : String} {word : List Char} (h : lookup (family ++ e.name) = some raw) :
    e.HasWord lookup raw' word ↔ raw' = raw ∧ word = trim raw.toList := by
  constructor
  · rintro ⟨htext, htrims⟩
    rw [h] at htext
    cases htext
    exact ⟨rfl, (trim_eq_iff.2 htrims).symm⟩
  · rintro ⟨rfl, rfl⟩
    exact ⟨h, trims_trim _⟩

/-- What the reading of a setting gives. -/
def outcome (e : Entry) (lookup : Lookup) : Except SettingError e.kind.Value :=
  valueOf e.kind.read lookup e.name (e.field standard)

theorem outcome_of_none (h : lookup (family ++ e.name) = none) : e.outcome lookup = .ok (e.field standard) := by
  unfold outcome valueOf
  rw [h]

theorem outcome_of_some {raw : String} (h : lookup (family ++ e.name) = some raw) :
    e.outcome lookup = (e.kind.read (trim raw.toList)).mapError
      fun reason => invalid e.name (quoted raw ++ ": " ++ reason.message) := by
  unfold outcome valueOf
  simp only [h]
  cases e.kind.read (trim raw.toList) <;> rfl

theorem outcome_eq_ok_iff {v : e.kind.Value} : e.outcome lookup = .ok v ↔ e.Says lookup v := by
  cases h : lookup (family ++ e.name) with
  | none =>
    rw [outcome_of_none h]
    constructor
    · intro hv
      cases hv
      exact .absent h rfl
    · rintro (⟨-, rfl⟩ | ⟨has, -⟩)
      · rfl
      · exact absurd has (not_hasWord h)
  | some raw =>
    have hread : e.outcome lookup = .ok v ↔ e.kind.Writes (trim raw.toList) v := by
      rw [outcome_of_some h, ← Kind.read_eq_ok_iff]
      cases e.kind.read (trim raw.toList) <;> simp [Except.mapError]
    rw [hread]
    constructor
    · exact .present ((hasWord_iff h).2 ⟨rfl, rfl⟩)
    · rintro (⟨hnone, -⟩ | ⟨has, hwrites⟩)
      · rw [h] at hnone
        cases hnone
      · obtain ⟨-, rfl⟩ := (hasWord_iff h).1 has
        exact hwrites

theorem outcome_eq_error_iff : e.outcome lookup = .error c ↔ e.Complains lookup c := by
  cases h : lookup (family ++ e.name) with
  | none =>
    rw [outcome_of_none h]
    refine iff_of_false (by simp) ?_
    rintro ⟨raw, word, reason, has, -⟩
    exact not_hasWord h has
  | some raw =>
    have hread : e.outcome lookup = .error c ↔ ∃ reason, e.kind.Refuses (trim raw.toList) reason ∧
        c = invalid e.name (quoted raw ++ ": " ++ reason.message) := by
      rw [outcome_of_some h]
      simp only [← Kind.read_eq_error_iff]
      cases e.kind.read (trim raw.toList) <;> simp [Except.mapError, eq_comm]
    rw [hread]
    constructor
    · rintro ⟨reason, hrefuses, hc⟩
      exact ⟨raw, _, reason, (hasWord_iff h).2 ⟨rfl, rfl⟩, hrefuses, hc⟩
    · rintro ⟨raw', word, reason, has, hrefuses, hc⟩
      obtain ⟨rfl, rfl⟩ := (hasWord_iff h).1 has
      exact ⟨reason, hrefuses, hc⟩

/-- There is a complaint about a setting iff its text writes no value. -/
theorem malformed_iff : e.Malformed lookup ↔ ∃ c, e.outcome lookup = .error c := by
  simp only [outcome_eq_error_iff]
  constructor
  · rintro ⟨raw, word, has, hnone⟩
    obtain ⟨reason, hrefuses⟩ := Kind.not_writes_iff.1 hnone
    exact ⟨_, raw, word, reason, has, hrefuses, rfl⟩
  · rintro ⟨c, raw, word, reason, has, hrefuses, -⟩
    exact ⟨raw, word, has, Kind.not_writes_iff.2 ⟨reason, hrefuses⟩⟩

end Entry

/-- Named texts describe settings: each entry has the value that the texts say. -/
def Describes (lookup : Lookup) (s : Settings) : Prop := ∀ e ∈ entries, e.Says lookup (e.field s)

section

variable {lookup : Lookup} {s : Settings} {c : SettingError}

/-- One entry is read, and the rest of the reading gives the settings iff their fields are what has been read earlier,
what is read now, and what the entries that are left say. -/
private theorem described_cons_iff {e : Entry} {es : List Entry} {f : e.kind.Value → Except SettingError Settings}
    {earlier : Prop}
    (later : ∀ v, (earlier ∧ v = e.field s) ∧ (∀ x ∈ es, x.Says lookup (x.field s)) ↔ f v = .ok s) :
    earlier ∧ (∀ x ∈ e :: es, x.Says lookup (x.field s)) ↔ (e.outcome lookup >>= f) = .ok s := by
  rw [List.forall_mem_cons, ← Entry.outcome_eq_ok_iff]
  cases h : e.outcome lookup with
  | error c => simp [bind, Except.bind]
  | ok v =>
    show _ ↔ f v = .ok s
    rw [← later v, Except.ok.injEq, and_assoc]

/-- All settings can be read iff the texts describe them. -/
theorem readAll_eq_ok_iff : readAll lookup = .ok s ↔ Describes lookup s := by
  have hchain : True ∧ (∀ e ∈ entries, e.Says lookup (e.field s)) ↔ readAll lookup = .ok s := by
    -- each setting of the reading is the next entry of the table
    unfold entries readAll
    iterate 12 refine described_cons_iff fun _ => ?_
    cases s
    simp only [List.not_mem_nil, false_implies, implies_true, and_true, true_and, and_assoc, pure, Except.pure,
      Except.ok.injEq]
    exact Iff.of_eq (Settings.mk.injEq ..).symm
  exact hchain.symm.trans (by simp [Describes])

/-- If an entry cannot be read, it is complained about, and otherwise the first one behind it that cannot. -/
private theorem first_malformed_cons_iff {e : Entry} {es : List Entry}
    {f : e.kind.Value → Except SettingError Settings}
    (later : ∀ v, (∃ x, IsFirst (Entry.Malformed lookup) es x ∧ x.Complains lookup c) ↔ f v = .error c) :
    (∃ x, IsFirst (Entry.Malformed lookup) (e :: es) x ∧ x.Complains lookup c) ↔
      (e.outcome lookup >>= f) = .error c := by
  cases h : e.outcome lookup with
  | error c' =>
    simp only [isFirst_cons_of_pos (Entry.malformed_iff.2 ⟨c', h⟩), exists_eq_left, ← Entry.outcome_eq_error_iff, h]
    simp [bind, Except.bind]
  | ok v =>
    have hwell : ¬ e.Malformed lookup := by
      rw [Entry.malformed_iff, h]
      simp
    simp only [isFirst_cons_of_neg hwell]
    exact later v

/-- If some settings cannot be read, the first of them is complained about. -/
theorem readAll_eq_error_iff :
    readAll lookup = .error c ↔ ∃ e, IsFirst (Entry.Malformed lookup) entries e ∧ e.Complains lookup c := by
  refine Iff.symm ?_
  unfold entries readAll
  iterate 12 refine first_malformed_cons_iff fun _ => ?_
  simp [not_isFirst_nil, pure, Except.pure]

end

/-! ### Checks -/

/-- Something that the loops cannot run without: the setting that is complained about, and what is said then. -/
structure Check where
  name : String
  detail : Settings → String
  Holds : Settings → Prop

/-- All checks, in the order in which they are made. -/
def checks : List Check :=
  [⟨"WORKERS", fun _ => "must be at least 1", fun s => 1 ≤ s.workers⟩,
   ⟨"QUEUE_CAPACITY", fun _ => "must be at least 1", fun s => 1 ≤ s.queueCapacity⟩,
   ⟨"POLL_INTERVAL_MS", fun _ => "must be greater than 0", fun s => 0 < s.pollInterval.nanos⟩,
   ⟨"WORK_MIN_MS", fun s => s.workMin.text ++ " exceeds WORK_MAX_MS " ++ s.workMax.text, fun s => s.workMin ≤ s.workMax⟩,
   ⟨"MAX_ATTEMPTS", fun _ => "must be at least 1", fun s => 1 ≤ s.maxAttempts⟩]

/-- A check fails. -/
def Check.Fails (s : Settings) (k : Check) : Prop := ¬ k.Holds s

section

variable {s : Settings} {c : SettingError}

/-- If a check fails, it is complained about, and otherwise the first one behind it that fails. -/
private theorem first_failing_cons_iff {k : Check} {ks : List Check} {test : Prop} [Decidable test]
    {rest : Option SettingError} (fails : k.Fails s ↔ test)
    (later : (∃ x, IsFirst (Check.Fails s) ks x ∧ c = invalid x.name (x.detail s)) ↔ rest = some c) :
    (∃ x, IsFirst (Check.Fails s) (k :: ks) x ∧ c = invalid x.name (x.detail s)) ↔
      (if test then some (invalid k.name (k.detail s)) else rest) = some c := by
  by_cases h : k.Fails s
  · simp only [isFirst_cons_of_pos h, exists_eq_left, if_pos (fails.1 h), Option.some.injEq]
    exact eq_comm
  · simp only [isFirst_cons_of_neg h, if_neg (mt fails.2 h)]
    exact later

/-- Of several checks that fail the first one is reported. -/
theorem fault?_eq_some_iff :
    s.fault? = some c ↔ ∃ k, IsFirst (Check.Fails s) checks k ∧ c = invalid k.name (k.detail s) := by
  refine Iff.symm ?_
  unfold checks fault?
  refine first_failing_cons_iff ?_ (first_failing_cons_iff ?_ (first_failing_cons_iff ?_ (first_failing_cons_iff ?_
    (first_failing_cons_iff ?_ ?_))))
  · unfold Check.Fails
    dsimp only
    omega
  · unfold Check.Fails
    dsimp only
    omega
  · simp only [Check.Fails, Duration.isZero, beq_iff_eq]
    omega
  · simp only [Check.Fails, Duration.le_iff, Duration.lt_iff]
    omega
  · unfold Check.Fails
    dsimp only
    omega
  · simp [not_isFirst_nil]

end

/-! ### Settings that are written out -/

/-- What a writer of settings puts around their values: blanks on both sides, and zeros in front of a number up to a
width. -/
structure Spacing where
  before : String → List Char
  after : String → List Char
  width : String → Nat
  before_blank : ∀ name, ∀ c ∈ before name, isBlank c = true
  after_blank : ∀ name, ∀ c ∈ after name, isBlank c = true

/-- Settings that can be written out: every value is a whole number of its unit, and allowed by the reader of numbers. -/
def IsWhole (s : Settings) : Prop := ∀ e ∈ entries, e.kind.IsWhole (e.field s)

/-- The text of a setting. -/
def Entry.text (e : Entry) (spacing : Spacing) (s : Settings) : String :=
  String.ofList (spacing.before e.name ++ e.kind.spelled (spacing.width e.name) (e.field s) ++ spacing.after e.name)

/-- Settings as named texts. -/
def writtenOut (spacing : Spacing) (s : Settings) : Lookup := fun name =>
  (entries.find? fun e => family ++ e.name = name).map fun e => e.text spacing s

section

variable {s : Settings} {spacing : Spacing} {e : Entry}

/-- Every setting has a name of its own. -/
theorem nodup_names : (entries.map fun e => family ++ e.name).Nodup := by decide

/-- Whatever has a name of its own is found by it. -/
private theorem find?_of_nodup {es : List Entry} (hnames : (es.map fun x => family ++ x.name).Nodup) (h : e ∈ es) :
    es.find? (fun x => family ++ x.name = family ++ e.name) = some e := by
  induction es with
  | nil => cases h
  | cons x es ih =>
    rw [List.map_cons, List.nodup_cons] at hnames
    rcases List.mem_cons.1 h with rfl | h
    · simp
    · have hother : family ++ x.name ≠ family ++ e.name := by
        intro hsame
        exact hnames.1 (hsame ▸ List.mem_map_of_mem h)
      rw [List.find?_cons_of_neg (by simpa using hother)]
      exact ih hnames.2 h

theorem writtenOut_of_mem (h : e ∈ entries) : writtenOut spacing s (family ++ e.name) = some (e.text spacing s) := by
  unfold writtenOut
  rw [find?_of_nodup nodup_names h]
  rfl

theorem trims_text (e : Entry) (spacing : Spacing) (s : Settings) :
    Trims (e.text spacing s).toList (e.kind.spelled (spacing.width e.name) (e.field s)) := by
  refine ⟨⟨spacing.before e.name, spacing.after e.name, ?_, spacing.before_blank _, spacing.after_blank _⟩,
    fun c hc => ?_, fun c hc => ?_⟩
  · unfold Entry.text
    rw [String.toList_ofList]
  · exact Kind.isBlank_of_mem_spelled (List.mem_of_mem_head? hc)
  · exact Kind.isBlank_of_mem_spelled (List.mem_of_mem_getLast? hc)

/-- Settings are described by what is written of them. -/
theorem describes_writtenOut (h : s.IsWhole) : Describes (s.writtenOut spacing) s := by
  intro e he
  exact .present ⟨writtenOut_of_mem he, trims_text e spacing s⟩ (Kind.writes_spelled _ (h e he))

end

/-! ### Settings from named texts -/

section

variable {lookup : Lookup} {s : Settings} {c : SettingError}

theorem exists_describes_iff : (∃ s, Describes lookup s) ↔ ∀ e ∈ entries, ¬ e.Malformed lookup := by
  constructor
  · rintro ⟨s, hs⟩ e he hmalformed
    obtain ⟨c, hc⟩ := Entry.malformed_iff.1 hmalformed
    rw [Entry.outcome_eq_ok_iff.2 (hs e he)] at hc
    cases hc
  · intro hwell
    cases h : readAll lookup with
    | ok s => exact ⟨s, readAll_eq_ok_iff.1 h⟩
    | error c =>
      obtain ⟨e, ⟨before, after, hsplit, -, hmalformed⟩, -⟩ := readAll_eq_error_iff.1 h
      exact absurd hmalformed (hwell e (by simp [hsplit]))

/-- What has been read is checked. -/
private theorem ofLookup?_of_ok (h : readAll lookup = .ok s) :
    ofLookup? lookup = match s.fault? with
      | none => Except.ok s
      | some c => Except.error c := by
  unfold ofLookup?
  rw [h]
  rfl

private theorem ofLookup?_of_error (h : readAll lookup = .error c) : ofLookup? lookup = .error c := by
  unfold ofLookup?
  rw [h]
  rfl

theorem ofLookup?_eq_ok_iff : ofLookup? lookup = .ok s ↔ Describes lookup s ∧ s.Valid := by
  rw [← readAll_eq_ok_iff, ← fault?_eq_none_iff]
  cases h : readAll lookup with
  | error c =>
    rw [ofLookup?_of_error h]
    simp
  | ok s' =>
    rw [ofLookup?_of_ok h]
    cases hfault : s'.fault? with
    | none =>
      constructor
      · intro hs
        cases hs
        exact ⟨rfl, hfault⟩
      · exact fun hs => hs.1
    | some c =>
      refine iff_of_false (by simp) ?_
      rintro ⟨hs, hnone⟩
      cases hs
      rw [hfault] at hnone
      cases hnone

theorem ofLookup?_eq_error_iff :
    ofLookup? lookup = .error c ↔ readAll lookup = .error c ∨ ∃ s, Describes lookup s ∧ s.fault? = some c := by
  simp only [← readAll_eq_ok_iff]
  cases h : readAll lookup with
  | error c' =>
    rw [ofLookup?_of_error h]
    simp
  | ok s =>
    rw [ofLookup?_of_ok h]
    cases hfault : s.fault? <;> simp [hfault]

end

/-- **Main theorem.**  Settings are read from named texts iff the texts describe them and they are valid, and the texts
describe some settings iff every setting that has a text has a well-formed one.  Otherwise the first setting in the order
of reading whose text writes no value is complained about, or, if there is none, the first check that fails.  Valid
settings that can be written out at all are read back from what is written, with any blanks around the values and any
number of zeros in front. -/
theorem reads_exactly_valid (lookup : Lookup) :
    (∀ s, ofLookup? lookup = .ok s ↔ Describes lookup s ∧ s.Valid) ∧
    ((∃ s, Describes lookup s) ↔ ∀ e ∈ entries, ¬ e.Malformed lookup) ∧
    (∀ c, ofLookup? lookup = .error c ↔
      (∃ e, IsFirst (Entry.Malformed lookup) entries e ∧ e.Complains lookup c) ∨
      ∃ s, Describes lookup s ∧ ∃ k, IsFirst (Check.Fails s) checks k ∧ c = invalid k.name (k.detail s)) ∧
    ∀ (s : Settings) (spacing : Spacing), s.Valid → s.IsWhole → ofLookup? (s.writtenOut spacing) = .ok s := by
  refine ⟨fun s => ofLookup?_eq_ok_iff, exists_describes_iff, fun c => ?_, fun s spacing hvalid hwhole => ?_⟩
  · rw [ofLookup?_eq_error_iff, readAll_eq_error_iff]
    simp only [fault?_eq_some_iff]
  · exact ofLookup?_eq_ok_iff.2 ⟨describes_writtenOut hwhole, hvalid⟩

/-- Settings with blanks around their values, and with more zeros than a number of 64 bits has digits. -/
theorem reads_exactly_valid_spacedOut : ∃ (s : Settings) (spacing : Spacing), s.Valid ∧ s.IsWhole ∧
    s.writtenOut spacing "TASK_DISPATCH_WORKERS" = some "\u3000 000000000000000000000003\n" ∧
    ofLookup? (s.writtenOut spacing) = .ok s := by
  let s : Settings := { standard with workers := 3, staleAfter := .ofSecs 30, reclaimOnStart := false }
  let spacing : Spacing :=
    { before := fun _ => ['\u3000', ' ']
      after := fun _ => ['\n']
      width := fun _ => 24
      before_blank := fun _ => List.all_eq_true.1 (by decide)
      after_blank := fun _ => List.all_eq_true.1 (by decide) }
  have hvalid : s.Valid := ⟨by decide, by decide, by decide, by decide, by decide⟩
  have hwhole : s.IsWhole := by
    have hmillis (n : Nat) (hn : n ≤ most64) : Kind.millis.IsWhole (.ofMillis n) := ⟨n, hn, rfl⟩
    unfold IsWhole entries
    simp only [List.forall_mem_cons]
    refine ⟨hmillis 10000 (by decide), hmillis 5000 (by decide), hmillis 5000 (by decide), ?_, ?_,
      hmillis 1000 (by decide), hmillis 3000 (by decide), ⟨30, by decide, rfl⟩, ?_, ?_, hmillis 200 (by decide),
      trivial, by simp⟩
    all_goals
      show (_ : Nat) ≤ _
      decide
  exact ⟨s, spacing, hvalid, hwhole, by decide, (reads_exactly_valid (s.writtenOut spacing)).2.2.2 s spacing hvalid hwhole⟩

-- Of two texts that cannot be read the first is complained about, and the capacity of zero is not looked at.
example : ofLookup? (fun name =>
      if name = "TASK_DISPATCH_QUEUE_CAPACITY" then some "0"
      else if name = "TASK_DISPATCH_WORKERS" then some " +"
      else if name = "TASK_DISPATCH_MAX_ATTEMPTS" then some "4294967296"
      else none) =
    .error ⟨"TASK_DISPATCH_WORKERS", "\" +\": invalid digit found in string"⟩ := by rfl

end Backlog.Settings
