import Backlog.Proofs.Json.Tokens
import Backlog.Proofs.Timestamp.Exchanged
import Mathlib.Data.List.Forall2

/-!
# Written records are read back

A record is written as an object of its fields in their order, without the times that are not set, and a list of records
as an array.  What is read is the record as it was written, whatever text follows it: a member is found by its name, and
a field that was left out has its fallback.

Key facts: whatever a record is read from, each value fits its field (`fits_of_readRecord`); a record whose values fit
is read back (`readRecord_writeRecord`), and so is a list of such records (`readRecords_encodeArray`).
-/

namespace Backlog.Json

/-- Whether a value may stand in a field of a kind. -/
inductive Kind.Allows : Kind → Value → Prop
  | integer {least most n : Int} (h : least ≤ n ∧ n ≤ most) : Allows (.integer least most) (.integer n)
  | text (s : String) : Allows .text (.text s)
  | status (a : Status) : Allows .status (.status a)
  | time (t : Timestamp) : Allows .time (.time t)
  | set (t : Timestamp) : Allows .optionalTime (.time t)
  | unset : Allows .optionalTime .unset

/-- What makes the values of a record readable: its fields have names of their own, ask for integers of at most 64 bits,
and fall back on values that fit; a time that need not be set is taken as not set where it is left out. -/
structure Readable (fields : List Field) : Prop where
  names : (fields.map (·.name)).Nodup
  narrow : ∀ f ∈ fields, ∀ least most, f.kind = .integer least most →
    -9223372036854775808 ≤ least ∧ most ≤ 9223372036854775807
  fallback : ∀ f ∈ fields, ∀ v ∈ f.fallback, f.kind.Allows v
  unset : ∀ f ∈ fields, f.kind = .optionalTime → f.fallback = some .unset

/-- Each value of a record fits its field. -/
def Fits (fields : List Field) (values : List Value) : Prop := List.Forall₂ (fun f v => f.kind.Allows v) fields values

theorem bind_eq_ok {α β : Type} {x : Except Fault α} {f : α → Except Fault β} {b : β} (h : x.bind f = .ok b) :
    ∃ a, x = .ok a ∧ f a = .ok b := by
  cases x with
  | error e => cases h
  | ok a => exact ⟨a, rfl, h⟩

private theorem map_eq_ok {α β : Type} {x : Except Fault α} {f : α → β} {b : β} (h : x.map f = .ok b) :
    ∃ a, x = .ok a ∧ f a = b := by
  cases x with
  | error e => cases h
  | ok a => exact ⟨a, rfl, by cases h; rfl⟩

/-! ### What is read fits -/

private theorem unwanted_ne_ok {α : Type} (s : List Char) (a : α) : unwanted s ≠ .ok a := by
  intro h
  unfold unwanted at h
  split at h
  case h_1 => cases h
  case h_7 => cases h
  case h_8 => cases h
  case h_9 =>
    split at h
    · obtain ⟨x, -, hx⟩ := bind_eq_ok h
      cases hx
    · cases h
  all_goals
    obtain ⟨x, -, hx⟩ := bind_eq_ok h
    cases hx

private theorem of_bounded {least most n : Int} {x : Number} (h : bounded least most x = .ok n) :
    least ≤ n ∧ n ≤ most := by
  unfold bounded at h
  split at h
  · split at h
    · cases h
      assumption
    · cases h
  · cases h

private theorem of_readInteger {least most n : Int} {s r : List Char} (h : readInteger least most s = .ok (n, r)) :
    least ≤ n ∧ n ≤ most := by
  have hbound {x : Except Fault (Number × List Char)}
      (hx : (x.bind fun p => (bounded least most p.1).bind fun k => .ok (k, p.2)) = .ok (n, r)) :
      least ≤ n ∧ n ≤ most := by
    obtain ⟨⟨m, r'⟩, -, hm⟩ := bind_eq_ok hx
    obtain ⟨k, hk, hpair⟩ := bind_eq_ok hm
    cases hpair
    exact of_bounded hk
  unfold readInteger at h
  split at h
  · exact hbound h
  · split at h
    · exact hbound h
    · exact absurd h (unwanted_ne_ok _ _)
  · cases h

theorem allows_of_readValue {k : Kind} {s r : List Char} {v : Value} (h : readValue k s = .ok (v, r)) :
    k.Allows v := by
  cases k with
  | integer least most =>
    obtain ⟨⟨n, r'⟩, hn, hv⟩ := map_eq_ok h
    cases hv
    exact .integer (of_readInteger hn)
  | text =>
    obtain ⟨⟨t, r'⟩, -, hv⟩ := map_eq_ok h
    cases hv
    exact .text t
  | status =>
    obtain ⟨⟨a, r'⟩, -, hv⟩ := map_eq_ok h
    cases hv
    exact .status a
  | time =>
    obtain ⟨⟨t, r'⟩, -, hv⟩ := map_eq_ok h
    cases hv
    exact .time t
  | optionalTime =>
    simp only [readValue] at h
    split at h
    · obtain ⟨r', -, hv⟩ := map_eq_ok h
      cases hv
      exact .unset
    · obtain ⟨⟨t, r'⟩, -, hv⟩ := map_eq_ok h
      cases hv
      exact .set t

/-- What has been given so far fits the fields. -/
private def Given (fields : List Field) (given : List (Option Value)) : Prop :=
  ∀ (i : Nat) (f : Field) (v : Value), fields[i]? = some f → given[i]? = some (some v) → f.kind.Allows v

private theorem fits_of_complete {fields : List Field} {given : List (Option Value)} {vs : List Value}
    (hfallback : ∀ f ∈ fields, ∀ v ∈ f.fallback, f.kind.Allows v) (hgiven : Given fields given)
    (h : complete fields given = .ok vs) : Fits fields vs := by
  induction fields generalizing given vs with
  | nil =>
    cases h
    exact .nil
  | cons f fs ih =>
    unfold complete at h
    split at h
    · cases h
    · rename_i v hv
      obtain ⟨ws, hws, rfl⟩ := map_eq_ok h
      refine .cons ?_ (ih (fun g hg => hfallback g (List.mem_cons_of_mem _ hg)) ?_ hws)
      · cases given with
        | nil => exact hfallback f List.mem_cons_self v (by simpa using hv)
        | cons o given =>
          cases o with
          | none => exact hfallback f List.mem_cons_self v (by simpa using hv)
          | some w =>
            obtain rfl : w = v := by simpa using hv
            exact hgiven 0 f w rfl rfl
      · intro i g w hg hw
        cases given with
        | nil => simp at hw
        | cons o given => exact hgiven (i + 1) g w hg hw

private theorem given_of_readMember {fields : List Field} {given given' : List (Option Value)} {s r : List Char}
    (hgiven : Given fields given) (h : readMember fields given s = .ok (given', r)) : Given fields given' := by
  unfold readMember at h
  split at h
  · obtain ⟨⟨name, r₁⟩, -, h⟩ := bind_eq_ok h
    dsimp only at h
    split at h
    · obtain ⟨r₂, -, h⟩ := bind_eq_ok h
      obtain ⟨r₃, -, h⟩ := bind_eq_ok h
      cases h
      exact hgiven
    · rename_i i hi
      split at h
      · cases h
      · obtain ⟨r₂, -, h⟩ := bind_eq_ok h
        obtain ⟨⟨v, r₃⟩, hv, h⟩ := bind_eq_ok h
        cases h
        intro j f w hf hw
        rw [List.getElem?_set] at hw
        split at hw
        · rename_i hij
          subst hij
          split at hw
          · obtain rfl : v = w := by simpa using hw
            rw [hf] at hv
            exact allows_of_readValue hv
          · cases hw
        · exact hgiven j f w hf hw
  · cases h

private theorem fits_of_readMembers {fields : List Field}
    (hfallback : ∀ f ∈ fields, ∀ v ∈ f.fallback, f.kind.Allows v) {n : Nat} {first : Bool}
    {given : List (Option Value)} {s r : List Char} {vs : List Value} (hgiven : Given fields given)
    (h : readMembers fields n first given s = .ok (vs, r)) : Fits fields vs := by
  induction n generalizing first given s with
  | zero => cases h
  | succ n ih =>
    unfold readMembers at h
    obtain ⟨x, -, h⟩ := bind_eq_ok h
    cases x with
    | close r' =>
      obtain ⟨ws, hws, h⟩ := bind_eq_ok h
      cases h
      exact fits_of_complete hfallback hgiven hws
    | item r' =>
      obtain ⟨⟨given', r₁⟩, hmember, h⟩ := bind_eq_ok h
      exact ih (given_of_readMember hgiven hmember) h

private theorem fits_of_readElements {fields : List Field}
    (hfallback : ∀ f ∈ fields, ∀ v ∈ f.fallback, f.kind.Allows v) {first : Bool} {s r : List Char} {vs : List Value}
    (h : readElements fields first s = .ok (vs, r)) : Fits fields vs := by
  induction fields generalizing first s vs with
  | nil =>
    unfold readElements at h
    split at h
    · cases h
      exact .nil
    · cases h
    · cases h
  | cons f fs ih =>
    unfold readElements at h
    obtain ⟨x, -, h⟩ := bind_eq_ok h
    cases x with
    | close r' =>
      obtain ⟨ws, hws, h⟩ := bind_eq_ok h
      cases h
      exact fits_of_complete hfallback (by intro i g w _ hw; simp at hw) hws
    | item r' =>
      obtain ⟨⟨v, r₁⟩, hv, h⟩ := bind_eq_ok h
      obtain ⟨⟨ws, r₂⟩, hws, h⟩ := bind_eq_ok h
      cases h
      exact .cons (allows_of_readValue hv) (ih (fun g hg => hfallback g (List.mem_cons_of_mem _ hg)) hws)

theorem fits_of_readRecord {fields : List Field} (hfields : Readable fields) {s r : List Char} {vs : List Value}
    (h : readRecord fields s = .ok (vs, r)) : Fits fields vs := by
  unfold readRecord at h
  split at h
  · refine fits_of_readMembers hfields.fallback ?_ h
    intro i f v _ hv
    simp [List.getElem?_replicate] at hv
  · exact fits_of_readElements hfields.fallback h
  · exact absurd h (unwanted_ne_ok _ _)

private theorem fits_of_readRecordsWithin {fields : List Field} (hfields : Readable fields) {n : Nat} {first : Bool}
    {s r : List Char} {vss : List (List Value)} (h : readRecordsWithin fields n first s = .ok (vss, r)) :
    ∀ vs ∈ vss, Fits fields vs := by
  induction n generalizing first s vss with
  | zero => cases h
  | succ n ih =>
    unfold readRecordsWithin at h
    obtain ⟨x, -, h⟩ := bind_eq_ok h
    cases x with
    | close r' =>
      cases h
      simp
    | item r' =>
      obtain ⟨⟨v, r₁⟩, hv, h⟩ := bind_eq_ok h
      obtain ⟨⟨ws, r₂⟩, hws, h⟩ := bind_eq_ok h
      cases h
      intro vs hvs
      rcases List.mem_cons.1 hvs with rfl | hvs
      · exact fits_of_readRecord hfields hv
      · exact ih hws vs hvs

theorem fits_of_readRecords {fields : List Field} (hfields : Readable fields) {s r : List Char}
    {vss : List (List Value)} (h : readRecords fields s = .ok (vss, r)) : ∀ vs ∈ vss, Fits fields vs := by
  unfold readRecords at h
  split at h
  · exact fits_of_readRecordsWithin hfields h
  · exact absurd h (unwanted_ne_ok _ _)

/-! ### Values -/

private theorem readText_encoded (s r : List Char) : readText (encodeString s ++ r) = .ok (String.ofList s, r) := by
  rw [encodeString_append]
  show (stringTail (s.flatMap encodeChar ++ '"' :: r)).map (fun p => (String.ofList p.1, p.2)) = _
  rw [stringTail_encoded]
  rfl

private theorem readStatus_encoded (a : Status) (r : List Char) :
    readStatus (encodeString a.name.toList ++ r) = .ok (a, r) := by
  have hname : statusName a.name.toList = .ok a := by
    unfold statusName
    rw [String.ofList_toList, Status.ofName?_name]
  rw [encodeString_append]
  show (stringTail (a.name.toList.flatMap encodeChar ++ '"' :: r)).bind
    (fun p => (statusName p.1).bind fun b => .ok (b, p.2)) = _
  rw [stringTail_encoded]
  show (statusName a.name.toList).bind (fun b => .ok (b, r)) = _
  rw [hname]
  rfl

private theorem readTime_encoded (t : Timestamp) (r : List Char) :
    readTime (encodeString t.text.toList ++ r) = .ok (t, r) := by
  unfold readTime
  rw [readText_encoded, String.ofList_toList]
  simp only [bind, Except.bind, Timestamp.ofRelaxed?_text]
  rfl

/-- A value is read back up to a text that cannot belong to it. -/
theorem readValue_encode {k : Kind} {v : Value} {r : List Char}
    (hnarrow : ∀ least most, k = .integer least most → -9223372036854775808 ≤ least ∧ most ≤ 9223372036854775807)
    (hv : k.Allows v) (hset : v ≠ .unset) (hr : EndsNumber r) : readValue k (v.encode ++ r) = .ok (v, r) := by
  cases hv with
  | @integer least most n h =>
    obtain ⟨hleast, hmost⟩ := hnarrow least most rfl
    show (readInteger least most (integerText n ++ r)).map _ = _
    rw [readInteger_integerText hleast hmost h hr]
    rfl
  | text s =>
    show (readText (encodeString s.toList ++ r)).map _ = _
    rw [readText_encoded, String.ofList_toList]
    rfl
  | status a =>
    show (readStatus (encodeString a.name.toList ++ r)).map _ = _
    rw [readStatus_encoded]
    rfl
  | time t =>
    show (readTime (encodeString t.text.toList ++ r)).map _ = _
    rw [readTime_encoded]
    rfl
  | set t =>
    have hread := readTime_encoded t r
    rw [encodeString_append] at hread
    show readValue .optionalTime (encodeString t.text.toList ++ r) = _
    rw [encodeString_append]
    show (readTime ('"' :: (t.text.toList.flatMap encodeChar ++ '"' :: r))).map _ = _
    rw [hread]
    rfl
  | unset => exact absurd rfl hset

/-! ### Items between brackets -/

/-- Items as they stand between brackets: behind commas, but for the first of all. -/
private def listed (first : Bool) (items : List (List Char)) : List Char :=
  if first then commaSeparated items else items.flatMap (',' :: ·)

private theorem commaSeparated_cons (s : List Char) (items : List (List Char)) :
    commaSeparated (s :: items) = s ++ items.flatMap (',' :: ·) := by
  induction items generalizing s with
  | nil => simp [commaSeparated]
  | cons t items ih => simp [commaSeparated, ih]

private theorem length_listed (items : List (List Char)) (hitems : ∀ s ∈ items, 0 < s.length) (first : Bool) :
    items.length ≤ (listed first items).length := by
  have hbehind : ∀ items : List (List Char), items.length ≤ (items.flatMap (',' :: ·)).length := by
    intro items
    induction items with
    | nil => simp
    | cons s items ih =>
      simp only [List.flatMap_cons, List.length_append, List.length_cons]
      omega
  unfold listed
  split
  · cases items with
    | nil => simp
    | cons s items =>
      have hpos : 0 < s.length := hitems s List.mem_cons_self
      have hrest := hbehind items
      rw [commaSeparated_cons, List.length_append, List.length_cons]
      omega
  · exact hbehind items

private theorem next_end {close : Char} (hclose : isSpace close = false) (first : Bool) (r : List Char) :
    next close first (listed first [] ++ close :: r) = .ok (.close r) := by
  have hnone : listed first [] = [] := by cases first <;> rfl
  rw [hnone, List.nil_append]
  unfold next
  rw [skipSpace_cons hclose]
  exact if_pos rfl

/-- An item that begins with neither a blank nor the closing bracket is found. -/
private theorem next_item {close c : Char} {s : List Char} {items : List (List Char)} (hc : isSpace c = false)
    (hne : c ≠ close) (hcomma : ',' ≠ close) (first : Bool) (r : List Char) :
    next close first (listed first ((c :: s) :: items) ++ r)
      = .ok (.item (c :: s ++ (listed false items ++ r))) := by
  cases first with
  | true =>
    have htext : listed true ((c :: s) :: items) ++ r = c :: s ++ (listed false items ++ r) := by
      simp [listed, commaSeparated_cons]
    rw [htext]
    unfold next
    rw [List.cons_append, skipSpace_cons hc]
    dsimp only
    rw [if_neg hne]
    exact if_pos rfl
  | false =>
    have htext : listed false ((c :: s) :: items) ++ r = ',' :: (c :: s ++ (listed false items ++ r)) := by
      simp [listed]
    rw [htext]
    unfold next
    rw [skipSpace_cons (by decide)]
    dsimp only
    rw [if_neg hcomma, if_neg (by decide), if_pos rfl, List.cons_append, skipSpace_cons hc]
    exact if_neg hne

private theorem endsNumber_listed (items : List (List Char)) {close : Char}
    (hclose : close.isDigit = false ∧ close ≠ '.' ∧ close ≠ 'e' ∧ close ≠ 'E') (r : List Char) :
    EndsNumber (listed false items ++ close :: r) := by
  cases items with
  | nil => exact endsNumber_cons hclose r
  | cons s items => exact endsNumber_cons (by decide) _

/-! ### Objects -/

/-- The members of a record that are written. -/
private def members (fields : List Field) (values : List Value) : List (List Char) :=
  ((fields.zip values).filter fun (_, v) => v ≠ .unset).map
    fun (f, v) => encodeString f.name.toList ++ ':' :: v.encode

private theorem writeRecord_eq (fields : List Field) (values : List Value) :
    writeRecord fields values = '{' :: listed true (members fields values) ++ ['}'] := by
  unfold writeRecord encodeObject members
  rw [List.map_map]
  rfl

/-- A value that was written, as it is kept while an object is read. -/
private def shown (v : Value) : Option Value := if v = .unset then none else some v

private theorem complete_shown {fields : List Field} {values : List Value}
    (hunset : ∀ f ∈ fields, f.kind = .optionalTime → f.fallback = some .unset) (h : Fits fields values) :
    complete fields (values.map shown) = .ok values := by
  induction h with
  | nil => rfl
  | @cons f v fields values hv _ ih =>
    have hrest := ih (fun g hg => hunset g (List.mem_cons_of_mem _ hg))
    have hvalue : (shown v).or f.fallback = some v := by
      generalize hk : f.kind = k at hv
      cases hv with
      | unset => exact hunset f List.mem_cons_self hk
      | _ => rfl
    simp only [complete, List.map_cons, List.head?_cons, Option.bind_some, id, List.tail_cons, hvalue, hrest]
    rfl

private theorem readMember_encoded {done rest : List Field} {f : Field} {given : List (Option Value)} {v : Value}
    {r : List Char} (hfields : Readable (done ++ f :: rest)) (hgiven : given[done.length]? = some none)
    (hv : f.kind.Allows v) (hset : v ≠ .unset) (hr : EndsNumber r) :
    readMember (done ++ f :: rest) given (encodeString f.name.toList ++ ':' :: v.encode ++ r)
      = .ok (given.set done.length (some v), r) := by
  have hindex : (done ++ f :: rest).findIdx? (fun g => g.name.toList = f.name.toList) = some done.length := by
    have hother : ∀ g ∈ done, ¬ g.name.toList = f.name.toList := by
      intro g hg hname
      have hnames := hfields.names
      rw [List.map_append, List.nodup_append] at hnames
      exact hnames.2.2 g.name (List.mem_map_of_mem hg) f.name (by simp) (String.toList_inj.1 hname)
    rw [List.findIdx?_append, List.findIdx?_eq_none_iff.2 (by simpa using hother), List.findIdx?_cons]
    simp
  have hfield : (done ++ f :: rest)[done.length]? = some f := by simp
  have hnarrow := hfields.narrow f (by simp)
  rw [List.append_assoc, encodeString_append]
  show (stringTail (f.name.toList.flatMap encodeChar ++ '"' :: (':' :: v.encode ++ r))).bind _ = _
  rw [stringTail_encoded]
  simp only [Except.bind, hindex]
  show (if (given[done.length]?.bind id).isSome then _ else _) = _
  rw [hgiven, if_neg (by simp)]
  show (readValue (((done ++ f :: rest)[done.length]?.map (·.kind)).getD .text) (v.encode ++ r)).bind _ = _
  rw [hfield]
  show (readValue f.kind (v.encode ++ r)).bind _ = _
  rw [readValue_encode hnarrow hv hset hr]
  rfl

/-- The members that are still to come complete what was given of the fields before. -/
private theorem readMembers_members {done rest : List Field} {before values : List Value}
    (hfields : Readable (done ++ rest)) (hbefore : Fits done before) (hvalues : Fits rest values) {n : Nat}
    (hn : (members rest values).length < n) (first : Bool) (r : List Char) :
    readMembers (done ++ rest) n first (before.map shown ++ rest.map fun _ => none)
        (listed first (members rest values) ++ '}' :: r) = .ok (before ++ values, r) := by
  induction hvalues generalizing done before n first with
  | nil =>
    obtain ⟨n, rfl⟩ := Nat.exists_eq_succ_of_ne_zero (Nat.ne_zero_of_lt hn)
    show (next '}' first (listed first [] ++ '}' :: r)).bind _ = _
    rw [next_end (by decide)]
    show (complete (done ++ []) (before.map shown ++ [])).bind _ = _
    rw [List.append_nil, List.append_nil, complete_shown (by simpa using hfields.unset) hbefore]
    simp
    rfl
  | @cons f v rest values hv hvalues ih =>
    have hsplit : done ++ f :: rest = (done ++ [f]) ++ rest := by simp
    have hnext : Fits (done ++ [f]) (before ++ [v]) := List.rel_append hbefore (.cons hv .nil)
    have hlater : ∀ {n : Nat}, (members rest values).length < n → ∀ first : Bool,
        readMembers (done ++ f :: rest) n first ((before ++ [v]).map shown ++ rest.map fun _ => none)
          (listed first (members rest values) ++ '}' :: r) = .ok (before ++ v :: values, r) := by
      intro n hn first
      have hread := ih (hsplit ▸ hfields) hnext hn first
      rwa [← hsplit, List.append_assoc before] at hread
    by_cases hset : v = .unset
    · -- Nothing was written of this field, and it is as if it had been passed over.
      subst hset
      have hmembers : members (f :: rest) (Value.unset :: values) = members rest values := by simp [members]
      have hgiven : before.map shown ++ (f :: rest).map (fun _ => none)
          = (before ++ [Value.unset]).map shown ++ rest.map fun _ => none := by simp [shown]
      rw [hmembers] at hn ⊢
      rw [hgiven]
      exact hlater hn first
    · have hmembers : members (f :: rest) (v :: values)
          = (encodeString f.name.toList ++ ':' :: v.encode) :: members rest values := by simp [members, hset]
      have hplace : (before.map shown ++ (f :: rest).map fun _ => none)[done.length]? = some none := by
        simp [← hbefore.length_eq]
      have hgiven : (before.map shown ++ (f :: rest).map fun _ => none).set done.length (some v)
          = (before ++ [v]).map shown ++ rest.map fun _ => none := by
        have hshown : shown v = some v := if_neg hset
        simp [hbefore.length_eq, hshown]
      rw [hmembers] at hn ⊢
      obtain ⟨n, rfl⟩ := Nat.exists_eq_succ_of_ne_zero (Nat.ne_zero_of_lt hn)
      have hmember := readMember_encoded hfields hplace hv hset
        (endsNumber_listed (members rest values) (show '}'.isDigit = false ∧ _ by decide) r)
      rw [encodeString, List.cons_append, List.cons_append] at hmember ⊢
      show (next '}' first (listed first (_ :: members rest values) ++ '}' :: r)).bind _ = _
      rw [next_item (by decide) (by decide) (by decide)]
      show (readMember _ _ _).bind _ = _
      rw [hmember, hgiven]
      exact hlater (Nat.lt_of_succ_lt_succ hn) false

theorem readRecord_writeRecord {fields : List Field} {values : List Value} (hfields : Readable fields)
    (hvalues : Fits fields values) (r : List Char) :
    readRecord fields (writeRecord fields values ++ r) = .ok (values, r) := by
  have hlength : (members fields values).length < (listed true (members fields values) ++ '}' :: r).length + 1 := by
    have hmembers : ∀ s ∈ members fields values, 0 < s.length := by
      intro s hs
      obtain ⟨⟨f, v⟩, -, rfl⟩ := List.mem_map.1 hs
      simp [encodeString]
    have hle := length_listed (members fields values) hmembers true
    rw [List.length_append]
    omega
  rw [writeRecord_eq, List.append_assoc, List.cons_append]
  exact @readMembers_members [] fields [] values hfields .nil hvalues _ hlength true r

/-! ### Lists of records -/

private theorem readRecordsWithin_listed {fields : List Field} (hfields : Readable fields) {vss : List (List Value)}
    (hvss : ∀ vs ∈ vss, Fits fields vs) {n : Nat} (hn : vss.length < n) (first : Bool) (r : List Char) :
    readRecordsWithin fields n first (listed first (vss.map (writeRecord fields)) ++ ']' :: r) = .ok (vss, r) := by
  induction vss generalizing n first with
  | nil =>
    obtain ⟨n, rfl⟩ := Nat.exists_eq_succ_of_ne_zero (Nat.ne_zero_of_lt hn)
    show (next ']' first (listed first [] ++ ']' :: r)).bind _ = _
    rw [next_end (by decide)]
    rfl
  | cons vs vss ih =>
    obtain ⟨n, rfl⟩ := Nat.exists_eq_succ_of_ne_zero (Nat.ne_zero_of_lt hn)
    have hlater := ih (fun ws hws => hvss ws (List.mem_cons_of_mem _ hws)) (Nat.lt_of_succ_lt_succ hn) false
    have hrecord := readRecord_writeRecord hfields (hvss vs List.mem_cons_self)
      (listed false (vss.map (writeRecord fields)) ++ ']' :: r)
    rw [writeRecord_eq, List.cons_append] at hrecord
    show (next ']' first (listed first (writeRecord fields vs :: vss.map (writeRecord fields)) ++ ']' :: r)).bind _ = _
    rw [writeRecord_eq, List.cons_append, next_item (by decide) (by decide) (by decide)]
    show (readRecord fields _).bind _ = _
    rw [hrecord]
    show (readRecordsWithin fields n false _).bind _ = _
    rw [hlater]
    rfl

theorem readRecords_encodeArray {fields : List Field} (hfields : Readable fields) {vss : List (List Value)}
    (hvss : ∀ vs ∈ vss, Fits fields vs) (r : List Char) :
    readRecords fields (encodeArray (vss.map (writeRecord fields)) ++ r) = .ok (vss, r) := by
  have hlength : vss.length < (listed true (vss.map (writeRecord fields)) ++ ']' :: r).length + 1 := by
    have hle := length_listed (vss.map (writeRecord fields)) (by simp [writeRecord_eq]) true
    rw [List.length_map] at hle
    rw [List.length_append]
    omega
  rw [encodeArray, List.append_assoc, List.cons_append]
  exact readRecordsWithin_listed hfields hvss hlength true r

/-! ### Whole texts -/

theorem readDocument_ofList {α : Type} {read : Reader α} {s : List Char} {a : α} (h : read s = .ok (a, [])) :
    readDocument read (String.ofList s) = .ok a := by
  unfold readDocument
  rw [String.toList_ofList, h]
  rfl

theorem exists_of_readDocument {α : Type} {read : Reader α} {text : String} {a : α}
    (h : readDocument read text = .ok a) : ∃ r, read text.toList = .ok (a, r) := by
  obtain ⟨⟨b, r⟩, hread, h⟩ := bind_eq_ok h
  dsimp only at h
  split at h
  · cases h
    exact ⟨r, hread⟩
  · cases h

end Backlog.Json
