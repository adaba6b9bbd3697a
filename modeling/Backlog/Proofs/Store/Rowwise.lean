import Backlog.Proofs.Store.Keeping

/-!
# One row of a store

What a store holds under an identifier, with whatever it holds under the others.

Key facts: a row stays as it is unless a write names it (`Backend.Ordered.agreesAt_perform`), an update of one row
leaves the others as they are (`Backend.agreesAt_updateStatus`), and a row that does not admit an update stays as it is,
while whoever asks for it is told so (`Backend.Keeps.refused`).
-/

namespace Backlog.Store

namespace Backend

variable {b b' b'' : Backend} {id : Int} {t : Task}

/-- Two stores are of the same kind and hold the same under an identifier. -/
def AgreesAt (id : Int) : Backend → Backend → Prop
  | memory m, memory m' => m'.find? id = m.find? id
  | table tab, table tab' => tab'.find? id = tab.find? id
  | _, _ => False

theorem AgreesAt.refl (id : Int) (b : Backend) : AgreesAt id b b := by
  cases b <;> exact rfl

theorem AgreesAt.cases (h : AgreesAt id b b') :
    (∃ m m', b = memory m ∧ b' = memory m' ∧ m'.find? id = m.find? id) ∨
      ∃ tab tab', b = table tab ∧ b' = table tab' ∧ tab'.find? id = tab.find? id := by
  cases b with
  | memory m =>
    cases b' with
    | memory m' => exact .inl ⟨m, m', rfl, rfl, h⟩
    | table tab' => exact False.elim h
  | table tab =>
    cases b' with
    | memory m' => exact False.elim h
    | table tab' => exact .inr ⟨tab, tab', rfl, rfl, h⟩

theorem AgreesAt.symm (h : AgreesAt id b b') : AgreesAt id b' b := by
  rcases h.cases with ⟨m, m', rfl, rfl, hsame⟩ | ⟨tab, tab', rfl, rfl, hsame⟩ <;> exact hsame.symm

theorem AgreesAt.trans (h : AgreesAt id b b') (h' : AgreesAt id b' b'') : AgreesAt id b b'' := by
  rcases h'.cases with ⟨m', m'', rfl, rfl, hsame⟩ | ⟨tab', tab'', rfl, rfl, hsame⟩
  · cases b with
    | memory m => exact Eq.trans hsame h
    | table tab => exact False.elim h
  · cases b with
    | memory m => exact False.elim h
    | table tab => exact Eq.trans hsame h

theorem AgreesAt.timeOf_eq (h : AgreesAt id b b') : b'.timeOf = b.timeOf := by
  rcases h.cases with ⟨m, m', rfl, rfl, -⟩ | ⟨tab, tab', rfl, rfl, -⟩ <;> rfl

theorem Keeps.of_agreesAt (h : b.Keeps t) (agrees : AgreesAt t.id b b') : b'.Keeps t := by
  rcases agrees.cases with ⟨m, m', rfl, rfl, hsame⟩ | ⟨tab, tab', rfl, rfl, hsame⟩
  · exact Eq.trans hsame h
  · obtain ⟨row, hrow, hshows⟩ := h
    exact ⟨row, Eq.trans hsame hrow, hshows⟩

/-- Something is held under an identifier, whether or not it can be read. -/
def Holds (id : Int) : Backend → Prop
  | memory m => ∃ t, m.find? id = some t
  | table tab => ∃ row, tab.find? id = some row

theorem Holds.of_agreesAt (h : b.Holds id) (agrees : AgreesAt id b b') : b'.Holds id := by
  rcases agrees.cases with ⟨m, m', rfl, rfl, hsame⟩ | ⟨tab, tab', rfl, rfl, hsame⟩
  all_goals
    obtain ⟨held, hheld⟩ := h
    exact ⟨held, hsame.trans hheld⟩

/-- What is held under an identifier stays as it is unless a write names it. -/
theorem Ordered.agreesAt_perform (hb : b.Ordered) (holds : b.Holds id) (wall : Timestamp) {r : Request}
    (spares : r.isWrite = true → r.id? ≠ some id) : AgreesAt id b (b.perform wall r).2 := by
  cases hr : r.isWrite with
  | false =>
    rw [b.perform_of_not_isWrite hr wall wall]
    exact .refl id b
  | true =>
    cases b with
    | memory m =>
      obtain ⟨t, ht⟩ := holds
      exact (Memory.Ordered.find?_perform hb wall (spares hr) ht).trans ht.symm
    | table tab =>
      obtain ⟨row, hrow⟩ := holds
      exact (Table.Ordered.find?_perform hb wall (spares hr) hrow).trans hrow.symm

theorem timeOf_perform (b : Backend) (wall : Timestamp) (r : Request) : (b.perform wall r).2.timeOf = b.timeOf := by
  cases b <;> rfl

theorem agreesAt_updateStatus (b : Backend) (wall : Timestamp) (u : StatusUpdate) {other : Int} (hne : id ≠ other) :
    AgreesAt id b (b.perform wall (.updateStatus other u)).2 := by
  cases b with
  | memory m =>
    show (m.updateStatus other u).2.find? id = m.find? id
    unfold Memory.updateStatus
    split
    · rfl
    · split
      · rfl
      · rw [m.find?_modify other id u.applyTo_id, if_neg hne]
  | table tab =>
    show (tab.updateStatus other u).2.find? id = tab.find? id
    unfold Table.updateStatus
    dsimp only
    split
    · have hp (r : Row) (hr : (decide (r.id = other) && r.admits u) = true) : r.id ≠ id := by
        simp only [Bool.and_eq_true, decide_eq_true_eq] at hr
        omega
      exact tab.find?_modifyWhere_of_ne hp fun _ => rfl
    · rfl

theorem Keeps.getFresh (h : b.Keeps t) (wall : Timestamp) :
    b.perform wall (.getFresh t.id) = (.ok (some (b.shows t)), b) := by
  have hget := h.get wall
  cases b <;> exact hget

/-- A task refuses an update, and nothing is changed. -/
theorem Keeps.refused (h : b.Keeps t) (hb : b.Ordered) (wall : Timestamp) {u : StatusUpdate} {reason : ConflictReason}
    (hu : u.refusal? t = some reason) :
    ∃ reason', b.perform wall (.updateStatus t.id u) = (.error (.conflict t.id reason'), b) := by
  cases b with
  | memory m =>
    have hfind : m.find? t.id = some t := h
    refine ⟨reason, ?_⟩
    simp only [Backend.perform, Memory.perform, Memory.updateStatus, hfind, hu]
    rfl
  | table tab =>
    obtain ⟨row, hrow, hshows⟩ := h
    have hmiss : (tab.rows.any fun r => decide (r.id = t.id) && r.admits u) = false := by
      rw [Bool.eq_false_iff]
      intro hany
      obtain ⟨r, hr, hhit⟩ := List.any_eq_true.1 hany
      simp only [Bool.and_eq_true, decide_eq_true_eq] at hhit
      -- only one row has the identifier
      have hsame := Table.Ordered.find?_of_mem hb hr
      rw [hhit.1, hrow] at hsame
      obtain rfl := Option.some.inj hsame
      have hnone := (hshows.admits_iff u).1 hhit.2
      rw [hu] at hnone
      cases hnone
    have hget : tab.get t.id = .ok (some (table tab |>.shows t)) :=
      congrArg Prod.fst (Keeps.get (b := table tab) ⟨row, hrow, hshows⟩ wall)
    have hmissed : ∃ reason', tab.missedUpdate t.id u = .error (.conflict t.id reason') := by
      unfold Table.missedUpdate
      rw [hget, Row.ok_bind]
      dsimp only
      cases u.expectedVersion with
      | none => exact ⟨_, rfl⟩
      | some expected =>
        dsimp only
        split <;> exact ⟨_, rfl⟩
    obtain ⟨reason', hreason⟩ := hmissed
    refine ⟨reason', ?_⟩
    simp only [Backend.perform, Table.perform, Table.updateStatus]
    rw [if_neg (by rw [hmiss]; exact Bool.false_ne_true), hreason]

end Backend

end Backlog.Store
