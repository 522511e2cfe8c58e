import AlertRegistry.Alert.Record
import AlertRegistry.Expression.Record
import AlertRegistry.Proofs.Mirror
import AlertRegistry.Proofs.Record
import AlertRegistry.Proofs.Repository.Steps

/-!
# Transactions in step

Two connections write in a transaction each, the second one on an image of the database of the first
(`Store.InStep`). A statement that does on the image what it does on the database (`Agrees`) gives
both the same result and keeps them in step, and so does saving a row if the statements on its kind
of records agree (`save_alike`). The locks that others hold make no difference, as the right to
write is all that a statement needs.

The second connection may be better off than the first one, for which a statement may then fail with
an error that the second one does not meet (`Alike.excused`). So what is known about a connection
that has a store to itself is known about one that has not (`save_of_image`).
-/

namespace AlertRegistry

variable {α ρ γ : Type} [Record α ρ γ]

/-- All statements on a kind of records do on the image of a database what they do on the
database. -/
def AgreesOn (α : Type) {ρ γ : Type} [Record α ρ γ] (Excused : ChangeError → Prop)
    (F : Database → Database) : Prop :=
  ∀ statement, StatementOf α statement → Agrees Excused F statement

/-- Both connections write, the second one on the image of the database of the first. -/
def Store.InStep (F : Database → Database) (s t : Store) : Prop :=
  ∃ work waits, s.transaction = .writing work waits ∧ t.transaction = .writing (F work) waits

/-- Two connections end in step and with the same result, unless the first one fails with an error
that is excused; `told` is the form in which an error is told. -/
inductive Alike {ε β : Type} (told : ChangeError → ε) (Excused : ChangeError → Prop)
    (F : Database → Database) : Except ε β × Store → Except ε β × Store → Prop
  /-- The first one fails. -/
  | excused {e : ChangeError} {s : Store} {q : Except ε β × Store} (h : Excused e) :
    Alike told Excused F (.error (told e), s) q
  /-- Both do the same. -/
  | same {x : Except ε β} {s t : Store} (h : s.InStep F t) : Alike told Excused F (x, s) (x, t)

/-- A change that is not possible, as the error of a repository. -/
def RepositoryError.ofChange (e : ChangeError) : RepositoryError :=
  .access (.store (.change e))

variable {Excused : ChangeError → Prop} {F : Database → Database} {s t : Store}

theorem Store.InStep.execute (h : s.InStep F t) {statement : Statement}
    (hst : Agrees Excused F statement) :
    Alike .change Excused F (s.execute statement) (t.execute statement) := by
  obtain ⟨work, waits, hs, ht⟩ := h
  unfold Store.execute
  rw [hs, ht]
  dsimp only
  rcases hst work with ⟨e, he, hwork⟩ | hwork
  · rw [hwork]
    exact .excused he
  · rw [hwork]
    cases statement work with
    | error e => exact .same ⟨work, waits, hs, ht⟩
    | ok e => exact .same ⟨e.database, waits, rfl, rfl⟩

/-- What is beside a row is written in step. -/
theorem saveBeside_alike (hF : AgreesOn α Excused F) (h : s.InStep F t) (row : ρ) :
    Alike .ofChange Excused F (saveBeside α row s) (saveBeside α row t) := by
  unfold saveBeside
  split
  · exact .same h
  · next write hwrite =>
    have hx := h.execute (hF _ (.writeBeside hwrite row))
    revert hx
    generalize s.execute (write row) = p, t.execute (write row) = q
    rintro (⟨he⟩ | ⟨h'⟩)
    · exact .excused he
    · next x _ _ => cases x <;> exact .same h'

/-- Rows are saved in step. -/
theorem save_alike (hF : AgreesOn α Excused F) (h : s.InStep F t) (now : Int) (row : ρ) :
    Alike .ofChange Excused F (save α now row s) (save α now row t) := by
  unfold save
  split
  · have hx := h.execute (hF _ (.insert now row))
    revert hx
    generalize s.execute (Record.insert α now row) = p, t.execute (Record.insert α now row) = q
    rintro (⟨he⟩ | ⟨h'⟩)
    · exact .excused he
    · next x _ _ =>
      cases x with
      | error e => exact .same h'
      | ok n => exact saveBeside_alike hF h' row
  · have hx := h.execute (hF _ (.replace now row))
    revert hx
    generalize s.execute (Record.replace α now row) = p, t.execute (Record.replace α now row) = q
    rintro (⟨he⟩ | ⟨h'⟩)
    · exact .excused he
    · next x _ _ =>
      rcases x with e | _ | n
      · exact .same h'
      · exact .same h'
      · exact saveBeside_alike hF h' row

/-- What is beside the rows is removed in step. -/
theorem executeIfAny_alike (hF : AgreesOn α Excused F) (h : s.InStep F t) :
    Alike .change Excused F (Repository.executeIfAny (Record.clearBeside α) s)
      (Repository.executeIfAny (Record.clearBeside α) t) := by
  unfold Repository.executeIfAny
  split
  · exact .same h
  · next statement hstatement => exact h.execute (hF _ (.clearBeside hstatement))

/-! ## Both kinds of records -/

/-- A statement agrees with itself. -/
theorem agreesOn_id (Excused : ChangeError → Prop) : AgreesOn α Excused id := by
  intro statement _ db
  refine .inr ?_
  show statement db = _
  cases statement db <;> rfl

section

variable {f : Table AlertColumn → Table AlertColumn} {g : Table SideColumn → Table SideColumn}
  {h : Table ExpressionColumn → Table ExpressionColumn}

/-- Statements on alerts are about the tables of alerts and side-records alone. -/
theorem agreesOn_alert (hf : Table.IsMirrored Excused f) (hg : Table.IsMirrored Excused g) :
    AgreesOn Alert Excused (Database.map f g h) := by
  intro statement hst
  cases hst with
  | insert now r => exact Database.insertAlert_agrees hf hg _
  | replace now r => exact Database.updateAlerts_agrees hf hg _ _
  | writeBeside hw r =>
    cases hw
    unfold AlertRow.writeSide
    cases r.side with
    | some side => exact Database.putSide_agrees hf hg _
    | none => exact Database.deleteSides_agrees hf hg _
  | clearBeside hc =>
    cases hc
    exact Database.deleteSides_agrees hf hg _
  | clear => exact Database.deleteAlerts_agrees hf hg _

/-- Statements on expressions are about their table alone. -/
theorem agreesOn_expression (hh : Table.IsMirrored Excused h) :
    AgreesOn Expression Excused (Database.map f g h) := by
  intro statement hst
  cases hst with
  | insert now r => exact Database.insertExpression_agrees hh _
  | replace now r => exact Database.updateExpressions_agrees hh _ _
  | writeBeside hw r => cases hw
  | clearBeside hc => cases hc
  | clear => exact Database.deleteExpressions_agrees hh _

end

/-! ## Saving among others -/

section

open StoredRecord (Keeps Admits)

variable [Layout γ] [StoredRecord α ρ γ] [LawfulRecord α ρ γ]

/-- A row that carries the version of the one under its key is saved in a transaction whatever locks
the others hold, unless a statement fails with an error that is excused. -/
theorem save_of_image (hF : AgreesOn α Excused F) {db : Database} {waits : Bool}
    (hs : s.transaction = .writing db waits) {rows : List ρ} (hkeeps : Keeps α (F db) rows)
    (hadmits : Admits α (F db)) (hmax : ∀ u ∈ rows, Record.version α u < Text.maxInt64)
    (now : Int) (row : ρ) :
    ∃ x s', save α now (Record.withVersion α row
        (((rowAt α (Record.key α row) rows).map (Record.version α)).getD 0)) s = (x, s')
      ∧ (x = .ok () ∨ ∃ e, Excused e ∧ x = .error (.ofChange e)) := by
  -- the second connection has the store to itself
  let alone : Store := { transaction := .writing (F db) waits }
  have halone : alone.Alone := ⟨rfl, fun _ => Transaction.noConfusion, rfl⟩
  obtain ⟨db', hsave, -, -⟩ := save_eq (s := alone) now row halone hkeeps hadmits hmax
  have halike := save_alike hF (t := alone) ⟨db, waits, hs, rfl⟩ now (Record.withVersion α row
    (((rowAt α (Record.key α row) rows).map (Record.version α)).getD 0))
  rw [hsave] at halike
  revert halike
  generalize save α now _ s = p
  rintro (⟨he⟩ | _)
  · exact ⟨_, _, rfl, .inr ⟨_, he, rfl⟩⟩
  · exact ⟨_, _, rfl, .inl rfl⟩

end

end AlertRegistry
