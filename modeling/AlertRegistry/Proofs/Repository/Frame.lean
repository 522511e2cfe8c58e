import AlertRegistry.Proofs.Database
import AlertRegistry.Proofs.Reading
import AlertRegistry.Proofs.Repository.Rollback

/-!
# What operations keep

A condition on the database that all statements on a kind of records keep (`Preserves`) is kept by
the operations on that kind, whether they succeed or not (`upsert_holds`, `clear_holds`). So
operations on alerts leave the expressions alone, and the other way round.
-/

namespace AlertRegistry

/-- All statements on a kind of records keep the condition. -/
def Preserves (α : Type) {ρ γ : Type} [Record α ρ γ] (P : Database → Prop) : Prop :=
  ∀ statement, StatementOf α statement → ∀ db e, P db → statement db = .ok e → P e.database

namespace Store

/-- The condition holds of what is committed and of what the connection sees. -/
structure Holds (P : Database → Prop) (s : Store) : Prop where
  /-- What is committed. -/
  committed : P s.committed
  /-- What the connection sees. -/
  view : P s.view

variable {P : Database → Prop} {s : Store}

namespace Holds

theorem of_sameTables (h : s.Holds P) {s' : Store} (hs : s.SameTables s') : s'.Holds P :=
  ⟨hs.committed ▸ h.committed, hs.view ▸ h.view⟩

theorem read {β : Type} (h : s.Holds P) (f : Database → Except StoreError β) :
    (s.read f).2.Holds P :=
  ⟨read_committed s f ▸ h.committed, read_view s f ▸ h.view⟩

theorem execute (h : s.Holds P) {statement : Statement}
    (hst : ∀ db e, P db → statement db = .ok e → P e.database) :
    (s.execute statement).2.Holds P := by
  have hview := h.view
  unfold Store.execute
  unfold Store.view at hview
  cases ht : s.transaction with
  | none =>
    dsimp only
    split
    · exact h
    · split
      · exact h
      · next e he =>
        split
        · exact h
        · have hP := hst _ e h.committed he
          exact ⟨hP, by simpa only [Store.view, ht] using hP⟩
  | deferred reads =>
    dsimp only
    split
    · exact h
    · split
      · exact ⟨h.committed, h.committed⟩
      · next e he => exact ⟨h.committed, hst _ e h.committed he⟩
  | writing work waits =>
    rw [ht] at hview
    dsimp only
    split
    · exact h
    · next e he => exact ⟨h.committed, hst _ e hview he⟩

theorem begin (h : s.Holds P) : s.begin.2.Holds P := by
  unfold Store.begin
  split
  · exact h
  · split
    · exact ⟨h.committed, h.committed⟩
    · exact ⟨h.committed, h.committed⟩
    · exact h

theorem commitOrAbort (h : s.Holds P) : s.commitOrAbort.2.Holds P := by
  have hview := h.view
  unfold Store.commitOrAbort commit
  unfold Store.view at hview
  cases ht : s.transaction with
  | none => exact ⟨h.committed, h.committed⟩
  | deferred reads => exact ⟨h.committed, h.committed⟩
  | writing work waits =>
    rw [ht] at hview
    dsimp only
    cases s.others.read with
    | true => exact ⟨h.committed, h.committed⟩
    | false => exact ⟨hview, hview⟩

end Holds

end Store

/-! ## Operations -/

section

variable {α ρ γ : Type} [Record α ρ γ] {P : Database → Prop} {s : Store}

theorem holds_keptBy (hP : Preserves α P) : KeptBy α (·.Holds P) :=
  fun _ statement hst h => h.execute (hP statement hst)

namespace Repository

/-- What the statements of a kind keep is kept by an upsert. -/
theorem upsert_holds [Layout γ] (hP : Preserves α P) (h : s.Holds P) (r : Repository α) (now : Int)
    (a : α) : (r.upsert now a s).store.Holds P := by
  cases hresult : (r.upsert now a s).result with
  | error e => exact h.of_sameTables (upsert_error_sameTables r now a s hresult)
  | ok o =>
    obtain ⟨_, _, row, s₁, version, s₂, _, hb, hr, hsave, _⟩ := upsert_ok_cases hresult
    obtain ⟨s₃, hs₃, hcommit⟩ := saveAndCommit_ok_cases hsave
    have h₁ : s₁.Holds P := by
      have := h.begin
      rwa [hb] at this
    have h₂ : s₂.Holds P := by
      have := h₁.read (storedVersion α (Record.key α row))
      rwa [hr] at this
    have h₃ : s₃.Holds P := by
      have := save_kept (holds_keptBy hP) h₂ now (Record.withVersion α row (version.getD 0))
      rwa [hs₃] at this
    have h₄ := h₃.commitOrAbort
    rwa [hcommit] at h₄

/-- And so it is by the removal of all records. -/
theorem clear_holds (hP : Preserves α P) (h : s.Holds P) (r : Repository α) :
    (r.clear s).store.Holds P := by
  cases hresult : (r.clear s).result with
  | error e => exact h.of_sameTables (clear_error_sameTables r s hresult)
  | ok n =>
    obtain ⟨_, _, s₁, _, s₂, s₃, hb, hs₂, hs₃, hcommit⟩ := clear_ok_cases hresult
    replace hs₂ : _ = s₂ := congrArg Prod.snd hs₂
    replace hs₃ : _ = s₃ := congrArg Prod.snd hs₃
    have h₁ : s₁.Holds P := by
      have := h.begin
      rwa [hb] at this
    have h₂ : s₂.Holds P := hs₂ ▸ executeIfAny_kept (holds_keptBy hP) h₁
    have h₃ : s₃.Holds P := hs₃ ▸ holds_keptBy hP _ _ .clear h₂
    have h₄ := h₃.commitOrAbort
    rwa [hcommit] at h₄

end Repository

end

/-! ## Alerts and expressions -/

section

variable {db : Database} {e : Effect}

/-- Statements on alerts leave the expressions. -/
theorem alert_preserves (T : Table ExpressionColumn) :
    Preserves Alert fun db => db.expressions = T := by
  -- whatever was changed before the check, it was not the expressions
  have hfinish : ∀ {db db' : Database} {count : Nat} {e : Effect}, db.expressions = T →
      db'.finish count = .ok e → db'.expressions = db.expressions → e.database.expressions = T :=
    fun h he hsame => (congrArg Database.expressions (Database.database_of_finish he)).trans
      (hsame.trans h)
  rintro statement hst db e h he
  cases hst with
  | insert now r =>
    obtain ⟨U, _, he⟩ := bind_eq_ok he
    exact hfinish h he rfl
  | replace now r =>
    obtain ⟨U, _, he⟩ := bind_eq_ok he
    exact hfinish h he rfl
  | writeBeside hw r =>
    cases hw
    unfold AlertRow.writeSide at he
    cases hs : r.side with
    | some side =>
      rw [hs] at he
      obtain ⟨U, _, he⟩ := bind_eq_ok he
      exact hfinish h he rfl
    | none =>
      rw [hs] at he
      obtain ⟨U, _, he⟩ := bind_eq_ok he
      exact hfinish h he rfl
  | clearBeside hc =>
    cases hc
    obtain ⟨U, _, he⟩ := bind_eq_ok he
    exact hfinish h he rfl
  | clear =>
    obtain ⟨U, _, he⟩ := bind_eq_ok he
    obtain ⟨V, _, he⟩ := bind_eq_ok he
    exact hfinish h he rfl

/-- Statements on expressions leave the alerts and what is beside them. -/
theorem expression_preserves (A : Table AlertColumn) (S : Table SideColumn) :
    Preserves Expression fun db => db.alerts = A ∧ db.sides = S := by
  rintro statement hst db e h he
  cases hst with
  | insert now r =>
    obtain ⟨U, _, he⟩ := bind_eq_ok he
    cases he
    exact h
  | replace now r =>
    obtain ⟨U, _, he⟩ := bind_eq_ok he
    cases he
    exact h
  | writeBeside hw r => cases hw
  | clearBeside hc => cases hc
  | clear =>
    obtain ⟨U, _, he⟩ := bind_eq_ok he
    cases he
    exact h

end

end AlertRegistry
