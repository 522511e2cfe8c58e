import AlertRegistry.Database.Basic

/-!
# Statements on the image of a database

A map of tables that keeps the tuples is followed by all changes of a table if it is followed by
what a table permits (`Table.IsMirrored`): a change of the image has the image of the result
(`Mirrors`). That is so for the identity, and also for the map that takes all rejections away
(`Table.tolerant`), apart from the changes that are rejected.

Statements on alerts follow maps of the tables of alerts and of side-records, whatever becomes of
the expressions, and statements on expressions follow maps of their table, whatever becomes of the
others.
-/

namespace AlertRegistry

/-- The second result is the image of the first one, unless this is an error that is excused. -/
def Mirrors {ε β δ : Type} (Excused : ε → Prop) (f : β → δ) (x : Except ε β) (y : Except ε δ) :
    Prop :=
  (∃ e, Excused e ∧ x = .error e) ∨ y = x.map f

namespace Mirrors

variable {ε β δ β' δ' : Type} {Excused : ε → Prop} {f : β → δ} {g : β' → δ'}

theorem refl (x : Except ε β) : Mirrors Excused id x x := by
  cases x <;> exact .inr rfl

theorem ok (b : β) : Mirrors Excused f (.ok b) (.ok (f b)) :=
  .inr rfl

theorem error (e : ε) : Mirrors Excused f (.error e) (.error e) :=
  .inr rfl

/-- Computations on mirrored results are mirrored. -/
theorem bind {x : Except ε β} {y : Except ε δ} (h : Mirrors Excused f x y)
    {k : β → Except ε β'} {l : δ → Except ε δ'} (hk : ∀ b, Mirrors Excused g (k b) (l (f b))) :
    Mirrors Excused g (x >>= k) (y >>= l) := by
  rcases h with ⟨e, he, rfl⟩ | rfl
  · exact .inl ⟨e, he, rfl⟩
  · cases x with
    | error e => exact .inr rfl
    | ok b => exact hk b

end Mirrors

/-! ## Tables -/

namespace Table

variable {γ : Type}

/-- The table without its rejections. -/
def tolerant (T : Table γ) : Table γ :=
  { tuples := T.tuples }

/-- A map of tables that keeps the tuples, so that only what is permitted can differ. -/
structure IsMirrored (Excused : ChangeError → Prop) (f : Table γ → Table γ) : Prop where
  /-- The tuples are kept. -/
  tuples (T : Table γ) : (f T).tuples = T.tuples
  /-- What is permitted does not depend on the tuples. -/
  withTuples (T : Table γ) (ts : List (Tuple γ)) :
    f { T with tuples := ts } = { f T with tuples := ts }
  /-- The image permits a change if the table does, and otherwise the refusal is excused or kept. -/
  permit (T : Table γ) (change : Change) :
    Mirrors Excused id (T.permit change) ((f T).permit change)

theorem isMirrored_id (Excused : ChangeError → Prop) :
    IsMirrored Excused (id : Table γ → Table γ) where
  tuples _ := rfl
  withTuples _ _ := rfl
  permit _ _ := .refl _

/-- A change was rejected with a message. -/
def IsRejection (e : ChangeError) : Prop :=
  ∃ message, e = .rejected message

theorem isMirrored_tolerant : IsMirrored IsRejection (tolerant : Table γ → Table γ) where
  tuples _ := rfl
  withTuples _ _ := rfl
  permit T change := by
    unfold Table.permit
    cases T.rejection change with
    | none => exact .refl _
    | some message => exact .inl ⟨_, ⟨message, rfl⟩, rfl⟩

namespace IsMirrored

variable [Layout γ] {Excused : ChangeError → Prop} {f : Table γ → Table γ}

theorem insert (h : IsMirrored Excused f) (T : Table γ) (t : Tuple γ) :
    Mirrors Excused f (T.insert t) ((f T).insert t) := by
  unfold Table.insert
  refine (h.permit T .insert).bind fun _ => (Mirrors.refl (accept t)).bind fun t => ?_
  dsimp only [id]
  rw [h.tuples, ← h.withTuples]
  split
  · exact .error _
  · exact .ok _

theorem updateFrom (h : IsMirrored Excused f) (T : Table γ) (select : Tuple γ → Bool)
    (g : Tuple γ → Tuple γ) (before rest : List (Tuple γ)) :
    Mirrors Excused id (T.updateFrom select g before rest)
      ((f T).updateFrom select g before rest) := by
  induction rest generalizing before with
  | nil => exact .ok _
  | cons t rest ih =>
    unfold Table.updateFrom
    split
    · refine (h.permit T .update).bind fun _ => (Mirrors.refl (accept (g t))).bind fun t => ?_
      dsimp only [id]
      split
      · exact .error _
      · exact ih _
    · exact ih _

theorem update (h : IsMirrored Excused f) (T : Table γ) (select : Tuple γ → Bool)
    (g : Tuple γ → Tuple γ) : Mirrors Excused f (T.update select g) ((f T).update select g) := by
  unfold Table.update
  rw [h.tuples]
  refine (h.updateFrom T select g [] T.tuples).bind fun ts => ?_
  rw [id, ← h.withTuples]
  exact .ok _

theorem put (h : IsMirrored Excused f) (T : Table γ) (t : Tuple γ) :
    Mirrors Excused f (T.put t) ((f T).put t) := by
  unfold Table.put
  refine (h.permit T .insert).bind fun _ => (Mirrors.refl (accept t)).bind fun t => ?_
  dsimp only [id]
  rw [h.tuples, ← h.withTuples]
  split
  · exact h.update T _ _
  · exact .ok _

omit [Layout γ] in
theorem delete (h : IsMirrored Excused f) (T : Table γ) (select : Tuple γ → Bool) :
    Mirrors Excused f (T.delete select) ((f T).delete select) := by
  have hdone : Mirrors Excused f
      (.ok { T with tuples := T.tuples.filter fun t => !select t } : Except ChangeError (Table γ))
      (.ok { f T with tuples := T.tuples.filter fun t => !select t }) := by
    rw [← h.withTuples]
    exact .ok _
  unfold Table.delete
  rw [h.tuples]
  split
  · exact (h.permit T .delete).bind fun _ => hdone
  · exact hdone

omit [Layout γ] in
theorem count (h : IsMirrored Excused f) (T : Table γ) (select : Tuple γ → Bool) :
    (f T).count select = T.count select := by
  unfold Table.count
  rw [h.tuples]

end IsMirrored

end Table

/-! ## Statements -/

/-- The effect on another database. -/
def Effect.map (F : Database → Database) (e : Effect) : Effect :=
  { e with database := F e.database }

/-- The statement does on the image of a database what it does on the database, unless there it
fails with an error that is excused. -/
def Agrees (Excused : ChangeError → Prop) (F : Database → Database) (statement : Statement) :
    Prop :=
  ∀ db, Mirrors Excused (Effect.map F) (statement db) (statement (F db))

namespace Database

/-- The database with its tables mapped. -/
def map (f : Table AlertColumn → Table AlertColumn) (g : Table SideColumn → Table SideColumn)
    (h : Table ExpressionColumn → Table ExpressionColumn) (db : Database) : Database where
  alerts := f db.alerts
  sides := g db.sides
  expressions := h db.expressions

variable {Excused : ChangeError → Prop} {f : Table AlertColumn → Table AlertColumn}
  {g : Table SideColumn → Table SideColumn} {h : Table ExpressionColumn → Table ExpressionColumn}

section

variable (hf : Table.IsMirrored Excused f) (hg : Table.IsMirrored Excused g)
include hf hg

/-- References are about tuples alone. -/
theorem finish_mirrored (db : Database) (count : Nat) :
    Mirrors Excused (Effect.map (map f g h)) (db.finish count) ((db.map f g h).finish count) := by
  have href : (db.map f g h).isReferenced = db.isReferenced := by
    unfold isReferenced map
    rw [hf.tuples, hg.tuples]
  unfold finish
  rw [href]
  split
  · exact .ok _
  · exact .error _

theorem insertAlert_agrees (t : Tuple AlertColumn) :
    Agrees Excused (map f g h) (insertAlert t) := fun db =>
  (hf.insert db.alerts t).bind fun _ => finish_mirrored hf hg _ _

theorem updateAlerts_agrees (select : Tuple AlertColumn → Bool)
    (u : Tuple AlertColumn → Tuple AlertColumn) :
    Agrees Excused (map f g h) (updateAlerts select u) := fun db =>
  (hf.update db.alerts select u).bind fun _ => by
    rw [show (map f g h db).alerts.count select = db.alerts.count select from hf.count _ _]
    exact finish_mirrored hf hg _ _

theorem deleteAlerts_agrees (select : Tuple AlertColumn → Bool) :
    Agrees Excused (map f g h) (deleteAlerts select) := fun db =>
  (hf.delete db.alerts select).bind fun _ => by
    rw [show (map f g h db).alerts.count select = db.alerts.count select from hf.count _ _,
      show (map f g h db).alerts.tuples = db.alerts.tuples from hf.tuples _]
    exact (hg.delete db.sides _).bind fun _ => finish_mirrored hf hg _ _

theorem putSide_agrees (t : Tuple SideColumn) : Agrees Excused (map f g h) (putSide t) := fun db =>
  (hg.put db.sides t).bind fun _ => finish_mirrored hf hg _ _

theorem deleteSides_agrees (select : Tuple SideColumn → Bool) :
    Agrees Excused (map f g h) (deleteSides select) := fun db =>
  (hg.delete db.sides select).bind fun _ => by
    rw [show (map f g h db).sides.count select = db.sides.count select from hg.count _ _]
    exact finish_mirrored hf hg _ _

end

section

variable (hh : Table.IsMirrored Excused h)
include hh

theorem insertExpression_agrees (t : Tuple ExpressionColumn) :
    Agrees Excused (map f g h) (insertExpression t) := fun db =>
  (hh.insert db.expressions t).bind fun _ => .ok _

theorem updateExpressions_agrees (select : Tuple ExpressionColumn → Bool)
    (u : Tuple ExpressionColumn → Tuple ExpressionColumn) :
    Agrees Excused (map f g h) (updateExpressions select u) := fun db =>
  (hh.update db.expressions select u).bind fun _ => by
    rw [show (map f g h db).expressions.count select = db.expressions.count select from
      hh.count _ _]
    exact .ok _

theorem deleteExpressions_agrees (select : Tuple ExpressionColumn → Bool) :
    Agrees Excused (map f g h) (deleteExpressions select) := fun db =>
  (hh.delete db.expressions select).bind fun _ => by
    rw [show (map f g h db).expressions.count select = db.expressions.count select from
      hh.count _ _]
    exact .ok _

end

end Database

end AlertRegistry
