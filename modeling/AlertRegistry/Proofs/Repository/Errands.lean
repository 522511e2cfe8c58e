import AlertRegistry.Proofs.Repository.Frame
import AlertRegistry.Proofs.Repository.Guard
import AlertRegistry.Proofs.Repository.Lifecycle
import AlertRegistry.Proofs.Repository.Stamping

/-!
# Runs on one database

In a run repositories of both kinds are called one after the other on one database, each in any
state and while others hold any locks (`Errand`). What an errand leaves in the table of a kind is
one of three things (`Errand.leaves`): an upsert that succeeds on a record of the kind writes it at
its time, a removal of all records may leave nothing, and all else leaves the tuples as they were.

`writings` lists what is written in a run, and `readings` the times that its upserts read off the
clock. While the tables are in order and no transaction is open (`AtEase`) they stay so, and what
was written at a time is stamped with that time or a later one for as long as the clock does not go
back (`stampedSince_run`).
-/

namespace AlertRegistry

open StoredRecord (Admits Keeps)
open Table (Aged IsUnder Orderly StampedSince StampsBy Written)

/-! ## Errands -/

namespace Entity

instance : (e : Entity) → Versioned e.Column
  | alert => inferInstanceAs (Versioned AlertColumn)
  | expression => inferInstanceAs (Versioned ExpressionColumn)

instance : (e : Entity) → Stamped e.Column
  | alert => inferInstanceAs (Stamped AlertColumn)
  | expression => inferInstanceAs (Stamped ExpressionColumn)

instance : (e : Entity) → StoredRecord e.Content e.Row e.Column
  | alert => inferInstanceAs (StoredRecord Alert AlertRow AlertColumn)
  | expression => inferInstanceAs (StoredRecord Expression ExpressionRow ExpressionColumn)

instance : (e : Entity) → LawfulRecord e.Content e.Row e.Column
  | alert => inferInstanceAs (LawfulRecord Alert AlertRow AlertColumn)
  | expression => inferInstanceAs (LawfulRecord Expression ExpressionRow ExpressionColumn)

instance : (e : Entity) → StampedRecord e.Content e.Row e.Column
  | alert => inferInstanceAs (StampedRecord Alert AlertRow AlertColumn)
  | expression => inferInstanceAs (StampedRecord Expression ExpressionRow ExpressionColumn)

/-- What is kept of a kind is the same in both databases. -/
def SamePart (db db' : Database) : Entity → Prop
  | alert => db'.alerts = db.alerts ∧ db'.sides = db.sides
  | expression => db'.expressions = db.expressions

end Entity

/-- A call of a repository of either kind. -/
structure Errand where
  /-- The kind of its records. -/
  kind : Entity
  /-- The repository, in whichever state. -/
  repository : Repository kind.Content
  /-- The other connections to the store, whose locks may stand in the way. -/
  peers : List Store
  /-- The call. -/
  call : Call kind.Content

/-- A record that was written. -/
structure Writing where
  /-- The kind of the record. -/
  kind : Entity
  /-- The key of its row. -/
  key : String
  /-- The time. -/
  time : Int
deriving DecidableEq, Repr

namespace Errand

/-- The store as the errand finds it. -/
def meet (x : Errand) (s : Store) : Store :=
  { s with others := Store.locks x.peers }

/-- The reply to the call. -/
def reply (x : Errand) (s : Store) : Reply (Answer x.kind.Content) :=
  x.call.reply x.repository (x.meet s)

/-- The time that the call reads off the clock, if it writes a record. -/
def reading? (x : Errand) : Option Int :=
  match x.call with
  | .upsert now _ => some now
  | _ => none

/-- What is written, if it succeeds. -/
def writing? (x : Errand) (s : Store) : Option Writing :=
  match x.call, (x.reply s).result with
  | .upsert now a, .ok _ =>
    some { kind := x.kind, key := toString (Record.id a), time := now }
  | _, _ => none

/-- The call is to remove all records. -/
def IsClear (x : Errand) : Prop :=
  x.call = .clear

end Errand

/-- The times that are read off the clock in a run. -/
def readings (xs : List Errand) : List Int :=
  xs.filterMap Errand.reading?

namespace Store

/-- The store after an errand. -/
def after (s : Store) (x : Errand) : Store :=
  (x.reply s).store

/-- The store after a run. -/
def run (s : Store) (xs : List Errand) : Store :=
  xs.foldl after s

/-- What is written in a run. -/
def writings (s : Store) : List Errand → List Writing
  | [] => []
  | x :: xs => (x.writing? s).toList ++ (s.after x).writings xs

theorem run_append (s : Store) (xs ys : List Errand) : s.run (xs ++ ys) = (s.run xs).run ys :=
  List.foldl_append

theorem writings_append (s : Store) (xs ys : List Errand) :
    s.writings (xs ++ ys) = s.writings xs ++ (s.run xs).writings ys := by
  induction xs generalizing s with
  | nil => rfl
  | cons x xs ih =>
    show (x.writing? s).toList ++ (s.after x).writings (xs ++ ys) = _
    rw [ih, ← List.append_assoc]
    rfl

end Store

theorem readings_append (xs ys : List Errand) :
    readings (xs ++ ys) = readings xs ++ readings ys :=
  List.filterMap_append

/-! ## One errand -/

namespace Errand

variable {x : Errand} {s : Store}

/-- What is written was read off the clock. -/
theorem reading?_of_writing? {w : Writing} (h : x.writing? s = some w) :
    w.kind = x.kind ∧ x.reading? = some w.time := by
  unfold writing? at h
  unfold reading?
  split at h
  · next now a _ hcall _ =>
    cases h
    rw [hcall]
    exact ⟨rfl, rfl⟩
  · cases h

section

variable {α ρ γ : Type} [Record α ρ γ] [Layout γ] {r : Repository α}

omit [Layout γ] in
theorem store_whenOpen {β : Type} {operation : Operation} {carryOn : Unit → Reply β}
    (h : (carryOn ()).store = s) : (r.whenOpen operation s carryOn).store = s := by
  unfold Repository.whenOpen
  split
  · exact h
  · rfl

omit [Layout γ] [Record α ρ γ] in
theorem store_whenSound {β : Type} {events : List Event} {carryOn : Unit → Reply β}
    (h : (carryOn ()).store = s) : (Repository.whenSound s events carryOn).store = s := by
  unfold Repository.whenSound
  split
  · rfl
  · exact h

/-- A call is an upsert, or a removal, or leaves the store as it is. -/
theorem call_cases (hs : s.transaction = .none) (r : Repository α) (c : Call α) :
    (∃ now a, c = .upsert now a) ∨ c = .clear
      ∨ (∀ now a, c ≠ .upsert now a) ∧ (c.reply r s).store = s := by
  cases c with
  | upsert now a => exact .inl ⟨now, a, rfl⟩
  | clear => exact .inr (.inl rfl)
  | get id =>
    have hread := Store.read_store hs (findRow α (toString id))
    refine .inr (.inr ⟨nofun, ?_⟩)
    show (r.get id s).store = s
    refine store_whenOpen (store_whenSound ?_)
    split
    all_goals
      next heq =>
        rw [heq] at hread
        exact hread
  | count =>
    have hread := Store.read_store hs fun db => .ok (countRows α db)
    refine .inr (.inr ⟨nofun, ?_⟩)
    show (r.count s).store = s
    refine store_whenOpen (store_whenSound ?_)
    split
    all_goals
      next heq =>
        rw [heq] at hread
        exact hread
  | query q =>
    have hread := Store.read_store hs (fetchPage α r.strategy q.query)
    refine .inr (.inr ⟨nofun, ?_⟩)
    show (r.query q s).store = s
    refine store_whenOpen ?_
    split
    · rfl
    · refine store_whenSound ?_
      split
      all_goals
        next heq =>
          rw [heq] at hread
          exact hread

/-- A call leaves no transaction behind. -/
theorem transaction_of_reply (hs : s.transaction = .none) (r : Repository α) (c : Call α) :
    (c.reply r s).store.transaction = .none := by
  rcases call_cases hs r c with ⟨now, a, rfl⟩ | rfl | ⟨_, hsame⟩
  · exact Repository.upsert_transaction hs r now a
  · exact Repository.clear_transaction hs r
  · rw [hsame]
    exact hs

/-- What the statements of a kind keep is kept by every call. -/
theorem preserved_by_reply {P : Database → Prop} (hP : Preserves α P) (hs : s.transaction = .none)
    (h : P s.committed) (r : Repository α) (c : Call α) : P (c.reply r s).store.committed := by
  have hholds : s.Holds P := ⟨h, (Store.view_of_idle hs).symm ▸ h⟩
  rcases call_cases hs r c with ⟨now, a, rfl⟩ | rfl | ⟨_, hsame⟩
  · exact (Repository.upsert_holds hP hholds r now a).committed
  · exact (Repository.clear_holds hP hholds r).committed
  · rw [hsame]
    exact h

end

theorem transaction_after (hs : s.transaction = .none) (x : Errand) :
    (s.after x).transaction = .none :=
  transaction_of_reply (s := x.meet s) hs x.repository x.call

/-- An errand leaves alone what is not of its kind. -/
theorem samePart_after (hs : s.transaction = .none) {k : Entity} (hk : x.kind ≠ k) :
    k.SamePart s.committed (s.after x).committed := by
  obtain ⟨kind, r, peers, c⟩ := x
  have hmeet : ({ s with others := Store.locks peers } : Store).transaction = .none := hs
  cases kind with
  | alert =>
    cases k with
    | alert => exact absurd rfl hk
    | expression =>
      exact preserved_by_reply (alert_preserves s.committed.expressions) hmeet rfl r c
  | expression =>
    cases k with
    | alert =>
      exact preserved_by_reply (expression_preserves s.committed.alerts s.committed.sides) hmeet
        ⟨rfl, rfl⟩ r c
    | expression => exact absurd rfl hk

end Errand

theorem Entity.SamePart.tuples_eq {k : Entity} {s s' : Store}
    (h : k.SamePart s.committed s'.committed) : s'.tuples k.Content = s.tuples k.Content := by
  cases k with
  | alert => exact congrArg Table.tuples h.1
  | expression => exact congrArg Table.tuples h

/-- What an errand leaves in the table of a kind. -/
inductive Errand.Leaves (k : Entity) (s : Store) (x : Errand) : Prop
  /-- A record of the kind is written. -/
  | written (w : Writing) (hw : x.writing? s = some w) (hk : w.kind = k)
    (h : Written w.time w.key (s.tuples k.Content) ((s.after x).tuples k.Content))
  /-- Nothing of the kind is written. -/
  | same (hw : ∀ w, x.writing? s = some w → w.kind ≠ k)
    (h : (s.after x).tuples k.Content = s.tuples k.Content)
  /-- All records are removed. -/
  | cleared (hclear : x.IsClear) (h : (s.after x).tuples k.Content = [])

/-- The store is left at rest, with the table of a kind in order. -/
structure AtEase (k : Entity) (s : Store) : Prop where
  /-- There is no transaction. -/
  transaction : s.transaction = .none
  /-- The table is in order. -/
  orderly : Orderly (s.tuples k.Content)

/-- Tables are left alone if what is committed is. -/
theorem Store.tuples_congr {s s' : Store} (h : s'.committed = s.committed) (k : Entity) :
    s'.tuples k.Content = s.tuples k.Content := by
  unfold Store.tuples
  rw [h]

namespace Errand

variable {k : Entity} {s : Store} {r : Repository k.Content} {peers : List Store}

theorem writing?_eq_none {x : Errand} (h : ∀ now a, x.call ≠ .upsert now a) :
    x.writing? s = none := by
  unfold writing?
  split
  · next now a _ hcall _ => exact absurd hcall (h now a)
  · rfl

/-- What is committed after an errand that writes nothing is what was committed before it. -/
theorem Leaves.of_committed {x : Errand} (hw : x.writing? s = none)
    (h : (s.after x).committed = s.committed) : x.Leaves k s := by
  refine .same (fun w hsome => ?_) (Store.tuples_congr h k)
  rw [hw] at hsome
  cases hsome

/-- An upsert writes its record if it succeeds. -/
theorem leaves_upsert (h : AtEase k s) (now : Int) (a : k.Content) :
    Leaves k s { kind := k, repository := r, peers, call := .upsert now a } := by
  let met : Store := { s with others := Store.locks peers }
  cases hresult : (r.upsert now a met).result with
  | ok o =>
    refine .written { kind := k, key := toString (Record.id a), time := now } ?_ rfl ?_
    · unfold writing?
      simp only [reply, Call.reply, meet, Reply.map, met, hresult, Except.map]
    · exact Repository.written_of_upsert (s := met) h.orderly hresult
  | error e =>
    refine .of_committed ?_ (Repository.upsert_error_sameTables r now a met hresult).committed
    unfold writing?
    simp only [reply, Call.reply, meet, Reply.map, met, hresult, Except.map]

/-- A removal leaves nothing if it succeeds. -/
theorem leaves_clear : Leaves k s { kind := k, repository := r, peers, call := .clear } := by
  let met : Store := { s with others := Store.locks peers }
  cases hresult : (r.clear met).result with
  | ok n => exact .cleared rfl (Repository.tuples_of_clear hresult)
  | error e =>
    exact .of_committed (writing?_eq_none nofun)
      (Repository.clear_error_sameTables r met hresult).committed

/-- An errand writes a record of a kind, or leaves its tuples, or leaves none. -/
theorem leaves (h : AtEase k s) (x : Errand) : x.Leaves k s := by
  by_cases hk : x.kind = k
  · obtain ⟨kind, r, peers, c⟩ := x
    obtain rfl : kind = k := hk
    let met : Store := { s with others := Store.locks peers }
    rcases call_cases (s := met) h.transaction r c with ⟨now, a, rfl⟩ | rfl | ⟨hupsert, hsame⟩
    · exact leaves_upsert h now a
    · exact leaves_clear
    · have hcommitted : (c.reply r met).store.committed = met.committed := by rw [hsame]
      exact .of_committed (writing?_eq_none hupsert) hcommitted
  · refine .same (fun w hw hwk => hk ?_) (samePart_after h.transaction hk).tuples_eq
    rw [← hwk, (reading?_of_writing? hw).1]

end Errand

/-! ## Runs -/

section

variable {k : Entity} {s : Store}

/-- An errand leaves the store at rest and the table in order. -/
theorem AtEase.after (h : AtEase k s) (x : Errand) : AtEase k (s.after x) where
  transaction := Errand.transaction_after h.transaction x
  orderly := by
    cases x.leaves h with
    | written w _ _ hwritten => exact hwritten.orderly h.orderly
    | same _ hsame =>
      rw [hsame]
      exact h.orderly
    | cleared _ hnone =>
      rw [hnone]
      exact ⟨.nil, nofun⟩

theorem AtEase.run (h : AtEase k s) (xs : List Errand) : AtEase k (s.run xs) := by
  induction xs generalizing s with
  | nil => exact h
  | cons x xs ih => exact ih (h.after x)

theorem readings_cons (x : Errand) (xs : List Errand) :
    readings (x :: xs) = x.reading?.toList ++ readings xs := by
  unfold readings
  rw [List.filterMap_cons]
  cases x.reading? <;> rfl

/-- The time of a write is one of the times that are read off the clock. -/
theorem readings_of_writing {x : Errand} {w : Writing} (hw : x.writing? s = some w)
    (before later : List Errand) :
    readings (before ++ x :: later) = readings before ++ w.time :: readings later := by
  rw [readings_append, readings_cons, (Errand.reading?_of_writing? hw).2]
  rfl

theorem time_mem_readings {x : Errand} {w : Writing} (hw : x.writing? s = some w)
    (xs : List Errand) : w.time ∈ readings (x :: xs) := by
  rw [← List.nil_append (x :: xs), readings_of_writing hw]
  exact List.mem_cons_self

/-- What an errand writes is stamped with its time or later. -/
theorem stampedSince_of_writing (h : AtEase k s) {x : Errand} {w : Writing}
    (hw : x.writing? s = some w) (hk : w.kind = k) :
    StampedSince w.time w.key ((s.after x).tuples k.Content) := by
  cases x.leaves h with
  | written w' hw' _ hwritten =>
    obtain rfl := Option.some.inj (hw.symm.trans hw')
    exact hwritten.stampedSince
  | same hother _ => exact absurd hk (hother w hw)
  | cleared hclear _ =>
    have hnone : x.writing? s = none := by
      refine Errand.writing?_eq_none fun now a hcall => ?_
      cases hcall.symm.trans hclear
    rw [hnone] at hw
    cases hw

/-- No run makes a stamp that is later than its times and than all stamps before. -/
theorem stampsBy_run (h : AtEase k s) {time : Int} {xs : List Errand}
    (hclock : ∀ now ∈ readings xs, now ≤ time) (hby : StampsBy time (s.tuples k.Content)) :
    StampsBy time ((s.run xs).tuples k.Content) := by
  induction xs generalizing s with
  | nil => exact hby
  | cons x xs ih =>
    have hlater : ∀ now ∈ readings xs, now ≤ time := by
      rw [readings_cons, List.forall_mem_append] at hclock
      exact hclock.2
    refine ih (h.after x) hlater ?_
    cases x.leaves h with
    | written w hw _ hwritten =>
      exact hwritten.stampsBy hby (hclock w.time (time_mem_readings hw xs))
    | same _ hsame =>
      rw [hsame]
      exact hby
    | cleared _ hnone =>
      rw [hnone]
      exact nofun

/-- Without removals a table only grows, by what is written. -/
theorem grows_run (h : AtEase k s) {since : Int} {wrote : String → Prop} {xs : List Errand}
    (hclear : ∀ x ∈ xs, ¬ x.IsClear) (hclock : ∀ now ∈ readings xs, since ≤ now)
    (hwrote : ∀ w ∈ s.writings xs, w.kind = k → wrote w.key) :
    Grows (Aged since wrote) (IsUnder wrote) (s.tuples k.Content)
      ((s.run xs).tuples k.Content) := by
  induction xs using List.reverseRecOn with
  | nil => exact .refl Aged.refl _
  | append_singleton xs x ih =>
    rw [readings_append, List.forall_mem_append] at hclock
    rw [Store.writings_append, List.forall_mem_append] at hwrote
    have hgrows := ih (fun y hy => hclear y (List.mem_append_left _ hy)) hclock.1 hwrote.1
    rw [s.run_append]
    show Grows _ _ _ (((s.run xs).after x).tuples k.Content)
    cases x.leaves (h.run xs) with
    | written w hw hk hwritten =>
      have hmem : w ∈ (s.run xs).writings [x] := by
        show w ∈ (x.writing? (s.run xs)).toList ++ []
        rw [hw]
        exact List.mem_cons_self
      exact hwritten.grows_of_grows hgrows (hwrote.2 w hmem hk)
        (hclock.2 w.time (time_mem_readings hw []))
    | same _ hsame =>
      rw [hsame]
      exact hgrows
    | cleared hx _ => exact absurd hx (hclear x List.mem_concat_self)

/-! ## Rows in a run -/

section

variable {rows : List k.Row}

/-- What is kept of a kind is kept in the same part of another database. -/
theorem Entity.SamePart.keeps {db db' : Database} (h : k.SamePart db db')
    (hkeeps : Keeps k.Content db rows) : Keeps k.Content db' rows := by
  cases k with
  | alert => exact Database.KeepsAlerts.congr hkeeps h.1 h.2
  | expression => exact Database.KeepsExpressions.congr hkeeps h

theorem Entity.SamePart.admits {db db' : Database} (h : k.SamePart db db')
    (hadmits : Admits k.Content db) : Admits k.Content db' := by
  cases k with
  | alert => exact Database.AdmitsAlerts.congr hadmits h.1 h.2
  | expression => exact Database.AdmitsExpressions.congr hadmits h

/-- Where there is room, the versions of the rows can grow. -/
theorem Database.HasRoom.version_lt {db : Database} (h : db.HasRoom)
    (hkeeps : Keeps k.Content db rows) :
    ∀ u ∈ rows, Record.version k.Content u < Text.maxInt64 := by
  intro u hu
  refine h k (Record.key k.Content u) _ ?_
  have hfind := find?_table hkeeps (Record.key k.Content u)
  rw [(rowAt_eq_some_iff hkeeps).2 ⟨hu, rfl⟩, Option.map_some] at hfind
  cases k with
  | alert => exact congrArg (Option.map (· AlertColumn.version)) hfind
  | expression => exact congrArg (Option.map (· ExpressionColumn.version)) hfind

/-- An errand leaves rows, of which each can be read. -/
theorem Errand.keeps_after (hs : s.transaction = .none) (hkeeps : Keeps k.Content s.committed rows)
    (hadmits : Admits k.Content s.committed) (hroom : s.committed.HasRoom) (x : Errand) :
    ∃ rows', Keeps k.Content (s.after x).committed rows'
      ∧ Admits k.Content (s.after x).committed := by
  by_cases hk : x.kind = k
  · obtain ⟨kind, r, peers, c⟩ := x
    obtain rfl : kind = k := hk
    let met : Store := { s with others := Store.locks peers }
    have hready : met.poisoned = false → met.others.write = false ∧ met.others.read = false →
        Ready kind.Content met rows := fun hsound hfree => {
      others := Connections.locks_eq_of_free hfree.1 hfree.2
      transaction reads ht := by cases hs.symm.trans ht
      sound := hsound
      idle := hs
      keeps := hkeeps
      admits := hadmits }
    have hsame : (c.reply r met).store.committed = s.committed →
        ∃ rows', Keeps kind.Content (c.reply r met).store.committed rows'
          ∧ Admits kind.Content (c.reply r met).store.committed := by
      intro h
      rw [h]
      exact ⟨rows, hkeeps, hadmits⟩
    show ∃ rows', Keeps kind.Content (c.reply r met).store.committed rows'
      ∧ Admits kind.Content (c.reply r met).store.committed
    rcases call_cases (s := met) hs r c with ⟨now, a, rfl⟩ | rfl | ⟨_, hstore⟩
    · cases hresult : (r.upsert now a met).result with
      | error e => exact hsame (Repository.upsert_error_sameTables r now a met hresult).committed
      | ok o =>
        obtain ⟨ho, hsound, row, _, _, _, hrow, _⟩ := Repository.upsert_ok_cases hresult
        have hafter := (Repository.upsert_spec
          (hready hsound (Repository.upsert_ok_unlocked hresult)) ho now hrow
          (hroom.version_lt hkeeps)).2
        exact ⟨_, hafter.keeps, hafter.admits⟩
    · cases hresult : (r.clear met).result with
      | error e => exact hsame (Repository.clear_error_sameTables r met hresult).committed
      | ok n =>
        obtain ⟨ho, hsound, _⟩ := Repository.clear_ok_cases hresult
        have hafter := (Repository.clear_spec
          (hready hsound (Repository.clear_ok_unlocked hresult)) ho).2
        exact ⟨_, hafter.keeps, hafter.admits⟩
    · have hcommitted : (c.reply r met).store.committed = met.committed := by rw [hstore]
      exact hsame hcommitted
  · have hsame := samePart_after hs hk
    exact ⟨rows, hsame.keeps hkeeps, hsame.admits hadmits⟩

/-- So does a run, while there is room for versions. -/
theorem keeps_run (hs : s.transaction = .none) (hkeeps : Keeps k.Content s.committed rows)
    (hadmits : Admits k.Content s.committed) {xs : List Errand}
    (hroom : ∀ before, before <+: xs → (s.run before).committed.HasRoom) :
    ∃ rows', Keeps k.Content (s.run xs).committed rows'
      ∧ Admits k.Content (s.run xs).committed := by
  induction xs generalizing s rows with
  | nil => exact ⟨rows, hkeeps, hadmits⟩
  | cons x xs ih =>
    obtain ⟨rows', hkeeps', hadmits'⟩ :=
      Errand.keeps_after hs hkeeps hadmits (hroom [] List.nil_prefix) x
    exact ih (Errand.transaction_after hs x) hkeeps' hadmits' fun before hbefore =>
      hroom (x :: before) (List.cons_prefix_cons.2 ⟨rfl, hbefore⟩)

end

end

end AlertRegistry
