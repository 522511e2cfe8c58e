import AlertRegistry.Proofs.Repository.Separation

/-!
# Interleaved runs

Repositories of both kinds are called on one store in any order, and no lock stands in the way. What
the callers of one kind are told is what they are told if the calls of the other kind are left out
(`answers_filter`): a call of their own kind is answered from the part of the database that holds
it, and leaves the same part in both runs, and a call of the other kind leaves it alone.

For expressions that part is a map from identifiers to expressions which remembers in which order
the identifiers were first written (`HoldsMap`). Nothing of an expression is lost: what is found is
what was written last (`Errand.lastWritten`).
-/

namespace AlertRegistry

/-! ## What callers are told -/

/-- What the caller of a repository is told. -/
structure Told where
  /-- The kind of the records. -/
  kind : Entity
  /-- The result. -/
  result : Except RepositoryError (Answer kind.Content)
  /-- What the log is told. -/
  events : List Event

namespace Errand

/-- No other connection holds a lock. -/
def IsFree (x : Errand) : Prop :=
  Store.locks x.peers = {}

/-- What the caller is told. -/
def told (x : Errand) (s : Store) : Told where
  kind := x.kind
  result := (x.reply s).result
  events := (x.reply s).events

end Errand

/-- What the callers are told in a run. -/
def Store.answers (s : Store) : List Errand → List Told
  | [] => []
  | x :: xs => x.told s :: (s.after x).answers xs

theorem Store.answers_cons (s : Store) (x : Errand) (xs : List Errand) :
    s.answers (x :: xs) = x.told s :: (s.after x).answers xs :=
  rfl

theorem Store.run_cons (s : Store) (x : Errand) (xs : List Errand) :
    s.run (x :: xs) = (s.after x).run xs :=
  rfl

namespace Errand

variable {x : Errand} {k : Entity} {db db' : Database}

@[simp] theorem kind_told (x : Errand) (s : Store) : (x.told s).kind = x.kind :=
  rfl

theorem reply_atRest (hx : x.IsFree) (db : Database) :
    x.reply db.atRest = x.call.reply x.repository db.atRest := by
  unfold reply meet
  rw [hx]
  rfl

/-- A free errand leaves the store at rest. -/
theorem exists_after_atRest (hx : x.IsFree) (db : Database) :
    ∃ db', db.atRest.after x = Database.atRest db' := by
  obtain ⟨db', hafter, -⟩ := (x.call.reply_isImage overlooks_id x.repository db).store
  refine ⟨db', ?_⟩
  unfold Store.after
  rw [reply_atRest hx]
  exact hafter

/-- An errand on its part of the database is answered alike on every database with that part, and
leaves the same part. -/
theorem told_of_samePart (hx : x.IsFree) (h : x.kind.SamePart db db') :
    x.told db'.atRest = x.told db.atRest
      ∧ ∃ d d' : Database, db.atRest.after x = d.atRest ∧ db'.atRest.after x = d'.atRest
        ∧ x.kind.SamePart d d' := by
  obtain ⟨F, hF, rfl, hpart⟩ := h.exists_overlooks
  obtain ⟨hresult, hevents, d, hafter, hafter'⟩ := x.call.reply_isImage hF x.repository db
  unfold told Store.after
  rw [reply_atRest hx, reply_atRest hx]
  refine ⟨?_, d, F d, hafter, hafter', hpart d⟩
  rw [hresult, hevents]

/-- An errand of the other kind leaves the part alone. -/
theorem after_of_ne (hx : x.IsFree) (hk : x.kind ≠ k) (db : Database) :
    ∃ db' : Database, db.atRest.after x = db'.atRest ∧ k.SamePart db db' := by
  obtain ⟨db', hafter⟩ := exists_after_atRest hx db
  have hpart := samePart_after (s := db.atRest) rfl hk
  rw [hafter] at hpart
  exact ⟨db', hafter, hpart⟩

end Errand

/-- The callers of a kind are told the same if the other calls are left out, and the part of the
database that holds the kind becomes the same. -/
theorem answers_filter {k : Entity} {xs : List Errand} (hfree : ∀ x ∈ xs, x.IsFree)
    {db db' : Database} (h : k.SamePart db db') :
    (db.atRest.answers xs).filter (fun t => t.kind = k)
        = db'.atRest.answers (xs.filter fun x => x.kind = k)
      ∧ ∃ d d' : Database, db.atRest.run xs = d.atRest
        ∧ db'.atRest.run (xs.filter fun x => x.kind = k) = d'.atRest ∧ k.SamePart d d' := by
  -- the two runs go on from different databases, of which only the part is the same
  induction xs generalizing db db' with
  | nil => exact ⟨rfl, db, db', rfl, rfl, h⟩
  | cons x xs ih =>
    have hx := hfree x List.mem_cons_self
    have hxs : ∀ y ∈ xs, y.IsFree := fun y hy => hfree y (List.mem_cons_of_mem x hy)
    rw [Store.answers_cons, Store.run_cons]
    by_cases hk : x.kind = k
    · -- both runs take the call
      obtain rfl := hk
      obtain ⟨htold, d, d', hafter, hafter', hpart⟩ := Errand.told_of_samePart hx h
      have hrest := ih hxs hpart
      rw [List.filter_cons_of_pos (by simp), List.filter_cons_of_pos (by simp),
        Store.answers_cons, Store.run_cons, hafter, hafter', htold, hrest.1]
      exact ⟨rfl, hrest.2⟩
    · -- the second run stands still
      obtain ⟨d, hafter, hpart⟩ := Errand.after_of_ne hx hk db
      rw [List.filter_cons_of_neg (by simp [hk]), List.filter_cons_of_neg (by simp [hk]),
        hafter]
      exact ih hxs (hpart.symm.trans h)

/-! ## Expressions -/

namespace Errand

/-- The call, if it is one of an open repository of expressions. -/
def expressionCall? : Errand → Option (Call Expression)
  | { kind := .expression, repository := r, call := c, .. } =>
    if r.state = .opened then some c else none
  | _ => none

/-- The expressions after an errand, where `m` were there before. -/
def track (m : List Expression) (x : Errand) : List Expression :=
  (x.expressionCall?.map (Call.track m)).getD m

/-- The expression that was written last under an identifier, where `last` was so before. -/
def lastWritten (id : Uuid) (last : Option Expression) (x : Errand) : Option Expression :=
  match x.expressionCall? with
  | some (.upsert _ e) => if e.id = id then some e else last
  | some .clear => none
  | _ => last

/-- The expression under an identifier is the one that was written last. -/
theorem find?_track (id : Uuid) (m : List Expression) (x : Errand) :
    (track m x).find? (fun e => e.id = id) = lastWritten id (m.find? fun e => e.id = id) x := by
  unfold track lastWritten
  cases x.expressionCall? with
  | none => rfl
  | some c =>
    cases c with
    | upsert now e =>
      show (Keyed.put Expression.id e m).find? _ = if e.id = id then some e else _
      by_cases he : e.id = id
      · obtain rfl := he
        rw [if_pos rfl, Keyed.find?_put_self]
      · rw [if_neg he, Keyed.find?_put_of_ne (Ne.symm he)]
    | get _ => rfl
    | count => rfl
    | query _ => rfl
    | clear => rfl

end Errand

/-- The expressions after a run on an empty store. -/
def tracked (xs : List Errand) : List Expression :=
  xs.foldl Errand.track []

/-- On the store every open repository answers as the list of expressions says, where an expression
replaces the one with its identifier in its place or else comes last. -/
structure HoldsMap (m : List Expression) (s : Store) : Prop where
  /-- Identifiers are distinct. -/
  nodup : (m.map Expression.id).Nodup
  /-- What is found is the expression itself, text for text. -/
  get (r : Repository Expression) (id : Uuid) : r.state = .opened →
    (r.get id s).result = .ok (m.find? fun e => e.id = id)
  /-- An expression is created if its identifier is new. -/
  upsert (r : Repository Expression) (now : Int) (e : Expression) : r.state = .opened →
    (r.upsert now e s).result
      = .ok (if e.id ∈ m.map Expression.id then .updated else .created)
  /-- All expressions are counted. -/
  count (r : Repository Expression) : r.state = .opened → (r.count s).result = .ok m.length
  /-- A page of all expressions is a slice of the list. -/
  query (r : Repository Expression) (q : BoundQuery) : r.state = .opened →
    q.owner = r.identity → q.query.IsUnfiltered →
    ∃ found, (r.query q s).result = .ok found
      ∧ found.values = slice q.query.offset q.query.limit m ∧ found.total = m.length
  /-- All expressions are removed and counted. -/
  clear (r : Repository Expression) : r.state = .opened → (r.clear s).result = .ok m.length

/-- The rows of expressions denote just these. -/
theorem AreRowsOf.values_expression {m : List Expression} {rows : List ExpressionRow}
    (h : AreRowsOf m rows) :
    (rows.filterMap fun row => (Record.ofRow row : Except RowError Expression).toOption) = m := by
  have hvalues := h.values_eq.1
  rw [show (readBack : Expression → Option Expression) = some from funext readBack_expression]
    at hvalues
  exact List.map_injective_iff.2 (Option.some_injective _) hvalues

/-- A store that keeps the rows of expressions holds a map of them. -/
theorem Tracks.holdsMap {m : List Expression} {n : Nat} {s : Store} {rows : List ExpressionRow}
    (h : Tracks m n s rows) (hn : n < 2 ^ 63 - 1) : HoldsMap m s := by
  have hfollows := h.follows hn
  refine ⟨hfollows.nodup, ?_, ?_, hfollows.count, ?_, hfollows.clear⟩
  · intro r id ho
    cases hfind : m.find? fun e => e.id = id with
    | none =>
      refine hfollows.get_of_not_mem r id ho fun hmem => ?_
      obtain ⟨e, he, hid⟩ := List.mem_map.1 hmem
      exact List.find?_eq_none.1 hfind e he (decide_eq_true hid)
    | some e =>
      have hid := List.find?_some hfind
      obtain rfl : e.id = id := of_decide_eq_true hid
      obtain ⟨b, hb, -, hget⟩ := hfollows.get_of_mem r e ho (List.mem_of_find?_eq_some hfind)
      rw [readBack_expression] at hb
      cases hb
      exact hget
  · exact fun r now e ho => hfollows.upsert r now e ho ⟨_, rfl⟩
  · intro r q ho hq hall
    obtain ⟨found, hfound, hvalues, htotal⟩ := Repository.query_spec h.toReady ho hq hall
    have hslice : AreRowsOf (slice q.query.offset q.query.limit m)
        (slice q.query.offset q.query.limit rows) :=
      List.forall₂_take _ (List.forall₂_drop _ h.areRows)
    exact ⟨found, hfound, hvalues.trans hslice.values_expression,
      htotal.trans h.areRows.length_eq.symm⟩

/-- The store after a call is the one of the reply. -/
theorem Call.effect_eq {α ρ γ : Type} [Layout γ] [Record α ρ γ] (c : Call α) (r : Repository α)
    (s : Store) : c.effect r s = (c.reply r s).store := by
  cases c <;> rfl

namespace Errand

variable {m : List Expression} {n : Nat} {db : Database} {rows : List ExpressionRow}

theorem track_expression (r : Repository Expression) (peers : List Store) (c : Call Expression) :
    track m { kind := .expression, repository := r, peers, call := c }
      = if r.state = .opened then c.track m else m := by
  show ((if r.state = .opened then some c else none).map (Call.track m)).getD m = _
  split <;> rfl

/-- A call of a repository of expressions keeps the rows in step with the expressions. -/
theorem tracks_reply (h : Tracks m n db.atRest rows) (hn : n < 2 ^ 63 - 1)
    (r : Repository Expression) (c : Call Expression) :
    ∃ rows', Tracks (if r.state = .opened then c.track m else m) (n + c.writes)
      (c.reply r db.atRest).store rows' := by
  by_cases ho : r.state = .opened
  · rw [if_pos ho, ← c.effect_eq]
    exact h.effect hn ho c
  · have hc : r.state = .closed := by
      cases hr : r.state with
      | closed => rfl
      | opened => exact absurd hr ho
    rw [if_neg ho, c.reply_of_closed hc]
    exact ⟨rows, h.mono (Nat.le_add_right ..)⟩

/-- An errand of alerts leaves the expressions and their rows as they are. -/
theorem tracks_after_alert {r : Repository Alert} {peers : List Store} {c : Call Alert}
    (hx : IsFree { kind := .alert, repository := r, peers, call := c })
    (h : Tracks m n db.atRest rows) :
    Tracks m n (db.atRest.after { kind := .alert, repository := r, peers, call := c }) rows := by
  obtain ⟨db', hafter, hpart⟩ := after_of_ne hx (k := .expression) nofun db
  rw [hafter]
  exact ⟨⟨⟨⟨rfl, nofun, rfl⟩, rfl⟩, hpart.keeps h.keeps, hpart.admits h.admits⟩, h.areRows,
    h.versions⟩

/-- An errand of expressions keeps the rows in step with these. -/
theorem tracks_after_expression {r : Repository Expression} {peers : List Store}
    {c : Call Expression} (hx : IsFree { kind := .expression, repository := r, peers, call := c })
    (h : Tracks m n db.atRest rows) (hn : n < 2 ^ 63 - 1) :
    ∃ rows', Tracks (track m { kind := .expression, repository := r, peers, call := c })
      (n + c.writes) (db.atRest.after { kind := .expression, repository := r, peers, call := c })
      rows' := by
  rw [track_expression]
  unfold Store.after
  rw [reply_atRest hx]
  exact tracks_reply h hn r c

/-- One errand keeps the rows of expressions in step with these. -/
theorem tracks_after {x : Errand} (hx : x.IsFree) (h : Tracks m n db.atRest rows)
    (hn : n < 2 ^ 63 - 1) :
    ∃ rows', Tracks (track m x) (n + x.reading?.toList.length) (db.atRest.after x) rows' := by
  obtain ⟨kind, r, peers, c⟩ := x
  cases kind with
  | alert => exact ⟨rows, (tracks_after_alert hx h).mono (Nat.le_add_right ..)⟩
  | expression =>
    obtain ⟨rows', htracks⟩ := tracks_after_expression hx h hn
    refine ⟨rows', ?_⟩
    cases c <;> exact htracks

end Errand

/-- A run keeps the rows of expressions in step with these. -/
theorem tracks_run {xs : List Errand} (hfree : ∀ x ∈ xs, x.IsFree) {m : List Expression} {n : Nat}
    {db : Database} {rows : List ExpressionRow} (h : Tracks m n db.atRest rows)
    (hn : n + (readings xs).length < 2 ^ 63 - 1) :
    ∃ rows', Tracks (xs.foldl Errand.track m) (n + (readings xs).length) (db.atRest.run xs)
      rows' := by
  induction xs generalizing m n db rows with
  | nil => exact ⟨rows, h⟩
  | cons x xs ih =>
    rw [readings_cons, List.length_append, ← Nat.add_assoc] at hn ⊢
    have hx := hfree x List.mem_cons_self
    obtain ⟨rows', htracks⟩ := Errand.tracks_after hx h (by omega)
    obtain ⟨db', hafter⟩ := Errand.exists_after_atRest hx db
    rw [hafter] at htracks
    rw [Store.run_cons, hafter]
    exact ih (fun y hy => hfree y (List.mem_cons_of_mem x hy)) htracks hn

/-- What is found in the tracked list is what was written last. -/
theorem find?_tracked (id : Uuid) (xs : List Errand) :
    (tracked xs).find? (fun e => e.id = id) = xs.foldl (Errand.lastWritten id) none := by
  unfold tracked
  induction xs using List.reverseRecOn with
  | nil => rfl
  | append_singleton xs x ih =>
    rw [List.foldl_append, List.foldl_append]
    show (Errand.track _ x).find? _ = Errand.lastWritten id _ x
    rw [Errand.find?_track, ih]

/-! ## Both kinds of records -/

/-- In every run on a new store on which nobody holds a lock, alerts and expressions keep apart: the
callers of each kind are told what they are told without the calls of the other kind, and leave the
same rows in the same order, with the same versions and stamps. The expressions are a map in which
what was written last is found as it was written. -/
theorem kinds_keep_apart (xs : List Errand) (hfree : ∀ x ∈ xs, x.IsFree)
    (hwrites : (readings xs).length < 2 ^ 63 - 1) :
    (∀ k : Entity,
      (({} : Store).answers xs).filter (fun t => t.kind = k)
          = ({} : Store).answers (xs.filter fun x => x.kind = k)
        ∧ k.SamePart (({} : Store).run xs).committed
          (({} : Store).run (xs.filter fun x => x.kind = k)).committed)
    ∧ HoldsMap (tracked xs) (({} : Store).run xs)
    ∧ ∀ (r : Repository Expression) (id : Uuid), r.state = .opened →
      (r.get id (({} : Store).run xs)).result = .ok (xs.foldl (Errand.lastWritten id) none) := by
  have hstart : Tracks ([] : List Expression) 0 ({} : Database).atRest [] := {
    toIdle := ⟨⟨rfl, nofun, rfl⟩, rfl⟩
    keeps := LawfulRecord.keeps_empty
    admits := LawfulRecord.admits_empty
    areRows := .nil
    versions := nofun }
  obtain ⟨rows, htracks⟩ := tracks_run hfree hstart (by omega)
  have hmap : HoldsMap (tracked xs) (({} : Store).run xs) := htracks.holdsMap (by omega)
  refine ⟨fun k => ?_, hmap, fun r id ho => ?_⟩
  · obtain ⟨hanswers, d, d', hrun, hrun', hpart⟩ := answers_filter hfree (.refl k {})
    refine ⟨hanswers, ?_⟩
    show k.SamePart (Database.atRest {} |>.run xs).committed (Database.atRest {} |>.run _).committed
    rw [hrun, hrun']
    exact hpart
  · rw [hmap.get r id ho, find?_tracked]

/-- An open repository of expressions. -/
def openExpressions : Repository Expression where
  identity := 1
  strategy := .generic
  state := .opened

/-- An expression with the identifier of an alert and a script with a null character. -/
def splitExpression : Expression where
  id := AlertRow.watchedAlert.id
  cluster := "west"
  service := "dns"
  metric := "latency"
  script := "p99\x00 + p50"

/-- An expression is written twice, and alerts are written and cleared in between. -/
def mixedErrands : List Errand :=
  [{ kind := .expression, repository := openExpressions, peers := []
     call := .upsert 10 { splitExpression with script := "p99" } },
    { kind := .alert, repository := Repository.openAlerts, peers := []
      call := .upsert 20 AlertRow.watchedAlert },
    { kind := .expression, repository := openExpressions, peers := []
      call := .upsert 30 splitExpression },
    { kind := .alert, repository := Repository.openAlerts, peers := [], call := .clear }]

/-- The second text is found whole, and the expressions are told what they are told alone. -/
theorem split_expression_is_kept : (∀ x ∈ mixedErrands, x.IsFree)
    ∧ (readings mixedErrands).length < 2 ^ 63 - 1
    ∧ (openExpressions.get splitExpression.id (({} : Store).run mixedErrands)).result
      = .ok (some splitExpression)
    ∧ (openExpressions.count (({} : Store).run mixedErrands)).result = .ok 1
    ∧ (({} : Store).answers mixedErrands).filter (fun t => t.kind = .expression)
      = ({} : Store).answers [mixedErrands[0], mixedErrands[2]] := by
  have hfree : ∀ x ∈ mixedErrands, x.IsFree := by
    simp [mixedErrands, Errand.IsFree, Store.locks]
  have hwrites : (readings mixedErrands).length < 2 ^ 63 - 1 := by decide
  obtain ⟨hapart, hmap, hlast⟩ := kinds_keep_apart mixedErrands hfree hwrites
  exact ⟨hfree, hwrites, hlast openExpressions splitExpression.id rfl,
    hmap.count openExpressions rfl, (hapart .expression).1⟩

end AlertRegistry
