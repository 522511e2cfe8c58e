import AlertRegistry.Proofs.Reading
import AlertRegistry.Proofs.Repository.Run

/-!
# The life of repositories

Any number of repositories of both kinds are asked for one thing after another (`Registry`,
`Demand`). A call finds its repository in the state that earlier calls left. The store it finds may
be any store: what other callers, connections and programs do to it in between is left open.

The gate of a repository is `gated_reply`: while it is closed every operation is refused for that
reason alone, while it is open none is. `lifecycle_of_run` says what follows for all runs: opening
and closing alternate, a repository is open if it was opened last, and a query is looked up in the
store by the repository that made it and by no other.
-/

namespace AlertRegistry

/-! ## Calls and answers -/

/-- What a repository is asked for. -/
inductive Ask (α : Type) where
  /-- To open. -/
  | start
  /-- To close. -/
  | stop
  /-- To make a query. -/
  | createQuery (q : Query)
  /-- To do something with the store. -/
  | call (c : Call α)

/-- What a repository answers if it does what it is asked for. -/
inductive Answer (α : Type) where
  /-- It was opened or closed. -/
  | moved
  /-- The query that was made. -/
  | made (q : BoundQuery)
  /-- The record that was looked up. -/
  | found (a : Option α)
  /-- The number of records. -/
  | counted (n : Nat)
  /-- The records of a page. -/
  | page (result : QueryResult α)
  /-- A record was created or replaced. -/
  | saved (o : Outcome)
  /-- The number of records that were removed. -/
  | removed (n : Nat)

/-- The reply with another form of the result. -/
def Reply.map {β δ : Type} (f : β → δ) (x : Reply β) : Reply δ where
  result := x.result.map f
  store := x.store
  events := x.events

/-- The result is not that the repository is in the wrong state. -/
def PassesGate {β : Type} (x : Except RepositoryError β) : Prop :=
  ∀ entity operation expected actual, x ≠ .error (.state entity operation expected actual)

section

variable {α ρ γ : Type} [Record α ρ γ]

namespace Call

/-- The operation that is called. -/
def operation : Call α → Operation
  | upsert .. => .upsert
  | get _ => .get
  | count => .count
  | query _ => .query
  | clear => .clear

variable [Layout γ]

/-- The reply to a call. -/
def reply (r : Repository α) (s : Store) : Call α → Reply (Answer α)
  | upsert now a => (r.upsert now a s).map .saved
  | get id => (r.get id s).map .found
  | count => (r.count s).map .counted
  | query q => (r.query q s).map .page
  | clear => (r.clear s).map .removed

end Call

namespace Ask

/-- The operation that is asked for. -/
def operation : Ask α → Operation
  | start => .start
  | stop => .stop
  | createQuery _ => .createQuery
  | call c => c.operation

/-- The operation needs an open repository. -/
def IsGated (ask : Ask α) : Prop :=
  ask.operation ≠ .start ∧ ask.operation ≠ .stop

/-- The repository after it was asked. -/
def after (r : Repository α) : Ask α → Repository α
  | start => r.start.1.toOption.getD r
  | stop => r.stop.1.toOption.getD r
  | _ => r

variable [Layout γ]

/-- The reply of a repository that is asked. -/
def reply (r : Repository α) (s : Store) : Ask α → Reply (Answer α)
  | start => { result := r.start.1.map fun _ => .moved, store := s, events := r.start.2 }
  | stop => { result := r.stop.1.map fun _ => .moved, store := s, events := r.stop.2 }
  | createQuery q => { result := (r.createQuery q).map .made, store := s, events := [] }
  | call c => c.reply r s

end Ask

/-! ## Errors of an open repository -/

open Repository (whenOpen_of_opened)

namespace PassesGate

variable {β δ : Type} {x : Except RepositoryError β}

theorem ok (b : β) : PassesGate (.ok b) := nofun

theorem of_error (h : ∀ e, x = .error e →
    e = .foreignQuery (Record.entity α) ∨ ∃ y, e = .access y) : PassesGate x := by
  intro entity operation expected actual hx
  rcases h _ hx with hforeign | ⟨y, haccess⟩
  · cases hforeign
  · cases haccess

theorem map (h : PassesGate x) (f : β → δ) : PassesGate (x.map f) := by
  intro entity operation expected actual hx
  cases x with
  | ok b => cases hx
  | error e =>
    cases hx
    exact h _ _ _ _ rfl

end PassesGate

namespace Repository

variable {r : Repository α} {s : Store} {e : RepositoryError}

/-- An operation that only fails for its store fails for it, or for a connection that cannot be
used. -/
theorem whenSound_error {β : Type} {events : List Event} {carryOn : Unit → Reply β}
    (h : (carryOn ()).result = .error e → ∃ x, e = .access x)
    (he : (whenSound s events carryOn).result = .error e) : ∃ x, e = .access x := by
  unfold whenSound at he
  split at he
  · cases he
    exact ⟨_, rfl⟩
  · exact h he

/-- All records are not removed only if the store cannot be used. -/
theorem clear_error (ho : r.state = .opened) (he : (r.clear s).result = .error e) :
    ∃ x, e = .access x := by
  unfold clear at he
  rw [whenOpen_of_opened ho] at he
  refine whenSound_error (fun h => ?_) he
  -- `begin`, the statement beside the rows, the one on the rows, the commit
  split at h
  · cases h
    exact ⟨_, rfl⟩
  · split at h
    · cases h
      exact ⟨_, rfl⟩
    · split at h
      · cases h
        exact ⟨_, rfl⟩
      · split at h
        · cases h
          exact ⟨_, rfl⟩
        · cases h

theorem count_error (ho : r.state = .opened) (he : (r.count s).result = .error e) :
    ∃ x, e = .access x := by
  unfold count at he
  rw [whenOpen_of_opened ho] at he
  refine whenSound_error (fun h => ?_) he
  split at h
  · cases h
    exact ⟨_, rfl⟩
  · cases h

/-- A query of another repository is refused for that reason before the store is looked at. -/
theorem query_of_foreign (ho : r.state = .opened) {q : BoundQuery} (hq : q.owner ≠ r.identity)
    (s : Store) :
    r.query q s
      = { result := .error (.foreignQuery (Record.entity α)), store := s, events := [] } := by
  unfold query
  rw [whenOpen_of_opened ho, if_pos hq]

/-- A query of the repository itself gives what the store gives: the page, or why it cannot be
read. -/
theorem query_of_own (ho : r.state = .opened) {q : BoundQuery} (hq : q.owner = r.identity)
    (s : Store) :
    (r.query q s).result
        = (if s.poisoned then .error (.access .poisoned)
          else match (s.read (fetchPage α r.strategy q.query)).1 with
            | .error e => .error (.access (.store e))
            | .ok page => .ok (decodePage page).1)
      ∧ (r.query q s).store
        = if s.poisoned then s else (s.read (fetchPage α r.strategy q.query)).2 := by
  unfold query
  rw [whenOpen_of_opened ho, if_neg (not_not.2 hq)]
  dsimp only
  unfold Repository.whenSound
  cases s.poisoned with
  | true => exact ⟨rfl, rfl⟩
  | false =>
    rcases s.read (fetchPage α r.strategy q.query) with ⟨e | page, s'⟩ <;> exact ⟨rfl, rfl⟩

theorem query_error (ho : r.state = .opened) {q : BoundQuery}
    (he : (r.query q s).result = .error e) :
    e = .foreignQuery (Record.entity α) ∨ ∃ x, e = .access x := by
  by_cases hq : q.owner = r.identity
  · rw [(query_of_own ho hq s).1] at he
    split at he
    · cases he
      exact .inr ⟨_, rfl⟩
    · split at he
      · cases he
        exact .inr ⟨_, rfl⟩
      · cases he
  · rw [query_of_foreign ho hq] at he
    cases he
    exact .inl rfl

variable [Layout γ]

theorem get_error (ho : r.state = .opened) {id : Uuid} (he : (r.get id s).result = .error e) :
    ∃ x, e = .access x := by
  unfold get at he
  rw [whenOpen_of_opened ho] at he
  refine whenSound_error (fun h => ?_) he
  split at h
  · cases h
    exact ⟨_, rfl⟩
  · cases h
  · cases h

/-- An open repository does not fail to upsert a record for its state. -/
theorem UpsertFailure.ne_state {now : Int} {a : α} {s' : Store} (h : UpsertFailure now a s e s')
    (entity : Entity) (operation : Operation) (expected actual : State) :
    e ≠ .state entity operation expected actual := by
  intro hstate
  cases h with
  | record _ => cases hstate
  | poisoned _ => cases hstate
  | begin _ _ => cases hstate
  | version _ _ _ => cases hstate
  | save _ _ _ hsave =>
    rcases saveAndCommit_error hsave with rfl | ⟨x, rfl⟩
    · unfold versionError at hstate
      split at hstate <;> cases hstate
    · cases x <;> cases hstate

end Repository

/-! ## The gate of one repository -/

theorem Ask.isGated_createQuery (q : Query) : (Ask.createQuery q : Ask α).IsGated :=
  ⟨nofun, nofun⟩

theorem Ask.isGated_call (c : Call α) : (Ask.call c).IsGated := by
  cases c <;> exact ⟨nofun, nofun⟩

/-- All but opening and closing is gated. -/
theorem Ask.eq_of_isGated {ask : Ask α} (h : ask.IsGated) :
    (∃ q, ask = .createQuery q) ∨ ∃ c, ask = .call c := by
  cases ask with
  | start => exact absurd rfl h.1
  | stop => exact absurd rfl h.2
  | createQuery q => exact .inl ⟨q, rfl⟩
  | call c => exact .inr ⟨c, rfl⟩

theorem Ask.identity_after (r : Repository α) (ask : Ask α) :
    (ask.after r).identity = r.identity := by
  cases ask with
  | start =>
    unfold Ask.after Repository.start Repository.move
    cases r.state <;> rfl
  | stop =>
    unfold Ask.after Repository.stop Repository.move
    cases r.state <;> rfl
  | createQuery q => rfl
  | call c => rfl

theorem whenOpen_of_closed {β : Type} {r : Repository α} (hc : r.state = .closed)
    (operation : Operation) (s : Store) (carryOn : Unit → Reply β) :
    r.whenOpen operation s carryOn
      = { result := .error (.state (Record.entity α) operation .opened .closed)
          store := s
          events := [] } := by
  unfold Repository.whenOpen Repository.requireOpen
  rw [hc]
  rfl

section

variable [Layout γ] {r : Repository α}

/-- What a repository replies to and what it refuses, in both of its states, where `entity` is the
kind of its records. -/
structure Gated (entity : Entity) (r : Repository α) (s : Store) (ask : Ask α) : Prop where
  /-- While it is closed every operation is refused for that reason, whatever else may be wrong:
  nothing is done and nothing is logged. -/
  closed : r.state = .closed → ask.IsGated →
    ask.reply r s
      = { result := .error (.state entity ask.operation .opened .closed)
          store := s
          events := [] }
  /-- While it is open no operation is refused for its state. -/
  opened : r.state = .opened → ask.IsGated → PassesGate (ask.reply r s).result
  /-- No operation opens or closes it. -/
  steady : ask.IsGated → ask.after r = r
  /-- Who opens it wins if it is closed, and otherwise is told that it is open. -/
  start : ask = .start →
    (ask.reply r s).store = s ∧ (ask.after r).state = .opened
      ∧ (ask.reply r s).result
        = if r.state = .closed then .ok .moved
          else .error (.state entity .start .closed .opened)
  /-- Who closes it wins if it is open, and otherwise is told that it is closed. -/
  stop : ask = .stop →
    (ask.reply r s).store = s ∧ (ask.after r).state = .closed
      ∧ (ask.reply r s).result
        = if r.state = .opened then .ok .moved
          else .error (.state entity .stop .opened .closed)
  /-- Its own queries are looked up in the store. -/
  own : r.state = .opened → ∀ q : BoundQuery, ask = .call (.query q) → q.owner = r.identity →
    (ask.reply r s).result
        = (if s.poisoned then .error (.access .poisoned)
          else match (s.read (fetchPage α r.strategy q.query)).1 with
            | .error e => .error (.access (.store e))
            | .ok page => .ok (.page (Repository.decodePage page).1))
      ∧ (ask.reply r s).store
        = if s.poisoned then s else (s.read (fetchPage α r.strategy q.query)).2
  /-- All other queries are refused without a look at the store. -/
  foreign : r.state = .opened → ∀ q : BoundQuery, ask = .call (.query q) → q.owner ≠ r.identity →
    ask.reply r s = { result := .error (.foreignQuery entity), store := s, events := [] }

theorem Call.reply_of_closed (hc : r.state = .closed) (s : Store) (c : Call α) :
    c.reply r s
      = { result := .error (.state (Record.entity α) c.operation .opened .closed)
          store := s
          events := [] } := by
  cases c with
  | upsert now a => exact congrArg (Reply.map _) (whenOpen_of_closed hc .upsert s _)
  | get id => exact congrArg (Reply.map _) (whenOpen_of_closed hc .get s _)
  | count => exact congrArg (Reply.map _) (whenOpen_of_closed hc .count s _)
  | query q => exact congrArg (Reply.map _) (whenOpen_of_closed hc .query s _)
  | clear => exact congrArg (Reply.map _) (whenOpen_of_closed hc .clear s _)

theorem Call.reply_passesGate (ho : r.state = .opened) (s : Store) (c : Call α) :
    PassesGate (c.reply r s).result := by
  cases c with
  | upsert now a =>
    refine PassesGate.map (fun entity operation expected actual h => ?_) _
    exact (Repository.upsert_error_cases ho h).ne_state entity operation expected actual rfl
  | get id =>
    exact (PassesGate.of_error (α := α) fun _ he => .inr (Repository.get_error ho he)).map _
  | count =>
    exact (PassesGate.of_error (α := α) fun _ he => .inr (Repository.count_error ho he)).map _
  | query q =>
    exact (PassesGate.of_error (α := α) fun _ he => Repository.query_error ho he).map _
  | clear =>
    exact (PassesGate.of_error (α := α) fun _ he => .inr (Repository.clear_error ho he)).map _

/-- Every reply goes through the gate. -/
theorem gated_reply (r : Repository α) (s : Store) (ask : Ask α) :
    Gated (Record.entity α) r s ask where
  closed hc hg := by
    obtain ⟨q, rfl⟩ | ⟨c, rfl⟩ := Ask.eq_of_isGated hg
    · unfold Ask.reply Repository.createQuery Repository.requireOpen
      rw [hc]
      rfl
    · exact c.reply_of_closed hc s
  opened ho hg := by
    obtain ⟨q, rfl⟩ | ⟨c, rfl⟩ := Ask.eq_of_isGated hg
    · unfold Ask.reply Repository.createQuery Repository.requireOpen
      rw [if_pos ho]
      exact .ok _
    · exact c.reply_passesGate ho s
  steady hg := by
    obtain ⟨q, rfl⟩ | ⟨c, rfl⟩ := Ask.eq_of_isGated hg
    · rfl
    · rfl
  start hask := by
    subst hask
    unfold Ask.reply Ask.after Repository.start Repository.move
    cases hs : r.state with
    | closed => exact ⟨rfl, rfl, rfl⟩
    | opened => exact ⟨rfl, hs, rfl⟩
  stop hask := by
    subst hask
    unfold Ask.reply Ask.after Repository.stop Repository.move
    cases hs : r.state with
    | closed => exact ⟨rfl, hs, rfl⟩
    | opened => exact ⟨rfl, rfl, rfl⟩
  own ho q hask hq := by
    subst hask
    obtain ⟨hresult, hstore⟩ := Repository.query_of_own ho hq s
    refine ⟨?_, hstore⟩
    show (r.query q s).result.map _ = _
    rw [hresult]
    split
    · rfl
    · cases (s.read (fetchPage α r.strategy q.query)).1 <;> rfl
  foreign ho q hask hq := by
    subst hask
    exact congrArg (Reply.map _) (Repository.query_of_foreign ho hq s)

/-- Neither opening nor making a query is among the answers to a call. -/
theorem Call.answer_of_ok {s : Store} {c : Call α} {a : Answer α}
    (h : (c.reply r s).result = .ok a) : a ≠ .moved ∧ ∀ q, a ≠ .made q := by
  cases c with
  | upsert now b =>
    obtain ⟨_, _, rfl⟩ := map_eq_ok h
    exact ⟨nofun, nofun⟩
  | get id =>
    obtain ⟨_, _, rfl⟩ := map_eq_ok h
    exact ⟨nofun, nofun⟩
  | count =>
    obtain ⟨_, _, rfl⟩ := map_eq_ok h
    exact ⟨nofun, nofun⟩
  | query q =>
    obtain ⟨_, _, rfl⟩ := map_eq_ok h
    exact ⟨nofun, nofun⟩
  | clear =>
    obtain ⟨_, _, rfl⟩ := map_eq_ok h
    exact ⟨nofun, nofun⟩

/-- No operation answers that it opened or closed the repository. -/
theorem Ask.ne_moved_of_isGated {ask : Ask α} (hg : ask.IsGated) (s : Store) :
    (ask.reply r s).result ≠ .ok .moved := by
  intro h
  obtain ⟨q, rfl⟩ | ⟨c, rfl⟩ := Ask.eq_of_isGated hg
  · obtain ⟨_, _, hmoved⟩ := map_eq_ok h
    cases hmoved
  · exact (Call.answer_of_ok h).1 rfl

/-- A query that was made is bound to the repository that made it. -/
theorem Ask.owner_of_made {ask : Ask α} {s : Store} {q : BoundQuery}
    (h : (ask.reply r s).result = .ok (.made q)) : q.owner = r.identity := by
  cases ask with
  | start =>
    obtain ⟨_, _, hmade⟩ := map_eq_ok h
    cases hmade
  | stop =>
    obtain ⟨_, _, hmade⟩ := map_eq_ok h
    cases hmade
  | createQuery q' =>
    obtain ⟨bound, hbound, hmade⟩ := map_eq_ok h
    cases hmade
    obtain ⟨_, _, rfl⟩ := map_eq_ok hbound
    rfl
  | call c => exact absurd rfl ((Call.answer_of_ok h).2 q)

end

end

/-! ## Registries -/

namespace Entity

/-- The records of the kind. -/
def Content : Entity → Type
  | alert => Alert
  | expression => Expression

/-- The rows of the kind. -/
def Row : Entity → Type
  | alert => AlertRow
  | expression => ExpressionRow

/-- The columns of the kind. -/
def Column : Entity → Type
  | alert => AlertColumn
  | expression => ExpressionColumn

instance : (e : Entity) → Layout e.Column
  | alert => inferInstanceAs (Layout AlertColumn)
  | expression => inferInstanceAs (Layout ExpressionColumn)

instance : (e : Entity) → Record e.Content e.Row e.Column
  | alert => inferInstanceAs (Record Alert AlertRow AlertColumn)
  | expression => inferInstanceAs (Record Expression ExpressionRow ExpressionColumn)

theorem entity_content (e : Entity) : Record.entity e.Content = e := by
  cases e <;> rfl

end Entity

variable {ι : Type} {kind : ι → Entity}

/-- Any number of repositories, each of its kind. -/
abbrev Registry (kind : ι → Entity) := (i : ι) → Repository (kind i).Content

/-- One repository is asked for something while the store is in some state. -/
structure Demand (kind : ι → Entity) where
  /-- The repository. -/
  name : ι
  /-- What it is asked for. -/
  ask : Ask (kind name).Content
  /-- The store as the call finds it. -/
  store : Store

namespace Registry

/-- The reply of the repository on which the demand is made. -/
def reply (R : Registry kind) (t : Demand kind) : Reply (Answer (kind t.name).Content) :=
  t.ask.reply (R t.name) t.store

/-- The opening or closing of a repository, if that is what is demanded and if it succeeds. -/
def move? [DecidableEq ι] (R : Registry kind) (i : ι) (t : Demand kind) : Option Operation :=
  if t.name = i then
    match (R.reply t).result with
    | .ok .moved => some t.ask.operation
    | _ => none
  else none

variable [DecidableEq ι]

/-- The repositories after a demand. -/
def after (R : Registry kind) (t : Demand kind) : Registry kind :=
  Function.update R t.name (t.ask.after (R t.name))

/-- The repositories after a run. -/
def run (R : Registry kind) (demands : List (Demand kind)) : Registry kind :=
  demands.foldl after R

/-- The successful openings and closings of a repository in a run. -/
def moves (R : Registry kind) (i : ι) : List (Demand kind) → List Operation
  | [] => []
  | t :: demands => (R.move? i t).toList ++ (R.after t).moves i demands

end Registry

/-- So many openings and closings, one after the other. -/
def alternation : State → Nat → List Operation
  | _, 0 => []
  | .closed, n + 1 => .start :: alternation .opened n
  | .opened, n + 1 => .stop :: alternation .closed n

/-- What holds of a run of repositories that are all closed at first. -/
structure LifecycleOf [DecidableEq ι] (R : Registry kind) (demands : List (Demand kind)) :
    Prop where
  /-- At every demand the repository replies as its gate says, and all others are as before. -/
  gated : ∀ before t later, demands = before ++ t :: later →
    Gated (kind t.name) (R.run before t.name) t.store t.ask
      ∧ ∀ i, i ≠ t.name → R.run (before ++ [t]) i = R.run before i
  /-- Opening and closing alternate, and opening comes first. -/
  alternate : ∀ i, R.moves i demands = alternation .closed (R.moves i demands).length
  /-- A repository is open if it was opened last. -/
  opened_iff : ∀ i, (R.run demands i).state = .opened ↔ (R.moves i demands).getLast? = some .start
  /-- Between two closings, with none in between, one opening wins. -/
  one_wins : ∀ i first stop₁ between stop₂ rest,
    demands = first ++ stop₁ :: (between ++ stop₂ :: rest) →
    (R.run first).move? i stop₁ = some .stop →
    (R.run (first ++ stop₁ :: between)).move? i stop₂ = some .stop →
    .stop ∉ (R.run (first ++ [stop₁])).moves i between →
    (R.run (first ++ [stop₁])).moves i between = [.start]
  /-- A query that was made is at any later time bound to the repository that made it, and to no
  other. -/
  bound : ∀ first maker between user rest q,
    demands = first ++ maker :: (between ++ user :: rest) →
    ((R.run first).reply maker).result = .ok (.made q) →
    (q.owner = (R.run (first ++ maker :: between) user.name).identity ↔ user.name = maker.name)

/-! ## Runs -/

namespace Registry

variable [DecidableEq ι] (R : Registry kind)

theorem after_of_ne {t : Demand kind} {i : ι} (h : i ≠ t.name) : R.after t i = R i :=
  Function.update_of_ne h _ R

theorem after_self (t : Demand kind) : R.after t t.name = t.ask.after (R t.name) :=
  Function.update_self ..

theorem run_append (demands demands' : List (Demand kind)) :
    R.run (demands ++ demands') = (R.run demands).run demands' :=
  List.foldl_append

theorem moves_append (i : ι) (demands demands' : List (Demand kind)) :
    R.moves i (demands ++ demands') = R.moves i demands ++ (R.run demands).moves i demands' := by
  induction demands generalizing R with
  | nil => rfl
  | cons t demands ih =>
    show (R.move? i t).toList ++ (R.after t).moves i (demands ++ demands') = _
    rw [ih, ← List.append_assoc]
    rfl

/-- No demand makes a repository another one. -/
theorem identity_run (i : ι) (demands : List (Demand kind)) :
    (R.run demands i).identity = (R i).identity := by
  induction demands generalizing R with
  | nil => rfl
  | cons t demands ih =>
    show ((R.after t).run demands i).identity = _
    rw [ih]
    by_cases hi : i = t.name
    · subst hi
      rw [after_self, Ask.identity_after]
    · rw [R.after_of_ne hi]

/-- One demand opens a closed repository, or closes an open one, or does neither. -/
theorem move?_cases (i : ι) (t : Demand kind) :
    (R.move? i t = none ∧ (R.after t i).state = (R i).state)
      ∨ (R.move? i t = some .start ∧ (R i).state = .closed ∧ (R.after t i).state = .opened)
      ∨ (R.move? i t = some .stop ∧ (R i).state = .opened ∧ (R.after t i).state = .closed) := by
  unfold move?
  by_cases hi : t.name = i
  · subst hi
    have hgate := gated_reply (R t.name) t.store t.ask
    rw [if_pos rfl, R.after_self]
    unfold reply
    by_cases hg : t.ask.IsGated
    · left
      refine ⟨?_, by rw [hgate.steady hg]⟩
      split
      · next hmoved => exact absurd hmoved (Ask.ne_moved_of_isGated hg t.store)
      · rfl
    · cases hask : t.ask with
      | start =>
        obtain ⟨_, hafter, hresult⟩ := hgate.start hask
        rw [hask] at hafter hresult
        rw [hresult]
        cases hs : (R t.name).state with
        | closed => exact .inr (.inl ⟨rfl, rfl, hafter⟩)
        | opened => exact .inl ⟨rfl, hafter⟩
      | stop =>
        obtain ⟨_, hafter, hresult⟩ := hgate.stop hask
        rw [hask] at hafter hresult
        rw [hresult]
        cases hs : (R t.name).state with
        | closed => exact .inl ⟨rfl, hafter⟩
        | opened => exact .inr (.inr ⟨rfl, rfl, hafter⟩)
      | createQuery q => exact absurd (hask ▸ Ask.isGated_createQuery q) hg
      | call c => exact absurd (hask ▸ Ask.isGated_call c) hg
  · rw [if_neg hi, R.after_of_ne (Ne.symm hi)]
    exact .inl ⟨rfl, rfl⟩

/-- Who closes a repository finds it open and leaves it closed. -/
theorem state_of_stop {i : ι} {t : Demand kind} (h : R.move? i t = some .stop) :
    (R i).state = .opened ∧ (R.after t i).state = .closed := by
  rcases R.move?_cases i t with ⟨hmove, _⟩ | ⟨hmove, _⟩ | ⟨_, hstates⟩
  · rw [hmove] at h
    cases h
  · rw [hmove] at h
    cases h
  · exact hstates

/-- In a run opening and closing alternate, whatever comes first. -/
theorem moves_eq_alternation (i : ι) (demands : List (Demand kind)) :
    R.moves i demands = alternation (R i).state (R.moves i demands).length := by
  induction demands generalizing R with
  | nil => cases (R i).state <;> rfl
  | cons t demands ih =>
    have hrest := ih (R.after t)
    unfold moves
    rcases R.move?_cases i t with
      ⟨hmove, hafter⟩ | ⟨hmove, hbefore, hafter⟩ | ⟨hmove, hbefore, hafter⟩
    · rw [hafter] at hrest
      rw [hmove]
      exact hrest
    · rw [hafter] at hrest
      rw [hmove, hbefore]
      exact congrArg (Operation.start :: ·) hrest
    · rw [hafter] at hrest
      rw [hmove, hbefore]
      exact congrArg (Operation.stop :: ·) hrest

/-- The last opening or closing tells the state; without any it is the one at first. -/
theorem state_run (i : ι) (demands : List (Demand kind)) :
    (R.run demands i).state = .opened ↔
      (R.moves i demands).getLast? = some .start
        ∨ (R.moves i demands = [] ∧ (R i).state = .opened) := by
  induction demands using List.reverseRecOn with
  | nil => simp [moves, run]
  | append_singleton demands t ih =>
    have hrun : R.run (demands ++ [t]) = (R.run demands).after t := R.run_append demands [t]
    have hmoves : R.moves i (demands ++ [t])
        = R.moves i demands ++ ((R.run demands).move? i t).toList := by
      rw [moves_append]
      exact congrArg (R.moves i demands ++ ·) (List.append_nil _)
    rw [hrun, hmoves]
    rcases (R.run demands).move?_cases i t with
      ⟨hmove, hafter⟩ | ⟨hmove, _, hafter⟩ | ⟨hmove, _, hafter⟩
    · rw [hmove, hafter, Option.toList_none, List.append_nil]
      exact ih
    · rw [hmove, hafter]
      simp
    · rw [hmove, hafter]
      simp

end Registry

/-- Without a closing the alternation that starts in the closed state has one opening at most. -/
theorem alternation_of_stop_notMem {n : Nat} (h : .stop ∉ alternation .closed n) : n ≤ 1 := by
  match n with
  | 0 => omega
  | 1 => omega
  | n + 2 => exact absurd (List.mem_cons_of_mem _ List.mem_cons_self) h

/-- Repositories as they are made: all of them are closed, and no two are the same. -/
structure Registry.Fresh (R : Registry kind) : Prop where
  /-- They are closed. -/
  closed : ∀ i, (R i).state = .closed
  /-- They are told apart. -/
  distinct : Function.Injective fun i => (R i).identity

/-- Every run of fresh repositories is one of opening, using and closing them. -/
theorem lifecycle_of_run [DecidableEq ι] {R : Registry kind} (hR : R.Fresh)
    (demands : List (Demand kind)) : LifecycleOf R demands where
  gated before t later _ := by
    refine ⟨?_, ?_⟩
    · have hgate := gated_reply (R.run before t.name) t.store t.ask
      rwa [Entity.entity_content] at hgate
    · intro i hi
      rw [R.run_append]
      exact (R.run before).after_of_ne hi
  alternate i := by
    have halternate := R.moves_eq_alternation i demands
    rwa [hR.closed i] at halternate
  opened_iff i := by
    rw [R.state_run, hR.closed i]
    simp
  one_wins i first stop₁ between stop₂ rest _ h₁ h₂ hnone := by
    -- the first closing leaves the repository closed, the second one finds it open
    have hclosed : (R.run (first ++ [stop₁]) i).state = .closed := by
      rw [R.run_append]
      exact ((R.run first).state_of_stop h₁).2
    have hopened : ((R.run (first ++ [stop₁])).run between i).state = .opened := by
      rw [← R.run_append, List.append_assoc]
      exact ((R.run (first ++ stop₁ :: between)).state_of_stop h₂).1
    have hmoves := (R.run (first ++ [stop₁])).moves_eq_alternation i between
    rw [Registry.state_run, hclosed] at hopened
    rw [hclosed] at hmoves
    generalize (R.run (first ++ [stop₁])).moves i between = moves at *
    have hle : moves.length ≤ 1 := alternation_of_stop_notMem (hmoves ▸ hnone)
    rw [hmoves]
    match hn : moves.length with
    | 0 =>
      rw [List.length_eq_zero_iff] at hn
      subst hn
      simp at hopened
    | 1 => rfl
    | n + 2 => omega
  bound first maker between user rest q _ hmade := by
    rw [Ask.owner_of_made hmade, R.identity_run, R.identity_run]
    exact ⟨fun h => (hR.distinct h).symm, fun h => by rw [h]⟩

/-- Two repositories of alerts and one of expressions. -/
def deskKind : Fin 3 → Entity
  | 2 => .expression
  | _ => .alert

/-- The repositories as they are made. -/
def desk : Registry deskKind := fun i => { identity := i, strategy := .generic }

/-- The first repository makes a query before it is closed. The query fails while it is closed, at
the second repository, and on a store that is locked, each time for another reason. -/
def deskDemands : List (Demand deskKind) :=
  [⟨0, .start, {}⟩, ⟨0, .createQuery {}, {}⟩, ⟨0, .stop, {}⟩,
    ⟨0, .call (.query ⟨0, {}⟩), { poisoned := true }⟩, ⟨0, .start, {}⟩, ⟨0, .start, {}⟩,
    ⟨1, .start, {}⟩, ⟨1, .call (.query ⟨0, {}⟩), { poisoned := true }⟩,
    ⟨0, .call (.query ⟨0, {}⟩), { others := { wait := true } }⟩]

theorem desk_lifecycle :
    LifecycleOf desk deskDemands
      ∧ desk.moves 0 deskDemands = [.start, .stop, .start]
      ∧ ((desk.run (deskDemands.take 3)).reply
          ⟨0, .call (.query ⟨0, {}⟩), { poisoned := true }⟩).result
        = .error (.state .alert .query .opened .closed)
      ∧ ((desk.run (deskDemands.take 7)).reply
          ⟨1, .call (.query ⟨0, {}⟩), { poisoned := true }⟩).result
        = .error (.foreignQuery .alert)
      ∧ ((desk.run (deskDemands.take 8)).reply
          ⟨0, .call (.query ⟨0, {}⟩), { others := { wait := true } }⟩).result
        = .error (.access (.store .locked)) := by
  have hfresh : desk.Fresh := ⟨fun _ => rfl, fun i j h => Fin.ext h⟩
  refine ⟨lifecycle_of_run hfresh deskDemands, ?_, ?_, ?_, ?_⟩
  · with_unfolding_all rfl
  · with_unfolding_all rfl
  · with_unfolding_all rfl
  · with_unfolding_all rfl

end AlertRegistry
