import AlertRegistry.Proofs.Alert.Row
import AlertRegistry.Proofs.Connections
import AlertRegistry.Proofs.Saving

/-!
# Versions guard the rows

Writers take turns on a store, each on a connection of its own, and save any rows, of both kinds and
in any versions, in a transaction or without one. What they are answered and what they leave is
decided by the stored versions alone (`Connections.AtRest.takeTurns`), one save after the other:
`Saving.after` is the database after a list of saves.

An accepted save makes a version that is one larger than the one that it carries, and nothing else
changes the version under its key (`Saving.versionAt_effect`). So versions only grow, no two saves
of one row in one version are both accepted (`Saving.accepted_once`), and the save that overwrites
an accepted one carries just the version which that one made (`Saving.accepted_after`).
-/

namespace AlertRegistry

/-- The stored versions can still grow. -/
def Database.HasRoom (db : Database) : Prop :=
  ∀ entity key n, db.versionAt entity key = some (.integer n) → n < Text.maxInt64

namespace Saving

/-! ## One save after the other -/

/-- Both saves are of one row. -/
def SameRow (q q' : Saving) : Prop :=
  q'.entity = q.entity ∧ q'.key = q.key

instance (q q' : Saving) : Decidable (q.SameRow q') :=
  inferInstanceAs (Decidable (_ ∧ _))

/-- The answer to a save. -/
def answer (db : Database) (q : Saving) : Except RepositoryError Unit :=
  if q.Fits db then .ok () else .error q.refusal

/-- The database after a save, accepted or not. -/
def effect (db : Database) (q : Saving) : Database :=
  if q.Fits db then q.apply db else db

/-- The database after saves. -/
def after (db : Database) (qs : List Saving) : Database :=
  qs.foldl effect db

/-- The answers to saves. -/
def answers : Database → List Saving → List (Except RepositoryError Unit)
  | _, [] => []
  | db, q :: qs => q.answer db :: answers (q.effect db) qs

variable {db : Database} {q q' : Saving} {qs : List Saving}

theorem after_append (db : Database) (qs qs' : List Saving) :
    after db (qs ++ qs') = after (after db qs) qs' :=
  List.foldl_append

theorem after_cons (db : Database) (q : Saving) (qs : List Saving) :
    after db (q :: qs) = after (q.effect db) qs :=
  rfl

/-! ## The versions of a row -/

/-- An accepted save makes the next version of its row. -/
theorem versionAt_apply_self (hfits : q.Fits db) :
    (q.apply db).versionAt q.entity q.key = some (.integer (q.version + 1)) := by
  cases q with
  | alert now r => exact Table.versionAt_write_self (w := r.sheet) hfits now
  | expression now r => exact Table.versionAt_write_self (w := r.sheet) hfits now

/-- It leaves the versions of all other rows. -/
theorem versionAt_apply_of_ne (db : Database) {entity : Entity} {key : String}
    (hne : ¬ (q.entity = entity ∧ q.key = key)) :
    (q.apply db).versionAt entity key = db.versionAt entity key := by
  cases q with
  | alert now r =>
    cases entity with
    | alert => exact Table.versionAt_write_of_ne db.alerts now fun h => hne ⟨rfl, h.symm⟩
    | expression => rfl
  | expression now r =>
    cases entity with
    | alert => rfl
    | expression => exact Table.versionAt_write_of_ne db.expressions now fun h => hne ⟨rfl, h.symm⟩

/-- A save changes the version of a row only by being accepted for it. -/
theorem versionAt_effect (db : Database) (q : Saving) (entity : Entity) (key : String) :
    (q.effect db).versionAt entity key
      = if q.Fits db ∧ q.entity = entity ∧ q.key = key then some (.integer (q.version + 1))
        else db.versionAt entity key := by
  unfold effect
  by_cases hfits : q.Fits db
  · rw [if_pos hfits]
    by_cases hrow : q.entity = entity ∧ q.key = key
    · obtain ⟨rfl, rfl⟩ := hrow
      rw [if_pos ⟨hfits, rfl, rfl⟩, versionAt_apply_self hfits]
    · rw [if_neg fun h => hrow h.2, versionAt_apply_of_ne db hrow]
  · rw [if_neg hfits, if_neg fun h => hfits h.1]

theorem versionAt_effect_self (hfits : q.Fits db) :
    (q.effect db).versionAt q.entity q.key = some (.integer (q.version + 1)) := by
  rw [versionAt_effect, if_pos ⟨hfits, rfl, rfl⟩]

/-- A version is what a save carries that is accepted over it. -/
theorem eq_version_of_fits {n : Int} (hfits : q.Fits db)
    (hat : db.versionAt q.entity q.key = some (.integer n)) : q.version = n := by
  unfold Fits at hfits
  rw [hat] at hfits
  split at hfits
  · cases hfits
  · exact (Cell.integer.inj (Option.some.inj hfits)).symm

/-- Versions do not go back. -/
theorem exists_versionAt_after {entity : Entity} {key : String} {n : Int}
    (hat : db.versionAt entity key = some (.integer n)) (qs : List Saving) :
    ∃ m, n ≤ m ∧ (after db qs).versionAt entity key = some (.integer m) := by
  induction qs generalizing db n with
  | nil => exact ⟨n, Int.le_refl n, hat⟩
  | cons q qs ih =>
    rw [after_cons]
    have heffect := versionAt_effect db q entity key
    split at heffect
    · next hrow =>
      obtain ⟨hfits, rfl, rfl⟩ := hrow
      have hversion := eq_version_of_fits hfits hat
      obtain ⟨m, hle, hm⟩ := ih heffect
      exact ⟨m, by omega, hm⟩
    · exact ih (heffect.trans hat)

/-- A version stays while no save of its row is accepted. -/
theorem versionAt_after_of_not_fits {entity : Entity} {key : String}
    (h : ∀ pre m post, qs = pre ++ m :: post → m.entity = entity ∧ m.key = key →
      ¬ m.Fits (after db pre)) :
    (after db qs).versionAt entity key = db.versionAt entity key := by
  induction qs generalizing db with
  | nil => rfl
  | cons q qs ih =>
    have hnot : ¬ (q.Fits db ∧ q.entity = entity ∧ q.key = key) :=
      fun hq => h [] q qs rfl hq.2 hq.1
    rw [after_cons, ih, versionAt_effect, if_neg hnot]
    intro pre m post hqs hrow
    exact h (q :: pre) m post (by rw [hqs]; rfl) hrow

/-- Of the saves of one row in one version at most one is accepted. -/
theorem accepted_once (hsame : q.SameRow q') (hversion : q'.version = q.version)
    (hfits : q.Fits db) (mid : List Saving) : ¬ q'.Fits (after db (q :: mid)) := by
  intro hfits'
  rw [after_cons] at hfits'
  obtain ⟨m, hle, hm⟩ := exists_versionAt_after (versionAt_effect_self hfits) mid
  rw [← hsame.1, ← hsame.2] at hm
  have := eq_version_of_fits hfits' hm
  omega

/-- The next save of a row that is accepted carries the version that the last one made. -/
theorem accepted_after (hsame : q.SameRow q') (hfits : q.Fits db) {mid : List Saving}
    (hmid : ∀ pre m post, mid = pre ++ m :: post → q.SameRow m → ¬ m.Fits (after db (q :: pre)))
    (hfits' : q'.Fits (after db (q :: mid))) : q'.version = q.version + 1 := by
  rw [after_cons] at hfits'
  have hat : (after (q.effect db) mid).versionAt q.entity q.key
      = some (.integer (q.version + 1)) := by
    rw [versionAt_after_of_not_fits hmid, versionAt_effect_self hfits]
  rw [← hsame.1, ← hsame.2] at hat
  exact eq_version_of_fits hfits' hat

/-! ## Room for versions -/

/-- Versions that are small enough leave room for any saves up to a number. -/
theorem hasRoom_after {n : Nat} (hn : (n + qs.length : Nat) < Text.maxInt64)
    (h : ∀ entity key m, db.versionAt entity key = some (.integer m) → m ≤ n) :
    (after db qs).HasRoom := by
  induction qs generalizing db n with
  | nil =>
    intro entity key m hm
    have := h entity key m hm
    simp only [List.length_nil] at hn
    omega
  | cons q qs ih =>
    rw [after_cons]
    refine ih (n := n + 1) (by rw [List.length_cons] at hn; omega) ?_
    intro entity key m hm
    rw [versionAt_effect] at hm
    split at hm
    · next hrow =>
      obtain ⟨hfits, rfl, rfl⟩ := hrow
      have hnext := Cell.integer.inj (Option.some.inj hm)
      by_cases hv : q.version = 0
      · omega
      · have hat : db.versionAt q.entity q.key = some (.integer q.version) := by
          unfold Fits at hfits
          rwa [if_neg hv] at hfits
        have := h _ _ _ hat
        omega
    · have := h entity key m hm
      omega

/-! ## On a connection -/

/-- The saves are done by a connection, one after the other. -/
def runAll : List Saving → Store → List (Except RepositoryError Unit) × Store
  | [], s => ([], s)
  | q :: qs, s =>
    let (a, s) := q.run s
    let (as, s) := runAll qs s
    (a :: as, s)

theorem effect_conforms (h : db.Conforms) (q : Saving) : (q.effect db).Conforms := by
  unfold effect
  split
  · next hfits => exact apply_conforms h hfits
  · exact h

theorem after_conforms (h : db.Conforms) (qs : List Saving) : (after db qs).Conforms := by
  induction qs generalizing db with
  | nil => exact h
  | cons q qs ih => exact ih (effect_conforms h q)

theorem run_eq {s : Store} (hs : s.Alone) (h : s.view.Conforms) (hroom : s.view.HasRoom)
    (q : Saving) : q.run s = (q.answer s.view, s.withView (q.effect s.view)) := by
  unfold answer effect
  by_cases hfits : q.Fits s.view
  · rw [if_pos hfits, if_pos hfits]
    refine run_of_fits hs h hfits ?_
    by_cases hv : q.version = 0
    · rw [hv]
      decide
    · refine hroom q.entity q.key q.version ?_
      unfold Fits at hfits
      rwa [if_neg hv] at hfits
  · rw [if_neg hfits, if_neg hfits, hs.withView_view]
    exact run_of_not_fits hs h hfits

/-- Saves that a connection does one after the other are answered, and change what it sees, one
after the other. -/
theorem runAll_eq {s : Store} (hs : s.Alone) (h : s.view.Conforms)
    (hroom : ∀ pre, pre <+: qs → (after s.view pre).HasRoom) :
    runAll qs s = (answers s.view qs, s.withView (after s.view qs)) := by
  induction qs generalizing s with
  | nil => exact Prod.ext rfl hs.withView_view.symm
  | cons q qs ih =>
    have hview := hs.view_withView (q.effect s.view)
    have hrest := ih (hs.withView (q.effect s.view))
      (by
        rw [hview]
        exact effect_conforms h q)
      (by
        intro pre hpre
        rw [hview]
        exact hroom (q :: pre) (List.cons_prefix_cons.2 ⟨rfl, hpre⟩))
    unfold runAll
    rw [run_eq hs h (hroom [] List.nil_prefix) q]
    dsimp only
    rw [hrest, hview, hs.withView_withView]
    rfl

end Saving

/-! ## Turns -/

/-- What a writer does in its turn. -/
structure Turn where
  /-- The position of its connection. -/
  connection : Nat
  /-- The saves are one transaction. -/
  inTransaction : Bool
  /-- The saves. -/
  saves : List Saving

namespace Turn

/-- The turn is taken on a connection. -/
def run (t : Turn) (s : Store) : Except StoreError (List (Except RepositoryError Unit)) × Store :=
  if t.inTransaction then
    match s.begin with
    | (.error e, s) => (.error e, s)
    | (.ok (), s) =>
      let (answers, s) := Saving.runAll t.saves s
      match s.commitOrAbort with
      | (.error e, s) => (.error e, s)
      | (.ok (), s) => (.ok answers, s)
  else
    let (answers, s) := Saving.runAll t.saves s
    (.ok answers, s)

/-- With or without a transaction, the saves are answered and done. -/
theorem run_eq {s : Store} (hs : s.Idle) (h : s.committed.Conforms) (t : Turn)
    (hroom : ∀ pre, pre <+: t.saves → (Saving.after s.committed pre).HasRoom) :
    t.run s = (.ok (Saving.answers s.committed t.saves),
      s.withView (Saving.after s.committed t.saves)) := by
  unfold run
  split
  · let begun : Store := { s with transaction := .writing s.committed false }
    have hall : Saving.runAll t.saves begun = (Saving.answers s.committed t.saves,
        begun.withView (Saving.after s.committed t.saves)) := Saving.runAll_eq hs.begun h hroom
    have hdone : (begun.withView (Saving.after s.committed t.saves)).commitOrAbort
        = (.ok (), s.withView (Saving.after s.committed t.saves)) := hs.commitOrAbort_eq _ false
    rw [hs.begin_eq]
    dsimp only
    rw [hall]
    dsimp only
    rw [hdone]
  · rw [← hs.view_eq] at h hroom ⊢
    rw [Saving.runAll_eq hs.toAlone h hroom]

end Turn

/-- The saves of turns, in their order. -/
def savesOf (turns : List Turn) : List Saving :=
  turns.flatMap Turn.saves

theorem savesOf_append (turns turns' : List Turn) :
    savesOf (turns ++ turns') = savesOf turns ++ savesOf turns' :=
  List.flatMap_append

/-- The connections after a turn. -/
def Connections.takeTurn (cs : Connections) (t : Turn) : Connections :=
  match cs.run t.connection t.run with
  | none => cs
  | some (_, cs) => cs

/-- What writers have done by taking turns on a store that held a database. -/
structure GuardedByVersions (cs : Connections) (db : Database) (turns : List Turn) : Prop where
  /-- Each turn was answered, and left the database, by the versions that were stored when it
  came. -/
  answered (pre : List Turn) (t : Turn) (post : List Turn) : turns = pre ++ t :: post →
    ∃ cs', (pre.foldl Connections.takeTurn cs).run t.connection t.run
        = some (.ok (Saving.answers (Saving.after db (savesOf pre)) t.saves), cs')
      ∧ cs'.AtRest (Saving.after db (savesOf (pre ++ [t])))
  /-- An accepted save of a row made the next version of it. -/
  next (pre : List Saving) (q : Saving) (post : List Saving) : savesOf turns = pre ++ q :: post →
    q.Fits (Saving.after db pre) →
    (Saving.after db (pre ++ [q])).versionAt q.entity q.key = some (.integer (q.version + 1))
  /-- It kept all later saves of the row in its own version from being accepted. -/
  once (pre : List Saving) (q : Saving) (mid : List Saving) (q' : Saving) (post : List Saving) :
    savesOf turns = pre ++ q :: (mid ++ q' :: post) → q.SameRow q' → q'.version = q.version →
    q.Fits (Saving.after db pre) → ¬ q'.Fits (Saving.after db (pre ++ q :: mid))
  /-- The one that was accepted after it carried the version which it had made. -/
  read (pre : List Saving) (q : Saving) (mid : List Saving) (q' : Saving) (post : List Saving) :
    savesOf turns = pre ++ q :: (mid ++ q' :: post) → q.SameRow q' →
    q.Fits (Saving.after db pre) → q'.Fits (Saving.after db (pre ++ q :: mid)) →
    (∀ mid₁ m mid₂, mid = mid₁ ++ m :: mid₂ → q.SameRow m →
      ¬ m.Fits (Saving.after db (pre ++ q :: mid₁))) →
    q'.version = q.version + 1

namespace Connections

variable {cs : Connections} {db : Database}

/-- A turn is taken on a store that nobody has locked. -/
theorem AtRest.takeTurn (h : cs.AtRest db) (hdb : db.Conforms) {t : Turn}
    (hi : t.connection < cs.length)
    (hroom : ∀ pre, pre <+: t.saves → (Saving.after db pre).HasRoom) :
    cs.run t.connection t.run
        = some (.ok (Saving.answers db t.saves), cs.takeTurn t)
      ∧ (cs.takeTurn t).AtRest (Saving.after db t.saves)
      ∧ (cs.takeTurn t).length = cs.length := by
  obtain ⟨cs', hrun, hrest, hlen⟩ := h.run_eq hi fun s hs hcommitted =>
    hcommitted ▸ t.run_eq hs (hcommitted.symm ▸ hdb) (hcommitted.symm ▸ hroom)
  have htake : cs.takeTurn t = cs' := by
    unfold Connections.takeTurn
    rw [hrun]
  rw [htake]
  exact ⟨hrun, hrest, hlen⟩

/-- After any turns the store is left with the database after their saves. -/
theorem AtRest.takeTurns (h : cs.AtRest db) (hdb : db.Conforms) {turns : List Turn}
    (hi : ∀ t ∈ turns, t.connection < cs.length)
    (hroom : ∀ pre, pre <+: savesOf turns → (Saving.after db pre).HasRoom) :
    (turns.foldl Connections.takeTurn cs).AtRest (Saving.after db (savesOf turns))
      ∧ (turns.foldl Connections.takeTurn cs).length = cs.length := by
  induction turns generalizing cs db with
  | nil => exact ⟨h, rfl⟩
  | cons t turns ih =>
    have hsaves : savesOf (t :: turns) = t.saves ++ savesOf turns := List.flatMap_cons
    rw [hsaves] at hroom ⊢
    obtain ⟨_, hrest, hlen⟩ := h.takeTurn hdb (hi t List.mem_cons_self) fun pre hpre =>
      hroom pre (hpre.trans (List.prefix_append ..))
    obtain ⟨hrest', hlen'⟩ := ih hrest (Saving.after_conforms hdb t.saves)
      (fun t' ht' => hlen.symm ▸ hi t' (List.mem_cons_of_mem t ht'))
      (by
        intro pre hpre
        rw [← Saving.after_append]
        exact hroom _ ((List.prefix_append_right_inj _).2 hpre))
    rw [Saving.after_append]
    exact ⟨hrest', hlen'.trans hlen⟩

end Connections

/-- Whatever rows writers save in their turns, in whichever versions, with or without transactions
and on whichever connections to a store that meets the conditions of its tables, the rows are
guarded by their versions. -/
theorem saves_are_guarded {cs : Connections} {db : Database} (h : cs.AtRest db) (hdb : db.Conforms)
    {turns : List Turn} (hi : ∀ t ∈ turns, t.connection < cs.length)
    (hroom : ∀ pre, pre <+: savesOf turns → (Saving.after db pre).HasRoom) :
    GuardedByVersions cs db turns where
  answered := by
    rintro pre t post rfl
    have hsaves : savesOf (pre ++ t :: post) = savesOf pre ++ (t.saves ++ savesOf post) := by
      rw [savesOf_append]
      rfl
    rw [hsaves] at hroom
    obtain ⟨hrest, hlen⟩ := h.takeTurns hdb (fun t' ht' => hi t' (List.mem_append_left _ ht'))
      fun p hp => hroom p (hp.trans (List.prefix_append ..))
    obtain ⟨hrun, hrest', _⟩ := hrest.takeTurn (Saving.after_conforms hdb (savesOf pre)) (t := t)
      (hlen.symm ▸ hi t (List.mem_append_right _ List.mem_cons_self))
      (by
        intro p hp
        rw [← Saving.after_append]
        exact hroom _ ((List.prefix_append_right_inj _).2 (hp.trans (List.prefix_append ..))))
    refine ⟨_, hrun, ?_⟩
    rw [savesOf_append, Saving.after_append]
    have hone : savesOf [t] = t.saves := List.flatMap_singleton ..
    rwa [hone]
  next := by
    intro pre q post _ hfits
    rw [Saving.after_append]
    exact Saving.versionAt_effect_self hfits
  once := by
    intro pre q mid q' post _ hsame hversion hfits
    rw [Saving.after_append]
    exact Saving.accepted_once hsame hversion hfits mid
  read := by
    intro pre q mid q' post _ hsame hfits hfits' hmid
    rw [Saving.after_append] at hfits'
    refine Saving.accepted_after hsame hfits ?_ hfits'
    intro mid₁ m mid₂ hsplit hrow
    rw [← Saving.after_append]
    exact hmid mid₁ m mid₂ hsplit hrow

/-- The row of an alert in a version. -/
def watchedRow (version : Int) : AlertRow :=
  { AlertRow.rowOf AlertRow.watchedAlert none with version }

/-- A writer saves a new row in a transaction. -/
def firstTurn : Turn where
  connection := 0
  inTransaction := true
  saves := [.alert 5 (watchedRow 0)]

/-- Another writer saves it twice in the version that it has read. -/
def staleTurn : Turn where
  connection := 1
  inTransaction := false
  saves := [.alert 6 (watchedRow 1), .alert 7 (watchedRow 1)]

/-- The first one of the two saves is accepted, and the second one is refused. -/
theorem stale_save_is_refused :
    ∃ cs', ([firstTurn].foldl Connections.takeTurn
        (List.replicate 2 { file := some "portal.db" })).run 1 staleTurn.run
        = some (.ok [.ok (), .error (.conflict AlertRow.watchedAlert.id (.version 1))], cs') := by
  have hroom : ∀ pre, pre <+: savesOf [firstTurn, staleTurn] →
      (Saving.after {} pre).HasRoom := by
    intro pre hpre
    have hlen : pre.length ≤ 3 := hpre.length_le
    refine Saving.hasRoom_after (n := 0) (by unfold Text.maxInt64; omega) ?_
    intro entity key m hm
    cases entity <;> cases hm
  have hguarded : GuardedByVersions _ {} [firstTurn, staleTurn] :=
    saves_are_guarded (Connections.atRest_replicate 2 "portal.db") .empty
      (by simp [firstTurn, staleTurn]) hroom
  obtain ⟨cs', hrun, _⟩ := hguarded.answered [firstTurn] staleTurn [] rfl
  have hanswers : Saving.answers (Saving.after {} (savesOf [firstTurn])) staleTurn.saves
      = [.ok (), .error (.conflict AlertRow.watchedAlert.id (.version 1))] := by
    with_unfolding_all rfl
  rw [hanswers] at hrun
  exact ⟨cs', hrun⟩

end AlertRegistry
