import AlertRegistry.Alert.Record
import AlertRegistry.Proofs.Alert.Row
import AlertRegistry.Proofs.Decimal.Finite
import AlertRegistry.Proofs.Filter
import AlertRegistry.Proofs.Page
import AlertRegistry.Proofs.Reading
import AlertRegistry.Proofs.Repository.Operations
import AlertRegistry.Proofs.Repository.Rollback
import AlertRegistry.Proofs.SideRecord

/-!
# Alerts that were read can be written

A row is read in many spellings and written in one. Whatever alert is read from a row has a row
again (`exists_renewed`): its threshold is finite, as every number is that a document can hold
(`Quantity.isFinite_of_ofString?`), and its extension map is that of a side-record.
-/

namespace AlertRegistry

open Json (Tree)

/-! ## Thresholds -/

theorem Json.Tree.isFinite_of_float? {t : Tree} {x : Float} (h : t.float? = some x) :
    x.isFinite = true := by
  cases t with
  | numeral n =>
    unfold Tree.float? at h
    dsimp only at h
    cases hinteger : n.integer? with
    | none =>
      rw [hinteger] at h
      exact Decimal.Numeral.isFinite_of_float? h
    | some k =>
      rw [hinteger] at h
      cases h
      obtain ⟨hlo, hhi⟩ := Decimal.Numeral.bounds_of_integer? hinteger
      exact Decimal.isFinite_ofInt hlo hhi
  | _ => cases h

/-- The threshold of a document is finite, however its number is spelled. -/
theorem Quantity.isFinite_of_ofString? {s : String} {q : Quantity} (h : ofString? s = some q) :
    q.value.isFinite = true := by
  obtain ⟨t, _, h⟩ := Option.bind_eq_some_iff.1 h
  obtain ⟨fields, _, h⟩ := Option.bind_eq_some_iff.1 h
  split at h
  · obtain ⟨x, hx, h⟩ := Option.bind_eq_some_iff.1 h
    -- the number is kept, whatever the unit is
    have hvalue : q.value = x := by
      extract_lets finish at h
      have hfinish : ∀ u, finish u = some q → q.value = x := by
        intro u h
        cases h
        rfl
      split at h
      · exact hfinish none h
      · exact hfinish none h
      · obtain ⟨u, _, h⟩ := Option.bind_eq_some_iff.1 h
        exact hfinish u h
    rw [hvalue]
    exact Json.Tree.isFinite_of_float? hx
  · cases h

/-! ## Names -/

theorem Context.name_of_ofName? {s : String} {c : Context} (h : ofName? s = some c) :
    c.name = s := by
  unfold ofName? at h
  split at h <;> cases h <;> rfl

theorem Operator.name_of_ofName? {s : String} {o : Operator} (h : ofName? s = some o) :
    o.name = s := by
  unfold ofName? at h
  split at h <;> cases h <;> rfl

namespace AlertRow

/-! ## What a row says -/

/-- What each text of the row is read as, field by field. -/
structure Says (r : AlertRow) (a : Alert) : Prop where
  /-- The identifier, in any spelling. -/
  id : Uuid.ofString? r.id = some a.id
  /-- The name. -/
  name : a.name = r.name
  /-- The cluster. -/
  cluster : a.cluster = r.cluster
  /-- The service. -/
  service : a.service = r.service
  /-- The context. -/
  context : Context.ofName? r.context = some a.context
  /-- The metric. -/
  metric : a.metric = r.metric
  /-- The statistic. -/
  statistic : a.statistic = r.statistic
  /-- The period, in any components. -/
  period : Period.ofString r.period = .ok a.period
  /-- The comparison. -/
  operator : Operator.ofName? r.operator = some a.operator
  /-- The threshold, in any document. -/
  threshold : Quantity.ofString? r.quantity = some a.threshold
  /-- The extension map. -/
  extensions : a.extensions = SideRecord.toExtensions r.side

variable {r : AlertRow} {a : Alert}

theorem orError_eq_ok {β : Type} {e : RowError} {x : Option β} {b : β}
    (h : orError e x = .ok b) : x = some b := by
  cases x with
  | none => cases h
  | some b' =>
    cases h
    rfl

theorem mapError_eq_ok {ε ε' β : Type} {f : ε → ε'} {x : Except ε β} {b : β}
    (h : x.mapError f = .ok b) : x = .ok b := by
  cases x with
  | error e => cases h
  | ok b' =>
    cases h
    rfl

theorem says_of_toAlert (h : r.toAlert = .ok a) : r.Says a := by
  obtain ⟨id, hid, h⟩ := bind_eq_ok h
  obtain ⟨context, hcontext, h⟩ := bind_eq_ok h
  obtain ⟨operator, hoperator, h⟩ := bind_eq_ok h
  obtain ⟨period, hperiod, h⟩ := bind_eq_ok h
  obtain ⟨threshold, hthreshold, h⟩ := bind_eq_ok h
  cases h
  exact {
    id := orError_eq_ok hid
    name := rfl
    cluster := rfl
    service := rfl
    context := orError_eq_ok hcontext
    metric := rfl
    statistic := rfl
    period := mapError_eq_ok hperiod
    operator := orError_eq_ok hoperator
    threshold := orError_eq_ok hthreshold
    extensions := rfl }

/-! ## Rows that are written anew -/

/-- The integers of the side-record have 64 bits. -/
def Fits (r : AlertRow) : Prop :=
  ∀ side ∈ r.side, side.Fits

/-- The second row is written for the alert that was read from the first one. -/
structure IsRenewed (r : AlertRow) (a : Alert) (r' : AlertRow) : Prop where
  /-- The identifier is the one that was read, in its own spelling. -/
  id : Uuid.ofString? r.id = some a.id ∧ r'.id = toString a.id
  /-- The name stays. -/
  name : r'.name = r.name
  /-- The cluster stays. -/
  cluster : r'.cluster = r.cluster
  /-- The service stays. -/
  service : r'.service = r.service
  /-- The name of the context stays. -/
  context : r'.context = r.context
  /-- The metric stays. -/
  metric : r'.metric = r.metric
  /-- The statistic stays. -/
  statistic : r'.statistic = r.statistic
  /-- The name of the operator stays. -/
  operator : r'.operator = r.operator
  /-- The period is as long as it was. -/
  period : Period.ofString r'.period = Period.ofString r.period
  /-- The side-record stays, if there is one. -/
  side : r'.side = r.side
  /-- The row is not stored yet. -/
  version : r'.version = 0
  /-- It is read as the alert was, up to the number of the threshold, which is still finite. -/
  readable : ∃ x : Float, x.isFinite = true
    ∧ r'.toAlert = .ok { a with threshold := { a.threshold with value := x } }

/-- An alert that was read from a row has a row. -/
theorem exists_renewed (hfits : r.Fits) (h : r.toAlert = .ok a) :
    ∃ r', ofAlert a = .ok r' ∧ r.IsRenewed a r' := by
  have htold := says_of_toAlert h
  have hfinite := Quantity.isFinite_of_ofString? htold.threshold
  have hside : SideRecord.ofExtensions a.extensions = .ok r.side := by
    rw [htold.extensions]
    exact SideRecord.ofExtensions_toExtensions hfits
  refine ⟨rowOf a r.side, ofAlert_eq_ok_iff.2 ⟨hfinite, r.side, hside, rfl⟩, ?_⟩
  obtain ⟨b, hb⟩ := Double.isFinite_iff.1 hfinite
  obtain ⟨x, hx, hden⟩ := toAlert_rowOf hb r.side
  exact {
    id := ⟨htold.id, rfl⟩
    name := htold.name
    cluster := htold.cluster
    service := htold.service
    context := Context.name_of_ofName? htold.context
    metric := htold.metric
    statistic := htold.statistic
    operator := Operator.name_of_ofName? htold.operator
    period := by
      rw [htold.period]
      exact Period.ofString_toString a.period
    side := rfl
    version := rfl
    readable := by
      -- the number is written with its shortest digits, and may be read as another one
      refine ⟨x, hden.isFinite, ?_⟩
      rw [hx]
      unfold restored
      rw [← htold.extensions] }

end AlertRow

/-! ## What a repository gives -/

section

variable {α ρ γ : Type} [Layout γ] [Record α ρ γ]

/-- The repository gives the record, under an identifier or on the page of a query. -/
inductive Repository.Gives (r : Repository α) (s : Store) (a : α) : Prop
  /-- It was looked up. -/
  | get {id : Uuid} (h : (r.get id s).result = .ok (some a))
  /-- It is on the page of a query. -/
  | query {q : BoundQuery} {found : QueryResult α} (h : (r.query q s).result = .ok found)
    (ha : a ∈ found.values)

/-- A tuple in sight of the connection is read as a row of the record. -/
def Store.HasRecord (s : Store) (a : α) : Prop :=
  ∃ t ∈ (Record.table α s.view).tuples, ∃ row,
    Record.readRow α s.view t = .ok row ∧ Record.ofRow row = .ok a

namespace Repository

variable {r : Repository α} {s : Store} {a : α}

theorem hasRecord_of_get {id : Uuid} (h : (r.get id s).result = .ok (some a)) : s.HasRecord a := by
  revert h
  unfold get whenOpen
  cases r.requireOpen .get with
  | error e => exact nofun
  | ok =>
    dsimp only
    unfold whenSound
    split
    · exact nofun
    · split
      · exact nofun
      · exact nofun
      · next row s' hread =>
        have hfind := Store.read_eq_ok hread
        unfold findRow at hfind
        intro h
        split at hfind
        · cases hfind
        · next t ht =>
          obtain ⟨row', hrow, hsome⟩ := map_eq_ok hfind
          cases hsome
          refine ⟨t, List.mem_of_find?_eq_some ht, row, hrow, ?_⟩
          dsimp only at h
          rw [decode_eq] at h
          exact toOption_eq_some_iff.1 (Except.ok.inj h)

omit [Layout γ] in
theorem hasRecord_of_query {q : BoundQuery} {found : QueryResult α}
    (h : (r.query q s).result = .ok found) (ha : a ∈ found.values) : s.HasRecord a := by
  revert h
  unfold query whenOpen
  cases r.requireOpen .query with
  | error e => exact nofun
  | ok =>
    dsimp only
    split
    · exact nofun
    · unfold whenSound
      split
      · exact nofun
      · split
        · exact nofun
        · next page s' hread =>
          intro h
          cases h
          have hpage := Store.read_eq_ok hread
          rw [fetchPage_eq_select] at hpage
          obtain ⟨selected, hselect, hpage⟩ := bind_eq_ok hpage
          obtain ⟨rows, hrows, hpage⟩ := bind_eq_ok hpage
          cases hpage
          rw [values_decodePage] at ha
          obtain ⟨row, hrow, hof⟩ := List.mem_filterMap.1 ha
          obtain ⟨t, ht, hread⟩ := (mem_of_mapM hrows).1 hrow
          refine ⟨t, ?_, row, hread, toOption_eq_some_iff.1 hof⟩
          -- what is on the page was selected, and what was selected is in the table
          have hmem := (slice_isInfix _ _ selected).subset ht
          rw [Filter.eq_filter_of_select hselect] at hmem
          exact List.mem_of_mem_filter hmem

/-- Whatever a repository gives is that of a row. -/
theorem Gives.hasRecord (h : r.Gives s a) : s.HasRecord a := by
  cases h with
  | get h => exact hasRecord_of_get h
  | query h ha => exact hasRecord_of_query h ha

/-- A record with a row is never refused for having none. -/
theorem upsert_ne_record {row : ρ} (ha : Record.toRow a = .ok row) (now : Int) (id : Uuid)
    (e : RecordError) : (r.upsert now a s).result ≠ .error (.record id e) := by
  intro h
  by_cases ho : r.state = .opened
  · have hcases := upsert_error_cases ho h
    generalize hx : RepositoryError.record id e = x at hcases
    generalize (r.upsert now a s).store = left at hcases
    -- all other failures are told in another way
    cases hcases with
    | record ha' =>
      rw [ha] at ha'
      cases ha'
    | poisoned hs => cases hx
    | begin ha hb => cases hx
    | version ha hb hr => cases hx
    | save ha hb hr hsave =>
      rcases saveAndCommit_error hsave with rfl | ⟨e', rfl⟩
      · unfold versionError at hx
        split at hx <;> cases hx
      · cases hx
  · unfold upsert whenOpen requireOpen at h
    rw [if_neg ho] at h
    cases h

end Repository

end

/-! ## Alerts that a repository gives -/

/-- The integers in the table of side-records have 64 bits. -/
def Database.SidesFit (db : Database) : Prop :=
  ∀ t ∈ db.sides.tuples, ∀ c n, t c = .integer n → Text.FitsInt64 n

theorem Cell.fits_of_readInteger? {c : Cell} (hc : ∀ n, c = .integer n → Text.FitsInt64 n)
    {index : Nat} {column : String} {m : Option Int} (h : c.readInteger? index column = .ok m) :
    ∀ n ∈ m, Text.FitsInt64 n := by
  intro n hn
  unfold readInteger? at h
  split at h
  · cases h
    cases hn
  · obtain ⟨k, hk, rfl⟩ := map_eq_ok h
    cases hn
    exact hc n (readInteger_eq_ok hk)

theorem SideRecord.fits_of_ofTuple {t : Tuple SideColumn}
    (ht : ∀ c n, t c = .integer n → Text.FitsInt64 n) {side : Option SideRecord}
    (h : ofTuple t = .ok side) : ∀ r ∈ side, r.Fits := by
  intro r hr
  obtain ⟨id, _, h⟩ := bind_eq_ok h
  cases id with
  | none =>
    cases h
    cases hr
  | some id =>
    obtain ⟨severity, _, h⟩ := bind_eq_ok h
    obtain ⟨recipient, _, h⟩ := bind_eq_ok h
    obtain ⟨attempts, hattempts, h⟩ := bind_eq_ok h
    obtain ⟨freshness, hfreshness, h⟩ := bind_eq_ok h
    cases h
    cases hr
    exact {
      attempts := Cell.fits_of_readInteger? (ht .attempts) hattempts
      freshness := Cell.fits_of_readInteger? (ht .freshness) hfreshness }

/-- The side-record of a row is read from its tuple. -/
theorem AlertRow.side_of_read {db : Database} {t : Tuple AlertColumn} {r : AlertRow}
    (h : AlertRow.read db t = .ok r) {side : SideRecord} (hside : r.side = some side) :
    ∃ u ∈ db.sides.tuples, SideRecord.ofTuple u = .ok (some side) := by
  unfold AlertRow.read AlertRow.ofTuple at h
  extract_lets readColumns at h
  -- the columns of the alert have no part in it
  have hcolumns : ∀ x, readColumns x = .ok r → x = some side := by
    intro x hx
    rw [← hside]
    iterate 13 obtain ⟨_, _, hx⟩ := bind_eq_ok hx
    cases hx
    rfl
  split at h
  · cases hcolumns none h
  · next u hu =>
    obtain ⟨x, hx, h⟩ := bind_eq_ok h
    cases hcolumns x h
    exact ⟨u, List.mem_of_find?_eq_some hu, hx⟩

theorem AlertRow.fits_of_read {db : Database} (hdb : db.SidesFit) {t : Tuple AlertColumn}
    {r : AlertRow} (h : AlertRow.read db t = .ok r) : r.Fits := by
  intro side hside
  obtain ⟨u, hu, hread⟩ := side_of_read h hside
  exact SideRecord.fits_of_ofTuple (hdb u hu) hread side rfl

/-- Whatever alert was read can be written. The row it gets has the same names, the identifier in
its own spelling, a period as long, the side-record if there was one, and the version of a row that
is not stored yet, and it is read again. So an alert that a repository gives is never refused for
having no row. -/
theorem readable_alerts_are_writable :
    (∀ (r : AlertRow) (a : Alert), r.Fits → r.toAlert = .ok a →
      ∃ r', AlertRow.ofAlert a = .ok r' ∧ r.IsRenewed a r')
    ∧ ∀ (reader : Repository Alert) (s : Store) (a : Alert), s.view.SidesFit →
      reader.Gives s a → ∀ (writer : Repository Alert) (now : Int) (s' : Store) (id : Uuid)
        (e : RecordError), (writer.upsert now a s').result ≠ .error (.record id e) := by
  constructor
  · intro r a hfits h
    exact AlertRow.exists_renewed hfits h
  · intro reader s a hsides hgives writer now s' id e
    obtain ⟨t, _, row, hread, hrow⟩ := hgives.hasRecord
    obtain ⟨r', hr', _⟩ := AlertRow.exists_renewed (AlertRow.fits_of_read hsides hread) hrow
    exact Repository.upsert_ne_record hr' now id e

/-- A row with texts that are never written: an identifier in braces and upper case, a period in
days and hours, and a threshold without field names. -/
def oddRow : AlertRow where
  id := "\x7bAAAAAAAA-BBBB-4CCC-8DDD-EEEEEEEEEEEE\x7d"
  name := "load"
  cluster := "main"
  service := "web"
  context := "HOST"
  metric := "load"
  statistic := "avg"
  period := "P1DT2H"
  operator := "LESS_THAN"
  quantity := " [15e-1, null] "
  side := some { attempts := some 3 }

/-- A store with the odd row alone. -/
def oddStore : Store where
  committed := {
    alerts := { tuples := [oddRow.tuple (.integer 1) (.integer 0) (.integer 0)] }
    sides := { tuples := oddRow.side.toList.map (SideRecord.tuple oddRow.id) } }

theorem oddStore_sidesFit : oddStore.view.SidesFit := by
  intro t ht c n hn
  cases List.mem_singleton.1 ht
  cases c with
  | attempts =>
    cases hn
    decide
  | _ => cases hn

/-- The odd row gets an identifier in lower case, and the alert that a query finds in it can be
written. -/
theorem odd_row_is_renewed :
    (∃ a r', oddRow.toAlert = .ok a ∧ AlertRow.ofAlert a = .ok r'
      ∧ r'.id = "aaaaaaaa-bbbb-4ccc-8ddd-eeeeeeeeeeee" ∧ r'.side = some { attempts := some 3 }
      ∧ Period.ofString r'.period = Period.ofString "P1DT2H")
    ∧ ∃ a, Repository.openAlerts.Gives oddStore a
      ∧ ∀ now s' id e, (Repository.openAlerts.upsert now a s').result ≠ .error (.record id e) := by
  obtain ⟨renewed, writable⟩ := readable_alerts_are_writable
  constructor
  · have hread : oddRow.toAlert.toOption.isSome = true := by decide +kernel
    obtain ⟨a, ha⟩ := Option.isSome_iff_exists.1 hread
    have hfits : oddRow.Fits := by
      intro side hside
      cases hside
      exact ⟨by decide, by decide⟩
    obtain ⟨r', hr', hrenewed⟩ := renewed oddRow a hfits (toOption_eq_some_iff.1 ha)
    have hid : (Uuid.ofString? oddRow.id).map toString
        = some "aaaaaaaa-bbbb-4ccc-8ddd-eeeeeeeeeeee" := by
      decide +kernel
    rw [hrenewed.id.1] at hid
    exact ⟨a, r', toOption_eq_some_iff.1 ha, hr', hrenewed.id.2.trans (Option.some.inj hid),
      hrenewed.side, hrenewed.period⟩
  · let q := Repository.openAlerts.bind {}
    have hfound : (Repository.openAlerts.query q oddStore).result.toOption.map (·.values.length)
        = some 1 := by
      decide +kernel
    obtain ⟨found, hquery, hlength⟩ := Option.map_eq_some_iff.1 hfound
    obtain ⟨a, ha⟩ := List.length_eq_one_iff.1 hlength
    have hgives : Repository.openAlerts.Gives oddStore a :=
      .query (toOption_eq_some_iff.1 hquery) (ha ▸ List.mem_singleton_self a)
    exact ⟨a, hgives, writable _ oddStore a oddStore_sidesFit hgives _⟩

end AlertRegistry
