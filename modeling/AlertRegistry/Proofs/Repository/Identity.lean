import AlertRegistry.Proofs.Alert.Lawful
import AlertRegistry.Proofs.Alert.Renewal
import AlertRegistry.Proofs.Repository.Paging
import AlertRegistry.Proofs.Repository.Run
import AlertRegistry.Proofs.Saving

/-!
# Under which identifier a record is known

A query reads the identifier of a record from the key of its row, in whatever spelling the key is.
Looking it up, and writing it again, goes by the text in which the identifier is written. The two
agree (`Repository.Knows`) if each row that denotes a record is kept under the text of its
identifier (`Store.NamesRecords`), and only then.

Repositories keep alerts in that way. A row that is saved past them can be kept under any text, so
that an alert may be shown that is not found (`shouted_alert_is_not_found`). After any writes what
counts is under which texts the rows are kept (`shown_alerts_are_known`).
-/

namespace AlertRegistry

open StoredRecord (Keeps Admits stored)

/-! ## What is shown and what is found -/

section

variable {α ρ γ : Type} [Layout γ] [Record α ρ γ]

/-- The records on the pages of a size, one page after the other, as far as offsets reach. -/
def Repository.showAll (r : Repository α) (limit : UInt32) (s : Store) :
    Except RepositoryError (List α) :=
  ((alignedOffsets (rowsPerPage limit) (min (countRows α s.view) (2 ^ 32))).mapM fun o =>
    (r.query (r.bind { limit, offset := some (UInt32.ofNat o) }) s).result).map
      (List.flatMap QueryResult.values)

/-- The repository knows the records that are shown by their identifiers. -/
structure Repository.Knows (r : Repository α) (s : Store) (shown : List α) : Prop where
  /-- No two of them have the same. -/
  distinct : (shown.map Record.id).Nodup
  /-- Each is found under its own. -/
  found : ∀ a ∈ shown, (r.get (Record.id a) s).result = .ok (some a)
  /-- Written again each takes the place of a row, and no row is added. -/
  replaced : ∀ a ∈ shown, ∀ now, (r.upsert now a s).result = .ok .updated
    ∧ (r.count (r.upsert now a s).store).result = (r.count s).result

/-- Each row that denotes a record is kept under the text of its identifier. -/
def Store.NamesRecords (α : Type) {ρ γ : Type} [Record α ρ γ] (s : Store) : Prop :=
  ∀ t ∈ (Record.table α s.view).tuples, ∀ row, Record.readRow α s.view t = .ok row →
    ∀ a : α, Record.ofRow row = .ok a → Record.key α row = toString (Record.id a)

variable [StoredRecord α ρ γ] [LawfulRecord α ρ γ] {s : Store} {rows : List ρ} {r : Repository α}

theorem namesRecords_iff (h : Ready α s rows) : s.NamesRecords α ↔ ∀ row ∈ rows, ∀ a : α,
    Record.ofRow row = .ok a → Record.key α row = toString (Record.id a) := by
  have hkeeps : Keeps α s.view rows := h.view_eq ▸ h.keeps
  unfold Store.NamesRecords
  rw [LawfulRecord.tuples hkeeps, List.forall_mem_map]
  refine forall₂_congr fun row hrow => ?_
  rw [LawfulRecord.readRow hkeeps row hrow]
  simp only [Except.ok.injEq, forall_eq']

/-- The rows that are not shown stand behind all offsets. -/
theorem exists_showAll (h : Ready α s rows) (ho : r.state = .opened) (limit : UInt32) :
    ∃ k, r.showAll limit s = .ok ((rows.take k).filterMap fun row => (Record.ofRow row).toOption)
      ∧ (rows.length ≤ 2 ^ 32 → rows.length ≤ k) := by
  have hkeeps : Keeps α s.view rows := h.view_eq ▸ h.keeps
  let total := min rows.length (2 ^ 32)
  let found (o : Nat) : QueryResult α := (Repository.decodePage
    { rows := slice (some (UInt32.ofNat o)) limit rows, total := rows.length }).1
  have hquery : ∀ o, (r.query (r.bind { limit, offset := some (UInt32.ofNat o) }) s).result
      = .ok (found o) := by
    intro o
    rw [Repository.query_result ho h.sound, h.read_eq, fetchPage_eq hkeeps _ ⟨rfl, rfl, rfl, rfl⟩]
  have hpages : (alignedOffsets (rowsPerPage limit) total).mapM
      (fun o => (r.query (r.bind { limit, offset := some (UInt32.ofNat o) }) s).result)
      = .ok ((alignedOffsets (rowsPerPage limit) total).map found) := by
    rw [mapM_eq_ok_iff, List.forall₂_map_right_iff, List.forall₂_same]
    exact fun o _ => hquery o
  refine ⟨rowsPerPage limit * ((total + rowsPerPage limit - 1) / rowsPerPage limit), ?_, ?_⟩
  · unfold Repository.showAll
    rw [countRows_eq hkeeps, hpages]
    refine congrArg Except.ok ?_
    rw [← flatMap_slice_eq_take limit rows (Nat.min_le_right _ _), List.filterMap_flatMap,
      List.flatMap_map]
    exact List.flatMap_congr fun o _ => Repository.values_decodePage _
  · intro hlength
    have hall := le_mul_ceil (rowsPerPage_pos limit) total
    rwa [show total = rows.length from Nat.min_eq_left hlength] at hall ⊢

omit [Layout γ] [StoredRecord α ρ γ] [LawfulRecord α ρ γ] in
/-- The texts of the identifiers that are read are among the keys of the rows, in their order. -/
theorem texts_sublist_keys {l : List ρ} (hl : ∀ row ∈ l, ∀ a : α, Record.ofRow row = .ok a →
      Record.key α row = toString (Record.id a)) :
    ((l.filterMap fun row => (Record.ofRow row : Except RowError α).toOption).map
      fun a => toString (Record.id a)).Sublist (l.map (Record.key α)) := by
  induction l with
  | nil => exact .slnil
  | cons row l ih =>
    have ih := ih fun row' hrow' => hl row' (List.mem_cons_of_mem _ hrow')
    cases hof : (Record.ofRow row : Except RowError α) with
    | error e =>
      rw [List.filterMap_cons_none (by rw [hof]; rfl), List.map_cons]
      exact ih.cons _
    | ok a =>
      rw [List.filterMap_cons_some (by rw [hof]; rfl), List.map_cons, List.map_cons,
        hl row List.mem_cons_self a hof]
      exact ih.cons_cons _

/-- Records that are kept under the texts of their identifiers are known by them, provided that
they have rows to be written again. -/
theorem knows_of_namesRecords (h : Ready α s rows) (ho : r.state = .opened)
    (hmax : ∀ u ∈ rows, Record.version α u < Text.maxInt64)
    (hwritable : ∀ row ∈ rows, ∀ a : α, Record.ofRow row = .ok a →
      ∃ row', Record.toRow a = .ok row')
    (hnames : s.NamesRecords α) (k : Nat) :
    r.Knows s ((rows.take k).filterMap fun row => (Record.ofRow row).toOption) := by
  rw [namesRecords_iff h] at hnames
  have hnd : (rows.map (Record.key α)).Nodup := LawfulRecord.nodup h.keeps
  -- a record that is shown is the one of the row under the text of its identifier
  have hrow : ∀ a ∈ (rows.take k).filterMap fun row =>
        (Record.ofRow row : Except RowError α).toOption,
      ∃ row ∈ rows, Record.ofRow row = .ok a
        ∧ rowAt α (toString (Record.id a)) rows = some row := by
    intro a ha
    obtain ⟨row, hmem, hof⟩ := List.mem_filterMap.1 ha
    have hmem := List.mem_of_mem_take hmem
    have hof := toOption_eq_some_iff.1 hof
    exact ⟨row, hmem, hof, (rowAt_eq_some_iff h.keeps).2 ⟨hmem, hnames row hmem a hof⟩⟩
  constructor
  case distinct =>
    have hsub := texts_sublist_keys (α := α) (l := rows.take k)
      fun row hmem => hnames row (List.mem_of_mem_take hmem)
    have htexts := (hsub.trans ((List.take_sublist k rows).map _)).nodup hnd
    refine List.Nodup.of_map toString ?_
    rwa [List.map_map]
  case found =>
    intro a ha
    obtain ⟨row, _, hof, hat⟩ := hrow a ha
    rw [(Repository.get_spec h ho _).1, hat, Option.bind_some, hof]
    rfl
  case replaced =>
    intro a ha now
    obtain ⟨row, hmem, hof, hat⟩ := hrow a ha
    obtain ⟨row', hrow'⟩ := hwritable row hmem a hof
    obtain ⟨hresult, hready⟩ := Repository.upsert_spec h ho now hrow' hmax
    have hkey : Record.key α row' ∈ rows.map (Record.key α) := by
      rw [LawfulRecord.key_toRow hrow', ← rowAt_isSome, hat]
      rfl
    rw [hresult, if_pos hkey, (Repository.count_spec hready ho).1, (Repository.count_spec h ho).1]
    refine ⟨rfl, congrArg Except.ok ?_⟩
    unfold Keyed.put
    rw [key_writtenOver, if_pos hkey]
    exact List.length_map _

/-- If all records are shown and known, each is kept under the text of its identifier. -/
theorem namesRecords_of_knows (h : Ready α s rows) (ho : r.state = .opened)
    (hknows : r.Knows s (rows.filterMap fun row => (Record.ofRow row).toOption)) :
    s.NamesRecords α := by
  rw [namesRecords_iff h]
  intro row hmem a hof
  have hshown : a ∈ rows.filterMap fun row => (Record.ofRow row : Except RowError α).toOption :=
    List.mem_filterMap.2 ⟨row, hmem, toOption_eq_some_iff.2 hof⟩
  -- the row that is found under the identifier denotes the same record
  have hget := hknows.found a hshown
  rw [(Repository.get_spec h ho _).1] at hget
  obtain ⟨u, hat, hu⟩ := Option.bind_eq_some_iff.1 (Except.ok.inj hget)
  obtain ⟨humem, hukey⟩ := mem_of_rowAt α hat
  -- were it another row, the identifier would be shown twice
  by_contra hne
  have hdistinct := List.pairwise_filterMap.1 (List.pairwise_map.1 hknows.distinct)
  have hsymm : Std.Symm fun row row' : ρ => ∀ b : α, (Record.ofRow row).toOption = some b →
      ∀ b' : α, (Record.ofRow row').toOption = some b' → Record.id b ≠ Record.id b' :=
    ⟨fun _ _ hrows b hb b' hb' => (hrows b' hb' b hb).symm⟩
  refine hdistinct.forall humem hmem ?_ a hu a (toOption_eq_some_iff.2 hof) rfl
  rintro rfl
  exact hne hukey

end

/-! ## Writes of alerts -/

/-- A write of an alert. -/
inductive AlertWrite where
  /-- A repository creates or replaces an alert at a time. -/
  | upsert (repository : Repository Alert) (now : Int) (a : Alert)
  /-- A row is saved at a time, past all repositories. -/
  | save (now : Int) (row : AlertRow) (fits : row.Fits)

/-- A write on one of several connections. -/
structure Filling where
  /-- The position of the connection. -/
  connection : Nat
  /-- The write. -/
  write : AlertWrite

namespace AlertWrite

/-- The store after a write, accepted or not. -/
def effect (s : Store) : AlertWrite → Store
  | upsert r now a => (r.upsert now a s).store
  | save now row _ => (AlertRegistry.save Alert now row s).2

/-- The text under which a write keeps a row. -/
def text : AlertWrite → String
  | upsert _ _ a => toString a.id
  | save _ row _ => row.id

end AlertWrite

/-- The connections after a write. -/
def Connections.fill (cs : Connections) (f : Filling) : Connections :=
  match cs.run f.connection fun s => ((), f.write.effect s) with
  | none => cs
  | some (_, cs) => cs

/-- The store keeps the rows, under texts of a sort, none of them written more than `n` times. -/
structure Filled (P : String → Prop) (n : Nat) (s : Store) (rows : List AlertRow) : Prop
    extends Ready Alert s rows where
  /-- Versions count writes. -/
  versions : ∀ r ∈ rows, r.version ≤ n
  /-- The integers of side-records have 64 bits. -/
  fits : ∀ r ∈ rows, r.Fits
  /-- The texts are of the sort. -/
  texts : ∀ r ∈ rows, P r.id

/-- The version that a row has to carry to be saved. -/
def AlertRow.expected (id : String) (rows : List AlertRow) : Int :=
  ((rowAt Alert id rows).map AlertRow.version).getD 0

/-- A row in any other version does not fit. -/
theorem AlertRow.not_fits {db : Database} {rows : List AlertRow} (hk : db.KeepsAlerts rows)
    {r : AlertRow} (hv : r.version ≠ AlertRow.expected r.id rows) : ¬ db.alerts.Fits r.sheet := by
  intro hfits
  have hat : db.alerts.versionAt r.id
      = (rowAt Alert r.id rows).map fun u => Cell.integer u.version := by
    have hfind : db.alerts.find? (.text r.id) = (rowAt Alert r.id rows).map AlertRow.stored :=
      find?_table (α := Alert) hk r.id
    unfold Table.versionAt
    rw [hfind, Option.map_map]
    rfl
  have hfits : db.alerts.versionAt r.id
      = if r.version = 0 then none else some (.integer r.version) := hfits
  rw [hat] at hfits
  unfold AlertRow.expected at hv
  cases hrow : rowAt Alert r.id rows with
  | none =>
    rw [hrow] at hfits hv
    split at hfits
    · next hzero => exact hv hzero
    · cases hfits
  | some u =>
    rw [hrow] at hfits hv
    split at hfits
    · cases hfits
    · exact hv (Cell.integer.inj (Option.some.inj hfits)).symm

/-- It is refused, and the store stays as it is. -/
theorem AlertRow.save_unexpected {s : Store} {rows : List AlertRow} (hs : s.Alone)
    (hk : s.view.KeepsAlerts rows) (hp : s.view.AdmitsAlerts) (now : Int) {r : AlertRow}
    (hv : r.version ≠ AlertRow.expected r.id rows) : (save Alert now r s).2 = s := by
  have hconforms : s.view.alerts.Conforms := {
    permissive := hp.alerts
    accepted := by
      rw [hk.tuples, List.forall_mem_map]
      exact fun u hu => AlertRow.accept_stored (hk.written u hu) (hk.stamps u hu)
    isNaN := by
      rw [hk.tuples, List.forall_mem_map]
      exact fun u _ column => by cases column <;> rfl
    nodup := by
      rw [hk.tuples]
      exact Table.nodup_keys_stored AlertRow.keyOf_stored hk.nodup }
  have hnot := AlertRow.not_fits hk hv
  -- in version 0 its text is taken, in any other one no tuple is selected
  by_cases hzero : r.version = 0
  · have hinsert := Table.insert_of_not_fits hconforms hzero hnot now
    rw [save_of_insert_error (α := Alert) hzero
      (hs.execute_error (Database.insertAlert_of_error hinsert))]
  · have hupdate := Table.update_of_not_fits hconforms hzero hnot fun t =>
      r.tuple (.next r.version) (t .createdAt) (Cell.later (t .createdAt) (.integer now))
    have hstale := hs.execute_ok ((Database.updateAlerts_of_ok hupdate).trans (hk.finish 0))
    rw [hs.withView_view] at hstale
    rw [save_of_replace_none (α := Alert) hzero hstale]

namespace Filled

variable {P : String → Prop} {n : Nat} {s : Store} {rows : List AlertRow}

theorem of_idle {s₀ : Store} (h : Filled P n s₀ rows) (hs : s.Idle)
    (hdb : s.committed = s₀.committed) : Filled P n s rows where
  toIdle := hs
  keeps := hdb ▸ h.keeps
  admits := hdb ▸ h.admits
  versions := h.versions
  fits := h.fits
  texts := h.texts

theorem mono (h : Filled P n s rows) {n' : Nat} (hn : n ≤ n') : Filled P n' s rows where
  toReady := h.toReady
  versions r hr := by
    have := h.versions r hr
    omega
  fits := h.fits
  texts := h.texts

/-- There is room for another write. -/
theorem version_lt (h : Filled P n s rows) (hn : n < 2 ^ 63 - 1) :
    ∀ r ∈ rows, Record.version Alert r < Text.maxInt64 := by
  intro r hr
  have : r.version ≤ n := h.versions r hr
  show r.version < _
  unfold Text.maxInt64
  omega

/-- A row that is put under its text is written once more than the one that was there. -/
theorem put (h : Filled P n s rows) {s' : Store} {now : Int} {r : AlertRow} (hfits : r.Fits)
    (htext : P r.id) (hready : Ready Alert s' (Keyed.put (Record.key Alert)
      (writtenOver Alert now r (rowAt Alert r.id rows)) rows)) :
    ∃ rows', Filled P (n + 1) s' rows' := by
  let written := writtenOver Alert now r (rowAt Alert r.id rows)
  have hversion : written.version ≤ (n + 1 : Nat) :=
    version_writtenOver_le (α := Alert) r now
      fun old hold => h.versions old (mem_of_rowAt Alert hold).1
  have hside : ∀ old, (writtenOver Alert now r old).side = r.side := by
    intro old
    cases old <;> rfl
  have hid : written.id = r.id := key_writtenOver (α := Alert) now r _
  have hput : ∀ u ∈ Keyed.put (Record.key Alert) written rows,
      u.version ≤ (n + 1 : Nat) ∧ u.Fits ∧ P u.id := by
    intro u hu
    rcases Keyed.mem_put hu with rfl | hu
    · refine ⟨hversion, ?_, hid ▸ htext⟩
      unfold AlertRow.Fits
      rw [hside]
      exact hfits
    · have := h.versions u hu
      exact ⟨by omega, h.fits u hu, h.texts u hu⟩
  exact ⟨_, hready, fun u hu => (hput u hu).1, fun u hu => (hput u hu).2.1,
    fun u hu => (hput u hu).2.2⟩

theorem upsert (h : Filled P n s rows) (hn : n < 2 ^ 63 - 1) (r : Repository Alert) (now : Int)
    (a : Alert) (htext : P (toString a.id)) :
    ∃ rows', Filled P (n + 1) (r.upsert now a s).store rows' := by
  by_cases ho : r.state = .opened
  · cases ha : AlertRow.ofAlert a with
    | error e =>
      rw [(Repository.upsert_of_toRow_error r ho now ha s).2]
      exact ⟨rows, h.mono (Nat.le_succ n)⟩
    | ok row =>
      obtain ⟨_, side, hside, rfl⟩ := AlertRow.ofAlert_eq_ok_iff.1 ha
      exact h.put (SideRecord.fits_of_ofExtensions hside) htext
        (Repository.upsert_spec h.toReady ho now ha (h.version_lt hn)).2
  · rw [Repository.upsert_store_of_not_opened ho]
    exact ⟨rows, h.mono (Nat.le_succ n)⟩

theorem save (h : Filled P n s rows) (hn : n < 2 ^ 63 - 1) (now : Int) {r : AlertRow}
    (hfits : r.Fits) (htext : P r.id) :
    ∃ rows', Filled P (n + 1) (save Alert now r s).2 rows' := by
  have hkeeps : s.view.KeepsAlerts rows := h.view_eq ▸ h.keeps
  have hadmits : s.view.AdmitsAlerts := h.view_eq ▸ h.admits
  -- a row in the expected version is saved as an upsert would save it
  by_cases hv : r.version = AlertRow.expected r.id rows
  · obtain ⟨db', hsave, hadmits', hkeeps'⟩ :=
      save_eq (α := Alert) now r h.toAlone hkeeps hadmits (h.version_lt hn)
    have hr : Record.withVersion Alert r (AlertRow.expected r.id rows) = r := by
      rw [← hv]
      rfl
    have hsave : AlertRegistry.save Alert now r s = (.ok (), s.withView db') := by
      rw [← hsave]
      exact congrArg (AlertRegistry.save Alert now · s) hr.symm
    rw [hsave]
    exact h.put hfits htext (.of_idle h.toIdle hkeeps' hadmits')
  · rw [AlertRow.save_unexpected h.toAlone hkeeps hadmits now hv]
    exact ⟨rows, h.mono (Nat.le_succ n)⟩

/-- One write keeps the rows in order. -/
theorem effect (h : Filled P n s rows) (hn : n < 2 ^ 63 - 1) (w : AlertWrite) (htext : P w.text) :
    ∃ rows', Filled P (n + 1) (w.effect s) rows' := by
  cases w with
  | upsert r now a => exact h.upsert hn r now a htext
  | save now row fits => exact h.save hn now fits htext

end Filled

namespace Connections

variable {P : String → Prop} {n : Nat} {cs : Connections}

/-- Between the writes every connection is idle, and the committed database keeps the rows. -/
def IsFilled (P : String → Prop) (n : Nat) (cs : Connections) : Prop :=
  ∃ db rows, cs.AtRest db ∧ Filled P n { committed := db } rows

theorem IsFilled.at? (h : cs.IsFilled P n) {i : Nat} {s : Store} (hs : cs.at? i = some s) :
    ∃ rows, Filled P n s rows := by
  obtain ⟨db, rows, hrest, hfilled⟩ := h
  obtain ⟨hidle, hdb⟩ := hrest.idle_of_at? hs
  exact ⟨rows, hfilled.of_idle hidle hdb⟩

theorem IsFilled.fill (h : cs.IsFilled P n) (hn : n < 2 ^ 63 - 1) {f : Filling}
    (hi : f.connection < cs.length) (htext : P f.write.text) : (cs.fill f).IsFilled P (n + 1) := by
  obtain ⟨s, hs⟩ := exists_at? hi
  obtain ⟨rows, hfilled⟩ := h.at? hs
  obtain ⟨rows', hfilled'⟩ := hfilled.effect hn f.write htext
  obtain ⟨db, _, hrest, _⟩ := h
  unfold Connections.fill Connections.run
  rw [hs]
  exact ⟨_, rows', hrest.putBack hi hfilled'.toIdle,
    hfilled'.of_idle ⟨⟨rfl, nofun, rfl⟩, rfl⟩ rfl⟩

theorem length_fill (cs : Connections) (f : Filling) : (cs.fill f).length = cs.length := by
  unfold fill run
  cases cs.at? f.connection with
  | none => rfl
  | some s => exact length_putBack ..

/-- So do any writes. -/
theorem IsFilled.run {fillings : List Filling} (h : cs.IsFilled P n)
    (hn : n + fillings.length < 2 ^ 63 - 1) (hi : ∀ f ∈ fillings, f.connection < cs.length)
    (htexts : ∀ f ∈ fillings, P f.write.text) :
    (fillings.foldl Connections.fill cs).IsFilled P (n + fillings.length) := by
  induction fillings generalizing n cs with
  | nil => exact h
  | cons f fillings ih =>
    rw [List.length_cons] at hn ⊢
    have hfill := h.fill (by omega) (hi f List.mem_cons_self) (htexts f List.mem_cons_self)
    have hrest := ih hfill (by omega)
      (by
        intro f' hf'
        rw [length_fill]
        exact hi f' (List.mem_cons_of_mem f hf'))
      fun f' hf' => htexts f' (List.mem_cons_of_mem f hf')
    rw [show n + (fillings.length + 1) = n + 1 + fillings.length by omega]
    exact hrest

/-- A store that starts empty is filled by any writes. -/
theorem AtRest.exists_filled (h : cs.AtRest {}) {fillings : List Filling}
    (hlen : fillings.length < 2 ^ 63 - 1) (hi : ∀ f ∈ fillings, f.connection < cs.length)
    (htexts : ∀ f ∈ fillings, P f.write.text) {i : Nat} {s : Store}
    (hs : (fillings.foldl fill cs).at? i = some s) :
    ∃ rows, Filled P fillings.length s rows := by
  have hstart : cs.IsFilled P 0 := ⟨{}, [], h, {
    toIdle := ⟨⟨rfl, nofun, rfl⟩, rfl⟩
    keeps := LawfulRecord.keeps_empty (α := Alert)
    admits := LawfulRecord.admits_empty (α := Alert)
    versions := List.forall_mem_nil _
    fits := List.forall_mem_nil _
    texts := List.forall_mem_nil _ }⟩
  have hrun := hstart.run (by omega) hi htexts
  rw [Nat.zero_add] at hrun
  exact hrun.at? hs

end Connections

/-- The text is that of the identifier that it denotes, if it denotes any. -/
def Uuid.IsOwnText (text : String) : Prop :=
  ∀ id, ofString? text = some id → text = toString id

theorem Uuid.isOwnText_toString (id : Uuid) : IsOwnText (toString id) := by
  intro id' h
  rw [ofString?_toString] at h
  exact congrArg toString (Option.some.inj h)

/-- After any writes of alerts, through whichever repositories or past them, the alerts on the pages
of a repository are known to it by their identifiers if each row that denotes an alert is kept under
the text of its identifier. If no more rows are kept than offsets reach, they are known only then.
And it is so if no row was saved under another text of an identifier. -/
theorem shown_alerts_are_known {cs : Connections} (h : cs.AtRest {}) {fillings : List Filling}
    (hlen : fillings.length < 2 ^ 63 - 1) (hi : ∀ f ∈ fillings, f.connection < cs.length)
    {i : Nat} {s : Store} (hs : (fillings.foldl Connections.fill cs).at? i = some s)
    {r : Repository Alert} (ho : r.state = .opened) (limit : UInt32) :
    ∃ shown, r.showAll limit s = .ok shown
      ∧ (s.NamesRecords Alert → r.Knows s shown)
      ∧ (countRows Alert s.view ≤ 2 ^ 32 → r.Knows s shown → s.NamesRecords Alert)
      ∧ ((∀ f ∈ fillings, Uuid.IsOwnText f.write.text) → s.NamesRecords Alert) := by
  obtain ⟨rows, hfilled⟩ := h.exists_filled (P := fun _ => True) hlen hi (fun _ _ => trivial) hs
  have hkeeps : Keeps Alert s.view rows := hfilled.view_eq ▸ hfilled.keeps
  obtain ⟨k, hshown, hall⟩ := exists_showAll hfilled.toReady ho limit
  refine ⟨_, hshown, ?_, ?_, ?_⟩
  · intro hnames
    refine knows_of_namesRecords hfilled.toReady ho (hfilled.version_lt hlen) ?_ hnames k
    intro row hrow a ha
    obtain ⟨row', hrow', _⟩ := AlertRow.exists_renewed (hfilled.fits row hrow) ha
    exact ⟨row', hrow'⟩
  · intro hcount hknows
    rw [countRows_eq hkeeps] at hcount
    rw [List.take_of_length_le (hall hcount)] at hknows
    exact namesRecords_of_knows hfilled.toReady ho hknows
  · intro htexts
    obtain ⟨rows', hfilled'⟩ := h.exists_filled (P := Uuid.IsOwnText) hlen hi htexts hs
    rw [namesRecords_iff hfilled'.toReady]
    intro row hrow a ha
    exact hfilled'.texts row hrow a.id (AlertRow.says_of_toAlert ha).id

/-- An alert is created through a repository, and the row of another one is saved past it. -/
def properFillings : List Filling :=
  [{ connection := 0, write := .upsert Repository.openAlerts 1 AlertRow.extremeAlert },
    { connection := 1, write := .save 2 (AlertRow.rowOf AlertRow.watchedAlert none) nofun }]

/-- Both are shown, and known by their identifiers. -/
theorem proper_alerts_are_known :
    ∃ s shown, (properFillings.foldl Connections.fill
        (List.replicate 2 { file := some "portal.db" })).at? 1 = some s
      ∧ Repository.openAlerts.showAll 1 s = .ok shown ∧ shown.length = 2
      ∧ Repository.openAlerts.Knows s shown := by
  have hcount : ((properFillings.foldl Connections.fill
        (List.replicate 2 { file := some "portal.db" })).at? 1).bind
      (fun s => (Repository.openAlerts.showAll 1 s).toOption.map List.length) = some 2 := by
    decide +kernel
  obtain ⟨s, hs, hcount⟩ := Option.bind_eq_some_iff.1 hcount
  obtain ⟨shown', hshown', hlength⟩ := Option.map_eq_some_iff.1 hcount
  obtain ⟨shown, hshown, hknows, _, hnames⟩ := shown_alerts_are_known
    (Connections.atRest_replicate 2 "portal.db") (by decide) (by decide) hs
    (r := Repository.openAlerts) rfl 1
  rw [hshown] at hshown'
  obtain rfl : shown = shown' := Option.some.inj hshown'
  refine ⟨s, shown, hs, hshown, hlength, hknows (hnames ?_)⟩
  intro f hf
  rcases List.mem_pair.1 hf with rfl | rfl
  · exact Uuid.isOwnText_toString AlertRow.extremeAlert.id
  · exact Uuid.isOwnText_toString AlertRow.watchedAlert.id

/-- A row whose identifier is in upper case. -/
def shoutedRow : AlertRow where
  id := "AAAAAAAA-0000-4000-8000-000000000000"
  name := "n"
  cluster := "c"
  service := "s"
  context := "CLUSTER"
  metric := "m"
  statistic := "avg"
  period := "PT60S"
  operator := "EQUAL_TO"
  quantity := "\x7b\"value\":1.0\x7d"

/-- The row is saved past all repositories. -/
def shouting : Filling where
  connection := 0
  write := .save 0 shoutedRow nofun

/-- The alert of the row is shown, but it is not found under its identifier, and if it is written
again a second one is created. -/
theorem shouted_alert_is_not_found :
    ∃ s a, ([shouting].foldl Connections.fill (List.replicate 1 { file := some "portal.db" })).at? 0
        = some s
      ∧ Repository.openAlerts.showAll 1000 s = .ok [a]
      ∧ toString a.id = "aaaaaaaa-0000-4000-8000-000000000000"
      ∧ (Repository.openAlerts.get a.id s).result = .ok none
      ∧ (Repository.openAlerts.upsert 0 a s).result = .ok .created
      ∧ ¬ Repository.openAlerts.Knows s [a] := by
  let look (s : Store) (a : Alert) : String × Option Bool × Option Outcome :=
    (toString a.id, (Repository.openAlerts.get a.id s).result.toOption.map Option.isNone,
      (Repository.openAlerts.upsert 0 a s).result.toOption)
  have hseen : (([shouting].foldl Connections.fill
        (List.replicate 1 { file := some "portal.db" })).at? 0).bind
      (fun s => (Repository.openAlerts.showAll 1000 s).toOption.map (List.map (look s)))
      = some [("aaaaaaaa-0000-4000-8000-000000000000", some true, some .created)] := by
    decide +kernel
  obtain ⟨s, hs, hseen⟩ := Option.bind_eq_some_iff.1 hseen
  obtain ⟨shown, hshown, hseen⟩ := Option.map_eq_some_iff.1 hseen
  obtain ⟨a, rfl, hlook⟩ := List.map_eq_singleton_iff.1 hseen
  obtain ⟨hid, hlook⟩ := Prod.mk.inj hlook
  obtain ⟨hget, hupsert⟩ := Prod.mk.inj hlook
  obtain ⟨found, hget, hnone⟩ := Option.map_eq_some_iff.1 hget
  cases Option.isNone_iff_eq_none.1 hnone
  have hget := toOption_eq_some_iff.1 hget
  refine ⟨s, a, hs, toOption_eq_some_iff.1 hshown, hid, hget, toOption_eq_some_iff.1 hupsert, ?_⟩
  intro hknows
  have hfound := hknows.found a (List.mem_singleton_self a)
  rw [show Record.id a = a.id from rfl, hget] at hfound
  cases hfound

end AlertRegistry
