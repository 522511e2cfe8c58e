import AlertRegistry.Inspect
import Mathlib

/-!
# What a configuration takes from its document

A document has four known sections (`ConfigSection`) with five known fields (`ConfigField`). If its
sections are tables, the configuration in it is the one in which each field has the text that the
document has under its key, or its default (`Config.ofDocument?_eq_some_iff`). So it is enough to
know what edits of a document do to the values of the fields: a removed section or field leaves
those outside as they are (`value?_removeFrom_of_ne`, `value?_removeSection_of_ne`), and what is
unknown is not seen (`Enlarged.value?_eq`). The check after reading lets a configuration pass just
if both search strategies are known (`Config.check_eq_ok_iff`). The main statement is
`configuration_is_usable_and_local`.
-/

namespace AlertRegistry

open Toml (Value)

/-! ## Sections and fields -/

/-- A known section of a configuration. -/
inductive ConfigSection where
  /-- Where the store is. -/
  | database
  /-- How alerts are kept. -/
  | alerts
  /-- How expressions are kept. -/
  | expressions
  /-- Where log lines go. -/
  | logging
deriving DecidableEq

/-- A known field of a section. -/
inductive ConfigField where
  /-- The path of the store. -/
  | path
  /-- The search strategy for alerts. -/
  | alertStrategy
  /-- The search strategy for expressions. -/
  | expressionStrategy
  /-- The level of the log. -/
  | level
  /-- The directory of the log. -/
  | directory
deriving DecidableEq

namespace ConfigSection

/-- The key of the section. -/
def name : ConfigSection → String
  | database => "database"
  | alerts => "alert_repository"
  | expressions => "expression_repository"
  | logging => "logging"

/-- The configuration with the default in the place of the section. -/
def reset : ConfigSection → Config → Config
  | database, c => { c with database := { path := none } }
  | alerts, c => { c with alerts := { strategy := "generic" } }
  | expressions, c => { c with expressions := { strategy := "generic" } }
  | logging, c => { c with logging := { level := defaultLevel.name, directory := none } }

theorem name_injective {s t : ConfigSection} (h : s.name = t.name) : s = t := by
  revert h
  cases s <;> cases t <;> decide

end ConfigSection

namespace ConfigField

/-- The section of the field. -/
def home : ConfigField → ConfigSection
  | path => .database
  | alertStrategy => .alerts
  | expressionStrategy => .expressions
  | level | directory => .logging

/-- The key of the field in its section. -/
def name : ConfigField → String
  | path => "path"
  | alertStrategy | expressionStrategy => "query_generator"
  | level => "level"
  | directory => "dir"

/-- The text of the field in a configuration, if there is one. -/
def get : ConfigField → Config → Option String
  | path, c => c.database.path
  | alertStrategy, c => some c.alerts.strategy
  | expressionStrategy, c => some c.expressions.strategy
  | level, c => some c.logging.level
  | directory, c => c.logging.directory

/-- The default of the field. -/
def default : ConfigField → Option String
  | path | directory => none
  | alertStrategy | expressionStrategy => some "generic"
  | level => some defaultLevel.name

/-- The configuration with the default in the place of the field. -/
def reset : ConfigField → Config → Config
  | path, c => { c with database := { c.database with path := none } }
  | alertStrategy, c => { c with alerts := { c.alerts with strategy := "generic" } }
  | expressionStrategy, c => { c with expressions := { c.expressions with strategy := "generic" } }
  | level, c => { c with logging := { c.logging with level := defaultLevel.name } }
  | directory, c => { c with logging := { c.logging with directory := none } }

theorem name_injective {f g : ConfigField} (hhome : f.home = g.home) (h : f.name = g.name) :
    f = g := by
  revert hhome h
  cases f <;> cases g <;> decide

theorem get_reset_self (f : ConfigField) (c : Config) : f.get (f.reset c) = f.default := by
  cases f <;> rfl

theorem get_reset_of_ne {f g : ConfigField} (h : g ≠ f) (c : Config) :
    g.get (f.reset c) = g.get c := by
  cases f <;> cases g <;> simp_all [get, reset]

theorem get_resetSection_of_eq {f : ConfigField} {s : ConfigSection} (h : f.home = s) (c : Config) :
    f.get (s.reset c) = f.default := by
  subst h
  cases f <;> rfl

theorem get_resetSection_of_ne {f : ConfigField} {s : ConfigSection} (h : f.home ≠ s) (c : Config) :
    f.get (s.reset c) = f.get c := by
  cases f <;> cases s <;> simp_all [home, get, ConfigSection.reset]

end ConfigField

/-! ## Documents -/

/-- The members of a table without those under a key. -/
def dropKey (key : String) (ms : List (String × Value)) : List (String × Value) :=
  ms.filter fun m => m.1 ≠ key

/-- A table without the members under a key; any other value is left as it is. -/
def Toml.Value.without (key : String) : Value → Value
  | .table ms => .table (dropKey key ms)
  | v => v

/-- The document without a section. -/
def ConfigSection.removeFrom (s : ConfigSection) (d : List (String × Value)) :
    List (String × Value) :=
  dropKey s.name d

/-- The document without a field. -/
def ConfigField.removeFrom (f : ConfigField) (d : List (String × Value)) :
    List (String × Value) :=
  d.map fun m => (m.1, if m.1 = f.home.name then m.2.without f.name else m.2)

/-- The sections of the document are tables. -/
def HasTableSections (d : List (String × Value)) : Prop :=
  ∀ (s : ConfigSection) (v : Value), d.lookup s.name = some v → ∃ ms, v = .table ms

/-- A document to which unknown sections, and unknown keys of sections, were added in any places. -/
inductive Enlarged (d : List (String × Value)) : List (String × Value) → Prop
  /-- Nothing is added. -/
  | refl : Enlarged d d
  /-- A section that is none of the known ones is added. -/
  | addSection {before after key v} (unknown : ∀ s : ConfigSection, s.name ≠ key)
    (h : Enlarged d (before ++ after)) : Enlarged d (before ++ (key, v) :: after)
  /-- A section that is missing is made, to add keys to it. -/
  | addTable {before after name} (missing : (before ++ after).lookup name = none)
    (h : Enlarged d (before ++ after)) : Enlarged d (before ++ (name, .table []) :: after)
  /-- To a table a key is added that is none of the known ones there. -/
  | addKey {before after name ms ms' key v}
    (unknown : ∀ f : ConfigField, f.home.name = name → f.name ≠ key)
    (h : Enlarged d (before ++ (name, .table (ms ++ ms')) :: after)) :
    Enlarged d (before ++ (name, .table (ms ++ (key, v) :: ms')) :: after)

/-- The members of a section, none if it is missing or is no table. -/
def ConfigSection.members (s : ConfigSection) (d : List (String × Value)) : List (String × Value) :=
  match d.lookup s.name with
  | some (.table ms) => ms
  | _ => []

/-- What the document has under the key of a field in its section. -/
def ConfigField.value? (f : ConfigField) (d : List (String × Value)) : Option Value :=
  (f.home.members d).lookup f.name

/-- With this value in the document the field has this text: the value is the text, or it is missing
and the text is the default. -/
def ConfigField.Settles (f : ConfigField) (v : Option Value) (t : Option String) : Prop :=
  v = none ∧ t = f.default ∨ ∃ s, v = some (.text s) ∧ t = some s

/-! ### Looking up in edited documents -/

section

variable {k key : String} {ms before after : List (String × Value)} {v : Value}

theorem lookup_dropKey_self : (dropKey key ms).lookup key = none := by
  rw [List.lookup_eq_none_iff]
  intro m hm
  have hne : m.1 ≠ key := by simpa using (List.mem_filter.1 hm).2
  exact bne_iff_ne.2 hne.symm

theorem lookup_dropKey_of_ne (h : k ≠ key) : (dropKey key ms).lookup k = ms.lookup k := by
  unfold dropKey
  induction ms with
  | nil => rfl
  | cons m ms ih =>
    obtain ⟨j, w⟩ := m
    by_cases hj : j = key
    · subst hj
      rw [List.filter_cons_of_neg (by simp), ih, List.lookup_cons, beq_false_of_ne h]
    · rw [List.filter_cons_of_pos (by simpa using hj), List.lookup_cons, List.lookup_cons, ih]

theorem lookup_map_value (g : String → Value → Value) :
    (ms.map fun m => (m.1, g m.1 m.2)).lookup k = (ms.lookup k).map (g k) := by
  induction ms with
  | nil => rfl
  | cons m ms ih =>
    obtain ⟨j, w⟩ := m
    rw [List.map_cons, List.lookup_cons, List.lookup_cons, ih]
    by_cases hj : k = j
    · simp [hj]
    · rw [beq_false_of_ne hj]

theorem lookup_add_of_ne (h : k ≠ key) :
    (before ++ (key, v) :: after).lookup k = (before ++ after).lookup k := by
  rw [List.lookup_append, List.lookup_append, List.lookup_cons, beq_false_of_ne h]

theorem lookup_add_self (h : (before ++ after).lookup key = none) :
    (before ++ (key, v) :: after).lookup key = some v := by
  rw [List.lookup_append] at h ⊢
  rw [(Option.or_eq_none_iff.1 h).1, List.lookup_cons_self, Option.none_or]

/-- In the place of a member another one under the same key is found, or neither is. -/
theorem lookup_replace (v w : Value) :
    (before ++ (key, v) :: after).lookup k = (before ++ (key, w) :: after).lookup k
      ∨ k = key ∧ (before ++ (key, v) :: after).lookup k = some v
        ∧ (before ++ (key, w) :: after).lookup k = some w := by
  simp only [List.lookup_append]
  cases before.lookup k with
  | some u => exact .inl rfl
  | none =>
    by_cases hk : k = key
    · subst hk
      exact .inr ⟨rfl, by simp, by simp⟩
    · rw [List.lookup_cons, List.lookup_cons, beq_false_of_ne hk]
      exact .inl rfl

end

namespace ConfigSection

variable {s t : ConfigSection} {d : List (String × Value)}

theorem members_removeFrom_self : s.members (s.removeFrom d) = [] := by
  rw [members, removeFrom, lookup_dropKey_self]

theorem members_removeFrom_of_ne (h : s ≠ t) : s.members (t.removeFrom d) = s.members d := by
  rw [members, removeFrom, lookup_dropKey_of_ne fun hname => h (name_injective hname), members]

end ConfigSection

namespace ConfigField

variable {f g : ConfigField} {s : ConfigSection} {d : List (String × Value)}

theorem lookup_removeFrom (k : String) :
    (f.removeFrom d).lookup k
      = (d.lookup k).map fun v => if k = f.home.name then v.without f.name else v :=
  lookup_map_value fun j v => if j = f.home.name then v.without f.name else v

theorem members_removeFrom_home :
    f.home.members (f.removeFrom d) = dropKey f.name (f.home.members d) := by
  unfold ConfigSection.members
  rw [lookup_removeFrom]
  cases d.lookup f.home.name with
  | none => rfl
  | some v =>
    rw [Option.map_some, if_pos rfl]
    cases v <;> rfl

theorem members_removeFrom_of_ne (h : s ≠ f.home) :
    s.members (f.removeFrom d) = s.members d := by
  have hother : (fun v : Value => if s.name = f.home.name then v.without f.name else v) = id :=
    funext fun _ => if_neg fun hname => h (ConfigSection.name_injective hname)
  rw [ConfigSection.members, lookup_removeFrom, hother, Option.map_id, ConfigSection.members]
  rfl

theorem value?_removeFrom_self : f.value? (f.removeFrom d) = none := by
  rw [value?, members_removeFrom_home, lookup_dropKey_self]

theorem value?_removeFrom_of_ne (h : g ≠ f) : g.value? (f.removeFrom d) = g.value? d := by
  unfold value?
  by_cases hhome : g.home = f.home
  · rw [hhome, members_removeFrom_home, lookup_dropKey_of_ne fun hname =>
      h (name_injective hhome hname)]
  · rw [members_removeFrom_of_ne hhome]

theorem value?_removeSection_self : f.value? (f.home.removeFrom d) = none := by
  rw [value?, ConfigSection.members_removeFrom_self, List.lookup_nil]

theorem value?_removeSection_of_ne (h : f.home ≠ s) : f.value? (s.removeFrom d) = f.value? d := by
  rw [value?, ConfigSection.members_removeFrom_of_ne h, value?]

end ConfigField

namespace HasTableSections

variable {d d' : List (String × Value)}

theorem removeField (h : HasTableSections d) (f : ConfigField) :
    HasTableSections (f.removeFrom d) := by
  intro s v hv
  rw [ConfigField.lookup_removeFrom, Option.map_eq_some_iff] at hv
  obtain ⟨w, hw, rfl⟩ := hv
  obtain ⟨ms, rfl⟩ := h s w hw
  split
  · exact ⟨_, rfl⟩
  · exact ⟨_, rfl⟩

theorem removeSection (h : HasTableSections d) (s : ConfigSection) :
    HasTableSections (s.removeFrom d) := by
  intro t v hv
  by_cases ht : t = s
  · subst ht
    rw [ConfigSection.removeFrom, lookup_dropKey_self] at hv
    cases hv
  · rw [ConfigSection.removeFrom,
      lookup_dropKey_of_ne fun hname => ht (ConfigSection.name_injective hname)] at hv
    exact h t v hv

theorem enlarge (h : HasTableSections d) (hd : Enlarged d d') : HasTableSections d' := by
  induction hd with
  | refl => exact h
  | addSection unknown _ ih =>
    intro s v hv
    rw [lookup_add_of_ne (unknown s)] at hv
    exact ih s v hv
  | @addTable before after name missing _ ih =>
    intro s v hv
    by_cases hname : s.name = name
    · rw [hname, lookup_add_self missing] at hv
      cases hv
      exact ⟨[], rfl⟩
    · rw [lookup_add_of_ne hname] at hv
      exact ih s v hv
  | @addKey before after name ms ms' key v unknown _ ih =>
    intro s w hw
    rcases lookup_replace (.table (ms ++ (key, v) :: ms')) (.table (ms ++ ms')) with hsame | hnew
    · rw [hsame] at hw
      exact ih s w hw
    · rw [hnew.2.1] at hw
      cases hw
      exact ⟨_, rfl⟩

end HasTableSections

/-- What is added leaves the known fields as they are. -/
theorem Enlarged.value?_eq {d d' : List (String × Value)} (h : Enlarged d d') (f : ConfigField) :
    f.value? d' = f.value? d := by
  induction h with
  | refl => rfl
  | addSection unknown _ ih =>
    rw [← ih]
    unfold ConfigField.value? ConfigSection.members
    rw [lookup_add_of_ne (unknown f.home)]
  | @addTable before after name missing _ ih =>
    rw [← ih]
    unfold ConfigField.value? ConfigSection.members
    by_cases hname : f.home.name = name
    · rw [hname, lookup_add_self missing, missing]
    · rw [lookup_add_of_ne hname]
  | @addKey before after name ms ms' key v unknown _ ih =>
    rw [← ih]
    unfold ConfigField.value? ConfigSection.members
    rcases lookup_replace (.table (ms ++ (key, v) :: ms')) (.table (ms ++ ms')) with hsame | hnew
    · rw [hsame]
    · rw [hnew.2.1, hnew.2.2]
      exact lookup_add_of_ne (unknown f hnew.1)

/-! ## Reading -/

namespace ConfigField

variable {f : ConfigField} {v : Option Value}

/-- A field with a default is settled by what is read from it. -/
theorem settles_some_iff {t default : String} (h : f.default = some default) :
    f.Settles v (some t) ↔ textField? default v = some t := by
  unfold Settles
  rw [h]
  cases v with
  | none => simp [textField?, eq_comm]
  | some v => cases v <;> simp [textField?, eq_comm]

/-- So is a field that need not be there. -/
theorem settles_iff_of_default_eq_none {t : Option String} (h : f.default = none) :
    f.Settles v t ↔ optionalField? v = some t := by
  unfold Settles
  rw [h]
  cases v with
  | none => simp [optionalField?, eq_comm]
  | some v => cases v <;> simp [optionalField?, eq_comm]

end ConfigField

namespace Config

variable {d ms : List (String × Value)}

theorem readDatabase?_table_iff {x : DatabaseConfig} :
    readDatabase? (.table ms) = some x ↔ optionalField? (ms.lookup "path") = some x.path := by
  obtain ⟨path⟩ := x
  simp [readDatabase?, Toml.Value.fields?, Option.bind_eq_some_iff]

theorem readRepository?_table_iff {x : RepositoryConfig} :
    readRepository? (.table ms) = some x
      ↔ textField? "generic" (ms.lookup "query_generator") = some x.strategy := by
  obtain ⟨strategy⟩ := x
  simp [readRepository?, Toml.Value.fields?, Strategy.name, Option.bind_eq_some_iff]

theorem readLogging?_table_iff {x : LoggingConfig} :
    readLogging? (.table ms) = some x
      ↔ textField? defaultLevel.name (ms.lookup "level") = some x.level
        ∧ optionalField? (ms.lookup "dir") = some x.directory := by
  obtain ⟨level, directory⟩ := x
  simp [readLogging?, Toml.Value.fields?, Option.bind_eq_some_iff]

/-- A missing section is read like one without members. -/
theorem readSection_eq (h : HasTableSections d) (s : ConfigSection) {α : Type} (default : α)
    (read : Value → Option α) (hdefault : read (.table []) = some default) :
    readSection d s.name default read = read (.table (s.members d)) := by
  unfold readSection ConfigSection.members
  cases hsection : d.lookup s.name with
  | none => exact hdefault.symm
  | some v =>
    obtain ⟨ms, rfl⟩ := h s v hsection
    rfl

/-- Each section is read from its own members. -/
theorem ofDocument?_iff_read (h : HasTableSections d) {c : Config} :
    ofDocument? d = some c ↔
      readDatabase? (.table (ConfigSection.database.members d)) = some c.database
        ∧ readRepository? (.table (ConfigSection.alerts.members d)) = some c.alerts
        ∧ readRepository? (.table (ConfigSection.expressions.members d)) = some c.expressions
        ∧ readLogging? (.table (ConfigSection.logging.members d)) = some c.logging := by
  rw [← readSection_eq h .database {} readDatabase? rfl,
    ← readSection_eq h .alerts {} readRepository? rfl,
    ← readSection_eq h .expressions {} readRepository? rfl,
    ← readSection_eq h .logging {} readLogging? rfl]
  obtain ⟨database, alerts, expressions, logging⟩ := c
  simp [ofDocument?, Option.bind_eq_some_iff, ConfigSection.name]

/-- If the sections are tables, the configuration in a document is the one in which each field is
settled by its value. -/
theorem ofDocument?_eq_some_iff (h : HasTableSections d) {c : Config} :
    ofDocument? d = some c ↔ ∀ f : ConfigField, f.Settles (f.value? d) (f.get c) := by
  rw [ofDocument?_iff_read h, readDatabase?_table_iff, readRepository?_table_iff,
    readRepository?_table_iff, readLogging?_table_iff]
  constructor
  · rintro ⟨hpath, halerts, hexpressions, hlevel, hdirectory⟩ f
    cases f with
    | path => exact (ConfigField.settles_iff_of_default_eq_none rfl).2 hpath
    | alertStrategy => exact (ConfigField.settles_some_iff rfl).2 halerts
    | expressionStrategy => exact (ConfigField.settles_some_iff rfl).2 hexpressions
    | level => exact (ConfigField.settles_some_iff rfl).2 hlevel
    | directory => exact (ConfigField.settles_iff_of_default_eq_none rfl).2 hdirectory
  · intro hall
    exact ⟨(ConfigField.settles_iff_of_default_eq_none rfl).1 (hall .path),
      (ConfigField.settles_some_iff rfl).1 (hall .alertStrategy),
      (ConfigField.settles_some_iff rfl).1 (hall .expressionStrategy),
      (ConfigField.settles_some_iff rfl).1 (hall .level),
      (ConfigField.settles_iff_of_default_eq_none rfl).1 (hall .directory)⟩

end Config

/-! ## Strategies -/

/-- The text names a search strategy, with white space around it or without. -/
def Strategy.IsKnown (s : String) : Prop :=
  ∃ k : Strategy, Text.trim s = k.name

namespace Strategy

variable {s : String}

theorem ofName?_eq_some_iff {k : Strategy} : ofName? s = some k ↔ Text.trim s = k.name := by
  unfold ofName?
  split <;> rename_i h <;> cases k <;> simp_all [name]

theorem ofName_eq_ok_iff {k : Strategy} : ofName s = .ok k ↔ Text.trim s = k.name := by
  rw [← ofName?_eq_some_iff, ofName]
  cases ofName? s <;> simp

theorem ofName_eq_error (h : ¬ IsKnown s) : ofName s = .error ⟨Text.trim s⟩ := by
  unfold ofName
  cases hname : ofName? s with
  | none => rfl
  | some k => exact absurd ⟨k, ofName?_eq_some_iff.1 hname⟩ h

theorem isSome_ofName?_iff : (ofName? s).isSome = true ↔ IsKnown s := by
  simp only [Option.isSome_iff_exists, ofName?_eq_some_iff, IsKnown]

instance (s : String) : Decidable (IsKnown s) :=
  decidable_of_iff _ isSome_ofName?_iff

theorem isKnown_generic : IsKnown "generic" :=
  ⟨.generic, by decide⟩

end Strategy

/-- From the section a repository with this strategy is made, which is told to the log; so is the
one of an inspection. -/
structure RepositoryConfig.Picks (α : Type) {ρ γ : Type} [Record α ρ γ] (c : RepositoryConfig)
    (k : Strategy) : Prop where
  /-- The section names the strategy. -/
  named : Text.trim c.strategy = k.name
  /-- The repository is made. -/
  made : ∀ identity, Repository.ofConfig α identity c
    = .ok ({ identity, strategy := k },
        [Repository.configured ({ identity, strategy := k } : Repository α)])
  /-- An inspection uses it. -/
  inspected : ∀ identity, c.repository α identity = { identity, strategy := k }

theorem RepositoryConfig.picks_of_trim_eq {α ρ γ : Type} [Record α ρ γ] {c : RepositoryConfig}
    {k : Strategy} (h : Text.trim c.strategy = k.name) : c.Picks α k := by
  refine ⟨h, fun identity => ?_, fun identity => ?_⟩
  · rw [Repository.ofConfig, Strategy.ofName_eq_ok_iff.2 h]
  · rw [repository, Strategy.ofName?_eq_some_iff.2 h]
    rfl

namespace Config

variable {c c' : Config} {d : List (String × Value)} {s : String}

theorem check_of_isKnown (halerts : Strategy.IsKnown c.alerts.strategy)
    (hexpressions : Strategy.IsKnown c.expressions.strategy) : c.check = .ok c := by
  obtain ⟨k, hk⟩ := halerts
  obtain ⟨k', hk'⟩ := hexpressions
  rw [check, Strategy.ofName_eq_ok_iff.2 hk, Strategy.ofName_eq_ok_iff.2 hk']

/-- The alerts are complained about first. -/
theorem check_of_alerts_unknown (h : ¬ Strategy.IsKnown c.alerts.strategy) :
    c.check = .error (.strategy ⟨Text.trim c.alerts.strategy⟩) := by
  rw [check, Strategy.ofName_eq_error h]

theorem check_of_expressions_unknown (halerts : Strategy.IsKnown c.alerts.strategy)
    (h : ¬ Strategy.IsKnown c.expressions.strategy) :
    c.check = .error (.strategy ⟨Text.trim c.expressions.strategy⟩) := by
  obtain ⟨k, hk⟩ := halerts
  rw [check, Strategy.ofName_eq_ok_iff.2 hk, Strategy.ofName_eq_error h]

/-- A configuration that passes the check is left as it is, and its strategies are known. -/
theorem check_eq_ok_iff : c.check = .ok c' ↔
    c' = c ∧ Strategy.IsKnown c.alerts.strategy ∧ Strategy.IsKnown c.expressions.strategy := by
  constructor
  · intro h
    by_cases halerts : Strategy.IsKnown c.alerts.strategy
    · by_cases hexpressions : Strategy.IsKnown c.expressions.strategy
      · rw [check_of_isKnown halerts hexpressions] at h
        exact ⟨(Except.ok.inj h).symm, halerts, hexpressions⟩
      · rw [check_of_expressions_unknown halerts hexpressions] at h
        cases h
    · rw [check_of_alerts_unknown halerts] at h
      cases h
  · rintro ⟨rfl, halerts, hexpressions⟩
    exact check_of_isKnown halerts hexpressions

/-- What a text denotes is what its document reads as, checked. -/
theorem ofString_eq_check (hs : Toml.readDocument? s = some d) (hd : ofDocument? d = some c) :
    ofString s = c.check := by
  rw [ofString, hs, Option.bind_some, hd]

theorem reads_of_ofString (hs : Toml.readDocument? s = some d) (h : ofString s = .ok c) :
    ofDocument? d = some c ∧ c.check = .ok c := by
  cases hd : ofDocument? d with
  | none =>
    rw [ofString, hs, Option.bind_some, hd] at h
    cases h
  | some c' =>
    rw [ofString_eq_check hs hd] at h
    obtain ⟨rfl, -⟩ := check_eq_ok_iff.1 h
    exact ⟨rfl, h⟩

/-- The document is accepted as the configuration, and so is each text that denotes it. -/
structure AcceptedFrom (c : Config) (d : List (String × Value)) : Prop where
  /-- The document reads as the configuration. -/
  reads : ofDocument? d = some c
  /-- The configuration passes the check. -/
  passes : c.check = .ok c
  /-- A text that denotes the document denotes the configuration. -/
  denoted : ∀ s, Toml.readDocument? s = some d → ofString s = .ok c

theorem acceptedFrom_of_reads (hd : ofDocument? d = some c) (h : c.check = .ok c) :
    c.AcceptedFrom d :=
  ⟨hd, h, fun _ hs => (ofString_eq_check hs hd).trans h⟩

theorem check_reset (h : c.check = .ok c) (f : ConfigField) :
    (f.reset c).check = .ok (f.reset c) := by
  obtain ⟨-, halerts, hexpressions⟩ := check_eq_ok_iff.1 h
  cases f with
  | path => exact check_of_isKnown halerts hexpressions
  | alertStrategy => exact check_of_isKnown Strategy.isKnown_generic hexpressions
  | expressionStrategy => exact check_of_isKnown halerts Strategy.isKnown_generic
  | level => exact check_of_isKnown halerts hexpressions
  | directory => exact check_of_isKnown halerts hexpressions

theorem check_resetSection (h : c.check = .ok c) (p : ConfigSection) :
    (p.reset c).check = .ok (p.reset c) := by
  obtain ⟨-, halerts, hexpressions⟩ := check_eq_ok_iff.1 h
  cases p with
  | database => exact check_of_isKnown halerts hexpressions
  | alerts => exact check_of_isKnown Strategy.isKnown_generic hexpressions
  | expressions => exact check_of_isKnown halerts Strategy.isKnown_generic
  | logging => exact check_of_isKnown halerts hexpressions

/-- Without a field the document reads as the configuration with its default. -/
theorem ofDocument?_removeFrom (h : HasTableSections d) (hd : ofDocument? d = some c)
    (f : ConfigField) : ofDocument? (f.removeFrom d) = some (f.reset c) := by
  rw [ofDocument?_eq_some_iff h] at hd
  rw [ofDocument?_eq_some_iff (h.removeField f)]
  intro g
  by_cases hg : g = f
  · subst hg
    rw [ConfigField.value?_removeFrom_self, ConfigField.get_reset_self]
    exact .inl ⟨rfl, rfl⟩
  · rw [ConfigField.value?_removeFrom_of_ne hg, ConfigField.get_reset_of_ne hg]
    exact hd g

/-- Without a section the document reads as the configuration with the defaults of its fields. -/
theorem ofDocument?_removeSection (h : HasTableSections d) (hd : ofDocument? d = some c)
    (p : ConfigSection) : ofDocument? (p.removeFrom d) = some (p.reset c) := by
  rw [ofDocument?_eq_some_iff h] at hd
  rw [ofDocument?_eq_some_iff (h.removeSection p)]
  intro g
  by_cases hg : g.home = p
  · subst hg
    rw [ConfigField.value?_removeSection_self, ConfigField.get_resetSection_of_eq rfl]
    exact .inl ⟨rfl, rfl⟩
  · rw [ConfigField.value?_removeSection_of_ne hg, ConfigField.get_resetSection_of_ne hg]
    exact hd g

/-- What is added is not seen. -/
theorem ofDocument?_of_enlarged {d' : List (String × Value)} (h : HasTableSections d)
    (hd : ofDocument? d = some c) (henlarged : Enlarged d d') : ofDocument? d' = some c := by
  rw [ofDocument?_eq_some_iff h] at hd
  rw [ofDocument?_eq_some_iff (h.enlarge henlarged)]
  intro f
  rw [henlarged.value?_eq]
  exact hd f

end Config

/-- A configuration that is accepted names known strategies, and both repositories are made with
them. If its sections are tables, each field has the text in the document or its default; a document
without a section or field is accepted with the default in its place, and one with unknown sections
and keys is accepted as the same configuration. A document that reads but names an unknown strategy
is refused with this name, that for alerts if both are unknown. -/
theorem configuration_is_usable_and_local {s : String} {d : List (String × Value)}
    (hs : Toml.readDocument? s = some d) :
    (∀ c, Config.ofString s = .ok c →
      (∃ k, c.alerts.Picks Alert k) ∧ (∃ k, c.expressions.Picks Expression k)
        ∧ (HasTableSections d →
          (∀ f : ConfigField, f.Settles (f.value? d) (f.get c))
            ∧ (∀ p : ConfigSection, (p.reset c).AcceptedFrom (p.removeFrom d))
            ∧ (∀ f : ConfigField, (f.reset c).AcceptedFrom (f.removeFrom d))
            ∧ ∀ d', Enlarged d d' → c.AcceptedFrom d'))
      ∧ ∀ c, Config.ofDocument? d = some c →
        (¬ Strategy.IsKnown c.alerts.strategy →
            Config.ofString s = .error (.strategy ⟨Text.trim c.alerts.strategy⟩))
          ∧ (Strategy.IsKnown c.alerts.strategy → ¬ Strategy.IsKnown c.expressions.strategy →
            Config.ofString s = .error (.strategy ⟨Text.trim c.expressions.strategy⟩)) := by
  refine ⟨fun c hc => ?_, fun c hd => ?_⟩
  · obtain ⟨hd, hpasses⟩ := Config.reads_of_ofString hs hc
    obtain ⟨-, ⟨k, hk⟩, k', hk'⟩ := Config.check_eq_ok_iff.1 hpasses
    refine ⟨⟨k, RepositoryConfig.picks_of_trim_eq hk⟩,
      ⟨k', RepositoryConfig.picks_of_trim_eq hk'⟩, fun htables => ⟨?_, ?_, ?_, ?_⟩⟩
    · exact (Config.ofDocument?_eq_some_iff htables).1 hd
    · exact fun p => Config.acceptedFrom_of_reads (Config.ofDocument?_removeSection htables hd p)
        (Config.check_resetSection hpasses p)
    · exact fun f => Config.acceptedFrom_of_reads (Config.ofDocument?_removeFrom htables hd f)
        (Config.check_reset hpasses f)
    · exact fun d' henlarged => Config.acceptedFrom_of_reads
        (Config.ofDocument?_of_enlarged htables hd henlarged) hpasses
  · rw [Config.ofString_eq_check hs hd]
    exact ⟨Config.check_of_alerts_unknown, Config.check_of_expressions_unknown⟩

/-- The text of a configuration with a strategy and a level, and with a key that is unknown. -/
def quietText : String :=
  "[alert_repository]\nquery_generator = \" case_sensitive\\t\"\n\n"
    ++ "[logging]\nlevel = \"warn\"\ncolour = [1, \"x\"]\n"

/-- The document that the text denotes. -/
def quietDocument : List (String × Value) :=
  [("alert_repository", .table [("query_generator", .text " case_sensitive\t")]),
    ("logging", .table [("level", .text "warn"), ("colour", .array [.integer 1, .text "x"])])]

/-- The configuration in the document. -/
def quietConfig : Config :=
  { alerts := { strategy := " case_sensitive\t" }, logging := { level := "warn" } }

/-- Without its strategy or its log the configuration has the default there, with a directory under
a wrong key it is the same, and of two unknown strategies that for alerts is told. -/
theorem quiet_configuration_is_local :
    Toml.readDocument? quietText = some quietDocument
      ∧ Config.ofString quietText = .ok quietConfig ∧ HasTableSections quietDocument
      ∧ (∃ k, quietConfig.alerts.Picks Alert k)
      ∧ (ConfigField.alertStrategy.reset quietConfig).AcceptedFrom
          (ConfigField.alertStrategy.removeFrom quietDocument)
      ∧ (ConfigSection.logging.reset quietConfig).AcceptedFrom
          (ConfigSection.logging.removeFrom quietDocument)
      ∧ quietConfig.AcceptedFrom (quietDocument ++ [("log", .table [("dir", .text "/tmp")])])
      ∧ Config.ofString ("[alert_repository]\nquery_generator = \" postgres \"\n"
            ++ "[expression_repository]\nquery_generator = \"\"\n")
          = .error (.strategy ⟨"postgres"⟩) := by
  have hs : Toml.readDocument? quietText = some quietDocument := by cbv
  have hc : Config.ofString quietText = .ok quietConfig :=
    (Config.ofString_eq_check hs rfl).trans (by decide)
  have htables : HasTableSections quietDocument := by
    intro s v hv
    cases s <;> simp [quietDocument, ConfigSection.name, List.lookup] at hv
    all_goals exact ⟨_, hv.symm⟩
  have hadded : Enlarged quietDocument
      (quietDocument ++ [("log", .table [("dir", .text "/tmp")])]) :=
    .addSection (fun s => by cases s <;> decide) (by rw [List.append_nil]; exact .refl)
  obtain ⟨hpicks, -, hlocal⟩ := (configuration_is_usable_and_local hs).1 quietConfig hc
  obtain ⟨-, hsections, hfields, henlarged⟩ := hlocal htables
  refine ⟨hs, hc, htables, hpicks, hfields .alertStrategy, hsections .logging,
    henlarged _ hadded, ?_⟩
  have hrefused : Toml.readDocument? ("[alert_repository]\nquery_generator = \" postgres \"\n"
      ++ "[expression_repository]\nquery_generator = \"\"\n")
      = some [("alert_repository", .table [("query_generator", .text " postgres ")]),
        ("expression_repository", .table [("query_generator", .text "")])] := by cbv
  exact ((configuration_is_usable_and_local hrefused).2
    { alerts := { strategy := " postgres " }, expressions := { strategy := "" } } rfl).1 (by decide)

end AlertRegistry
