import AlertRegistry.Logging.Basic
import Mathlib.Data.List.Basic

/-!
# The log is started once

The log is asked for again and again, by texts or by a configuration, and its status is asked for in
between; each time the system may answer otherwise. What a call asks for (`LogCall.Asks`) and whether
the system starts it (`LogHost.Starts`) is said without the log. The log keeps the settings of the
first call that asks for some and has them started (`Log.StartedBy`): `settings_after_iff` for whole
runs, from what one call does to a log that is not started (`answer_of_settings_eq_none`) and to one
that is (`answer_of_settings_eq_some`). The main statement is `log_starts_once`.
-/

namespace AlertRegistry

/-! ## What is asked for -/

/-- The two texts ask for these settings. -/
structure LogSettings.AskedBy (s : LogSettings) (level directory : String) : Prop where
  /-- The level is named, in any case and with white space around it. -/
  named : Text.lower (Text.trim level) = s.level.name
    ∨ s.level = .warn ∧ Text.lower (Text.trim level) = "warning"
  /-- The directory is the text without the white space around it, -/
  trimmed : s.directory.text = Text.trim directory
  /-- which is a path from the root. -/
  rooted : (Text.trim directory).toList.head? = some '/'

/-- The system makes the directory, and the writer takes the level and starts. -/
def LogHost.Starts (host : LogHost) (files : FileTree) (s : LogSettings) : Prop :=
  ∃ made running, host.makeDirectories files s.directory = (.ok (), made)
    ∧ host.setLevel s.level = .ok () ∧ host.startWriter made s = (.ok (), running)

/-- The settings have the same level, and directories of the same path components. -/
def LogSettings.Agree (s t : LogSettings) : Prop :=
  s.level = t.level ∧ s.directory.components = t.directory.components

/-- A call of the log. -/
inductive LogCall where
  /-- Starts the log with the settings that two texts ask for. -/
  | start (level directory : String)
  /-- Starts the log that a configuration asks for. -/
  | startFromConfig (c : LoggingConfig)
  /-- Asks for the settings with which the log was started. -/
  | status

/-- The answer to a call. -/
inductive LogReply where
  /-- The log is started as asked for. -/
  | started
  /-- It is not. -/
  | refused (e : LoggingError)
  /-- The configuration asks for no log. -/
  | notAskedFor
  /-- The settings with which the log was started, if it was. -/
  | status (settings : Option LogSettings)

namespace LogReply

/-- The reply where the log is asked for by texts. -/
def ofStart : Except LoggingError Unit → LogReply
  | .ok () => started
  | .error e => refused e

/-- The reply where it is asked for by a configuration. -/
def ofStartFromConfig : Except LoggingError Bool → LogReply
  | .ok true => started
  | .ok false => notAskedFor
  | .error e => refused e

end LogReply

namespace LogCall

/-- The texts for a level and a directory with which a call asks for the log. -/
def texts? : LogCall → Option (String × String)
  | start level directory => some (level, directory)
  | startFromConfig c => c.directory.map fun directory => (c.level, directory)
  | status => none

/-- The call asks for these settings. -/
def Asks (call : LogCall) (s : LogSettings) : Prop :=
  ∃ level directory, call.texts? = some (level, directory) ∧ s.AskedBy level directory

/-- The answer to a call on a system, and the log after it. -/
def answer (call : LogCall) (host : LogHost) (l : Log) : LogReply × Log :=
  match call with
  | start level directory =>
    let (result, l) := l.start level directory host
    (.ofStart result, l)
  | startFromConfig c =>
    let (result, l) := l.startFromConfig c host
    (.ofStartFromConfig result, l)
  | status => (.status l.settings, l)

end LogCall

/-- The log after calls, each with the system as it answers then. -/
def Log.after (l : Log) (run : List (LogHost × LogCall)) : Log :=
  run.foldl (fun l (host, call) => (call.answer host l).2) l

/-- The first call of a run that asks for settings and has them started asks for these. -/
inductive Log.StartedBy : Log → List (LogHost × LogCall) → LogSettings → Prop
  /-- It is the first call. -/
  | now {l host call run s} (asks : call.Asks s) (starts : host.Starts l.files s) :
      StartedBy l ((host, call) :: run) s
  /-- It is one of the others. -/
  | later {l host call run s} (fails : ∀ t, call.Asks t → ¬ host.Starts l.files t)
      (started : StartedBy (call.answer host l).2 run s) : StartedBy l ((host, call) :: run) s

/-! ## Reading what is asked for -/

theorem Level.ofName?_eq_some_iff {s : String} {level : Level} :
    Level.ofName? s = some level ↔
      normalize s = level.name ∨ level = .warn ∧ normalize s = "warning" := by
  unfold Level.ofName?
  split <;> rename_i h <;> cases level <;> simp_all [Level.name]

theorem Path.text_ne_empty {p : Path} (h : p.isAbsolute = true) : p.text.isEmpty = false := by
  rw [Bool.eq_false_iff]
  intro hempty
  rw [String.isEmpty_iff] at hempty
  simp [Path.isAbsolute, hempty] at h

namespace LogSettings

theorem read_eq_ok_iff {level directory : String} {s : LogSettings} :
    read level directory = .ok s ↔ s.AskedBy level directory := by
  unfold read
  constructor
  · intro h
    split at h
    · cases h
    · next named hlevel =>
      have hname := Level.ofName?_eq_some_iff.1 hlevel
      dsimp only at h
      split at h
      · cases h
      · split at h
        · cases h
        · next habs =>
          obtain rfl := Except.ok.inj h
          exact ⟨hname, rfl, by simpa [Path.isAbsolute] using habs⟩
  · rintro ⟨hlevel, htrimmed, habs⟩
    have hread : s.directory.isAbsolute = true := by
      simpa [Path.isAbsolute, htrimmed] using habs
    rw [Level.ofName?_eq_some_iff.2 hlevel, ← htrimmed]
    simp [hread, Path.text_ne_empty hread]

/-- Two texts ask for at most one level and directory. -/
theorem AskedBy.unique {s t : LogSettings} {level directory : String}
    (hs : s.AskedBy level directory) (ht : t.AskedBy level directory) : s = t :=
  Except.ok.inj ((read_eq_ok_iff.2 hs).symm.trans (read_eq_ok_iff.2 ht))

theorem AskedBy.isAbsolute_directory {s : LogSettings} {level directory : String}
    (h : s.AskedBy level directory) : s.directory.isAbsolute = true := by
  simpa [Path.isAbsolute, h.trimmed] using h.rooted

/-- Among absolute directories, what is wanted is granted if it agrees with what there is. -/
theorem agree_eq_ok_iff {current wanted : LogSettings}
    (hc : current.directory.isAbsolute = true) (hw : wanted.directory.isAbsolute = true) :
    current.agree wanted = .ok () ↔ wanted.Agree current := by
  have hsame : current.directory.same wanted.directory = true ↔
      current.directory.components = wanted.directory.components := by
    simp [Path.same, hc, hw]
  unfold agree Agree
  by_cases hdirectory : current.directory.components = wanted.directory.components
  · by_cases hlevel : current.level = wanted.level
    · simp [hsame.2 hdirectory, hlevel, hdirectory]
    · simp [hsame.2 hdirectory, hlevel, Ne.symm hlevel]
  · have hother : current.directory.same wanted.directory = false := by
      rw [Bool.eq_false_iff]
      exact mt hsame.1 hdirectory
    simp [hother, Ne.symm hdirectory]

end LogSettings

/-! ## What one call does -/

namespace Log

variable {l : Log} {s : LogSettings} {host : LogHost}

@[simp] theorem settings_record (l : Log) (events : List Event) :
    (l.record events).settings = l.settings := by
  unfold record
  split <;> simp_all

/-- A log that is not started is started with what is wanted, if the system starts it. -/
theorem startWith_of_starts (hl : l.settings = none) (h : host.Starts l.files s) :
    (l.startWith host s).1 = .ok () ∧ (l.startWith host s).2.settings = some s := by
  obtain ⟨made, running, hmade, hlevel, hwriter⟩ := h
  simp [startWith, hl, hmade, hlevel, hwriter]

/-- A log that is not started stays so if the system does not start it. -/
theorem startWith_of_not_starts (hl : l.settings = none) (h : ¬ host.Starts l.files s) :
    (∃ e, (l.startWith host s).1 = .error e) ∧ (l.startWith host s).2.settings = none := by
  have hkept (files : FileTree) : ({ l with files } : Log).settings = none := hl
  unfold startWith
  split
  · next hsome => rw [hl] at hsome; cases hsome
  split
  · exact ⟨⟨_, rfl⟩, hkept _⟩
  · next made hmade =>
    split
    · exact ⟨⟨_, rfl⟩, hkept _⟩
    · next hlevel =>
      split
      · exact ⟨⟨_, rfl⟩, hkept _⟩
      · next running hwriter => exact absurd ⟨made, running, hmade, hlevel, hwriter⟩ h

end Log

namespace LogCall

variable {l : Log} {s : LogSettings} {host : LogHost} {call : LogCall}

/-- A call asks for at most one level and directory. -/
theorem Asks.unique {t : LogSettings} (hs : call.Asks s) (ht : call.Asks t) : s = t := by
  obtain ⟨level, directory, htexts, hs⟩ := hs
  obtain ⟨level', directory', htexts', ht⟩ := ht
  obtain ⟨rfl, rfl⟩ := Prod.mk.inj (Option.some.inj (htexts.symm.trans htexts'))
  exact hs.unique ht

theorem Asks.isAbsolute (h : call.Asks s) : s.directory.isAbsolute = true := by
  obtain ⟨_, _, _, h⟩ := h
  exact h.isAbsolute_directory

/-- Asking for the log, by texts or by a configuration, is starting it with two texts. -/
theorem answer_of_texts {level directory : String} (h : call.texts? = some (level, directory)) :
    call.answer host l =
      (.ofStart (l.start level directory host).1, (l.start level directory host).2) := by
  cases call with
  | start level' directory' =>
    simp only [texts?, Option.some.injEq, Prod.mk.injEq] at h
    simp only [answer, h]
  | startFromConfig c =>
    obtain ⟨directory', hdirectory, heq⟩ := Option.map_eq_some_iff.1 h
    obtain ⟨rfl, rfl⟩ := Prod.mk.inj heq
    simp only [answer, Log.startFromConfig, hdirectory]
    generalize l.start c.level directory' host = r
    obtain ⟨_ | _, _⟩ := r <;> rfl
  | status => simp [texts?] at h

/-- A call that does not ask for the log leaves it as it is. -/
theorem answer_of_texts_eq_none (h : call.texts? = none) : (call.answer host l).2 = l := by
  cases call with
  | start level directory => simp [texts?] at h
  | startFromConfig c =>
    simp only [texts?, Option.map_eq_none_iff] at h
    simp [answer, Log.startFromConfig, h]
  | status => rfl

/-- What is asked for in vain, whatever the log: the texts do not ask for settings. -/
theorem answer_of_not_asks (host : LogHost) (l : Log) (htexts : call.texts?.isSome)
    (h : ∀ s, ¬ call.Asks s) :
    (∃ e, (call.answer host l).1 = .refused e) ∧ (call.answer host l).2 = l := by
  obtain ⟨⟨level, directory⟩, htexts⟩ := Option.isSome_iff_exists.1 htexts
  rw [answer_of_texts htexts]
  unfold Log.start
  cases hread : LogSettings.read level directory with
  | error e => exact ⟨⟨e, rfl⟩, rfl⟩
  | ok s => exact absurd ⟨level, directory, htexts, LogSettings.read_eq_ok_iff.1 hread⟩ (h s)

/-- A call that asks for settings is answered as the log is started with them. -/
theorem answer_of_asks (h : call.Asks s) :
    call.answer host l =
      (.ofStart (l.startWith host s).1, (l.startWith host s).2) := by
  obtain ⟨level, directory, htexts, hasked⟩ := h
  rw [answer_of_texts htexts, Log.start, LogSettings.read_eq_ok_iff.2 hasked]

/-- The step before the log is started: it is started exactly if the call asks for settings and has
them started. -/
theorem answer_of_settings_eq_none (host : LogHost) (call : LogCall) (hl : l.settings = none) :
    (∃ s, call.Asks s ∧ host.Starts l.files s ∧ (call.answer host l).1 = .started
        ∧ (call.answer host l).2.settings = some s)
      ∨ (∀ s, call.Asks s → ¬ host.Starts l.files s)
        ∧ (call.texts?.isSome → ∃ e, (call.answer host l).1 = .refused e)
        ∧ (call.answer host l).2.settings = none := by
  by_cases hasks : ∃ s, call.Asks s
  · obtain ⟨s, hs⟩ := hasks
    rw [answer_of_asks hs]
    by_cases hstarts : host.Starts l.files s
    · obtain ⟨hok, hsettings⟩ := Log.startWith_of_starts hl hstarts
      exact .inl ⟨s, hs, hstarts, by rw [hok]; rfl, hsettings⟩
    · obtain ⟨⟨e, herror⟩, hsettings⟩ := Log.startWith_of_not_starts hl hstarts
      exact .inr ⟨fun t ht => hs.unique ht ▸ hstarts, fun _ => ⟨e, by rw [herror]; rfl⟩, hsettings⟩
  · -- the texts are refused, or there are none and nothing is done
    rw [not_exists] at hasks
    refine .inr ⟨fun s hs => absurd hs (hasks s), fun h => (answer_of_not_asks host l h hasks).1, ?_⟩
    cases htexts : call.texts? with
    | none => rw [answer_of_texts_eq_none htexts, hl]
    | some texts => rw [(answer_of_not_asks host l (by simp [htexts]) hasks).2, hl]

/-- The step after the log was started: nothing changes, and a call is answered by what agrees with
what there is. -/
theorem answer_of_settings_eq_some (hl : l.settings = some s)
    (habs : s.directory.isAbsolute = true) :
    (call.answer host l).2 = l ∧ (call.texts?.isSome →
      ((∃ t, call.Asks t ∧ t.Agree s) ∧ (call.answer host l).1 = .started
        ∨ (¬ ∃ t, call.Asks t ∧ t.Agree s) ∧ ∃ e, (call.answer host l).1 = .refused e)) := by
  by_cases hasks : ∃ t, call.Asks t
  · obtain ⟨t, ht⟩ := hasks
    -- the system is not asked again
    have hstart : l.startWith host t = (s.agree t, l) := by simp [Log.startWith, hl]
    have hagree := LogSettings.agree_eq_ok_iff habs ht.isAbsolute
    rw [answer_of_asks ht, hstart]
    cases hgranted : s.agree t with
    | ok => exact ⟨rfl, fun _ => .inl ⟨⟨t, ht, hagree.1 hgranted⟩, rfl⟩⟩
    | error e =>
      refine ⟨rfl, fun _ => .inr ⟨?_, e, rfl⟩⟩
      rintro ⟨t', ht', hagrees⟩
      obtain rfl := ht.unique ht'
      simp [hagree.2 hagrees] at hgranted
  · rw [not_exists] at hasks
    cases htexts : call.texts? with
    | none => exact ⟨answer_of_texts_eq_none htexts, by simp⟩
    | some texts =>
      have hrefused := answer_of_not_asks host l (by simp [htexts]) hasks
      exact ⟨hrefused.2, fun _ => .inr ⟨fun ⟨t, ht, _⟩ => hasks t ht, hrefused.1⟩⟩

end LogCall

/-! ## What a run does -/

namespace Log

variable {l : Log} {s : LogSettings} {run later : List (LogHost × LogCall)}

@[simp] theorem after_nil (l : Log) : l.after [] = l := rfl

@[simp] theorem after_cons (l : Log) (host : LogHost) (call : LogCall)
    (run : List (LogHost × LogCall)) :
    l.after ((host, call) :: run) = (call.answer host l).2.after run := rfl

theorem after_append (l : Log) (run later : List (LogHost × LogCall)) :
    l.after (run ++ later) = (l.after run).after later :=
  List.foldl_append

/-- A log that was started is not changed by any calls. -/
theorem after_of_settings_eq_some (hl : l.settings = some s)
    (habs : s.directory.isAbsolute = true) : l.after run = l := by
  induction run with
  | nil => rfl
  | cons step run ih =>
    obtain ⟨host, call⟩ := step
    rw [after_cons, (LogCall.answer_of_settings_eq_some hl habs).1, ih]

/-- The settings with which a log was started by a run have an absolute directory. -/
theorem StartedBy.isAbsolute (h : l.StartedBy run s) : s.directory.isAbsolute = true := by
  induction h with
  | now asks _ => exact asks.isAbsolute
  | later _ _ ih => exact ih

/-- After a run the log has the settings of the first call that had them started. -/
theorem settings_after_iff (hl : l.settings = none) :
    (l.after run).settings = some s ↔ l.StartedBy run s := by
  -- the first call starts the log for good, or leaves it to the others as one that is not started
  induction run generalizing l with
  | nil =>
    refine ⟨fun h => ?_, fun h => nomatch h⟩
    rw [after_nil, hl] at h
    cases h
  | cons step run ih =>
    obtain ⟨host, call⟩ := step
    rw [after_cons]
    rcases LogCall.answer_of_settings_eq_none host call hl with
      ⟨t, hasks, hstarts, -, hsettings⟩ | ⟨hfails, -, hsettings⟩
    · rw [after_of_settings_eq_some hsettings hasks.isAbsolute, hsettings]
      constructor
      · intro h
        exact Option.some.inj h ▸ .now hasks hstarts
      · intro h
        cases h with
        | now hasks' _ => rw [hasks.unique hasks']
        | later hfails _ => exact absurd hstarts (hfails t hasks)
    · rw [ih hsettings]
      constructor
      · exact .later hfails
      · intro h
        cases h with
        | now hasks hstarts => exact absurd hstarts (hfails s hasks)
        | later _ h => exact h

/-- A log is started once and stays as it was started. -/
structure StartsOnce (l : Log) : Prop where
  /-- The status tells nothing until a call has settings started, and then those of the first. -/
  status : ∀ run host, ∃ settings,
    LogCall.status.answer host (l.after run) = (.status settings, l.after run)
      ∧ ∀ s, settings = some s ↔ l.StartedBy run s
  /-- Until then, asking for the log succeeds exactly if the texts ask for settings that the system
  starts, and otherwise the log is still not started. -/
  before : ∀ run host (call : LogCall), (∀ s, ¬ l.StartedBy run s) → call.texts?.isSome →
    (∃ s, call.Asks s ∧ host.Starts (l.after run).files s
        ∧ (call.answer host (l.after run)).1 = .started ∧ l.StartedBy (run ++ [(host, call)]) s)
      ∨ (∀ s, call.Asks s → ¬ host.Starts (l.after run).files s)
        ∧ (∃ e, (call.answer host (l.after run)).1 = .refused e)
        ∧ ∀ s, ¬ l.StartedBy (run ++ [(host, call)]) s
  /-- From then on the log is never changed, -/
  forever : ∀ run later s, l.StartedBy run s →
    l.after (run ++ later) = l.after run ∧ l.StartedBy (run ++ later) s
  /-- and asking for it succeeds exactly if what is asked for agrees with what there is. -/
  afterwards : ∀ run host (call : LogCall) s, l.StartedBy run s → call.texts?.isSome →
    (∃ t, call.Asks t ∧ t.Agree s) ∧ (call.answer host (l.after run)).1 = .started
      ∨ (¬ ∃ t, call.Asks t ∧ t.Agree s) ∧ ∃ e, (call.answer host (l.after run)).1 = .refused e
  /-- A configuration without a directory asks for nothing and changes nothing. -/
  unasked : ∀ run host c, c.directory = none →
    (LogCall.startFromConfig c).answer host (l.after run) = (.notAskedFor, l.after run)

/-- A log that no run of calls has touched is started once: its status is nothing until the first
call that asks for a level and an absolute directory and has them started, and those for ever after;
later calls succeed if they ask for that level and a path of the same components, and change
nothing. -/
theorem log_starts_once (files : FileTree) : StartsOnce { files } where
  status run host := ⟨_, rfl, fun s => settings_after_iff rfl⟩
  before run host call hnone htexts := by
    have hsettings : (Log.after { files } run).settings = none := by
      rw [Option.eq_none_iff_forall_ne_some]
      exact fun s hs => hnone s ((settings_after_iff rfl).1 hs)
    have hstep (s : LogSettings) : Log.StartedBy { files } (run ++ [(host, call)]) s ↔
        (call.answer host (Log.after { files } run)).2.settings = some s := by
      rw [← settings_after_iff rfl, after_append, after_cons, after_nil]
    simp only [hstep]
    rcases LogCall.answer_of_settings_eq_none host call hsettings with h | ⟨hfails, hrefused, hstill⟩
    · exact .inl h
    · exact .inr ⟨hfails, hrefused htexts, by simp [hstill]⟩
  forever run later s h := by
    have hsame : Log.after { files } (run ++ later) = Log.after { files } run := by
      rw [after_append, after_of_settings_eq_some ((settings_after_iff rfl).2 h) h.isAbsolute]
    refine ⟨hsame, (settings_after_iff rfl).1 ?_⟩
    rw [hsame]
    exact (settings_after_iff rfl).2 h
  afterwards run host call s h htexts :=
    (LogCall.answer_of_settings_eq_some ((settings_after_iff rfl).2 h) h.isAbsolute).2 htexts
  unasked run host c hc := by
    simp [LogCall.answer, startFromConfig, hc, LogReply.ofStartFromConfig]

/-- The second call starts the log, the third agrees with it and the last does not. -/
example : (Log.after {} [(.ordinary, .start "warning" "logs"),
    (.ordinary, .start " Warning " "/logs"), (.ordinary, .start "WARN" "/logs/./"),
    (.ordinary, .start "info" "/logs")]).settings = some ⟨.warn, ⟨"/logs"⟩⟩ := by
  decide +kernel

end Log

end AlertRegistry
