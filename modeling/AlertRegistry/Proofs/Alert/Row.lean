import AlertRegistry.Alert.Row
import AlertRegistry.Proofs.Alert.Quantity
import AlertRegistry.Proofs.Period
import AlertRegistry.Proofs.Uuid

/-!
# Alerts read back from their rows

An alert has a row exactly if its threshold is finite and its extension map has a side-record
(`ofAlert_eq_ok_iff`). The row denotes an alert: all texts are undone one by one, and only the
number of the threshold and the extension map may differ (`toAlert_rowOf`).
-/

namespace AlertRegistry.AlertRow

open Decimal (Binary)
open Double (Denotes)

/-- The row of an alert with its side-record. -/
def rowOf (a : Alert) (side : Option SideRecord) : AlertRow where
  id := toString a.id
  name := a.name
  cluster := a.cluster
  service := a.service
  context := a.context.name
  metric := a.metric
  statistic := a.statistic
  period := toString a.period
  operator := a.operator.name
  quantity := a.threshold.document
  side := side

section

variable {a : Alert} {r : AlertRow}

theorem ofAlert_of_not_finite (h : a.threshold.value.isFinite = false) :
    ofAlert a = .error (.thresholdNotFinite a.threshold.value) := by
  unfold ofAlert
  rw [h]
  rfl

theorem ofAlert_of_finite (h : a.threshold.value.isFinite = true) :
    ofAlert a = match SideRecord.ofExtensions a.extensions with
      | .ok side => .ok (rowOf a side)
      | .error e => .error (.extensions e) := by
  unfold ofAlert
  rw [h]
  cases SideRecord.ofExtensions a.extensions <;> rfl

/-- Which alerts have a row. -/
theorem ofAlert_eq_ok_iff : ofAlert a = .ok r ↔ a.threshold.value.isFinite = true
    ∧ ∃ side, SideRecord.ofExtensions a.extensions = .ok side ∧ r = rowOf a side := by
  cases hfinite : a.threshold.value.isFinite with
  | false =>
    rw [ofAlert_of_not_finite hfinite]
    constructor
    · intro h
      cases h
    · rintro ⟨h, _⟩
      cases h
  | true =>
    rw [ofAlert_of_finite hfinite]
    cases SideRecord.ofExtensions a.extensions with
    | error e =>
      constructor
      · intro h
        cases h
      · rintro ⟨_, _, h, _⟩
        cases h
    | ok side =>
      constructor
      · intro h
        cases h
        exact ⟨rfl, side, rfl, rfl⟩
      · rintro ⟨_, _, h, rfl⟩
        cases h
        rfl

/-- Why an alert has no row. -/
theorem ofAlert_eq_error_iff {e : RecordError} : ofAlert a = .error e ↔
    (a.threshold.value.isFinite = false ∧ e = .thresholdNotFinite a.threshold.value)
    ∨ (a.threshold.value.isFinite = true
      ∧ ∃ x, SideRecord.ofExtensions a.extensions = .error x ∧ e = .extensions x) := by
  cases hfinite : a.threshold.value.isFinite with
  | false =>
    rw [ofAlert_of_not_finite hfinite]
    constructor
    · intro h
      cases h
      exact .inl ⟨rfl, rfl⟩
    · rintro (⟨_, rfl⟩ | ⟨h, _⟩)
      · rfl
      · cases h
  | true =>
    rw [ofAlert_of_finite hfinite]
    cases SideRecord.ofExtensions a.extensions with
    | error x =>
      constructor
      · intro h
        cases h
        exact .inr ⟨rfl, x, rfl, rfl⟩
      · rintro (⟨h, _⟩ | ⟨_, _, h, rfl⟩)
        · cases h
        · cases h
          rfl
    | ok side =>
      constructor
      · intro h
        cases h
      · rintro (⟨h, _⟩ | ⟨_, _, h, _⟩) <;> cases h

end

/-- The alert that is read back, if `x` is the number that is read for the threshold. -/
def restored (a : Alert) (side : Option SideRecord) (x : Float) : Alert :=
  { a with
    threshold := { value := x, unit := a.threshold.unit }
    extensions := SideRecord.toExtensions side }

/-- Every text of the row is undone. -/
theorem toAlert_rowOf {a : Alert} {b : Binary} (h : Binary.ofFloat? a.threshold.value = some b)
    (side : Option SideRecord) : ∃ x, (rowOf a side).toAlert = .ok (restored a side x)
      ∧ Denotes x b.negative (Json.readBack b) := by
  obtain ⟨x, hx, hden⟩ := Quantity.ofString?_document h
  refine ⟨x, ?_, hden⟩
  unfold toAlert rowOf
  dsimp only
  rw [Uuid.ofString?_toString, Context.ofName?_name, Operator.ofName?_name,
    Period.ofString_toString, hx]
  rfl

/-- What is read back for an alert that has a row. -/
theorem exists_toAlert_eq_ok {a : Alert} {r : AlertRow} (h : ofAlert a = .ok r) :
    ∃ side b x, SideRecord.ofExtensions a.extensions = .ok side
      ∧ Binary.ofFloat? a.threshold.value = some b ∧ r.toAlert = .ok (restored a side x)
      ∧ Denotes x b.negative (Json.readBack b) := by
  obtain ⟨hfinite, side, hside, rfl⟩ := ofAlert_eq_ok_iff.1 h
  obtain ⟨b, hb⟩ := Double.isFinite_iff.1 hfinite
  obtain ⟨x, hx, hden⟩ := toAlert_rowOf hb side
  exact ⟨side, b, x, hside, hb, hx, hden⟩

/-- An alert with a side-record. -/
def watchedAlert : Alert where
  id := Uuid.ofRandom 0
  name := "load"
  cluster := "main"
  service := "web"
  context := .host
  metric := "load"
  statistic := "avg"
  period := { seconds := 60, nanoseconds := 0 }
  operator := .greaterThan
  threshold := { value := 12 }
  extensions := Extensions.empty.insert ExtensionKey.severity.name (.text "high")

theorem ofAlert_watchedAlert :
    ofAlert watchedAlert = .ok (rowOf watchedAlert (some { severity := some "high" })) := by
  have hside : SideRecord.ofExtensions watchedAlert.extensions
      = .ok (some { severity := some "high" }) := by
    with_unfolding_all rfl
  exact ofAlert_eq_ok_iff.2 ⟨by decide +kernel, _, hside, rfl⟩

/-- An alert with the greatest threshold, the longest period and a control in the unit. -/
def extremeAlert : Alert where
  id := Uuid.ofRandom 1
  name := "\"\\\n"
  cluster := ""
  service := "disk"
  context := .cluster
  metric := "free"
  statistic := "max"
  period := { seconds := 2 ^ 64 - 1, nanoseconds := 10 ^ 9 - 1 }
  operator := .lessThanOrEqualTo
  threshold := { value := Float.ofBits 0x7FEFFFFFFFFFFFFF, unit := some "\x00" }
  extensions := Extensions.empty.insert ExtensionKey.attempts.name (.integer Text.minInt64)

/-- An alert that is accepted never becomes unreadable: what is read back has all its fields, up to
the number of the threshold, which is still finite, and the extension map, which is that of the
side-record. And an alert is refused only for a threshold that is not finite or an extension map
that is rejected. -/
theorem accepted_alerts_stay_readable (a : Alert) :
    (∀ r, ofAlert a = .ok r → ∃ side back, SideRecord.ofExtensions a.extensions = .ok side
      ∧ r.toAlert = .ok back
      ∧ back.id = a.id ∧ back.name = a.name ∧ back.cluster = a.cluster ∧ back.service = a.service
      ∧ back.context = a.context ∧ back.metric = a.metric ∧ back.statistic = a.statistic
      ∧ back.period = a.period ∧ back.operator = a.operator
      ∧ back.threshold.unit = a.threshold.unit ∧ back.threshold.value.isFinite = true
      ∧ back.extensions = SideRecord.toExtensions side)
    ∧ (∀ e, ofAlert a = .error e →
      (a.threshold.value.isFinite = false ∧ e = .thresholdNotFinite a.threshold.value)
      ∨ ∃ x, SideRecord.ofExtensions a.extensions = .error x ∧ e = .extensions x) := by
  constructor
  · intro r hr
    obtain ⟨side, b, x, hside, _, hback, hden⟩ := exists_toAlert_eq_ok hr
    exact ⟨side, restored a side x, hside, hback, rfl, rfl, rfl, rfl, rfl, rfl, rfl, rfl, rfl, rfl,
      hden.isFinite, rfl⟩
  · intro e he
    exact (ofAlert_eq_error_iff.1 he).imp_right And.right

theorem extreme_alert_stays_readable : ∃ r back, ofAlert extremeAlert = .ok r
    ∧ r.toAlert = .ok back ∧ back.period = extremeAlert.period
    ∧ back.threshold.unit = some "\x00" ∧ back.threshold.value.isFinite = true := by
  have hside : SideRecord.ofExtensions extremeAlert.extensions
      = .ok (some { attempts := some Text.minInt64 }) := by
    with_unfolding_all rfl
  have hr := ofAlert_eq_ok_iff.2 ⟨by decide +kernel, _, hside, rfl⟩
  obtain ⟨_, back, _, hback, _, _, _, _, _, _, _, hperiod, _, hunit, hfinite, _⟩ :=
    (accepted_alerts_stay_readable extremeAlert).1 _ hr
  exact ⟨_, back, hr, hback, hperiod, hunit, hfinite⟩

end AlertRegistry.AlertRow
