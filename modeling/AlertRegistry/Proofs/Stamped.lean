import AlertRegistry.Proofs.Page
import AlertRegistry.Proofs.Reading
import AlertRegistry.Proofs.Saving

/-!
# The stamps in a table

A write that has gone through leaves its time in the table (`Table.Written`): the tuple under its
key keeps its first stamp and gets the later of that and the time as its second one, or there is a
new last tuple with the time as both stamps. All other tuples are as before. This is read off the
success of `insert` and `update`, whatever else they may have met in the table
(`written_of_insert`, `written_of_update`).

The stamp of a tuple (`Table.stampOf?`) is the later one of the two. If the times of writes never go
back, no stamp is later than the last time (`StampsBy`), the one under a key is not earlier than any
time at which that was written (`StampedSince`), and the newest stamp on a page only grows
(`newest_le_newest`).
-/

namespace AlertRegistry

open Table (keyOf keys accept)

/-! ## Lists that grow -/

/-- Elements stay in their places, where they may be changed as `R` says, and what comes behind them
is new as `N` says. -/
structure Grows {α : Type} (R : α → α → Prop) (N : α → Prop) (l l' : List α) : Prop where
  /-- Elements stay in their places. -/
  stays {i : Nat} {a : α} : l[i]? = some a → ∃ b, l'[i]? = some b ∧ R a b
  /-- Others are new. -/
  comes {i : Nat} {b : α} : l'[i]? = some b → (∃ a, l[i]? = some a) ∨ N b

namespace Grows

variable {α : Type} {R : α → α → Prop} {N : α → Prop} {l l' : List α}

theorem refl (h : ∀ a, R a a) (l : List α) : Grows R N l l where
  stays {_ a} hi := ⟨a, hi, h a⟩
  comes {_ b} hi := .inl ⟨b, hi⟩

theorem of_forall₂ (h : List.Forall₂ R l l') : Grows R N l l' where
  stays {i a} hi := by
    obtain ⟨hlt, rfl⟩ := List.getElem?_eq_some_iff.1 hi
    have hlt' : i < l'.length := h.length_eq ▸ hlt
    exact ⟨l'[i], List.getElem?_eq_getElem hlt', h.get hlt hlt'⟩
  comes {i b} hi := by
    obtain ⟨hlt', rfl⟩ := List.getElem?_eq_some_iff.1 hi
    have hlt : i < l.length := h.length_eq ▸ hlt'
    exact .inl ⟨l[i], List.getElem?_eq_getElem hlt⟩

theorem append_singleton (h : ∀ a ∈ l, R a a) {b : α} (hb : N b) : Grows R N l (l ++ [b]) where
  stays {i a} hi := by
    obtain ⟨hlt, rfl⟩ := List.getElem?_eq_some_iff.1 hi
    exact ⟨l[i], by rw [List.getElem?_append_left hlt, hi], h _ (List.getElem_mem hlt)⟩
  comes {i c} hi := by
    by_cases hlt : i < l.length
    · exact .inl ⟨l[i], List.getElem?_eq_getElem hlt⟩
    · rw [List.getElem?_append_right (Nat.le_of_not_lt hlt)] at hi
      obtain rfl := List.mem_singleton.1 (List.mem_of_getElem? hi)
      exact .inr hb

/-- What is in the list now was changed from an element or is new. -/
theorem mem_cases (h : Grows R N l l') {b : α} (hb : b ∈ l') : (∃ a ∈ l, R a b) ∨ N b := by
  obtain ⟨i, hi⟩ := List.getElem?_of_mem hb
  rcases h.comes hi with ⟨a, ha⟩ | hnew
  · obtain ⟨b', hb', hab⟩ := h.stays ha
    obtain rfl := Option.some.inj (hi.symm.trans hb')
    exact .inl ⟨a, List.mem_of_getElem? ha, hab⟩
  · exact .inr hnew

theorem exists_of_mem (h : Grows R N l l') {a : α} (ha : a ∈ l) : ∃ b ∈ l', R a b := by
  obtain ⟨i, hi⟩ := List.getElem?_of_mem ha
  obtain ⟨b, hb, hab⟩ := h.stays hi
  exact ⟨b, List.mem_of_getElem? hb, hab⟩

/-- A list that grows once more. -/
theorem trans {R' : α → α → Prop} {N' : α → Prop} {l'' : List α} (h : Grows R N l l')
    {S : α → α → Prop} {M : α → Prop} (h' : Grows S M l' l'')
    (hR : ∀ {a b c}, R a b → S b c → R' a c) (hN : ∀ {b c}, N b → S b c → N' c)
    (hM : ∀ {c}, M c → N' c) : Grows R' N' l l'' where
  stays {i a} hi := by
    obtain ⟨b, hb, hab⟩ := h.stays hi
    obtain ⟨c, hc, hbc⟩ := h'.stays hb
    exact ⟨c, hc, hR hab hbc⟩
  comes {i c} hi := by
    rcases h'.comes hi with ⟨b, hb⟩ | hnew
    · obtain ⟨c', hc', hbc⟩ := h'.stays hb
      obtain rfl := Option.some.inj (hi.symm.trans hc')
      exact (h.comes hb).imp id fun hnew => hN hnew hbc
    · exact .inr (hM hnew)

/-- The pages of a list that grows do. -/
theorem slice (h : Grows R N l l') (offset : Option UInt32) (limit : UInt32) :
    Grows R N (slice offset limit l) (AlertRegistry.slice offset limit l') where
  stays {i a} hi := by
    rw [getElem?_slice_eq] at hi ⊢
    split at hi
    · next hlt =>
      rw [if_pos hlt]
      exact h.stays hi
    · cases hi
  comes {i b} hi := by
    rw [getElem?_slice_eq] at hi ⊢
    split at hi
    · next hlt =>
      rw [if_pos hlt]
      exact h.comes hi
    · cases hi

/-- A list that has grown is the same if nothing was changed and nothing is new. -/
theorem eq_of_forall_mem (h : Grows R N l l') (hself : ∀ b ∈ l', ∀ a, R a b → b = a)
    (hnone : ∀ b ∈ l', ¬ N b) : l' = l := by
  apply List.ext_getElem?
  intro i
  cases hi : l[i]? with
  | none =>
    cases hi' : l'[i]? with
    | none => rfl
    | some b =>
      rcases h.comes hi' with ⟨a, ha⟩ | hnew
      · rw [hi] at ha
        cases ha
      · exact absurd hnew (hnone b (List.mem_of_getElem? hi'))
  | some a =>
    obtain ⟨b, hb, hab⟩ := h.stays hi
    rw [hb, hself b (List.mem_of_getElem? hb) a hab]

end Grows

/-! ## Tables with stamps -/

/-- A table with versions that also has a column for the second stamp. -/
class Stamped (γ : Type) [Layout γ] [Versioned γ] where
  /-- The column of the second stamp. -/
  updatedAt : γ
  affinity_key : Layout.affinity (Layout.key : γ) = .text
  affinity_createdAt : Layout.affinity (Versioned.createdAt : γ) = .integer
  affinity_updatedAt : Layout.affinity updatedAt = .integer

instance : Stamped AlertColumn where
  updatedAt := .updatedAt
  affinity_key := rfl
  affinity_createdAt := rfl
  affinity_updatedAt := rfl

instance : Stamped ExpressionColumn where
  updatedAt := .updatedAt
  affinity_key := rfl
  affinity_createdAt := rfl
  affinity_updatedAt := rfl

/-- A sheet whose tuples have their stamps in the columns of the stamps. -/
structure Sheet.IsStamped {γ : Type} [Layout γ] [Versioned γ] [Stamped γ] (w : Sheet γ) :
    Prop where
  /-- The first stamp. -/
  createdAt (v c u : Cell) : w.tuple v c u Versioned.createdAt = c
  /-- The second stamp. -/
  updatedAt (v c u : Cell) : w.tuple v c u Stamped.updatedAt = u

theorem AlertRow.isStamped_sheet (r : AlertRow) : r.sheet.IsStamped :=
  ⟨fun _ _ _ => rfl, fun _ _ _ => rfl⟩

theorem ExpressionRow.isStamped_sheet (r : ExpressionRow) : r.sheet.IsStamped :=
  ⟨fun _ _ _ => rfl, fun _ _ _ => rfl⟩

namespace Table

/-! ## Changes that have gone through -/

section

variable {γ : Type} [Layout γ] {T T' : Table γ}

/-- What was inserted had a new key and was admitted. -/
theorem insert_eq_ok_imp {t : Tuple γ} (h : T.insert t = .ok T') :
    ∃ u, accept t = .ok u ∧ keyOf u ∉ keys T.tuples ∧ T'.tuples = T.tuples ++ [u] := by
  unfold Table.insert at h
  obtain ⟨_, _, h⟩ := bind_eq_ok h
  obtain ⟨u, haccept, h⟩ := bind_eq_ok h
  by_cases hkey : hasKey (keyOf u) T.tuples = true
  · rw [if_pos hkey] at h
    cases h
  · rw [if_neg hkey] at h
    cases h
    exact ⟨u, haccept, fun hmem => hkey (hasKey_iff.2 hmem), rfl⟩

theorem updateFrom_eq_ok_imp {select : Tuple γ → Bool} {f : Tuple γ → Tuple γ} :
    ∀ {ts before us : List (Tuple γ)}, T.updateFrom select f before ts = .ok us →
      ∃ vs, us = before ++ vs ∧
        List.Forall₂ (fun a b => if select a then accept (f a) = .ok b else b = a) ts vs
  | [], before, us, h => by
    cases h
    exact ⟨[], (List.append_nil _).symm, .nil⟩
  | t :: ts, before, us, h => by
    unfold updateFrom at h
    by_cases hs : select t = true
    · rw [if_pos hs] at h
      obtain ⟨_, _, h⟩ := bind_eq_ok h
      obtain ⟨u, haccept, h⟩ := bind_eq_ok h
      split at h
      · cases h
      · obtain ⟨vs, rfl, hvs⟩ := updateFrom_eq_ok_imp h
        refine ⟨u :: vs, by rw [List.append_assoc, List.singleton_append], .cons ?_ hvs⟩
        rw [if_pos hs]
        exact haccept
    · rw [if_neg hs] at h
      obtain ⟨vs, rfl, hvs⟩ := updateFrom_eq_ok_imp h
      refine ⟨t :: vs, by rw [List.append_assoc, List.singleton_append], .cons ?_ hvs⟩
      rw [if_neg hs]

/-- An update has changed the selected tuples in their places. -/
theorem update_eq_ok_imp {select : Tuple γ → Bool} {f : Tuple γ → Tuple γ}
    (h : T.update select f = .ok T') :
    List.Forall₂ (fun a b => if select a then accept (f a) = .ok b else b = a)
      T.tuples T'.tuples := by
  obtain ⟨us, hus, h⟩ := bind_eq_ok h
  cases h
  obtain ⟨vs, rfl, hvs⟩ := updateFrom_eq_ok_imp hus
  exact hvs

omit [Layout γ] in
/-- Of what is removed nothing is left. -/
theorem delete_eq_ok_imp {select : Tuple γ → Bool} (h : T.delete select = .ok T') :
    T'.tuples = T.tuples.filter fun t => !select t := by
  unfold delete at h
  split at h
  · obtain ⟨_, _, h⟩ := bind_eq_ok h
    cases h
    rfl
  · cases h
    rfl

theorem accept_apply {t u : Tuple γ} (h : accept t = .ok u) (c : γ) :
    u c = (Layout.affinity c).convert (t c) :=
  congrFun (accept_eq_ok_imp h).1 c

end

/-! ## Writes that have gone through -/

section

variable {γ : Type} [Layout γ] [Versioned γ] [Stamped γ]

/-- The table is in order: keys are distinct, and first stamps are kept by their column. -/
structure Orderly (ts : List (Tuple γ)) : Prop where
  /-- Keys are distinct. -/
  nodup : (keys ts).Nodup
  /-- First stamps are kept as they are. -/
  isStamp : ∀ t ∈ ts, (t (Versioned.createdAt : γ)).IsStamp

/-- The tuple `b` was written over `a` at a time. -/
structure WrittenOver (now : Int) (a b : Tuple γ) : Prop where
  /-- The key stays. -/
  keyOf : keyOf b = keyOf a
  /-- The first stamp stays. -/
  createdAt : b Versioned.createdAt = a Versioned.createdAt
  /-- The second stamp is the later one of the first one and the time. -/
  updatedAt : b Stamped.updatedAt = Cell.later (a Versioned.createdAt) (.integer now)

/-- The tuple was written under a new key at a time. -/
structure WrittenNew (now : Int) (key : String) (b : Tuple γ) : Prop where
  /-- The key. -/
  keyOf : keyOf b = .text key
  /-- The time is the first stamp. -/
  createdAt : b Versioned.createdAt = .integer now
  /-- The time is the second stamp. -/
  updatedAt : b Stamped.updatedAt = .integer now

/-- What a write under a key does to one tuple. -/
def Rewrites (now : Int) (key : String) (a b : Tuple γ) : Prop :=
  if keyOf a = .text key then WrittenOver now a b else b = a

/-- The tuples `ts'` are left when something is written under a key at a time. -/
structure Written (now : Int) (key : String) (ts ts' : List (Tuple γ)) : Prop where
  /-- The tuple under the key is written over, or there is a new one. -/
  grows : Grows (Rewrites now key) (WrittenNew now key) ts ts'
  /-- Keys are distinct. -/
  nodup : (keys ts').Nodup

variable {T T' : Table γ} {w : Sheet γ} {now : Int} {key : String} {ts ts' : List (Tuple γ)}

theorem Rewrites.keyOf {a b : Tuple γ} (h : Rewrites now key a b) :
    Table.keyOf b = Table.keyOf a := by
  unfold Rewrites at h
  split at h
  · exact h.keyOf
  · rw [h]

theorem Rewrites.createdAt {a b : Tuple γ} (h : Rewrites now key a b) :
    b Versioned.createdAt = a Versioned.createdAt := by
  unfold Rewrites at h
  split at h
  · exact h.createdAt
  · rw [h]

/-- A sheet that was inserted was written as something new. -/
theorem written_of_insert (hw : w.IsStamped) (horderly : Orderly T.tuples)
    (h : T.insert (w.tuple (.integer 1) (.integer now) (.integer now)) = .ok T') :
    Written now w.key T.tuples T'.tuples := by
  obtain ⟨u, haccept, hnew, htuples⟩ := insert_eq_ok_imp h
  have hu : WrittenNew now w.key u := by
    refine ⟨?_, ?_, ?_⟩
    · have hkey := accept_apply haccept Layout.key
      rw [Stamped.affinity_key] at hkey
      exact hkey.trans (congrArg _ (w.keyOf_tuple _ _ _))
    · rw [accept_apply haccept, hw.createdAt, Stamped.affinity_createdAt]
      rfl
    · rw [accept_apply haccept, hw.updatedAt, Stamped.affinity_updatedAt]
      rfl
  rw [hu.keyOf] at hnew
  rw [htuples]
  refine ⟨.append_singleton (fun t ht => ?_) hu, ?_⟩
  · have hkey : keyOf t ≠ .text w.key := fun hkey => hnew (hkey ▸ List.mem_map_of_mem ht)
    unfold Rewrites
    rw [if_neg hkey]
  · rw [keys_append]
    refine horderly.nodup.append (List.nodup_singleton _) ?_
    simpa [keys, hu.keyOf] using hnew

/-- A sheet that was accepted over a tuple was written over it. -/
theorem writtenOver_of_accept (hw : w.IsStamped) {a b : Tuple γ} (hkey : keyOf a = .text w.key)
    (hstamp : (a (Versioned.createdAt : γ)).IsStamp) {v : Cell}
    (h : accept (w.tuple v (a Versioned.createdAt)
      (Cell.later (a Versioned.createdAt) (.integer now))) = .ok b) : WrittenOver now a b where
  keyOf := by
    have hb := accept_apply h Layout.key
    rw [Stamped.affinity_key] at hb
    exact (hb.trans (congrArg _ (w.keyOf_tuple _ _ _))).trans hkey.symm
  createdAt := by
    rw [accept_apply h, hw.createdAt, Stamped.affinity_createdAt, hstamp.kept]
  updatedAt := by
    rw [accept_apply h, hw.updatedAt, Stamped.affinity_updatedAt, (hstamp.later now).kept]

/-- A sheet that has replaced something was written over what was under its key. -/
theorem written_of_update (hw : w.IsStamped) (horderly : Orderly T.tuples)
    (h : T.update (isExpected w) (fun t => w.tuple (.next w.version) (t Versioned.createdAt)
      (Cell.later (t Versioned.createdAt) (.integer now))) = .ok T')
    (hcount : T.count (isExpected w) ≠ 0) : Written now w.key T.tuples T'.tuples := by
  obtain ⟨t₀, ht₀, hexpected⟩ := List.countP_pos_iff.1 (Nat.pos_of_ne_zero hcount)
  -- keys are distinct, so what is under the key is what was replaced
  have hselect : ∀ a ∈ T.tuples, (isExpected w a = true ↔ keyOf a = .text w.key) := by
    intro a ha
    refine ⟨fun hs => (isExpected_iff.1 hs).1, fun hkey => ?_⟩
    have heq : a = t₀ := List.inj_on_of_nodup_map horderly.nodup ha ht₀
      (hkey.trans (isExpected_iff.1 hexpected).1.symm)
    exact heq ▸ hexpected
  have hplaces : List.Forall₂ (Rewrites now w.key) T.tuples T'.tuples := by
    have hmem := (List.forall₂_and_left T.tuples T'.tuples).2
      ⟨fun a ha => ha, update_eq_ok_imp h⟩
    refine hmem.imp ?_
    rintro a b ⟨ha, hab⟩
    unfold Rewrites
    by_cases hkey : keyOf a = .text w.key
    · rw [if_pos ((hselect a ha).2 hkey)] at hab
      rw [if_pos hkey]
      exact writtenOver_of_accept hw hkey (horderly.isStamp a ha) hab
    · rw [if_neg fun hs => hkey ((hselect a ha).1 hs)] at hab
      rwa [if_neg hkey]
  have hkeys : keys T.tuples = keys T'.tuples := by
    unfold keys
    rw [← List.forall₂_eq_eq_eq, List.forall₂_map_left_iff, List.forall₂_map_right_iff]
    exact hplaces.imp fun _ _ (hab : Rewrites now w.key _ _) => hab.keyOf.symm
  exact ⟨.of_forall₂ hplaces, hkeys ▸ horderly.nodup⟩

/-- A write leaves a table in order. -/
theorem Written.orderly (h : Written now key ts ts') (horderly : Orderly ts) : Orderly ts' where
  nodup := h.nodup
  isStamp b hb := by
    rcases h.grows.mem_cases hb with ⟨a, ha, hab⟩ | hnew
    · rw [hab.createdAt]
      exact horderly.isStamp a ha
    · rw [hnew.createdAt]
      exact Cell.isStamp_integer now

/-! ## The stamp of a tuple -/

/-- Both stamps of a tuple, if they are integers. -/
def stampsOf? (t : Tuple γ) : Option (Int × Int) :=
  match t Versioned.createdAt, t Stamped.updatedAt with
  | .integer c, .integer u => some (c, u)
  | _, _ => none

/-- The later one of the stamps of a tuple. -/
def stampOf? (t : Tuple γ) : Option Int :=
  (stampsOf? t).map fun p => max p.1 p.2

theorem stampsOf?_eq_some_iff {t : Tuple γ} {p : Int × Int} :
    stampsOf? t = some p
      ↔ t Versioned.createdAt = .integer p.1 ∧ t Stamped.updatedAt = .integer p.2 := by
  unfold stampsOf?
  constructor
  · intro h
    split at h
    · next hc hu =>
      cases h
      exact ⟨hc, hu⟩
    · cases h
  · rintro ⟨hc, hu⟩
    rw [hc, hu]

theorem stampOf?_eq_some_iff {t : Tuple γ} {m : Int} :
    stampOf? t = some m ↔ ∃ c u, t Versioned.createdAt = .integer c
      ∧ t Stamped.updatedAt = .integer u ∧ max c u = m := by
  unfold stampOf?
  rw [Option.map_eq_some_iff]
  constructor
  · rintro ⟨p, hp, hm⟩
    obtain ⟨hc, hu⟩ := stampsOf?_eq_some_iff.1 hp
    exact ⟨p.1, p.2, hc, hu, hm⟩
  · rintro ⟨c, u, hc, hu, hm⟩
    exact ⟨(c, u), stampsOf?_eq_some_iff.2 ⟨hc, hu⟩, hm⟩

/-- What was written over has the later one of its first stamp and the time as its stamp. -/
theorem stampOf?_of_later {b : Tuple γ} {c : Cell} (hc : b Versioned.createdAt = c)
    (hu : b Stamped.updatedAt = Cell.later c (.integer now)) {m : Int} :
    stampOf? b = some m ↔ ∃ n, c = .integer n ∧ max n now = m := by
  rw [stampOf?_eq_some_iff, hc, hu]
  constructor
  · rintro ⟨n, u, rfl, hlater, rfl⟩
    rw [Cell.later_integer] at hlater
    obtain rfl := Cell.integer.inj hlater
    exact ⟨n, rfl, by omega⟩
  · rintro ⟨n, rfl, rfl⟩
    exact ⟨n, max n now, rfl, Cell.later_integer n now, by omega⟩

theorem WrittenOver.le_stamp {a b : Tuple γ} (h : WrittenOver now a b) {m : Int}
    (hm : stampOf? b = some m) : now ≤ m := by
  obtain ⟨n, _, rfl⟩ := (stampOf?_of_later h.createdAt h.updatedAt).1 hm
  exact Int.le_max_right n now

theorem WrittenNew.stampOf? {b : Tuple γ} (h : WrittenNew now key b) :
    stampOf? b = some now :=
  stampOf?_eq_some_iff.2 ⟨now, now, h.createdAt, h.updatedAt, Int.max_self now⟩

/-! ## Bounds on stamps -/

/-- No stamp is later than the time. -/
def StampsBy (time : Int) (ts : List (Tuple γ)) : Prop :=
  ∀ t ∈ ts, ∀ n,
    t Versioned.createdAt = .integer n ∨ t Stamped.updatedAt = .integer n → n ≤ time

/-- The stamps under the key are not earlier than the time. -/
def StampedSince (time : Int) (key : String) (ts : List (Tuple γ)) : Prop :=
  ∀ t ∈ ts, keyOf t = .text key → ∀ m, stampOf? t = some m → time ≤ m

theorem StampsBy.mono {time time' : Int} (h : StampsBy time ts) (hle : time ≤ time') :
    StampsBy time' ts :=
  fun t ht n hn => (h t ht n hn).trans hle

theorem StampsBy.subset {time : Int} (h : StampsBy time ts) (hsub : ts' ⊆ ts) :
    StampsBy time ts' :=
  fun t ht => h t (hsub ht)

theorem StampedSince.subset {time : Int} (h : StampedSince time key ts) (hsub : ts' ⊆ ts) :
    StampedSince time key ts' :=
  fun t ht => h t (hsub ht)

theorem StampsBy.le {time : Int} (h : StampsBy time ts) {t : Tuple γ} (ht : t ∈ ts) {m : Int}
    (hm : stampOf? t = some m) : m ≤ time := by
  obtain ⟨c, u, hc, hu, rfl⟩ := stampOf?_eq_some_iff.1 hm
  exact Int.max_le.2 ⟨h t ht c (.inl hc), h t ht u (.inr hu)⟩

/-- No write makes a stamp that is later than its time and than all stamps before. -/
theorem Written.stampsBy (h : Written now key ts ts') {time : Int} (hts : StampsBy time ts)
    (hle : now ≤ time) : StampsBy time ts' := by
  intro b hb n hn
  rcases h.grows.mem_cases hb with ⟨a, ha, hab⟩ | hnew
  · unfold Rewrites at hab
    split at hab
    · rw [hab.createdAt, hab.updatedAt] at hn
      rcases hn with hn | hn
      · exact hts a ha n (.inl hn)
      · unfold Cell.later at hn
        split at hn
        · exact hts a ha n (.inl hn)
        · exact (Cell.integer.inj hn).ge.trans hle
    · subst hab
      exact hts b ha n hn
  · rw [hnew.createdAt, hnew.updatedAt, or_self] at hn
    exact (Cell.integer.inj hn).ge.trans hle

/-- What a write leaves under its key is stamped with its time or later. -/
theorem Written.stampedSince (h : Written now key ts ts') : StampedSince now key ts' := by
  intro b hb hkey m hm
  rcases h.grows.mem_cases hb with ⟨a, _, hab⟩ | hnew
  · rw [hab.keyOf] at hkey
    unfold Rewrites at hab
    rw [if_pos hkey] at hab
    exact hab.le_stamp hm
  · rw [hnew.stampOf?] at hm
    exact (Option.some.inj hm).le

/-- Writes that come later do not take that back. -/
theorem StampedSince.written {time : Int} {key' : String} (hts : StampedSince time key' ts)
    (h : Written now key ts ts') (hle : time ≤ now) : StampedSince time key' ts' := by
  intro b hb hkey m hm
  rcases h.grows.mem_cases hb with ⟨a, ha, hab⟩ | hnew
  · unfold Rewrites at hab
    split at hab
    · exact hle.trans (hab.le_stamp hm)
    · subst hab
      exact hts b ha hkey m hm
  · rw [hnew.stampOf?] at hm
    exact hle.trans (Option.some.inj hm).le

/-! ## Many writes -/

/-- What becomes of a tuple when there are only writes under some keys, none of them earlier than
the time `since`. -/
structure Aged (since : Int) (wrote : String → Prop) (a b : Tuple γ) : Prop where
  /-- The key stays. -/
  keyOf : keyOf b = keyOf a
  /-- The first stamp stays. -/
  createdAt : b Versioned.createdAt = a Versioned.createdAt
  /-- All of it stays unless the key is among those. -/
  kept : b = a ∨ ∃ key now, wrote key ∧ Table.keyOf a = .text key ∧ since ≤ now
    ∧ b Stamped.updatedAt = Cell.later (a Versioned.createdAt) (.integer now)

/-- The tuple is under one of the keys. -/
def IsUnder (wrote : String → Prop) (b : Tuple γ) : Prop :=
  ∃ key, wrote key ∧ keyOf b = .text key

variable {since : Int} {wrote : String → Prop}

theorem Aged.refl (a : Tuple γ) : Aged since wrote a a := ⟨rfl, rfl, .inl rfl⟩

theorem Aged.rewrites {a b c : Tuple γ} (h : Aged since wrote a b) (hbc : Rewrites now key b c)
    (hkey : wrote key) (hle : since ≤ now) : Aged since wrote a c where
  keyOf := hbc.keyOf.trans h.keyOf
  createdAt := hbc.createdAt.trans h.createdAt
  kept := by
    unfold Rewrites at hbc
    split at hbc
    · next hb =>
      rw [← h.createdAt]
      exact .inr ⟨key, now, hkey, h.keyOf.symm.trans hb, hle, hbc.updatedAt⟩
    · exact hbc ▸ h.kept

/-- A table that has grown by writes grows by one more. -/
theorem Written.grows_of_grows {ts'' : List (Tuple γ)} (h' : Written now key ts' ts'')
    (h : Grows (Aged since wrote) (IsUnder wrote) ts ts') (hkey : wrote key) (hle : since ≤ now) :
    Grows (Aged since wrote) (IsUnder wrote) ts ts'' :=
  h.trans h'.grows (fun hab hbc => hab.rewrites hbc hkey hle)
    (fun ⟨k, hk, hb⟩ hbc => ⟨k, hk, hbc.keyOf.trans hb⟩) fun hnew => ⟨key, hkey, hnew.keyOf⟩

/-! ## The newest stamp -/

/-- The newest stamp of tuples, at least 0. -/
def newest (ts : List (Tuple γ)) : Int :=
  newestStamp (ts.filterMap stampsOf?)

theorem newest_le_iff {time : Int} :
    newest ts ≤ time ↔ 0 ≤ time ∧ ∀ t ∈ ts, ∀ m, stampOf? t = some m → m ≤ time := by
  unfold newest
  rw [newestStamp_le_iff]
  refine and_congr_right fun _ => ?_
  simp only [List.mem_filterMap, stampOf?, Option.map_eq_some_iff]
  constructor
  · rintro h t ht m ⟨p, hp, rfl⟩
    exact h p ⟨t, ht, hp⟩
  · rintro h p ⟨t, ht, hp⟩
    exact h t ht _ ⟨p, hp, rfl⟩

theorem le_newest {t : Tuple γ} (ht : t ∈ ts) {m : Int} (hm : stampOf? t = some m) :
    m ≤ newest ts :=
  (newest_le_iff.1 le_rfl).2 t ht m hm

/-- By writes the newest stamp does not go back. -/
theorem newest_le_newest (h : Grows (Aged since wrote) (IsUnder wrote) ts ts')
    (hby : StampsBy since ts) : newest ts ≤ newest ts' := by
  refine newest_le_iff.2 ⟨newestStamp_nonneg _, fun a ha m hm => ?_⟩
  obtain ⟨b, hb, hab⟩ := h.exists_of_mem ha
  rcases hab.kept with rfl | ⟨_, now, _, _, hle, hu⟩
  · exact le_newest hb hm
  · obtain ⟨c, u, hc, _, _⟩ := stampOf?_eq_some_iff.1 hm
    have hstamp : stampOf? b = some (max c now) :=
      (stampOf?_of_later hab.createdAt hu).2 ⟨c, hc, rfl⟩
    calc m ≤ since := hby.le ha hm
      _ ≤ now := hle
      _ ≤ max c now := Int.le_max_right c now
      _ ≤ newest ts' := le_newest hb hstamp

/-- Right after a write under a key the newest stamp is its time. -/
theorem newest_eq (hnonneg : 0 ≤ now) (hby : StampsBy now ts) (hsince : StampedSince now key ts)
    {t : Tuple γ} (ht : t ∈ ts) (hkey : keyOf t = .text key) {m : Int}
    (hm : stampOf? t = some m) : newest ts = now := by
  apply le_antisymm
  · exact newest_le_iff.2 ⟨hnonneg, fun a ha n hn => hby.le ha hn⟩
  · exact (hsince t ht hkey m hm).trans (le_newest ht hm)

/-- Tuples that are under none of the keys of the writes are what they were. -/
theorem eq_of_grows (h : Grows (Aged since wrote) (IsUnder wrote) ts ts')
    (hother : ∀ b ∈ ts', ¬ IsUnder wrote b) : ts' = ts := by
  refine h.eq_of_forall_mem (fun b hb a hab => ?_) hother
  rcases hab.kept with heq | ⟨key, _, hwrote, hkey, _, _⟩
  · exact heq
  · exact absurd ⟨key, hwrote, hab.keyOf.trans hkey⟩ (hother b hb)

end

end Table

end AlertRegistry
