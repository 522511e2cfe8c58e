import AlertRegistry.Proofs.Store
import AlertRegistry.Store.Shared

/-!
# Connections to one store

Any number of connections are on one store if each two of them are on one file; a store without file
has a single connection. As long as none of them has begun a transaction, they all see one database
and each has the store to itself (`AtRest`). That is kept by whatever a connection does from one
such state to the next: the others see what it committed (`AtRest.putBack`).
-/

namespace AlertRegistry.Connections

/-- All connections are on one store that has been left with a database: none of them has begun
anything. -/
structure AtRest (cs : Connections) (db : Database) : Prop where
  /-- Each two connections are on one file. -/
  shares : ∀ {i j : Nat} {c d : Connection}, i ≠ j → cs[i]? = some c → cs[j]? = some d →
    c.sharesFile d = true
  /-- The database is committed. -/
  committed : ∀ c ∈ cs, c.store.committed = db
  /-- No transaction is active. -/
  idle : ∀ c ∈ cs, c.store.transaction = .none
  /-- All connections can be used. -/
  sound : ∀ c ∈ cs, c.store.poisoned = false

/-- Any number of new connections to one file are at rest. -/
theorem atRest_replicate (n : Nat) (file : String) :
    AtRest (List.replicate n { file := some file }) {} where
  shares {i j c d} _ hc hd := by
    rw [List.eq_of_mem_replicate (List.mem_of_getElem? hc),
      List.eq_of_mem_replicate (List.mem_of_getElem? hd)]
    unfold Connection.sharesFile
    simp
  committed c hc := by rw [List.eq_of_mem_replicate hc]
  idle c hc := by rw [List.eq_of_mem_replicate hc]
  sound c hc := by rw [List.eq_of_mem_replicate hc]

/-- Connections that have begun nothing hold no locks. -/
theorem locks_eq {peers : List Store} (h : ∀ p ∈ peers, p.transaction = .none) :
    Store.locks peers = {} := by
  have hnone : ∀ f : Transaction → Bool, f .none = false →
      peers.any (fun p => f p.transaction) = false := by
    intro f hf
    rw [List.any_eq_false]
    intro p hp
    rw [h p hp, hf]
    exact Bool.false_ne_true
  unfold Store.locks
  rw [hnone _ rfl, hnone _ rfl, hnone _ rfl]

/-- Who waits for readers writes, so that without writers and readers there are no locks at all. -/
theorem locks_eq_of_free {peers : List Store} (hw : (Store.locks peers).write = false)
    (hr : (Store.locks peers).read = false) : Store.locks peers = {} := by
  have hwait : (Store.locks peers).wait = false := by
    unfold Store.locks at hw ⊢
    rw [List.any_eq_false] at hw ⊢
    intro p hp hwaits
    refine hw p hp ?_
    cases ht : p.transaction with
    | writing work waits => rfl
    | none =>
      rw [ht] at hwaits
      cases hwaits
    | deferred reads =>
      rw [ht] at hwaits
      cases hwaits
  rcases hl : Store.locks peers with ⟨write, read, wait⟩
  rw [hl] at hw hr hwait
  subst hw hr hwait
  rfl

namespace AtRest

variable {cs : Connections} {db : Database}

/-- Each connection has the store to itself. -/
theorem idle_of_at? (h : AtRest cs db) {i : Nat} {s : Store} (hs : cs.at? i = some s) :
    s.Idle ∧ s.committed = db := by
  unfold at? at hs
  obtain ⟨c, hc, rfl⟩ := Option.map_eq_some_iff.1 hs
  have hmem : c ∈ cs := List.mem_of_getElem? hc
  have hlocks : Store.locks (((cs.peers i).filter c.sharesFile).map Connection.store) = {} := by
    apply locks_eq
    intro p hp
    obtain ⟨d, hd, rfl⟩ := List.mem_map.1 hp
    exact h.idle d (List.mem_of_mem_eraseIdx (List.mem_filter.1 hd).1)
  exact ⟨{ others := hlocks
           transaction := fun reads ht => by
             rw [h.idle c hmem] at ht
             cases ht
           sound := h.sound c hmem
           idle := h.idle c hmem }, h.committed c hmem⟩

/-- After one connection has acted, each connection is this one, or another one that has followed it
and sees what it committed. -/
theorem putBack_cases (h : AtRest cs db) {i : Nat} {c : Connection} (hc : cs[i]? = some c)
    (s : Store) {j : Nat} {d : Connection} (hd : (cs.putBack i s)[j]? = some d) :
    (i = j ∧ d = { c with store := s })
      ∨ i ≠ j ∧ ∃ d₀, cs[j]? = some d₀
        ∧ d = { d₀ with store := { d₀.store with committed := s.committed } } := by
  let acted : Connection := { c with store := s }
  have hget : (cs.putBack i s)[j]?
      = if i = j then some acted else cs[j]?.map (·.follow acted) := by
    have hi : i < cs.length := (List.getElem?_eq_some_iff.1 hc).1
    unfold Connections.putBack
    rw [hc]
    show ((cs.map (·.follow acted)).set i acted)[j]? = _
    rw [List.getElem?_set, List.length_map, if_pos hi, List.getElem?_map]
  rw [hget] at hd
  by_cases hij : i = j
  · rw [if_pos hij] at hd
    exact .inl ⟨hij, (Option.some.inj hd).symm⟩
  · rw [if_neg hij] at hd
    obtain ⟨d₀, hd₀, rfl⟩ := Option.map_eq_some_iff.1 hd
    have hshares : d₀.sharesFile c = true := h.shares (Ne.symm hij) hd₀ hc
    refine .inr ⟨hij, d₀, hd₀, ?_⟩
    unfold Connection.follow
    rw [if_pos (show d₀.sharesFile acted = true from hshares)]

/-- The files stay the same. -/
theorem file_of_putBack (h : AtRest cs db) {i : Nat} (hi : i < cs.length) {s : Store} {j : Nat}
    {d : Connection} (hd : (cs.putBack i s)[j]? = some d) :
    ∃ d₀, cs[j]? = some d₀ ∧ d.file = d₀.file := by
  rcases h.putBack_cases (List.getElem?_eq_getElem hi) s hd with ⟨rfl, rfl⟩ | ⟨_, d₀, hd₀, rfl⟩
  · exact ⟨_, List.getElem?_eq_getElem hi, rfl⟩
  · exact ⟨d₀, hd₀, rfl⟩

/-- After one connection has acted and is idle again, all of them are at rest with what it
committed. -/
theorem putBack (h : AtRest cs db) {i : Nat} (hi : i < cs.length) {s : Store} (hs : s.Idle) :
    AtRest (cs.putBack i s) s.committed := by
  have hcases : ∀ d ∈ cs.putBack i s, d.store = s
      ∨ ∃ d₀ ∈ cs, d.store = { d₀.store with committed := s.committed } := by
    intro d hd
    obtain ⟨j, hj⟩ := List.mem_iff_getElem?.1 hd
    rcases h.putBack_cases (List.getElem?_eq_getElem hi) s hj with ⟨_, rfl⟩ | ⟨_, d₀, hd₀, rfl⟩
    · exact .inl rfl
    · exact .inr ⟨d₀, List.mem_of_getElem? hd₀, rfl⟩
  constructor
  case shares =>
    intro j k d e hjk hd he
    obtain ⟨d₀, hd₀, hdf⟩ := h.file_of_putBack hi hd
    obtain ⟨e₀, he₀, hef⟩ := h.file_of_putBack hi he
    have hshares := h.shares hjk hd₀ he₀
    unfold Connection.sharesFile at hshares ⊢
    rwa [hdf, hef]
  case committed =>
    intro d hd
    rcases hcases d hd with hstore | ⟨d₀, _, hstore⟩ <;> rw [hstore]
  case idle =>
    intro d hd
    rcases hcases d hd with hstore | ⟨d₀, hd₀, hstore⟩ <;> rw [hstore]
    · exact hs.idle
    · exact h.idle d₀ hd₀
  case sound =>
    intro d hd
    rcases hcases d hd with hstore | ⟨d₀, hd₀, hstore⟩ <;> rw [hstore]
    · exact hs.sound
    · exact h.sound d₀ hd₀

end AtRest

theorem exists_at? {cs : Connections} {i : Nat} (hi : i < cs.length) : ∃ s, cs.at? i = some s := by
  unfold Connections.at?
  rw [List.getElem?_eq_getElem hi]
  exact ⟨_, rfl⟩

theorem length_putBack (cs : Connections) (i : Nat) (s : Store) :
    (cs.putBack i s).length = cs.length := by
  unfold putBack
  split
  · rfl
  · rw [List.length_set, List.length_map]

/-- One connection acts, and the others see what it has committed. -/
theorem AtRest.run_eq {cs : Connections} {db db' : Database} (h : AtRest cs db) {i : Nat}
    (hi : i < cs.length) {β : Type} {f : Store → β × Store} {b : β}
    (hf : ∀ s : Store, s.Idle → s.committed = db → f s = (b, s.withView db')) :
    ∃ cs', cs.run i f = some (b, cs') ∧ AtRest cs' db' ∧ cs'.length = cs.length := by
  obtain ⟨s, hs⟩ := exists_at? hi
  obtain ⟨hidle, hdb⟩ := h.idle_of_at? hs
  have hcommitted : (s.withView db').committed = db' := by
    rw [← (hidle.withView db').view_eq, hidle.view_withView]
  refine ⟨cs.putBack i (s.withView db'), ?_, ?_, length_putBack ..⟩
  · unfold Connections.run
    rw [hs, Option.map_some, hf s hidle hdb]
  · have hrest := h.putBack hi (hidle.withView db')
    rwa [hcommitted] at hrest

end AlertRegistry.Connections
