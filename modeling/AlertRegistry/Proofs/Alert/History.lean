import AlertRegistry.Proofs.Alert.Lawful
import AlertRegistry.Proofs.Repository.Run

/-!
# The alerts of a store are a map

Whatever was called before, through whichever repositories and connections, the alerts of a store
answer as the map of the last accepted alerts does, in the order in which their identifiers came.
-/

namespace AlertRegistry

/-- After every run of calls on a store that starts empty, through any open repositories of alerts
on any connections to it, each connection answers as the map of the accepted alerts says. -/
theorem alerts_follow_run {cs : Connections} (h : cs.AtRest {}) {requests : List (Request Alert)}
    (hlen : requests.length < 2 ^ 63 - 1)
    (hq : ∀ q ∈ requests, q.repository.state = .opened ∧ q.connection < cs.length) {i : Nat}
    {s : Store} (hs : (requests.foldl Connections.serve cs).at? i = some s) :
    Follows (requests.foldl (fun m q => q.call.track m) []) s :=
  Connections.follows_of_run h hlen hq hs

/-- Two alerts are created, through different connections, and the first one is renamed. -/
def renamed : List (Request Alert) :=
  [{ connection := 0, repository := Repository.openAlerts
     call := .upsert 1 AlertRow.watchedAlert },
    { connection := 1, repository := Repository.openAlerts
      call := .upsert 2 AlertRow.extremeAlert },
    { connection := 1, repository := Repository.openAlerts
      call := .upsert 3 { AlertRow.watchedAlert with name := "load average" } }]

theorem track_renamed : renamed.foldl (fun m q => q.call.track m) []
    = [{ AlertRow.watchedAlert with name := "load average" }, AlertRow.extremeAlert] := by
  with_unfolding_all rfl

/-- There are two alerts then, and the first one is known under its new name alone. -/
theorem renamed_is_followed : ∃ s, (renamed.foldl Connections.serve
      (List.replicate 2 { file := some "portal.db" })).at? 0 = some s
    ∧ (Repository.openAlerts.count s).result = .ok 2
    ∧ (∃ back, (Repository.openAlerts.get AlertRow.watchedAlert.id s).result = .ok (some back)
      ∧ readBack { AlertRow.watchedAlert with name := "load average" } = some back)
    ∧ (Repository.openAlerts.upsert 4 AlertRow.watchedAlert s).result = .ok .updated := by
  have hlen : 0 < (renamed.foldl Connections.serve
      (List.replicate 2 { file := some "portal.db" })).length := by
    rw [Connections.length_run]
    decide
  obtain ⟨s, hs⟩ := Connections.exists_at? hlen
  have hq : ∀ q ∈ renamed, q.repository.state = .opened ∧ q.connection < 2 := by
    unfold renamed
    simp only [List.forall_mem_cons, List.not_mem_nil, false_implies, implies_true, and_true]
    decide
  have hfollows := alerts_follow_run (Connections.atRest_replicate 2 "portal.db") (by decide) hq hs
  rw [track_renamed] at hfollows
  obtain ⟨back, hback, _, hget⟩ := hfollows.get_of_mem Repository.openAlerts _ rfl
    List.mem_cons_self
  refine ⟨s, hs, hfollows.count _ rfl, ⟨back, hget, hback⟩, ?_⟩
  rw [hfollows.upsert _ _ _ rfl ⟨_, AlertRow.ofAlert_watchedAlert⟩]
  exact congrArg Except.ok (if_pos (by with_unfolding_all decide))

end AlertRegistry
