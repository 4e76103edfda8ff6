import OpenShard.Completion
import OpenShard.Consistency

/-!
# What a restart brings back

A restart rebuilds the volunteer map from the two tables: the same volunteers with the same
information, metrics and services. The queue of pending services lives in memory only, so a restart
empties it.
-/

namespace OpenShard.Registrar

section Restart

variable {Uuid : Type} [DecidableEq Uuid] [UuidFormat Uuid] [Rfc3339]

/-- What the database keeps of a volunteer. -/
def durable (v : VolunteerState Uuid) :
    HandshakeInfo × Metrics × DateTime × Option ServiceAssignment :=
  (v.info, v.metrics, v.enrolledAt, v.assignedService)

omit [DecidableEq Uuid] [UuidFormat Uuid] [Rfc3339] in
theorem permits_sound :
    Permits (sound : Guard (RegistrarOp Uuid) (RegistrarEnv Uuid) (World Uuid)) :=
  fun _ _ _ _ hdb _ hdraws => ⟨hdb, fun h => absurd h (by simp [hdraws])⟩

omit [DecidableEq Uuid] [UuidFormat Uuid] [Rfc3339] in
theorem permits_answering :
    Permits (answering : Guard (RegistrarOp Uuid) (RegistrarEnv Uuid) (World Uuid)) :=
  fun _ _ _ _ hdb hcalm hdraws => ⟨hdb, hcalm, fun h => absurd h (by simp [hdraws])⟩

/-- After a crash in any state of a history the recovery completes, and it brings back the same
volunteers with the same durable fields; and a hostname leads to one volunteer. -/
theorem restart_rebuilds [Inhabited Uuid] {h : Haproxy} {events : List (Event Uuid)}
    {s : World Uuid} (hrun : History sound (World.initial h) events s) :
    (∃ errors s', Runs sound recovery s.crashed errors s') ∧
    (∀ errors s', Runs sound recovery s.crashed errors s' → ∀ id,
      (s'.volunteers.lookup id).map durable = (s.volunteers.lookup id).map durable) ∧
    ∀ id v id' v', s.volunteers.lookup id = some v → s.volunteers.lookup id' = some v' →
      v.info.hostname = v'.info.hostname → v.info.hostname ≠ [] → id = id' := by
  have hs := hrun.inStep sound_sound (inStep_initial h)
  have hlock : s.crashed.haproxy.configLocked = false := hrun.lockFree
  refine ⟨(ends_recovery permits_sound).ends hlock, fun errors s' run id => ?_, hs.hostname⟩
  obtain ⟨-, -, clock, hlookup⟩ := recovery_inStep sound_sound hs run
  rw [hlookup, Option.map_map]
  rfl

theorem restart_services {g : Guard (RegistrarOp Uuid) (RegistrarEnv Uuid) (World Uuid)}
    {s s' : World Uuid} (hg : Sound g) (hs : InStep s) {errors : List Error}
    (h : Runs g restart s errors s') :
    s'.pendingServices = [] ∧ s'.services = Table.total VolunteerState.held s.volunteers := by
  obtain ⟨-, hpending, clock, hlookup⟩ := restart_inStep hg hs h
  have hheld : Table.total VolunteerState.held s'.volunteers =
      Table.total VolunteerState.held s.volunteers := by
    refine Table.total_congr fun id => ?_
    rw [hlookup, Option.map_map]
    rfl
  refine ⟨hpending, ?_⟩
  rw [World.services, hpending, hheld]
  exact zero_add _

omit [DecidableEq Uuid] [UuidFormat Uuid] [Rfc3339] in
theorem held_eq_services_iff (s : World Uuid) :
    Table.total VolunteerState.held s.volunteers = s.services ↔ s.pendingServices = [] := by
  rw [World.services, right_eq_add, Multiset.coe_eq_zero, List.map_eq_nil_iff]

/-- A restart keeps the assigned services and forgets the pending ones. -/
theorem restart_keeps_assigned {h : Haproxy} {events : List (Event Uuid)} {s : World Uuid}
    (hrun : History sound (World.initial h) events s) {errors : List Error} {s' : World Uuid}
    (hrestart : Runs sound restart s errors s') :
    Table.total VolunteerState.held s'.volunteers = Table.total VolunteerState.held s.volunteers ∧
      s'.pendingServices = [] ∧ (s'.services = s.services ↔ s.pendingServices = []) := by
  have hs := hrun.inStep sound_sound (inStep_initial h)
  obtain ⟨hpending, hservices⟩ := restart_services sound_sound hs hrestart
  refine ⟨?_, hpending, by rw [hservices, held_eq_services_iff]⟩
  rw [← hservices, held_eq_services_iff, hpending]

end Restart

/-- Two volunteers, one service each, one of them gone again, and a restart. -/
theorem restart_rebuilds_replayed :
    ∃ events s, History sound (World.initial smallHaproxy : World Node) events s ∧
      events.map Prod.fst = [.restart, .disconnect (UuidFormat.toText Node.a),
        .registerService wiki, .enroll (joins "volunteer-102" 7002),
        .enroll (joins "volunteer-101" 7001), .registerService blog] ∧
      (∃ errors s', Runs sound recovery s.crashed errors s') ∧
      ∀ errors s', Runs sound recovery s.crashed errors s' → ∀ id,
        (s'.volunteers.lookup id).map durable = (s.volunteers.lookup id).map durable := by
  have hsome : (replay sound (calmEnv 0 0) [.restart, .disconnect (UuidFormat.toText Node.a),
      .registerService wiki, .enroll (joins "volunteer-102" 7002),
      .enroll (joins "volunteer-101" 7001), .registerService blog]
      (World.initial smallHaproxy)).isSome := by
    decide +kernel
  obtain ⟨⟨events, s⟩, hreplay⟩ := Option.isSome_iff_exists.1 hsome
  have hrun := history_of_replay sound hreplay
  exact ⟨events, s, hrun, requests_of_replay sound hreplay, (restart_rebuilds hrun).1,
    (restart_rebuilds hrun).2.1⟩

/-- The assigned service is there after the restart, the pending one is not. -/
theorem restart_keeps_assigned_replayed :
    ∃ events s errors s', History sound (World.initial smallHaproxy : World Node) events s ∧
      events.map Prod.fst = [.registerService wiki, .registerService blog,
        .enroll (joins "volunteer-101" 7001)] ∧
      Runs sound restart s errors s' ∧
      Table.total VolunteerState.held s'.volunteers =
        Table.total VolunteerState.held s.volunteers ∧ s'.pendingServices = [] := by
  have hsome : (replay sound (calmEnv 0 0) [.registerService wiki, .registerService blog,
      .enroll (joins "volunteer-101" 7001)] (World.initial smallHaproxy)).isSome := by
    decide +kernel
  obtain ⟨⟨events, s⟩, hreplay⟩ := Option.isSome_iff_exists.1 hsome
  have hrun := history_of_replay sound hreplay
  obtain ⟨errors, s', hrestart⟩ := (ends_restart permits_sound).ends hrun.lockFree
  have hkept := restart_keeps_assigned hrun hrestart
  exact ⟨events, s, errors, s', hrun, requests_of_replay sound hreplay, hrestart, hkept.1,
    hkept.2.1⟩

/-- A service that was accepted and queued is gone after a restart. -/
theorem restart_forgets_pending :
    ∃ events s errors s', History answering (World.initial smallHaproxy : World Node) events s ∧
      events.map Prod.fst = [.registerService blog] ∧ Runs answering restart s errors s' ∧
      s'.services ≠ s.services := by
  have hsome : (replay answering (calmEnv 0 0) [.registerService blog]
      (World.initial smallHaproxy)).map (·.2.pendingServices.length) = some 1 := by
    decide +kernel
  obtain ⟨⟨events, s⟩, hreplay, hpending⟩ := Option.map_eq_some_iff.1 hsome
  have hrun := history_of_replay answering hreplay
  have hs := hrun.inStep sound_answering (inStep_initial _)
  obtain ⟨errors, s', hrestart⟩ := (ends_restart permits_answering).ends hrun.lockFree
  refine ⟨events, s, errors, s', hrun, requests_of_replay answering hreplay, hrestart, ?_⟩
  rw [(restart_services sound_answering hs hrestart).2, Ne, held_eq_services_iff]
  rintro hnil
  simp [hnil] at hpending

end OpenShard.Registrar
