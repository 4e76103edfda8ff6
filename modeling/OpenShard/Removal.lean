import OpenShard.Recovery

/-!
# The two ways of removing a volunteer

A volunteer leaves by `disconnect` or is evicted by the churn monitor. Both erase its entry and its
row; only the eviction queues the service it held and drops the assignment row. So the two agree
exactly on the volunteers that hold no service.
-/

namespace OpenShard.Registrar

open UuidFormat

section Removal

variable {Uuid : Type} [DecidableEq Uuid] [UuidFormat Uuid] [Rfc3339]

/-- The same map, the same tables and, up to the time of registration, the same queue. -/
structure Agree (s s' : World Uuid) : Prop where
  volunteers : s.volunteers = s'.volunteers
  volunteerRows : s.db.volunteers = s'.db.volunteers
  assignmentRows : s.db.assignments = s'.db.assignments
  pendingServices : s.pendingServices.map (·.service) = s'.pendingServices.map (·.service)

variable {g : Guard (RegistrarOp Uuid) (RegistrarEnv Uuid) (World Uuid)} {s s₁ s₂ : World Uuid}

/-- Removing a volunteer and evicting it differ in the service it held. -/
theorem agree_iff (hg : Sound g) (hs : InStep s) {id : Uuid} {v : VolunteerState Uuid}
    (h₁ : Removed g s id s₁) (h₂ : Evicted g s id v.assignedService s₂) :
    Agree s₁ s₂ ↔ v.assignedService = none := by
  obtain ⟨hmap₁, hdb₁, hpending₁, -⟩ := h₁.rows hg
  generalize v.assignedService = a at h₂
  constructor
  · intro hagree
    obtain ⟨-, -, ps, hpending₂, hps⟩ := h₂.inStep hg hs
    have hsame := hagree.pendingServices
    rw [hpending₁, hpending₂, List.map_append, hps] at hsame
    cases a with
    | none => rfl
    | some a => simp at hsame
  · rintro rfl
    cases h₂ with
    | free hremoved =>
        obtain ⟨hmap₂, hdb₂, hpending₂, -⟩ := hremoved.rows hg
        exact ⟨by rw [hmap₁, hmap₂], by rw [hdb₁, hdb₂], by rw [hdb₁, hdb₂],
          by rw [hpending₁, hpending₂]⟩

theorem disconnect_removes {idStr : Text} {id : Uuid} {v : VolunteerState Uuid}
    (hparse : parseStr idStr = some id) (hv : s.volunteers.lookup id = some v) {r : VolunteerReply}
    (h : Runs g (disconnect idStr) s r s₁) : Removed g s id s₁ := by
  cases disconnect_run h with
  | badRequest hno =>
      rw [hparse] at hno
      simp at hno
  | unknown hparse' hno _ =>
      rw [hparse] at hparse'
      obtain rfl := Option.some.inj hparse'
      rw [hv] at hno
      simp at hno
  | gone hparse' _ hremoved =>
      rw [hparse] at hparse'
      obtain rfl := Option.some.inj hparse'
      exact hremoved

theorem churnPass_evicts {id : Uuid} {a : Option ServiceAssignment}
    (h : Runs g churnPass s [(id, a)] s₂) : Evicted g s id a s₂ := by
  cases (churnPass_run h).2 with
  | cons hd hds =>
      cases hds
      exact hd

theorem disconnect_ends [Inhabited Uuid] {c : Guard (RegistrarOp Uuid) (RegistrarEnv Uuid) (World Uuid)}
    (hc : Permits c) (hlock : s.haproxy.configLocked = false) (idStr : Text) :
    ∃ r s', Runs c (disconnect idStr) s r s' := (ends_disconnect hc idStr).ends hlock

theorem dead_singleton (hs : InStep s) {id : Uuid} {v : VolunteerState Uuid}
    (hv : s.volunteers.lookup id = some v) :
    ∃ clock : Uuid → DateTime, (((default : IterOrder (VolunteerState Uuid)).order
      (Table.values s.volunteers)).filter fun w => !w.isAlive (clock w.id)) = [v] := by
  refine ⟨fun id' => ((s.volunteers.lookup id').map fun w =>
    if id' = id then w.lastHeartbeat + 45000000000 else w.lastHeartbeat).getD 0, ?_⟩
  have hnodup : (Table.values s.volunteers).Nodup :=
    (Table.nodup_map_values s.volunteers hs.key).of_map
  rw [← List.perm_singleton]
  refine (List.perm_ext_iff_of_nodup (hnodup.filter _) (List.nodup_singleton v)).2 fun w => ?_
  rw [List.mem_filter, List.mem_singleton]
  constructor
  · rintro ⟨hmem, hdead⟩
    obtain ⟨id', hw⟩ := Table.mem_values.1 hmem
    obtain rfl := hs.key id' w hw
    by_cases hid : w.id = id
    · rw [hid, hv] at hw
      exact (Option.some.inj hw).symm
    · simp [hw, hid, VolunteerState.isAlive, secondsSince, heartbeatTimeoutSecs] at hdead
  · rintro rfl
    refine ⟨Table.mem_values.2 ⟨id, hv⟩, ?_⟩
    obtain rfl := hs.key id w hv
    simp [hv, VolunteerState.isAlive, secondsSince, heartbeatTimeoutSecs]

/-- A pass of the churn monitor may evict any one volunteer and no other. -/
theorem churnPass_ends [Inhabited Uuid] (hs : InStep s) (hlock : s.haproxy.configLocked = false)
    {id : Uuid} {v : VolunteerState Uuid} (hv : s.volunteers.lookup id = some v) :
    ∃ s', Runs answering churnPass s [(id, v.assignedService)] s' := by
  obtain ⟨clock, hclock⟩ := dead_singleton hs hv
  obtain ⟨u, s', hall⟩ := (ends_evictAll permits_answering [(id, v.assignedService)]).ends hlock
  have hdead : Runs answering (own .deadVolunteers) s [(id, v.assignedService)] s := by
    refine (runs_own _).2 ⟨{ calmAnswer with clock := clock }, ⟨rfl, rfl, fun h => by
      simp [RegistrarOp.drawsId] at h⟩, ?_⟩
    have hone : LocalOp.answered { (calmAnswer : RegistrarEnv Uuid) with clock := clock }
        .deadVolunteers s = ([(v.id, v.assignedService)], s) :=
      congrArg (fun l => (l.map fun w => (w.id, w.assignedService), s)) hclock
    rw [hone, hs.key id v hv]
  refine ⟨s', (runs_bind _ _ _ _ _).2 ⟨_, s, hdead, (runs_bind _ _ _ _ _).2 ⟨u, s', hall, ?_⟩⟩⟩
  exact (runs_pure _ _ _ _).2 ⟨rfl, rfl⟩

/-- Removing a volunteer by `disconnect` and by the churn monitor is possible in every state of a
history, and leads to the same map, tables and queue exactly if the volunteer holds no service. -/
theorem removal_paths_agree_iff [Inhabited Uuid] {h : Haproxy} {events : List (Event Uuid)}
    {s : World Uuid} (hrun : History answering (World.initial h) events s) {id : Uuid}
    {v : VolunteerState Uuid} (hv : s.volunteers.lookup id = some v) :
    (∃ r s₁, Runs answering (disconnect (toText id)) s r s₁) ∧
    (∃ s₂, Runs answering churnPass s [(id, v.assignedService)] s₂) ∧
    ∀ r s₁ s₂, Runs answering (disconnect (toText id)) s r s₁ →
      Runs answering churnPass s [(id, v.assignedService)] s₂ →
      (Agree s₁ s₂ ↔ v.assignedService = none) := by
  have hs := hrun.inStep sound_answering (inStep_initial h)
  refine ⟨disconnect_ends permits_answering hrun.lockFree _, churnPass_ends hs hrun.lockFree hv,
    fun r s₁ s₂ h₁ h₂ => ?_⟩
  exact agree_iff sound_answering hs (disconnect_removes (parseStr_toText id) hv h₁)
    (churnPass_evicts h₂)

end Removal

/-- A volunteer without a service, removed in either way. -/
theorem removal_paths_agree_free :
    ∃ events s v, History answering (World.initial smallHaproxy : World Node) events s ∧
      events.map Prod.fst = [.enroll (joins "volunteer-101" 7001)] ∧
      s.volunteers.lookup .a = some v ∧ v.assignedService = none ∧
      ∀ r s₁ s₂, Runs answering (disconnect (toText Node.a)) s r s₁ →
        Runs answering churnPass s [(.a, v.assignedService)] s₂ → Agree s₁ s₂ := by
  have hsome : (replay answering (calmEnv 0 0) [.enroll (joins "volunteer-101" 7001)]
      (World.initial smallHaproxy)).map
        (fun r => (r.2.volunteers.lookup .a).map (·.assignedService)) = some (some none) := by
    decide +kernel
  obtain ⟨⟨events, s⟩, hreplay, hentry⟩ := Option.map_eq_some_iff.1 hsome
  obtain ⟨v, hv, hfree⟩ := Option.map_eq_some_iff.1 hentry
  have hrun := history_of_replay answering hreplay
  exact ⟨events, s, v, hrun, requests_of_replay answering hreplay, hv, hfree,
    fun r s₁ s₂ h₁ h₂ => ((removal_paths_agree_iff hrun hv).2.2 r s₁ s₂ h₁ h₂).2 hfree⟩

/-- A volunteer with a service: disconnecting it loses the service that its eviction would queue. -/
theorem removal_paths_differ :
    ∃ events s v r s₁ s₂, History answering (World.initial smallHaproxy : World Node) events s ∧
      events.map Prod.fst = [.enroll (joins "volunteer-101" 7001), .registerService blog] ∧
      s.volunteers.lookup .a = some v ∧
      Runs answering (disconnect (toText Node.a)) s r s₁ ∧
      Runs answering churnPass s [(.a, v.assignedService)] s₂ ∧ ¬ Agree s₁ s₂ := by
  have hsome : (replay answering (calmEnv 0 0)
      [.enroll (joins "volunteer-101" 7001), .registerService blog]
      (World.initial smallHaproxy)).map
        (fun r => (r.2.volunteers.lookup .a).map (·.assignedService.isSome)) = some (some true) := by
    decide +kernel
  obtain ⟨⟨events, s⟩, hreplay, hentry⟩ := Option.map_eq_some_iff.1 hsome
  obtain ⟨v, hv, hheld⟩ := Option.map_eq_some_iff.1 hentry
  have hrun := history_of_replay answering hreplay
  have hs := hrun.inStep sound_answering (inStep_initial smallHaproxy)
  obtain ⟨r, s₁, h₁⟩ := disconnect_ends permits_answering hrun.lockFree (toText Node.a)
  obtain ⟨s₂, h₂⟩ := churnPass_ends hs hrun.lockFree hv
  refine ⟨events, s, v, r, s₁, s₂, hrun, requests_of_replay answering hreplay, hv, h₁, h₂, ?_⟩
  rw [agree_iff sound_answering hs (disconnect_removes (parseStr_toText Node.a) hv h₁)
    (churnPass_evicts h₂)]
  intro hnone
  simp [hnone] at hheld

end OpenShard.Registrar
