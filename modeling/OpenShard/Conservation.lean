import OpenShard.Consistency

/-!
# Conservation of services

Enrollment moves a service from the queue to a volunteer, eviction moves it back, and registration
brings it in; nothing else touches the services. So what was registered is what is queued or
assigned, as long as nobody disconnects and the registrar is not restarted.
-/

namespace OpenShard.Registrar

section Steps

variable {Uuid : Type} [DecidableEq Uuid] [UuidFormat Uuid] [Rfc3339]

variable {g : Guard (RegistrarOp Uuid) (RegistrarEnv Uuid) (World Uuid)} {s s' : World Uuid}

omit [UuidFormat Uuid] [Rfc3339] in
theorem services_eq (s : World Uuid) (id : Uuid) :
    s.services = (s.pendingServices.map (·.service) : Multiset Service) +
      ((((s.volunteers.lookup id).map VolunteerState.held).getD 0) +
        Table.total VolunteerState.held (s.volunteers.erase id)) := by
  rw [World.services, Table.total_split VolunteerState.held s.volunteers id]

omit [UuidFormat Uuid] [Rfc3339] in
theorem services_insert {id : Uuid} {v : VolunteerState Uuid}
    (h : s'.volunteers = s.volunteers.insert id v) :
    s'.services = (s'.pendingServices.map (·.service) : Multiset Service) +
      (v.held + Table.total VolunteerState.held (s.volunteers.erase id)) := by
  rw [World.services, h, Table.total_insert]

omit [UuidFormat Uuid] [Rfc3339] in
theorem services_rewrite {id : Uuid} {v w : VolunteerState Uuid}
    (hv : s.volunteers.lookup id = some v) (hw : w.assignedService = v.assignedService)
    (h : s'.volunteers = s.volunteers.insert id w) (hp : s'.pendingServices = s.pendingServices) :
    s'.services = s.services := by
  rw [services_insert h, services_eq s id, hv, hp, VolunteerState.held_congr hw]
  rfl

omit [UuidFormat Uuid] [Rfc3339] in
theorem services_of_takes {body : EnrollRequest} {id : Uuid} {addr : Text} {now : DateTime}
    {a : Option ServiceAssignment}
    (hmap : s'.volunteers = s.volunteers.insert id (enrolled body id addr now a))
    (htakes : Takes now ((s.volunteers.lookup id).bind (·.assignedService)) s.pendingServices a
      s'.pendingServices) : s'.services = s.services := by
  rw [services_insert hmap, services_eq s id]
  have hheld : ((s.volunteers.lookup id).map VolunteerState.held).getD 0 =
      ((((s.volunteers.lookup id).bind (·.assignedService)).toList.map (·.service) : List Service) :
        Multiset Service) := by
    cases s.volunteers.lookup id with
    | none => rfl
    | some v => rfl
  have hnew : (enrolled body id addr now a).held =
      ((a.toList.map (·.service) : List Service) : Multiset Service) := rfl
  rw [hheld, hnew, ← add_assoc, ← add_assoc]
  congr 1
  generalize (s.volunteers.lookup id).bind (·.assignedService) = existing at htakes ⊢
  generalize s.pendingServices = ps at htakes ⊢
  generalize s'.pendingServices = ps' at htakes ⊢
  cases htakes with
  | kept a ps => rfl
  | taken p ps =>
      simp only [List.map_cons, Option.toList_some, Option.toList_none, List.map_nil,
        Multiset.coe_add, Multiset.coe_eq_coe, List.append_nil]
      exact List.perm_append_comm
  | left ps => rfl

theorem Enrolled.services (hg : Sound g) (hs : InStep s) {body : EnrollRequest} {r : EnrollResponse}
    (h : Enrolled g s body r s') : s'.services = s.services := by
  obtain ⟨-, id, addr, now, a, hmap, -, htakes⟩ := h.inStep hg hs
  exact services_of_takes hmap htakes

theorem Beaten.services (hg : Sound g) (hs : InStep s) {body : HeartbeatRequest Uuid}
    {r : HeartbeatReply} (h : Beaten g s body r s') : s'.services = s.services := by
  obtain ⟨-, hp, hmap | ⟨v, now, hv, hmap⟩⟩ := h.inStep hg hs
  · rw [World.services, World.services, hmap, hp]
  · have hsame : (v.beat now body).assignedService = v.assignedService := rfl
    exact services_rewrite hv hsame hmap hp

theorem Moved.services (hg : Sound g) (hs : InStep s) {idStr : Text} {r : VolunteerReply}
    (h : Moved g s idStr r s') : s'.services = s.services := by
  obtain ⟨-, hp, hmap | ⟨id, v, addr, hv, hmap⟩⟩ := h.inStep hg hs
  · rw [World.services, World.services, hmap, hp]
  · have hsame : (v.moveTo addr).assignedService = v.assignedService := rfl
    exact services_rewrite hv hsame hmap hp

theorem Evicted.services (hg : Sound g) (hs : InStep s) {id : Uuid} {v : VolunteerState Uuid}
    (hv : s.volunteers.lookup id = some v) (h : Evicted g s id v.assignedService s') :
    s'.services = s.services := by
  obtain ⟨-, hmap, ps, hp, hps⟩ := h.inStep hg hs
  rw [services_eq s id, hv, World.services, hmap, hp, List.map_append, hps, ← Multiset.coe_add,
    add_assoc]
  rfl

theorem Registered.services (hg : Sound g) (hs : InStep s) {body : Service} {r : RegisterReply}
    (h : Registered g s body r s') :
    s'.services = registeredBy ((.registerService body, .registered r) : Event Uuid) + s.services := by
  obtain ⟨-, ⟨id, v, now, reply, rfl, hv, hfree, hp, hmap⟩ | ⟨now, reply, rfl, hmap, hp⟩ |
    ⟨⟨message, rfl⟩, hmap, hp⟩⟩ := h.inStep hg hs
  · have hheld : (v.assign (Service.assignment body now)).held = {body} := rfl
    rw [services_insert hmap, services_eq s id, hv, Option.map_some, Option.getD_some,
      VolunteerState.held_of_none hfree, hp, hheld, zero_add, registeredBy]
    abel
  · have hnew : ([body.pending now].map (·.service) : Multiset Service) = {body} := rfl
    rw [World.services, World.services, hmap, hp, List.map_append, ← Multiset.coe_add, hnew,
      registeredBy]
    abel
  · rw [World.services, World.services, hmap, hp]
    exact (zero_add _).symm

/-- The operations that neither remove a volunteer for good nor restart the registrar. -/
def Request.keepsServices : Request Uuid → Prop
  | .disconnect _ => False
  | .restart => False
  | _ => True

theorem Effect.services (hg : Sound g) (hs : InStep s) {q : Request Uuid} {r : Reply Uuid}
    (hq : q.keepsServices) (h : Effect g s q r s') :
    s'.services = registeredBy (q, r) + s.services := by
  cases h with
  | enroll h => exact (h.services hg hs).trans (zero_add _).symm
  | heartbeat h => exact (h.services hg hs).trans (zero_add _).symm
  | updateTunnelPort h => exact (h.services hg hs).trans (zero_add _).symm
  | disconnect h => exact hq.elim
  | registerService h => exact h.services hg hs
  | churn hdead h =>
      have hpass := @churn_induct Uuid _ _ _ g s s' hg (fun s₁ => s₁.services = s.services)
        (fun s₁ id v s₂ hs₁ hv heq he => (he.services hg hs₁ hv).trans heq) hs rfl _ hdead h
      exact hpass.2.trans (zero_add _).symm
  | restart h => exact hq.elim

/-- An enrollment leaves the queue as it was unless HAProxy accepts the service at its front. -/
theorem Enrolled.queue {body : EnrollRequest} {r : EnrollResponse} (h : Enrolled g s body r s') :
    s'.pendingServices = s.pendingServices ∨
      ∃ p addr s₁ s₂, s.pendingServices = p :: s'.pendingServices ∧
        r.assignment = some ⟨p.image, p.servicePort⟩ ∧
        Runs g (haproxy (HaproxyManager.assignService p.name p.domain addr)) s₁ (.ok ()) s₂ := by
  cases h with
  | @mk existingId existing a id addr now s₁ s₂ db res hap _ _ _ hident hattached _ _ =>
    have hpending : s₁.pendingServices = s.pendingServices := by
      cases hident with
      | known => rfl
      | issued _ => rfl
    rw [← hpending]
    cases hattached with
    | reattached _ _ => exact Or.inl rfl
    | @taken p ps h db hp hh _ =>
        exact Or.inr ⟨p, addr, _, _, hp, rfl, (runs_haproxy _ _).2 ⟨h, hh, rfl⟩⟩
    | refused _ _ => exact Or.inl rfl
    | nothingPending _ => exact Or.inl rfl

theorem History.services {h : Haproxy} {events : List (Event Uuid)} {s : World Uuid}
    (hrun : History sound (World.initial h) events s) (hkeep : ∀ e ∈ events, e.1.keepsServices) :
    s.services = registeredIn events := by
  induction hrun with
  | nil => rfl
  | @step events s₁ s₂ q r past run ih =>
      have hs := past.inStep sound_sound (inStep_initial h)
      have hpast := ih fun e he => hkeep e (List.mem_cons_of_mem _ he)
      rw [registeredIn, List.map_cons, List.sum_cons, ← registeredIn, ← hpast]
      exact (handle_run run).services sound_sound hs (hkeep _ List.mem_cons_self)

/-- What was registered is queued or assigned, each service as often as it was registered, whatever
HAProxy does; and an enrollment that HAProxy refuses leaves the queue as it was. -/
theorem services_conserved {h : Haproxy} {events : List (Event Uuid)} {s : World Uuid}
    (hrun : History sound (World.initial h) events s) (hkeep : ∀ e ∈ events, e.1.keepsServices) :
    registeredIn events =
        (s.pendingServices.map (·.service) : Multiset Service) +
          Table.total VolunteerState.held s.volunteers ∧
      ∀ (g' : Guard (RegistrarOp Uuid) (RegistrarEnv Uuid) (World Uuid)) (body : EnrollRequest)
        (r : EnrollResponse) (s' : World Uuid), Runs g' (enroll body) s r s' →
        s'.pendingServices = s.pendingServices ∨
          ∃ p addr s₁ s₂, s.pendingServices = p :: s'.pendingServices ∧
            r.assignment = some ⟨p.image, p.servicePort⟩ ∧
            Runs g' (haproxy (HaproxyManager.assignService p.name p.domain addr)) s₁ (.ok ()) s₂ := by
  exact ⟨(hrun.services hkeep).symm, fun g' body r s' run => (enroll_run run).queue⟩

/-- The names in the queue and in the map, each as often as it is there. -/
def names (s : World Uuid) : Multiset Text :=
  (s.pendingServices.map (·.name) : Multiset Text) +
    Table.total (fun v => (v.assignedService.toList.map (·.serviceName) : Multiset Text))
      s.volunteers

omit [DecidableEq Uuid] [UuidFormat Uuid] [Rfc3339] in
theorem names_eq (s : World Uuid) : names s = s.services.map Service.name := by
  have hheld : ∀ vs : List (VolunteerState Uuid),
      (vs.map fun v => (v.assignedService.toList.map (·.serviceName) : Multiset Text)).sum =
        (vs.map VolunteerState.held).sum.map Service.name := by
    intro vs
    induction vs with
    | nil => rfl
    | cons v vs ih =>
        rw [List.map_cons, List.sum_cons, List.map_cons, List.sum_cons, Multiset.map_add, ih]
        congr 1
        rw [VolunteerState.held, Multiset.map_coe, List.map_map]
        rfl
  rw [names, World.services, Multiset.map_add, Table.total, Table.total, hheld, Multiset.map_coe,
    List.map_map]
  rfl

/-- A name is queued and assigned as often as it was registered: once, unless it was registered
again. -/
theorem names_as_registered {h : Haproxy} {events : List (Event Uuid)} {s : World Uuid}
    (hrun : History sound (World.initial h) events s) (hkeep : ∀ e ∈ events, e.1.keepsServices) :
    (∀ name, (names s).count name = ((registeredIn events).map Service.name).count name) ∧
      (((registeredIn events).map Service.name).Nodup → (names s).Nodup) := by
  have hnames : names s = (registeredIn events).map Service.name := by
    rw [names_eq, hrun.services hkeep]
  exact ⟨fun name => by rw [hnames], fun hnodup => hnames ▸ hnodup⟩

end Steps

/-- Two services are registered, one is taken, and its volunteer is evicted. -/
theorem services_conserved_churn :
    ∃ events s, History sound (World.initial smallHaproxy : World Node) events s ∧
      events.map Prod.fst = [.churn, .enroll (joins "volunteer-101" 7001), .registerService wiki,
        .registerService blog] ∧
      registeredIn events =
        (s.pendingServices.map (·.service) : Multiset Service) +
          Table.total VolunteerState.held s.volunteers := by
  have hsome : (replay sound (calmEnv 0 60000000000) [.churn, .enroll (joins "volunteer-101" 7001),
      .registerService wiki, .registerService blog] (World.initial smallHaproxy)).isSome := by
    decide +kernel
  obtain ⟨⟨events, s⟩, hreplay⟩ := Option.isSome_iff_exists.1 hsome
  have hrequests := requests_of_replay sound hreplay
  have hrun := history_of_replay sound hreplay
  have hkeep : ∀ e ∈ events, e.1.keepsServices :=
    requests_all hrequests (by simp [Request.keepsServices])
  exact ⟨events, s, hrun, hrequests, (services_conserved hrun hkeep).1⟩

/-- The same name is registered twice, and one of the two services is taken. -/
theorem name_registered_twice :
    ¬ ∀ (h : Haproxy) (events : List (Event Node)) (s : World Node),
      History answering (World.initial h) events s → (∀ e ∈ events, e.1.keepsServices) →
      ∀ name, (names s).count name ≤ 1 := by
  intro hclaim
  have hbad : (replay answering (calmEnv 0 0) [.enroll (joins "volunteer-101" 7001),
      .registerService blog, .registerService blog] (World.initial smallHaproxy)).any
        fun r => decide ((names r.2).count blog.name = 2) := by
    decide +kernel
  obtain ⟨⟨events, s⟩, hreplay, htwice⟩ := (Option.any_eq_true _ _).1 hbad
  have hkeep : ∀ e ∈ events, e.1.keepsServices :=
    requests_all (requests_of_replay answering hreplay) (by simp [Request.keepsServices])
  have hone := hclaim _ events s (history_of_replay answering hreplay) hkeep blog.name
  rw [of_decide_eq_true htwice] at hone
  exact absurd hone (by decide)

/-- Two services of different names are registered, one is taken, and its volunteer is evicted. -/
theorem names_as_registered_churn :
    ∃ events s, History sound (World.initial smallHaproxy : World Node) events s ∧
      events.map Prod.fst = [.churn, .enroll (joins "volunteer-101" 7001), .registerService wiki,
        .registerService blog] ∧
      ∀ name, (names s).count name = ((registeredIn events).map Service.name).count name := by
  have hsome : (replay sound (calmEnv 0 60000000000) [.churn, .enroll (joins "volunteer-101" 7001),
      .registerService wiki, .registerService blog] (World.initial smallHaproxy)).isSome := by
    decide +kernel
  obtain ⟨⟨events, s⟩, hreplay⟩ := Option.isSome_iff_exists.1 hsome
  have hrequests := requests_of_replay sound hreplay
  have hrun := history_of_replay sound hreplay
  have hkeep : ∀ e ∈ events, e.1.keepsServices :=
    requests_all hrequests (by simp [Request.keepsServices])
  exact ⟨events, s, hrun, hrequests, (names_as_registered hrun hkeep).1⟩

end OpenShard.Registrar
