import OpenShard.Consistency
import OpenShard.Eviction

/-!
# Services that wait while a volunteer is free

A service is given to a volunteer when it is registered and when a volunteer enrolls. A service that
comes back from an evicted volunteer waits for the next enrollment, whoever is free, and a volunteer
that is heard of again takes nothing. Apart from these two a service only waits while every live
volunteer has one.
-/

namespace OpenShard.Registrar

open UuidFormat HaproxyManager

section Turns

variable {Uuid : Type} [DecidableEq Uuid] [UuidFormat Uuid] [Rfc3339]

/-- Where a service is pending, every live volunteer has one. -/
def Busy (now : DateTime) (s : World Uuid) : Prop :=
  s.pendingServices ≠ [] → ∀ v ∈ Table.values s.volunteers, v.isAlive now → v.assignedService ≠ none

instance (now : DateTime) (s : World Uuid) : Decidable (Busy now s) :=
  inferInstanceAs (Decidable (_ → _))

def during (start finish : DateTime) : Guard (RegistrarOp Uuid) (RegistrarEnv Uuid) (World Uuid) :=
  fun β e op s => answering β e op s ∧ (start ≤ e.now ∧ e.now ≤ finish) ∧
    ∀ id, start ≤ e.clock id ∧ e.clock id ≤ finish

/-- A completed operation, with the states around it and the time when it is completed. -/
structure Turn (Uuid : Type) where
  request : Request Uuid
  before : World Uuid
  after : World Uuid
  finish : DateTime

/-- Operations completed one after the other, the latest first, and the state and the time they lead
to. Any time may pass between them. -/
inductive Turns (s₀ : World Uuid) (t₀ : DateTime) : List (Turn Uuid) → World Uuid → DateTime → Prop
  | nil : Turns s₀ t₀ [] s₀ t₀
  | step {turns : List (Turn Uuid)} {s s' : World Uuid} {t t' : DateTime} {q : Request Uuid}
      {r : Reply Uuid} (past : Turns s₀ t₀ turns s t) (htime : t ≤ t')
      (run : Runs (during t t') (handle q) s r s') :
      Turns s₀ t₀ (⟨q, s, s', t'⟩ :: turns) s' t'

/-- HAProxy takes the service that an enrollment finds pending, if nobody with the hostname has one
already. -/
def Turn.granted (turn : Turn Uuid) : Prop :=
  match turn.request with
  | .enroll body =>
    (∀ v ∈ Table.values turn.before.volunteers, body.info.hostname ≠ [] →
      v.info.hostname = body.info.hostname → v.assignedService = none) →
    ∀ p ∈ turn.before.pendingServices.head?, ∀ addr,
      (assigned turn.before.haproxy p.name p.domain addr).1 = .ok ()
  | _ => True

/-- No live volunteer is free when a service comes back from a dead one, and no free volunteer that
was dead is heard of again while a service is pending. -/
def Turn.fits (turn : Turn Uuid) : Prop :=
  match turn.request with
  | .churn =>
    (∃ v ∈ Table.values turn.before.volunteers,
        v.isAlive turn.finish = false ∧ v.assignedService ≠ none) →
      ∀ v ∈ Table.values turn.before.volunteers, v.isAlive turn.finish → v.assignedService ≠ none
  | .heartbeat body => turn.before.pendingServices ≠ [] →
      ∀ v ∈ turn.before.volunteers.lookup body.volunteerId, v.isAlive turn.finish = false →
        v.assignedService ≠ none
  | _ => True

end Turns

section Steps

variable {Uuid : Type}

/-- Whoever is free now was free before, and has not been heard of since. -/
def FreeBefore (s s' : World Uuid) : Prop :=
  ∀ v' ∈ Table.values s'.volunteers, v'.assignedService = none →
    ∃ v ∈ Table.values s.volunteers, v.assignedService = none ∧ v.lastHeartbeat = v'.lastHeartbeat

variable {s s' : World Uuid} {t t' : DateTime}

theorem isAlive_mono {v w : VolunteerState Uuid} (ht : t ≤ t')
    (hsame : v.lastHeartbeat = w.lastHeartbeat) (halive : w.isAlive t') : v.isAlive t := by
  simp only [VolunteerState.isAlive, decide_eq_true_eq] at halive ⊢
  rw [hsame]
  exact (secondsSince_mono ht).trans_lt halive

theorem freeBefore_of_volunteers (h : s'.volunteers = s.volunteers) : FreeBefore s s' := by
  intro v hv hnone
  exact ⟨v, h ▸ hv, hnone, rfl⟩

theorem FreeBefore.trans {s₁ : World Uuid} (h : FreeBefore s s₁) (h' : FreeBefore s₁ s') :
    FreeBefore s s' := by
  intro v' hv' hnone
  obtain ⟨v₁, hv₁, hnone₁, hsame₁⟩ := h' v' hv' hnone
  obtain ⟨v, hv, hnone', hsame⟩ := h v₁ hv₁ hnone₁
  exact ⟨v, hv, hnone', hsame.trans hsame₁⟩

variable [DecidableEq Uuid]

omit [DecidableEq Uuid] in
theorem Busy.step (hs : Busy t s) (ht : t ≤ t') (hfree : FreeBefore s s')
    (hpending : s'.pendingServices ≠ [] → s.pendingServices ≠ []) : Busy t' s' := by
  intro hwaits v' hv' halive hnone
  obtain ⟨v, hv, hnone', hsame⟩ := hfree v' hv' hnone
  exact hs (hpending hwaits) v hv (isAlive_mono ht hsame halive) hnone'

theorem freeBefore_insert {id : Uuid} {w : VolunteerState Uuid}
    (h : s'.volunteers = s.volunteers.insert id w)
    (hw : w.assignedService = none → ∃ v ∈ Table.values s.volunteers, v.assignedService = none ∧
      v.lastHeartbeat = w.lastHeartbeat) : FreeBefore s s' := by
  intro v' hv' hnone
  obtain ⟨key, hkey⟩ := Table.mem_values.1 hv'
  rw [h, Table.lookup_insert_if] at hkey
  split_ifs at hkey
  · obtain rfl := Option.some.inj hkey
    exact hw hnone
  · exact ⟨v', Table.mem_values.2 ⟨key, hkey⟩, hnone, rfl⟩

theorem freeBefore_erase {id : Uuid} (h : s'.volunteers = s.volunteers.erase id) :
    FreeBefore s s' := by
  intro v' hv' hnone
  obtain ⟨key, hkey⟩ := Table.mem_values.1 hv'
  rw [h, Table.lookup_erase_if] at hkey
  split_ifs at hkey
  exact ⟨v', Table.mem_values.2 ⟨key, hkey⟩, hnone, rfl⟩

end Steps

section Operations

variable {Uuid : Type} [DecidableEq Uuid] [UuidFormat Uuid] [Rfc3339]

variable {g : Guard (RegistrarOp Uuid) (RegistrarEnv Uuid) (World Uuid)} {s s' : World Uuid}
  {t t' : DateTime}

theorem Moved.freeBefore {idStr : Text} {r : VolunteerReply} (h : Moved g s idStr r s') :
    FreeBefore s s' ∧ s'.pendingServices = s.pendingServices := by
  cases h with
  | badRequest => exact ⟨freeBefore_of_volunteers rfl, rfl⟩
  | unknown => exact ⟨freeBefore_of_volunteers rfl, rfl⟩
  | @known id v addr db r h hparse haddr hv e hg hq hh =>
      refine ⟨freeBefore_insert rfl fun hnone => ?_, rfl⟩
      exact ⟨v, Table.mem_values.2 ⟨id, hv⟩, hnone, rfl⟩

theorem Removed.freeBefore {id : Uuid} (h : Removed g s id s') :
    FreeBefore s s' ∧ s'.pendingServices = s.pendingServices := by
  cases h with
  | mk hg hq hh => exact ⟨freeBefore_erase rfl, rfl⟩

theorem Departed.freeBefore {idStr : Text} {r : VolunteerReply} (h : Departed g s idStr r s') :
    FreeBefore s s' ∧ s'.pendingServices = s.pendingServices := by
  cases h with
  | badRequest hparse => exact ⟨freeBefore_of_volunteers rfl, rfl⟩
  | unknown hparse hno hs' =>
      subst hs'
      exact ⟨freeBefore_erase rfl, rfl⟩
  | gone hparse hv hremoved => exact hremoved.freeBefore

theorem Evicted.freeBefore {id : Uuid} {a : Option ServiceAssignment} (h : Evicted g s id a s') :
    FreeBefore s s' ∧ (a = none → s'.pendingServices = s.pendingServices) := by
  cases h with
  | free hremoved => exact ⟨hremoved.freeBefore.1, fun _ => hremoved.freeBefore.2⟩
  | serving hremoved hq =>
      have hfree := hremoved.freeBefore.1.trans (freeBefore_of_volunteers rfl)
      exact ⟨hfree, fun hnone => by simp at hnone⟩

theorem EvictedAll.freeBefore {dead : List (Uuid × Option ServiceAssignment)}
    (h : EvictedAll g dead s s') : FreeBefore s s' ∧
      ((∀ d ∈ dead, d.2 = none) → s'.pendingServices = s.pendingServices) := by
  induction h with
  | nil s => exact ⟨freeBefore_of_volunteers rfl, fun _ => rfl⟩
  | cons hd _ ih =>
      refine ⟨hd.freeBefore.1.trans ih.1, fun hnone => ?_⟩
      exact (ih.2 fun d hmem => hnone d (List.mem_cons_of_mem _ hmem)).trans
        (hd.freeBefore.2 (hnone _ List.mem_cons_self))

omit [DecidableEq Uuid] [UuidFormat Uuid] [Rfc3339] in
theorem during_calm {β : Type} (e : RegistrarEnv Uuid) (op : RegistrarOp Uuid β) (s : World Uuid)
    (hg : during t t' β e op s) : e.haproxy = .calm := hg.1.2.1

theorem churnPass_dead {dead : List (Uuid × Option ServiceAssignment)}
    (h : Runs (during t t') churnPass s dead s') : ∀ d ∈ dead,
      ∃ v ∈ Table.values s.volunteers, v.isAlive t' = false ∧ v.assignedService = d.2 := by
  rw [churnPass, runs_bind] at h
  obtain ⟨found, s₁, hown, h⟩ := h
  obtain ⟨e, hg, heq⟩ := (runs_own _).1 hown
  obtain ⟨rfl, rfl⟩ := Prod.mk.inj heq
  rw [runs_bind] at h
  obtain ⟨u, s₂, hall, h⟩ := h
  obtain ⟨rfl, rfl⟩ := (runs_pure _ _ _ _).1 h
  intro d hd
  obtain ⟨v, hv, rfl⟩ := List.mem_map.1 hd
  obtain ⟨hmem, hdead⟩ := List.mem_filter.1 hv
  refine ⟨v, (IterOrder.mem_order _ _ _).1 hmem, ?_, rfl⟩
  rw [← Bool.not_eq_true]
  intro halive
  have hearlier := isAlive_mono (hg.2.2 v.id).2 rfl halive
  simp [hearlier] at hdead

theorem churn_busy {dead : List (Uuid × Option ServiceAssignment)} (hs : Busy t s) (ht : t ≤ t')
    (hfits : (∃ v ∈ Table.values s.volunteers, v.isAlive t' = false ∧ v.assignedService ≠ none) →
      ∀ v ∈ Table.values s.volunteers, v.isAlive t' → v.assignedService ≠ none)
    (h : Runs (during t t') churnPass s dead s') : Busy t' s' := by
  obtain ⟨-, hall⟩ := churnPass_run h
  obtain ⟨hfree, hkept⟩ := hall.freeBefore
  by_cases hserving : ∀ d ∈ dead, d.2 = none
  · exact hs.step ht hfree fun hwaits => hkept hserving ▸ hwaits
  · obtain ⟨d, hserving⟩ := not_forall.1 hserving
    obtain ⟨hd, hheld⟩ := Classical.not_imp.1 hserving
    obtain ⟨v, hv, hdead, hassigned⟩ := churnPass_dead h d hd
    have hnobody := hfits ⟨v, hv, hdead, hassigned ▸ hheld⟩
    intro _ v' hv' halive hnone
    obtain ⟨w, hw, hnone', hsame⟩ := hfree v' hv' hnone
    exact hnobody w hw (isAlive_mono le_rfl hsame halive) hnone'

theorem heartbeat_busy {body : HeartbeatRequest Uuid} {r : HeartbeatReply} (hs : Busy t s)
    (ht : t ≤ t')
    (hfits : s.pendingServices ≠ [] → ∀ v ∈ s.volunteers.lookup body.volunteerId,
      v.isAlive t' = false → v.assignedService ≠ none)
    (h : Beaten g s body r s') : Busy t' s' := by
  cases h with
  | unknown hno => exact hs.step ht (freeBefore_of_volunteers rfl) fun hwaits => hwaits
  | @known v now db h hv hq hw =>
      intro hwaits
      have hbusy : v.assignedService ≠ none := by
        by_cases halive : v.isAlive t'
        · exact hs hwaits v (Table.mem_values.2 ⟨_, hv⟩) (isAlive_mono ht rfl halive)
        · exact hfits hwaits v hv (by simpa using halive)
      refine hs.step ht (freeBefore_insert rfl fun hnone => ?_) (fun hwaits => hwaits) hwaits
      exact absurd hnone hbusy

omit [UuidFormat Uuid] [Rfc3339] in
theorem freeBefore_assign (s : World Uuid) (id : Uuid) (a : ServiceAssignment) :
    FreeBefore s (s.alterVolunteer id (·.assign a)) := by
  cases hv : s.volunteers.lookup id with
  | none =>
      have hsame : s.alterVolunteer id (·.assign a) = s := by rw [World.alterVolunteer, hv]
      exact freeBefore_of_volunteers (congrArg World.volunteers hsame)
  | some v =>
      rw [World.alterVolunteer_of_lookup hv]
      exact freeBefore_insert rfl fun hnone => by simp [VolunteerState.assign] at hnone

theorem Registered.freeBefore {body : Service} {r : RegisterReply} (h : Registered g s body r s') :
    FreeBefore s s' := by
  cases h with
  | assigned hv hfree hh hq =>
      exact (freeBefore_of_volunteers rfl).trans (freeBefore_assign _ _ _)
  | refused hv hfree hh => exact freeBefore_of_volunteers rfl
  | queued => exact freeBefore_of_volunteers rfl

theorem registerService_busy {body : Service} {r : RegisterReply} (hs : Busy t s) (ht : t ≤ t')
    (h : Runs (during t t') (registerService body) s r s') : Busy t' s' := by
  obtain ⟨hregistered, hlooks⟩ := registerService_looks h
  have hfree := hregistered.freeBefore
  by_cases hsame : s'.pendingServices = s.pendingServices
  · exact hs.step ht hfree fun hwaits => hsame ▸ hwaits
  · obtain ⟨e, hg, hbusy⟩ := hlooks hsame
    intro _ v' hv' halive hnone
    obtain ⟨v, hv, hnone', hsince⟩ := hfree v' hv' hnone
    have hactive := isAlive_mono (hg.2.2 v.id).2 hsince halive
    exact hbusy v (mem_activeVolunteers.2 ⟨Table.mem_values.1 hv, hactive⟩) hnone'

omit [DecidableEq Uuid] [UuidFormat Uuid] [Rfc3339] in
theorem sound_during :
    Sound (during t t' : Guard (RegistrarOp Uuid) (RegistrarEnv Uuid) (World Uuid)) :=
  ⟨fun β e op s h => sound_answering.db β e op s h.1, fun e s h => sound_answering.ids e s h.1⟩

/-- Where an enrollment finds no service to attach again, nobody with the hostname has one. -/
theorem Entry.unserved {s₁ : World Uuid} {nodeKey : Text} {id : Uuid}
    (h : Entry s s₁ nodeKey id none) {v : VolunteerState Uuid}
    (hv : v ∈ Table.values s.volunteers) (hkey : nodeKey ≠ []) (hname : v.info.hostname = nodeKey) :
    v.assignedService = none := by
  obtain ⟨id', hid'⟩ := Table.mem_values.1 hv
  by_cases hsame : id' = id
  · have hservice := h.service
    rw [← hsame, hid'] at hservice
    exact hservice.symm
  · exact absurd hname (h.hostname id' v hsame hid' hkey)

theorem enroll_busy {body : EnrollRequest} {r : EnrollResponse} (hstep : InStep s) (hs : Busy t s)
    (ht : t ≤ t') (hgranted : (∀ v ∈ Table.values s.volunteers, body.info.hostname ≠ [] →
        v.info.hostname = body.info.hostname → v.assignedService = none) →
      ∀ p ∈ s.pendingServices.head?, ∀ addr,
        (assigned s.haproxy p.name p.domain addr).1 = .ok ())
    (h : Enrolled (during t t') s body r s') : Busy t' s' := by
  cases h with
  | @mk existingId existing a id addr now s₁ s₂ db r h haddr hid hexisting hident hattached hq hh =>
      have hentry := entry_of_found sound_during hstep hid hexisting hident
      obtain ⟨hvolunteers, hpending, hhaproxy⟩ := hident.same
      have hfree : FreeBefore s s₁ := freeBefore_of_volunteers hvolunteers
      cases hattached with
      | @reattached held _ _ _ hh' hq' =>
          refine hs.step ht (hfree.trans (freeBefore_insert rfl fun hnone => ?_)) fun hwaits => ?_
          · exact absurd hnone (Option.some_ne_none held)
          · exact hpending ▸ hwaits
      | @taken p ps _ _ hp hh' hq' =>
          refine hs.step ht (hfree.trans (freeBefore_insert rfl fun hnone => ?_)) fun _ => ?_
          · exact absurd hnone (Option.some_ne_none _)
          · rw [← hpending, hp]
            exact List.cons_ne_nil p ps
      | @refused p ps e h' hp hh' =>
          have hcalm := haproxyPart_calm (fun _ => during_calm) hh'
          have hunlocked := calm_assignService_unlocked hcalm
          rw [calm_assignService _ _ _ haddr hunlocked] at hcalm
          have hok := hgranted (fun v hv hkey hname => hentry.unserved hv hkey hname) p
            (by rw [← hpending, hp]; rfl) addr
          rw [← hhaproxy, Option.some.inj hcalm] at hok
          simp at hok
      | nothingPending hp => exact fun hwaits => absurd hp hwaits

/-- The step of the run lemma, one case for each kind of operation. -/
theorem handle_busy {q : Request Uuid} {r : Reply Uuid} (hstep : InStep s) (hs : Busy t s)
    (ht : t ≤ t')
    (hgranted : (Turn.mk q s s' t').granted) (hfits : (Turn.mk q s s' t').fits)
    (run : Runs (during t t') (handle q) s r s') : Busy t' s' := by
  cases q with
  | enroll body =>
      obtain ⟨r, hrun, rfl⟩ := (runs_map _ _ _ _ _).1 run
      exact enroll_busy hstep hs ht hgranted (enroll_run hrun)
  | heartbeat body =>
      obtain ⟨r, hrun, rfl⟩ := (runs_map _ _ _ _ _).1 run
      exact heartbeat_busy hs ht hfits (heartbeat_run hrun)
  | updateTunnelPort idStr port =>
      obtain ⟨r, hrun, rfl⟩ := (runs_map _ _ _ _ _).1 run
      obtain ⟨hfree, hsame⟩ := (updateTunnelPort_run hrun).freeBefore
      exact hs.step ht hfree fun hwaits => hsame ▸ hwaits
  | disconnect idStr =>
      obtain ⟨r, hrun, rfl⟩ := (runs_map _ _ _ _ _).1 run
      obtain ⟨hfree, hsame⟩ := (disconnect_run hrun).freeBefore
      exact hs.step ht hfree fun hwaits => hsame ▸ hwaits
  | registerService body =>
      obtain ⟨r, hrun, rfl⟩ := (runs_map _ _ _ _ _).1 run
      exact registerService_busy hs ht hrun
  | churn =>
      obtain ⟨dead, hrun, rfl⟩ := (runs_map _ _ _ _ _).1 run
      exact churn_busy hs ht hfits hrun
  | restart =>
      obtain ⟨errors, hrun, rfl⟩ := (runs_map _ _ _ _ _).1 run
      exact fun hwaits => absurd (restart_inStep sound_during hstep hrun).2.1 hwaits

theorem Turns.busy {s₀ : World Uuid} {t₀ : DateTime} {turns : List (Turn Uuid)}
    (run : Turns s₀ t₀ turns s t) (hstep : InStep s₀) (hinit : Busy t₀ s₀)
    (hgranted : ∀ turn ∈ turns, turn.granted) (hfits : ∀ turn ∈ turns, turn.fits) :
    InStep s ∧ Busy t s ∧ ∀ turn ∈ turns, Busy turn.finish turn.after := by
  induction run with
  | nil => exact ⟨hstep, hinit, fun turn hturn => absurd hturn List.not_mem_nil⟩
  | step past htime run ih =>
      obtain ⟨hstep', hs, hpast⟩ :=
        ih (fun turn hturn => hgranted turn (List.mem_cons_of_mem _ hturn))
          fun turn hturn => hfits turn (List.mem_cons_of_mem _ hturn)
      have hnext := handle_busy hstep' hs htime (hgranted _ List.mem_cons_self)
        (hfits _ List.mem_cons_self) run
      exact ⟨(handle_run run).inStep sound_during hstep', hnext,
        List.forall_mem_cons.2 ⟨hnext, hpast⟩⟩

/-- As long as no service comes back while a live volunteer is free, and no free volunteer comes back
while a service is pending, no service waits while a volunteer is free. -/
theorem waiting_means_busy {h : Haproxy} {t₀ : DateTime} {turns : List (Turn Uuid)}
    (run : Turns (World.initial h) t₀ turns s t) (hgranted : ∀ turn ∈ turns, turn.granted)
    (hfits : ∀ turn ∈ turns, turn.fits) : ∀ turn ∈ turns, Busy turn.finish turn.after :=
  (run.busy (inStep_initial h) (fun hwaits => absurd rfl hwaits) hgranted hfits).2.2

end Operations

section Timetables

instance (start finish : DateTime) (β : Type) (e : RegistrarEnv Node) (op : RegistrarOp Node β)
    (s : World Node) : Decidable (during start finish β e op s) :=
  inferInstanceAs (Decidable (answering β e op s ∧ (start ≤ e.now ∧ e.now ≤ finish) ∧ ∀ _, _))

theorem assigned_ok_iff {h : Haproxy} {serviceName domain addr : Text} :
    (assigned h serviceName domain addr).1 = .ok () ↔
      (Config.added h (serviceBackend serviceName) domain).1 = .ok () ∧
        hasBackend (Config.added h (serviceBackend serviceName) domain).2.loaded
          (serviceBackend serviceName) := by
  rw [assigned]
  obtain ⟨r, h'⟩ := Config.added h (serviceBackend serviceName) domain
  cases r with
  | error e => simp
  | ok u =>
      simp only [upserted]
      split_ifs with hb <;> simp [hb]

instance (h : Haproxy) (serviceName domain : Text) :
    Decidable (∀ addr, (assigned h serviceName domain addr).1 = .ok ()) :=
  decidable_of_iff _ ⟨fun hok _ => assigned_ok_iff.2 hok, fun hok => assigned_ok_iff.1 (hok [])⟩

instance : (turn : Turn Node) → Decidable turn.granted
  | ⟨.enroll body, before, _, _⟩ =>
    inferInstanceAs (Decidable ((∀ v ∈ Table.values before.volunteers, body.info.hostname ≠ [] →
        v.info.hostname = body.info.hostname → v.assignedService = none) →
      ∀ p ∈ before.pendingServices.head?, ∀ addr,
        (assigned before.haproxy p.name p.domain addr).1 = .ok ()))
  | ⟨.heartbeat _, _, _, _⟩ => .isTrue trivial
  | ⟨.updateTunnelPort _ _, _, _, _⟩ => .isTrue trivial
  | ⟨.disconnect _, _, _, _⟩ => .isTrue trivial
  | ⟨.registerService _, _, _, _⟩ => .isTrue trivial
  | ⟨.churn, _, _, _⟩ => .isTrue trivial
  | ⟨.restart, _, _, _⟩ => .isTrue trivial

instance : (turn : Turn Node) → Decidable turn.fits
  | ⟨.churn, before, _, finish⟩ =>
    inferInstanceAs (Decidable ((∃ v ∈ Table.values before.volunteers,
      v.isAlive finish = false ∧ v.assignedService ≠ none) → _))
  | ⟨.heartbeat _, before, _, _⟩ =>
    inferInstanceAs (Decidable (before.pendingServices ≠ [] → ∀ v ∈ before.volunteers.lookup _, _))
  | ⟨.enroll _, _, _, _⟩ => .isTrue trivial
  | ⟨.updateTunnelPort _ _, _, _, _⟩ => .isTrue trivial
  | ⟨.disconnect _, _, _, _⟩ => .isTrue trivial
  | ⟨.registerService _, _, _, _⟩ => .isTrue trivial
  | ⟨.restart, _, _, _⟩ => .isTrue trivial

/-- What a timetable leads to, its latest request first, when each request is served in no time. -/
def timetable : List (Request Node × DateTime) →
    Option (List (Turn Node) × World Node × DateTime)
  | [] => some ([], World.initial smallHaproxy, 0)
  | (q, t') :: earlier =>
    match timetable earlier with
    | none => none
    | some (turns, s, t) =>
      if t ≤ t' then
        (runBy (during t t') (calmEnv t' t') (handle q) s).map fun r =>
          (⟨q, s, r.2, t'⟩ :: turns, r.2, t')
      else none

theorem turns_of_timetable {requests : List (Request Node × DateTime)} {turns : List (Turn Node)}
    {s : World Node} {t : DateTime} (h : timetable requests = some (turns, s, t)) :
    Turns (World.initial smallHaproxy) 0 turns s t ∧
      turns.map (·.request) = requests.map Prod.fst := by
  induction requests generalizing turns s t with
  | nil =>
      obtain ⟨rfl, rfl, rfl⟩ := by simpa [timetable] using h
      exact ⟨.nil, rfl⟩
  | cons next earlier ih =>
      obtain ⟨q, t'⟩ := next
      rw [timetable] at h
      cases hpast : timetable earlier with
      | none => simp [hpast] at h
      | some past =>
          obtain ⟨turns₁, s₁, t₁⟩ := past
          simp only [hpast] at h
          split_ifs at h with htime
          obtain ⟨r, hrun, heq⟩ := Option.map_eq_some_iff.1 h
          obtain ⟨rfl, hrest⟩ := Prod.mk.inj heq
          obtain ⟨rfl, rfl⟩ := Prod.mk.inj hrest
          obtain ⟨hpast, hrequests⟩ := ih hpast
          exact ⟨.step hpast htime (runs_of_runBy _ _ _ _ _ hrun), by simp [hrequests]⟩

def comesBack : List (Request Node × DateTime) :=
  [(.churn, 60000000000), (.enroll (joins "volunteer-102" 7002), 40000000000),
    (.registerService blog, 0), (.enroll (joins "volunteer-101" 7001), 0)]

def heardAgain : List (Request Node × DateTime) :=
  [(.heartbeat ⟨.a, 0.0, 0.0, 0.0, 0, none, none⟩, 60000000000),
    (.registerService blog, 60000000000), (.enroll (joins "volunteer-101" 7001), 0)]

/-- A free volunteer is passed over both by the churn monitor and when it is heard of again. -/
theorem waits_while_free :
    (¬ ∀ (h : Haproxy) (t₀ t : DateTime) (turns : List (Turn Node)) (s : World Node),
      Turns (World.initial h) t₀ turns s t → (∀ turn ∈ turns, turn.granted) →
      (∀ turn ∈ turns, ∀ body, turn.request ≠ .heartbeat body) →
      ∀ turn ∈ turns, Busy turn.finish turn.after) ∧
    ¬ ∀ (h : Haproxy) (t₀ t : DateTime) (turns : List (Turn Node)) (s : World Node),
      Turns (World.initial h) t₀ turns s t → (∀ turn ∈ turns, turn.granted) →
      (∀ turn ∈ turns, turn.request ≠ .churn) →
      ∀ turn ∈ turns, Busy turn.finish turn.after := by
  have hback : (timetable comesBack).any fun r => decide ((∀ turn ∈ r.1, turn.granted) ∧
      ∃ turn ∈ r.1, ¬ Busy turn.finish turn.after) := by
    decide +kernel
  have hagain : (timetable heardAgain).any fun r => decide ((∀ turn ∈ r.1, turn.granted) ∧
      ∃ turn ∈ r.1, ¬ Busy turn.finish turn.after) := by
    decide +kernel
  constructor
  · intro hclaim
    obtain ⟨⟨turns, s, t⟩, htable, hholds⟩ := (Option.any_eq_true _ _).1 hback
    obtain ⟨hgranted, turn, hturn, hfree⟩ := of_decide_eq_true hholds
    obtain ⟨run, hrequests⟩ := turns_of_timetable htable
    refine hfree (hclaim _ _ _ _ _ run hgranted (fun turn hturn body hheartbeat => ?_) turn hturn)
    have hmem : turn.request ∈ comesBack.map Prod.fst := hrequests ▸ List.mem_map_of_mem hturn
    simp [comesBack, hheartbeat] at hmem
  · intro hclaim
    obtain ⟨⟨turns, s, t⟩, htable, hholds⟩ := (Option.any_eq_true _ _).1 hagain
    obtain ⟨hgranted, turn, hturn, hfree⟩ := of_decide_eq_true hholds
    obtain ⟨run, hrequests⟩ := turns_of_timetable htable
    refine hfree (hclaim _ _ _ _ _ run hgranted (fun turn hturn hchurn => ?_) turn hturn)
    have hmem : turn.request ∈ heardAgain.map Prod.fst := hrequests ▸ List.mem_map_of_mem hturn
    simp [heardAgain, hchurn] at hmem

/-- A volunteer takes a waiting service, is heard of once more and then falls silent. -/
def servesOnce : List (Request Node × DateTime) :=
  [(.churn, 100000000000), (.heartbeat ⟨.a, 0.0, 0.0, 0.0, 0, none, none⟩, 40000000000),
    (.registerService wiki, 2000000000), (.enroll (joins "volunteer-101" 7001), 1000000000),
    (.registerService blog, 0)]

theorem waiting_means_busy_served :
    ∃ (turns : List (Turn Node)) (s : World Node) (t : DateTime),
      Turns (World.initial smallHaproxy) 0 turns s t ∧
      turns.map (·.request) = servesOnce.map Prod.fst ∧
      s.pendingServices.map (·.service) = [wiki, blog] ∧
      ∀ turn ∈ turns, Busy turn.finish turn.after := by
  have hgood : (timetable servesOnce).any fun r => decide ((∀ turn ∈ r.1, turn.granted) ∧
      (∀ turn ∈ r.1, turn.fits) ∧ r.2.1.pendingServices.map (·.service) = [wiki, blog]) := by
    decide +kernel
  obtain ⟨⟨turns, s, t⟩, htable, hholds⟩ := (Option.any_eq_true _ _).1 hgood
  obtain ⟨hgranted, hfits, hpending⟩ := of_decide_eq_true hholds
  obtain ⟨run, hrequests⟩ := turns_of_timetable htable
  exact ⟨turns, s, t, run, hrequests, hpending, waiting_means_busy run hgranted hfits⟩

end Timetables

end OpenShard.Registrar
