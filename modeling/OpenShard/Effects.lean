import OpenShard.Enrollment
import OpenShard.Services

/-!
# What the handlers do

For every handler, one relation that lists all it can answer and all it can do to the state, whatever
the clock, the database and HAProxy do; and the proof that its runs are in that relation. What is
proved about the registrar later is proved by cases on these relations.
-/

namespace OpenShard.Registrar

open UuidFormat HaproxyManager

variable {Uuid : Type} [DecidableEq Uuid] [UuidFormat Uuid] [Rfc3339]

variable (g : Guard (RegistrarOp Uuid) (RegistrarEnv Uuid) (World Uuid)) (s : World Uuid)

section Relations

inductive FoundBy (nodeKey : Text) : Option Uuid → Prop
  | anonymous (hk : nodeKey = []) : FoundBy nodeKey none
  | inMemory {key : Uuid} {v : VolunteerState Uuid} (hk : nodeKey ≠ [])
      (hv : s.volunteers.lookup key = some v) (hname : v.info.hostname = nodeKey) :
      FoundBy nodeKey (some v.id)
  | inDatabase {found : Option Uuid} {db : Db} (hk : nodeKey ≠ [])
      (hno : ∀ key v, s.volunteers.lookup key = some v → v.info.hostname ≠ nodeKey)
      (hq : Queried g s (.findByHostname nodeKey) found db) : FoundBy nodeKey found

inductive AssignmentFound : Option Uuid → Option ServiceAssignment → Prop
  | noId : AssignmentFound none none
  | inMemory {id : Uuid} {v : VolunteerState Uuid} {a : ServiceAssignment}
      (hv : s.volunteers.lookup id = some v) (ha : v.assignedService = some a) :
      AssignmentFound (some id) (some a)
  | inDatabase {id : Uuid} {found : Option ServiceAssignment} {db : Db}
      (hno : ∀ v, s.volunteers.lookup id = some v → v.assignedService = none)
      (hq : Queried g s (.getAssignment id) found db) : AssignmentFound (some id) found

inductive Identified : Option Uuid → Uuid → World Uuid → Prop
  | known (id : Uuid) : Identified (some id) id s
  | issued {e : RegistrarEnv Uuid} (hg : g Uuid e (.own .newV4) s) :
      Identified none e.uuid { s with issued := e.uuid :: s.issued }

/-- What becomes of the service that an enrolling volunteer had, and of the pending ones. -/
inductive Attached (id : Uuid) (addr : Text) (now : DateTime) :
    Option ServiceAssignment → Option ServiceAssignment → World Uuid → Prop
  | reattached {a : ServiceAssignment} {r : Except Error Unit} {h : Haproxy} {db : Db}
      (hh : Runs (haproxyPart g s) (assignService a.serviceName a.domain addr).run s.haproxy r h)
      (hq : Queried g { s with haproxy := h } (.upsertAssignment id a) () db) :
      Attached id addr now (some a) (some a) { s with haproxy := h, db := db }
  | taken {p : PendingService} {ps : List PendingService} {h : Haproxy} {db : Db}
      (hp : s.pendingServices = p :: ps)
      (hh : Runs (haproxyPart g { s with pendingServices := ps })
        (assignService p.name p.domain addr).run s.haproxy (.ok ()) h)
      (hq : Queried g { s with pendingServices := ps, haproxy := h }
        (.upsertAssignment id (assignmentFor p now)) () db) :
      Attached id addr now none (some (assignmentFor p now))
        { s with pendingServices := ps, haproxy := h, db := db }
  | refused {p : PendingService} {ps : List PendingService} {e : Error} {h : Haproxy}
      (hp : s.pendingServices = p :: ps)
      (hh : Runs (haproxyPart g { s with pendingServices := ps })
        (assignService p.name p.domain addr).run s.haproxy (.error e) h) :
      Attached id addr now none none { s with haproxy := h }
  | nothingPending (hp : s.pendingServices = []) : Attached id addr now none none s

def enrolled (body : EnrollRequest) (id : Uuid) (addr : Text) (now : DateTime)
    (a : Option ServiceAssignment) : VolunteerState Uuid :=
  newVolunteer id now { body.info with serviceAddr := addr } a

inductive Enrolled (body : EnrollRequest) : EnrollResponse → World Uuid → Prop
  | mk {existingId : Option Uuid} {existing a : Option ServiceAssignment} {id : Uuid} {addr : Text}
      {now : DateTime} {s₁ s₂ : World Uuid} {db : Db} {r : Except Error Unit} {h : Haproxy}
      (haddr : ':' ∈ addr)
      (hid : FoundBy g s body.info.hostname existingId)
      (hexisting : AssignmentFound g s existingId existing)
      (hident : Identified g s existingId id s₁)
      (hattached : Attached g s₁ id addr now existing a s₂)
      (hq : Queried g s₂ (.upsertVolunteer (enrolled body id addr now a)) () db)
      (hh : Runs (haproxyPart g ({ s₂ with db }.insertVolunteer (enrolled body id addr now a)))
        (upsertVolunteer volunteers id addr 100).run s₂.haproxy r h) :
      Enrolled body ⟨toText id, heartbeatIntervalSecs, a.map payload⟩
        { { s₂ with db }.insertVolunteer (enrolled body id addr now a) with haproxy := h }

inductive Weighted (v : VolunteerState Uuid) (weight : UInt32) : Haproxy → Prop
  | weighed {h : Haproxy} {r : Except Error Unit}
      (hh : Runs (haproxyPart g s) (setWeight volunteers v.id weight).run s.haproxy r h) :
      Weighted v weight h
  | readded {h h' : Haproxy} {e : Error} {r : Except Error Unit}
      (hh : Runs (haproxyPart g s) (setWeight volunteers v.id weight).run s.haproxy (.error e) h)
      (hadd : Runs (haproxyPart g s)
        (addVolunteer volunteers v.id v.info.serviceAddr weight).run h r h') :
      Weighted v weight h'

inductive Beaten (body : HeartbeatRequest Uuid) : HeartbeatReply → World Uuid → Prop
  | unknown (hno : s.volunteers.lookup body.volunteerId = none) :
      Beaten body (.notFound volunteerNotFound) s
  | known {v : VolunteerState Uuid} {now : DateTime} {db : Db} {h : Haproxy}
      (hv : s.volunteers.lookup body.volunteerId = some v)
      (hq : Queried g { s with volunteers := s.volunteers.insert body.volunteerId (v.beat now body) }
        (.upsertVolunteer (v.beat now body)) () db)
      (hw : Weighted g
        { s with volunteers := s.volunteers.insert body.volunteerId (v.beat now body), db := db }
        (v.beat now body) (v.beat now body).metrics.weight h) :
      Beaten body (.ok (v.assignedService.map payload))
        { s with
          volunteers := s.volunteers.insert body.volunteerId (v.beat now body)
          db := db
          haproxy := h }

def svcInfo (v : VolunteerState Uuid) (addr : Text) : Option (Text × Text) :=
  v.assignedService.map fun a => (a.serviceName, addr)

inductive Moved (idStr : Text) : VolunteerReply → World Uuid → Prop
  | badRequest : Moved idStr (.badRequest invalidId) s
  | unknown : Moved idStr (.notFound volunteerNotFound) s
  | known {id : Uuid} {v : VolunteerState Uuid} {addr : Text} {db : Db} {r : Except Error Unit}
      {h : Haproxy} (hparse : parseStr idStr = some id) (haddr : ':' ∈ addr)
      (hv : s.volunteers.lookup id = some v)
      {e : RegistrarEnv Uuid} (hg : g _ e (.own (.setServiceAddr id addr)) s)
      (hq : Queried g { s with volunteers := s.volunteers.insert id (v.moveTo addr) }
        (.upsertVolunteer (v.moveTo addr)) () db)
      (hh : Runs (haproxyPart g
        { s with volunteers := s.volunteers.insert id (v.moveTo addr), db := db })
        (updateVolunteerAddr id addr (svcInfo v addr)).run s.haproxy r h) :
      Moved idStr (.ok "ok")
        { s with volunteers := s.volunteers.insert id (v.moveTo addr), db := db, haproxy := h }

/-- The part that the two ways of removing a volunteer share. -/
inductive Removed (id : Uuid) : World Uuid → Prop
  | mk {db : Db} {r : Except Error Unit} {h : Haproxy} {e : RegistrarEnv Uuid}
      (hg : g _ e (.own (.removeVolunteer id)) s)
      (hq : Queried g { s with volunteers := s.volunteers.erase id } (.removeVolunteer id) () db)
      (hh : Runs (haproxyPart g { s with volunteers := s.volunteers.erase id, db := db })
        (removeVolunteer volunteers id).run s.haproxy r h) :
      Removed id { s with volunteers := s.volunteers.erase id, db := db, haproxy := h }

inductive Departed (idStr : Text) : VolunteerReply → World Uuid → Prop
  | badRequest (hparse : (parseStr idStr : Option Uuid) = none) :
      Departed idStr (.badRequest invalidId) s
  | unknown {id : Uuid} (hparse : parseStr idStr = some id)
      (hno : s.volunteers.lookup id = none) {s' : World Uuid}
      (hs' : s' = { s with volunteers := s.volunteers.erase id }) :
      Departed idStr (.notFound volunteerNotFound) s'
  | gone {id : Uuid} {v : VolunteerState Uuid} {s' : World Uuid} (hparse : parseStr idStr = some id)
      (hv : s.volunteers.lookup id = some v) (hremoved : Removed g s id s') :
      Departed idStr (.ok "disconnected") s'

inductive Evicted (id : Uuid) : Option ServiceAssignment → World Uuid → Prop
  | free {s' : World Uuid} (hremoved : Removed g s id s') : Evicted id none s'
  | serving {a : ServiceAssignment} {s₁ : World Uuid} {db : Db} {now : DateTime}
      (hremoved : Removed g s id s₁) (hq : Queried g s₁ (.removeAssignment id) () db) :
      Evicted id (some a)
        { s₁ with db := db, pendingServices := s₁.pendingServices ++ [a.service.pending now] }

inductive Registered (body : Service) : RegisterReply → World Uuid → Prop
  | assigned {key : Uuid} {v : VolunteerState Uuid} {now : DateTime} {h : Haproxy} {db : Db}
      (hv : s.volunteers.lookup key = some v) (hfree : v.assignedService = none)
      (hh : Runs (haproxyPart g s)
        (assignService body.name body.domain v.info.serviceAddr).run s.haproxy (.ok ()) h)
      (hq : Queried g { s with haproxy := h } (.upsertAssignment v.id (Service.assignment body now))
        () db) :
      Registered body
        (.created ⟨serviceBackend body.name, body.domain, some (toText v.id)⟩)
        ({ s with haproxy := h, db := db }.alterVolunteer v.id
          (·.assign (Service.assignment body now)))
  | refused {key : Uuid} {v : VolunteerState Uuid} {e : Error} {h : Haproxy}
      (hv : s.volunteers.lookup key = some v) (hfree : v.assignedService = none)
      (hh : Runs (haproxyPart g s)
        (assignService body.name body.domain v.info.serviceAddr).run s.haproxy (.error e) h) :
      Registered body (.failed e.toText) { s with haproxy := h }
  | queued {now : DateTime} :
      Registered body (.created ⟨serviceBackend body.name, body.domain, none⟩)
        { s with pendingServices := s.pendingServices ++ [body.pending now] }

end Relations

variable {g s} {s' : World Uuid}

section Enroll

theorem findExisting_run {nodeKey : Text} {found : Option Uuid}
    (h : Runs g (findExisting nodeKey) s found s') : s' = s ∧ FoundBy g s nodeKey found := by
  rw [findExisting] at h
  split_ifs at h with hk
  · obtain ⟨rfl, rfl⟩ := (runs_pure _ _ _ _).1 h
    exact ⟨rfl, .anonymous hk⟩
  · rw [runs_bind] at h
    obtain ⟨inMem, s₁, hown, hrest⟩ := h
    obtain ⟨e, -, heq⟩ := (runs_own _).1 hown
    obtain ⟨rfl, rfl⟩ := Prod.mk.inj heq
    cases hfind : (e.volunteers.order (Table.values s.volunteers)).find?
        (·.info.hostname == nodeKey) with
    | some v =>
        rw [hfind] at hrest
        obtain ⟨rfl, rfl⟩ := (runs_pure _ _ _ _).1 hrest
        obtain ⟨key, hkey, hname⟩ := Table.lookup_of_find?_order hfind
        exact ⟨rfl, .inMemory hk hkey (by simpa using hname)⟩
    | none =>
        rw [hfind] at hrest
        obtain ⟨db, hq, rfl⟩ := (runs_query _).1 hrest
        obtain rfl := hq.reads fun _ => rfl
        refine ⟨rfl, .inDatabase hk (fun key v hv hname => ?_) hq⟩
        have hmem : v ∈ e.volunteers.order (Table.values s.volunteers) := by
          rw [IterOrder.mem_order, Table.mem_values]
          exact ⟨key, hv⟩
        have hnot := List.find?_eq_none.1 hfind v hmem
        simp [hname] at hnot

theorem findAssignment_run {existingId : Option Uuid} {found : Option ServiceAssignment}
    (h : Runs g (findAssignment existingId) s found s') :
    s' = s ∧ AssignmentFound g s existingId found := by
  cases existingId with
  | none =>
      obtain ⟨rfl, rfl⟩ := (runs_pure _ _ _ _).1 h
      exact ⟨rfl, .noId⟩
  | some id =>
      rw [findAssignment, runs_bind] at h
      obtain ⟨inMem, s₁, hown, hrest⟩ := h
      obtain ⟨e, -, heq⟩ := (runs_own _).1 hown
      obtain ⟨hinMem, rfl⟩ := Prod.mk.inj heq
      cases inMem with
      | some a =>
          obtain ⟨rfl, rfl⟩ := (runs_pure _ _ _ _).1 hrest
          obtain ⟨v, hv, ha⟩ := Option.bind_eq_some_iff.1 hinMem
          exact ⟨rfl, .inMemory hv ha⟩
      | none =>
          obtain ⟨db, hq, rfl⟩ := (runs_query _).1 hrest
          obtain rfl := hq.reads fun _ => rfl
          refine ⟨rfl, .inDatabase (fun v hv => ?_) hq⟩
          rw [hv] at hinMem
          exact hinMem

theorem identify_run {existingId : Option Uuid} {id : Uuid}
    (h : Runs g (identify existingId) s id s') : Identified g s existingId id s' := by
  cases existingId with
  | some id' =>
      obtain ⟨rfl, rfl⟩ := (runs_pure _ _ _ _).1 h
      exact .known id
  | none =>
      obtain ⟨e, hg, heq⟩ := (runs_own _).1 h
      obtain ⟨rfl, rfl⟩ := Prod.mk.inj heq
      exact .issued hg

theorem attachService_run {id : Uuid} {addr : Text} {now : DateTime}
    {existing a : Option ServiceAssignment}
    (h : Runs g (attachService id addr now existing) s a s') :
    Attached g s id addr now existing a s' := by
  cases existing with
  | some a₀ =>
      rw [attachService, runs_bind] at h
      obtain ⟨r, s₁, hcall, hrest⟩ := h
      obtain ⟨h₁, hh, rfl⟩ := (runs_haproxy _ _).1 hcall
      rw [runs_bind] at hrest
      obtain ⟨u, s₂, hquery, hrest⟩ := hrest
      obtain ⟨db, hq, rfl⟩ := (runs_query _).1 hquery
      obtain ⟨rfl, rfl⟩ := (runs_pure _ _ _ _).1 hrest
      exact .reattached hh hq
  | none =>
      rw [attachService, runs_bind] at h
      obtain ⟨popped, s₁, hpop, hrest⟩ := h
      obtain ⟨e, -, heq⟩ := (runs_own _).1 hpop
      obtain ⟨rfl, rfl⟩ := Prod.mk.inj heq
      cases hp : s.pendingServices with
      | nil =>
          rw [hp] at hrest
          obtain ⟨rfl, rfl⟩ := (runs_pure _ _ _ _).1 hrest
          have hsame : { s with pendingServices := [].tail } = s := by
            rw [List.tail_nil, ← hp]
          rw [hsame]
          exact .nothingPending hp
      | cons p ps =>
          rw [hp] at hrest
          simp only [List.head?_cons, List.tail_cons] at hrest
          rw [runs_bind] at hrest
          obtain ⟨r, s₂, hcall, hrest⟩ := hrest
          obtain ⟨h₁, hh, rfl⟩ := (runs_haproxy _ _).1 hcall
          cases r with
          | ok u =>
              rw [runs_bind] at hrest
              obtain ⟨u', s₃, hquery, hrest⟩ := hrest
              obtain ⟨db, hq, rfl⟩ := (runs_query _).1 hquery
              obtain ⟨rfl, rfl⟩ := (runs_pure _ _ _ _).1 hrest
              exact .taken hp hh hq
          | error err =>
              rw [runs_bind] at hrest
              obtain ⟨u', s₃, hpush, hrest⟩ := hrest
              obtain ⟨e', -, heq'⟩ := (runs_own _).1 hpush
              obtain ⟨-, rfl⟩ := Prod.mk.inj heq'
              obtain ⟨rfl, rfl⟩ := (runs_pure _ _ _ _).1 hrest
              have hsame : ({ s with pendingServices := p :: ps, haproxy := h₁ } : World Uuid) =
                  { s with haproxy := h₁ } := by
                rw [← hp]
              have hrefused := @Attached.refused Uuid _ _ _ g s id addr now p ps err h₁ hp hh
              rw [← hsame] at hrefused
              exact hrefused

omit [DecidableEq Uuid] [UuidFormat Uuid] [Rfc3339] in
theorem Identified.same {existingId : Option Uuid} {id : Uuid}
    (h : Identified g s existingId id s') : s'.volunteers = s.volunteers ∧
      s'.pendingServices = s.pendingServices ∧ s'.haproxy = s.haproxy := by
  cases h with
  | known => exact ⟨rfl, rfl, rfl⟩
  | issued hg => exact ⟨rfl, rfl, rfl⟩

theorem Attached.volunteers {id : Uuid} {addr : Text} {now : DateTime}
    {existing a : Option ServiceAssignment} (h : Attached g s id addr now existing a s') :
    s'.volunteers = s.volunteers := by
  cases h with
  | reattached hh hq => rfl
  | taken hp hh hq => rfl
  | refused hp hh => rfl
  | nothingPending hp => rfl

theorem enroll_stores {body : EnrollRequest} {r : EnrollResponse} (h : Runs g (enroll body) s r s') :
    Enrolled g s body r s' ∧ ∃ v, r.volunteerId = toText v.id ∧
      s'.volunteers = s.volunteers.insert v.id v ∧
      Runs g (serviceAddrFor body.tunnelPublicPort) s v.info.serviceAddr s := by
  rw [enroll, runs_bind] at h
  obtain ⟨now, s₁, hnow, h⟩ := h
  obtain ⟨e, -, heq⟩ := (runs_own _).1 hnow
  obtain ⟨-, rfl⟩ := Prod.mk.inj heq
  rw [runs_bind] at h
  obtain ⟨addr, s₁, haddr, h⟩ := h
  obtain ⟨rfl, hcolon⟩ := serviceAddrFor_run haddr
  rw [runs_bind] at h
  obtain ⟨existingId, s₁, hid, h⟩ := h
  obtain ⟨rfl, hid⟩ := findExisting_run hid
  rw [runs_bind] at h
  obtain ⟨existing, s₁, hexisting, h⟩ := h
  obtain ⟨rfl, hexisting⟩ := findAssignment_run hexisting
  rw [runs_bind] at h
  obtain ⟨id, s₁, hident, h⟩ := h
  have hidentified := identify_run hident
  rw [runs_bind] at h
  obtain ⟨a, s₂, hattached, h⟩ := h
  have hattached' := attachService_run hattached
  rw [runs_bind] at h
  obtain ⟨u, s₃, hquery, h⟩ := h
  obtain ⟨db, hq, rfl⟩ := (runs_query _).1 hquery
  rw [runs_bind] at h
  obtain ⟨u', s₃, hinsert, h⟩ := h
  obtain ⟨e', -, heq'⟩ := (runs_own _).1 hinsert
  obtain ⟨-, rfl⟩ := Prod.mk.inj heq'
  rw [runs_bind] at h
  obtain ⟨res, s₃, hcall, h⟩ := h
  obtain ⟨h₁, hh, rfl⟩ := (runs_haproxy _ _).1 hcall
  obtain ⟨rfl, rfl⟩ := (runs_pure _ _ _ _).1 h
  refine ⟨.mk hcolon hid hexisting hidentified hattached' hq hh,
    enrolled body id addr now a, rfl, ?_, haddr⟩
  exact congrArg (fun map : Table Uuid (VolunteerState Uuid) => map.insert id _)
    (hattached'.volunteers.trans hidentified.same.1)

theorem enroll_run {body : EnrollRequest} {r : EnrollResponse}
    (h : Runs g (enroll body) s r s') : Enrolled g s body r s' := (enroll_stores h).1

end Enroll

section Volunteers

theorem heartbeat_run {body : HeartbeatRequest Uuid} {r : HeartbeatReply}
    (h : Runs g (heartbeat body) s r s') : Beaten g s body r s' := by
  rw [heartbeat, runs_bind] at h
  obtain ⟨found, s₁, hown, h⟩ := h
  obtain ⟨e, -, heq⟩ := (runs_own _).1 hown
  obtain ⟨rfl, rfl⟩ := Prod.mk.inj heq
  cases hv : s.volunteers.lookup body.volunteerId with
  | none =>
      simp only [hv, Option.map_none, World.alterVolunteer] at h
      obtain ⟨rfl, rfl⟩ := (runs_pure _ _ _ _).1 h
      exact .unknown hv
  | some v =>
      simp only [hv, Option.map_some, World.alterVolunteer_of_lookup hv] at h
      rw [runs_bind] at h
      obtain ⟨u, s₂, hquery, h⟩ := h
      obtain ⟨db, hq, rfl⟩ := (runs_query _).1 hquery
      rw [runs_bind] at h
      obtain ⟨res, s₃, hcall, h⟩ := h
      obtain ⟨h₁, hh, rfl⟩ := (runs_haproxy _ _).1 hcall
      cases res with
      | ok u =>
          obtain ⟨rfl, rfl⟩ := (runs_pure _ _ _ _).1 h
          exact .known hv hq (.weighed hh)
      | error err =>
          simp only at h
          split_ifs at h with hno
          · rw [runs_bind] at h
            obtain ⟨res', s₄, hcall', h⟩ := h
            obtain ⟨h₂, hadd, rfl⟩ := (runs_haproxy _ _).1 hcall'
            obtain ⟨rfl, rfl⟩ := (runs_pure _ _ _ _).1 h
            exact .known hv hq (.readded hh hadd)
          · obtain ⟨rfl, rfl⟩ := (runs_pure _ _ _ _).1 h
            exact .known hv hq (.weighed hh)

theorem updateTunnelPort_stores {idStr : Text} {port : UInt16} {r : VolunteerReply}
    (h : Runs g (updateTunnelPort idStr port) s r s') : Moved g s idStr r s' ∧
      (((∀ status, r ≠ .ok status) ∧ s' = s) ∨
        ∃ id v addr, parseStr idStr = some id ∧ r = .ok "ok" ∧ s.volunteers.lookup id = some v ∧
          s'.volunteers = s.volunteers.insert id (v.moveTo addr) ∧
          Runs g (serviceAddrFor port) s addr s) := by
  rw [updateTunnelPort] at h
  cases hparse : (parseStr idStr : Option Uuid) with
  | none =>
      rw [hparse] at h
      obtain ⟨rfl, rfl⟩ := (runs_pure _ _ _ _).1 h
      exact ⟨.badRequest, Or.inl ⟨fun _ hr => by simp at hr, rfl⟩⟩
  | some id =>
      rw [hparse] at h
      simp only at h
      rw [runs_bind] at h
      obtain ⟨addr, s₁, haddr, h⟩ := h
      obtain ⟨rfl, hcolon⟩ := serviceAddrFor_run haddr
      rw [runs_bind] at h
      obtain ⟨found, s₂, hown, h⟩ := h
      obtain ⟨e, hg, heq⟩ := (runs_own _).1 hown
      obtain ⟨rfl, rfl⟩ := Prod.mk.inj heq
      cases hv : s₁.volunteers.lookup id with
      | none =>
          simp only [hv, Option.map_none, World.alterVolunteer] at h
          obtain ⟨rfl, rfl⟩ := (runs_pure _ _ _ _).1 h
          exact ⟨.unknown, Or.inl ⟨fun _ hr => by simp at hr, rfl⟩⟩
      | some v =>
          simp only [hv, Option.map_some, World.alterVolunteer_of_lookup hv] at h
          rw [runs_bind] at h
          obtain ⟨u, s₃, hquery, h⟩ := h
          obtain ⟨db, hq, rfl⟩ := (runs_query _).1 hquery
          rw [runs_bind] at h
          obtain ⟨res, s₄, hcall, h⟩ := h
          obtain ⟨h₁, hh, rfl⟩ := (runs_haproxy _ _).1 hcall
          obtain ⟨rfl, rfl⟩ := (runs_pure _ _ _ _).1 h
          exact ⟨.known hparse hcolon hv hg hq hh,
            Or.inr ⟨id, v, addr, rfl, rfl, hv, rfl, haddr⟩⟩

theorem updateTunnelPort_run {idStr : Text} {port : UInt16} {r : VolunteerReply}
    (h : Runs g (updateTunnelPort idStr port) s r s') : Moved g s idStr r s' :=
  (updateTunnelPort_stores h).1

theorem disconnect_run {idStr : Text} {r : VolunteerReply}
    (h : Runs g (disconnect idStr) s r s') : Departed g s idStr r s' := by
  rw [disconnect] at h
  cases hparse : (parseStr idStr : Option Uuid) with
  | none =>
      rw [hparse] at h
      obtain ⟨rfl, rfl⟩ := (runs_pure _ _ _ _).1 h
      exact .badRequest hparse
  | some id =>
      rw [hparse] at h
      simp only at h
      rw [runs_bind] at h
      obtain ⟨found, s₁, hown, h⟩ := h
      obtain ⟨e, hg, heq⟩ := (runs_own _).1 hown
      obtain ⟨rfl, rfl⟩ := Prod.mk.inj heq
      cases hv : s.volunteers.lookup id with
      | none =>
          rw [hv] at h
          obtain ⟨rfl, rfl⟩ := (runs_pure _ _ _ _).1 h
          exact .unknown hparse hv rfl
      | some v =>
          rw [hv] at h
          simp only at h
          rw [runs_bind] at h
          obtain ⟨u, s₂, hquery, h⟩ := h
          obtain ⟨db, hq, rfl⟩ := (runs_query _).1 hquery
          rw [runs_bind] at h
          obtain ⟨res, s₃, hcall, h⟩ := h
          obtain ⟨h₁, hh, rfl⟩ := (runs_haproxy _ _).1 hcall
          obtain ⟨rfl, rfl⟩ := (runs_pure _ _ _ _).1 h
          exact .gone hparse hv (.mk hg hq hh)

theorem evict_run {id : Uuid} {assignment : Option ServiceAssignment} {u : Unit}
    (h : Runs g (evict id assignment) s u s') : Evicted g s id assignment s' := by
  unfold evict at h
  rw [runs_bind] at h
  obtain ⟨found, s₁, hown, h⟩ := h
  obtain ⟨e, hg, heq⟩ := (runs_own _).1 hown
  obtain ⟨-, rfl⟩ := Prod.mk.inj heq
  rw [runs_bind] at h
  obtain ⟨u₁, s₂, hquery, h⟩ := h
  obtain ⟨db, hq, rfl⟩ := (runs_query _).1 hquery
  rw [runs_bind] at h
  obtain ⟨res, s₃, hcall, h⟩ := h
  obtain ⟨h₁, hh, rfl⟩ := (runs_haproxy _ _).1 hcall
  have hremoved : Removed g s id
      { s with volunteers := s.volunteers.erase id, db := db, haproxy := h₁ } := .mk hg hq hh
  cases assignment with
  | none =>
      obtain ⟨-, rfl⟩ := (runs_pure _ _ _ _).1 h
      exact .free hremoved
  | some a =>
      simp only at h
      rw [runs_bind] at h
      obtain ⟨u₂, s₄, hquery', h⟩ := h
      obtain ⟨db', hq', rfl⟩ := (runs_query _).1 hquery'
      obtain ⟨e', -, heq'⟩ := (runs_own _).1 h
      obtain ⟨-, rfl⟩ := Prod.mk.inj heq'
      have hserving := @Evicted.serving Uuid _ _ _ g s id a _ db' e'.now hremoved hq'
      exact hserving

end Volunteers

section Services

/-- A registration that queues its service has looked at all active volunteers. -/
theorem registerService_looks {body : Service} {r : RegisterReply}
    (h : Runs g (registerService body) s r s') : Registered g s body r s' ∧
      (s'.pendingServices ≠ s.pendingServices → ∃ e, g _ e (.own .activeVolunteers) s ∧
        ∀ v ∈ activeVolunteers e.volunteers e.clock s.volunteers, v.assignedService ≠ none) := by
  rw [registerService, runs_bind] at h
  obtain ⟨active, s₁, hown, h⟩ := h
  obtain ⟨e, hg, heq⟩ := (runs_own _).1 hown
  obtain ⟨rfl, rfl⟩ := Prod.mk.inj heq
  cases hfind : (activeVolunteers e.volunteers e.clock s.volunteers).find?
      (·.assignedService.isNone) with
  | none =>
      rw [hfind] at h
      simp only at h
      rw [runs_bind] at h
      obtain ⟨u, s₂, hpush, h⟩ := h
      obtain ⟨e', -, heq'⟩ := (runs_own _).1 hpush
      obtain ⟨-, rfl⟩ := Prod.mk.inj heq'
      obtain ⟨rfl, rfl⟩ := (runs_pure _ _ _ _).1 h
      refine ⟨.queued, fun _ => ⟨e, hg, fun v hv hnone => ?_⟩⟩
      have hbusy := List.find?_eq_none.1 hfind v hv
      simp [hnone] at hbusy
  | some v =>
      obtain ⟨key, hv⟩ := (mem_activeVolunteers.1 (List.mem_of_find?_eq_some hfind)).1
      have hfree : v.assignedService = none := by simpa using List.find?_some hfind
      rw [hfind] at h
      simp only at h
      rw [runs_bind] at h
      obtain ⟨res, s₂, hcall, h⟩ := h
      obtain ⟨h₁, hh, rfl⟩ := (runs_haproxy _ _).1 hcall
      cases res with
      | error err =>
          obtain ⟨rfl, rfl⟩ := (runs_pure _ _ _ _).1 h
          exact ⟨.refused hv hfree hh, fun hqueued => absurd rfl hqueued⟩
      | ok u =>
          simp only at h
          rw [runs_bind] at h
          obtain ⟨now, s₃, hnow, h⟩ := h
          obtain ⟨e', -, heq'⟩ := (runs_own _).1 hnow
          obtain ⟨-, rfl⟩ := Prod.mk.inj heq'
          rw [runs_bind] at h
          obtain ⟨u', s₄, hquery, h⟩ := h
          obtain ⟨db, hq, rfl⟩ := (runs_query _).1 hquery
          rw [runs_bind] at h
          obtain ⟨u'', s₅, hset, h⟩ := h
          obtain ⟨e'', -, heq''⟩ := (runs_own _).1 hset
          obtain ⟨-, rfl⟩ := Prod.mk.inj heq''
          obtain ⟨rfl, rfl⟩ := (runs_pure _ _ _ _).1 h
          refine ⟨.assigned hv hfree hh hq, fun hqueued => absurd ?_ hqueued⟩
          exact World.alterVolunteer_pendingServices _ _ _

theorem registerService_run {body : Service} {r : RegisterReply}
    (h : Runs g (registerService body) s r s') : Registered g s body r s' :=
  (registerService_looks h).1

end Services

section Churn

inductive EvictedAll (g : Guard (RegistrarOp Uuid) (RegistrarEnv Uuid) (World Uuid)) :
    List (Uuid × Option ServiceAssignment) → World Uuid → World Uuid → Prop
  | nil (s : World Uuid) : EvictedAll g [] s s
  | cons {d : Uuid × Option ServiceAssignment} {ds : List (Uuid × Option ServiceAssignment)}
      {s s₁ s' : World Uuid} (hd : Evicted g s d.1 d.2 s₁) (hds : EvictedAll g ds s₁ s') :
      EvictedAll g (d :: ds) s s'

theorem evictAll_run {dead : List (Uuid × Option ServiceAssignment)} {u : Unit}
    (h : Runs g (evictAll dead) s u s') : EvictedAll g dead s s' := by
  induction dead generalizing s with
  | nil =>
      obtain ⟨-, rfl⟩ := (runs_pure _ _ _ _).1 h
      exact .nil s'
  | cons d ds ih =>
      rw [evictAll, runs_bind] at h
      obtain ⟨u', s₁, hd, hds⟩ := h
      exact .cons (evict_run hd) (ih hds)

structure DeadIn (s : World Uuid) (dead : List (Uuid × Option ServiceAssignment)) : Prop where
  found : ∀ d ∈ dead, ∃ key v, s.volunteers.lookup key = some v ∧ d = (v.id, v.assignedService)
  nodup : (∀ key v, s.volunteers.lookup key = some v → v.id = key) → (dead.map Prod.fst).Nodup

theorem churnPass_run {dead : List (Uuid × Option ServiceAssignment)}
    (h : Runs g churnPass s dead s') : DeadIn s dead ∧ EvictedAll g dead s s' := by
  rw [churnPass, runs_bind] at h
  obtain ⟨found, s₁, hown, h⟩ := h
  obtain ⟨e, -, heq⟩ := (runs_own _).1 hown
  obtain ⟨rfl, rfl⟩ := Prod.mk.inj heq
  rw [runs_bind] at h
  obtain ⟨u, s₂, hall, h⟩ := h
  obtain ⟨rfl, rfl⟩ := (runs_pure _ _ _ _).1 h
  refine ⟨⟨fun d hd => ?_, fun hkey => ?_⟩, evictAll_run hall⟩
  · obtain ⟨v, hv, rfl⟩ := List.mem_map.1 hd
    have hmem := List.mem_of_mem_filter hv
    rw [IterOrder.mem_order, Table.mem_values] at hmem
    obtain ⟨key, hkey⟩ := hmem
    exact ⟨key, v, hkey, rfl⟩
  · have hids : ((Table.values s.volunteers).map (·.id)).Nodup :=
      Table.nodup_map_values s.volunteers hkey
    have hperm := ((e.volunteers.perm (Table.values s.volunteers)).map (·.id)).nodup_iff.2 hids
    rw [List.map_map]
    exact hperm.sublist (List.filter_sublist.map _)

end Churn

section Recovery

theorem restoreConfigs_run {rs : List (Recovered Uuid)} {errors : List Error}
    (h : Runs g (restoreConfigs rs) s errors s') : ∃ h', s' = { s with haproxy := h' } := by
  induction rs generalizing s errors with
  | nil =>
      obtain ⟨-, rfl⟩ := (runs_pure _ _ _ _).1 h
      exact ⟨s'.haproxy, rfl⟩
  | cons r rs ih =>
      obtain ⟨id, addr, svc⟩ := r
      cases svc with
      | none => exact ih h
      | some svc =>
          rw [restoreConfigs, runs_bind] at h
          obtain ⟨res, s₁, hcall, h⟩ := h
          obtain ⟨h₁, -, rfl⟩ := (runs_haproxy _ _).1 hcall
          rw [runs_bind] at h
          obtain ⟨rest, s₂, hrest, h⟩ := h
          obtain ⟨-, rfl⟩ := (runs_pure _ _ _ _).1 h
          obtain ⟨h', rfl⟩ := ih hrest
          exact ⟨h', rfl⟩

theorem restoreServers_run {rs : List (Recovered Uuid)} {errors : List Error}
    (h : Runs g (restoreServers rs) s errors s') : ∃ h', s' = { s with haproxy := h' } := by
  induction rs generalizing s errors with
  | nil =>
      obtain ⟨-, rfl⟩ := (runs_pure _ _ _ _).1 h
      exact ⟨s'.haproxy, rfl⟩
  | cons r rs ih =>
      obtain ⟨id, addr, svc⟩ := r
      rw [restoreServers, runs_bind] at h
      obtain ⟨res, s₁, hcall, h⟩ := h
      obtain ⟨h₁, -, rfl⟩ := (runs_haproxy _ _).1 hcall
      cases svc with
      | none =>
          simp only at h
          rw [runs_bind] at h
          obtain ⟨rest, s₂, hrest, h⟩ := h
          obtain ⟨-, rfl⟩ := (runs_pure _ _ _ _).1 h
          obtain ⟨h', rfl⟩ := ih hrest
          exact ⟨h', rfl⟩
      | some svc =>
          simp only at h
          rw [runs_bind] at h
          obtain ⟨res', s₂, hcall', h⟩ := h
          obtain ⟨h₂, -, rfl⟩ := (runs_haproxy _ _).1 hcall'
          rw [runs_bind] at h
          obtain ⟨rest, s₃, hrest, h⟩ := h
          obtain ⟨-, rfl⟩ := (runs_pure _ _ _ _).1 h
          obtain ⟨h', rfl⟩ := ih hrest
          exact ⟨h', rfl⟩

theorem settle_run {rs : List (Recovered Uuid)} {u : Unit} (h : Runs g (settle rs) s u s') :
    s' = s := by
  rw [settle] at h
  split_ifs at h
  · obtain ⟨e, -, heq⟩ := (runs_own _).1 h
    exact (Prod.mk.inj heq).2.symm
  · exact ((runs_pure _ _ _ _).1 h).2

/-- The map that recovery builds: the survivors, their last heartbeat set to the present. -/
def recoveredMap (clock : Uuid → DateTime) (survivors : List (VolunteerState Uuid))
    (map : Table Uuid (VolunteerState Uuid)) : Table Uuid (VolunteerState Uuid) :=
  survivors.foldl (fun map v => map.insert v.id { v with lastHeartbeat := clock v.id }) map

theorem recoverFrom_run {survivors : List (VolunteerState Uuid)} {errors : List Error}
    (h : Runs g (recoverFrom survivors) s errors s') :
    ∃ clock h', s' = { s with
      volunteers := recoveredMap clock survivors s.volunteers, haproxy := h' } := by
  rw [recoverFrom] at h
  split_ifs at h with hnil
  · obtain ⟨-, rfl⟩ := (runs_pure _ _ _ _).1 h
    subst hnil
    exact ⟨fun _ => 0, s'.haproxy, rfl⟩
  · rw [runs_bind] at h
    obtain ⟨u, s₁, hown, h⟩ := h
    obtain ⟨e, -, heq⟩ := (runs_own _).1 hown
    obtain ⟨-, rfl⟩ := Prod.mk.inj heq
    rw [runs_bind] at h
    obtain ⟨errs, s₂, hconfigs, h⟩ := h
    obtain ⟨h₁, rfl⟩ := restoreConfigs_run hconfigs
    rw [runs_bind] at h
    obtain ⟨u', s₃, hsleep, h⟩ := h
    rw [runs_bind] at h
    obtain ⟨errs', s₄, hservers, h⟩ := h
    obtain ⟨h₂, rfl⟩ := restoreServers_run hservers
    obtain ⟨-, rfl⟩ := (runs_pure _ _ _ _).1 h
    obtain rfl := settle_run hsleep
    exact ⟨e.clock, h₂, rfl⟩

theorem recovery_of_restart {errors : List Error} (h : Runs g restart s errors s') :
    Runs g recovery s.crashed errors s' := by
  rw [restart, runs_bind] at h
  obtain ⟨u, s₁, hown, h⟩ := h
  obtain ⟨e, -, heq⟩ := (runs_own _).1 hown
  obtain ⟨-, rfl⟩ := Prod.mk.inj heq
  exact h

/-- What the recovery leaves of a crash when the database answers. -/
theorem recovery_run (hg : ∀ β e (op : RegistrarOp Uuid β) s, g β e op s → e.db.fault = false)
    {errors : List Error} (h : Runs g recovery s.crashed errors s') :
    ∃ clock h' rows assignments,
      s' = { s with
        volunteers := recoveredMap clock
          (Db.attach (s.db.pruneOrphanAssignments.loadAssignments assignments)
            (IterOrder.order rows (Table.values s.db.volunteers))) ∅
        pendingServices := []
        db := s.db.pruneOrphanAssignments
        haproxy := h' } := by
  rw [recovery, runs_bind] at h
  obtain ⟨u', s₂, hprune, h⟩ := h
  obtain ⟨db, hq, rfl⟩ := (runs_query _).1 hprune
  obtain ⟨e₁, hdb⟩ := hq.answered hg
  obtain ⟨-, rfl⟩ := Prod.mk.inj hdb
  rw [runs_bind] at h
  obtain ⟨survivors, s₃, hload, h⟩ := h
  rw [loadAll, runs_bind] at hload
  obtain ⟨assignments, s₄, hassign, hload⟩ := hload
  obtain ⟨db', hq', rfl⟩ := (runs_query _).1 hassign
  obtain ⟨e₂, hdb'⟩ := hq'.answered hg
  obtain ⟨rfl, rfl⟩ := Prod.mk.inj hdb'
  rw [runs_bind] at hload
  obtain ⟨rows, s₅, hrows, hload⟩ := hload
  obtain ⟨db'', hq'', rfl⟩ := (runs_query _).1 hrows
  obtain ⟨e₃, hdb''⟩ := hq''.answered hg
  obtain ⟨rfl, rfl⟩ := Prod.mk.inj hdb''
  obtain ⟨rfl, rfl⟩ := (runs_pure _ _ _ _).1 hload
  obtain ⟨clock, h', rfl⟩ := recoverFrom_run h
  exact ⟨clock, h', e₃.rows, e₂.assignments, rfl⟩

end Recovery

end OpenShard.Registrar
