import OpenShard.Consistency
import OpenShard.Interleaving

/-!
# Requests at the same time

The registrar serves any number of requests at once, and between two await points of one of them any
of the others may run. An observer keeps a journal of the steps that touch the map or the volunteers'
rows, with the request that took them and the time; what has to be assumed of a run is said about the
journal.
-/

namespace OpenShard.Registrar

abbrev Served (Uuid : Type) := {q : Request Uuid // q ≠ .restart}

/-- What the journal says of one step. `found` tells whether the volunteer was in the map. -/
inductive Act (Uuid : Type)
  | lookUp (hostname : Text)
  | insert (v : VolunteerState Uuid)
  | beat (id : Uuid) (found : Bool)
  | move (id : Uuid) (found : Bool)
  | remove (id : Uuid) (found : Bool)
  | condemn (ids : List Uuid)
  | writeRow (v : VolunteerState Uuid)
  | eraseRow (id : Uuid)

structure JournalEntry (Uuid : Type) where
  who : Served Uuid
  time : DateTime
  act : Act Uuid

abbrev Journal (Uuid : Type) := List (JournalEntry Uuid)

section Observers

variable {Uuid : Type}

def actOf : {β : Type} → RegistrarOp Uuid β → β → Option (Act Uuid)
  | _, .own (.findByKey nodeKey), _ => some (.lookUp nodeKey)
  | _, .own (.insertVolunteer v), _ => some (.insert v)
  | _, .own (.recordHeartbeat body), found => some (.beat body.volunteerId found.isSome)
  | _, .own (.setServiceAddr id _), found => some (.move id found.isSome)
  | _, .own (.removeVolunteer id), found => some (.remove id found.isSome)
  | _, .own .deadVolunteers, dead => some (.condemn (dead.map Prod.fst))
  | _, .db (.upsertVolunteer v), _ => some (.writeRow v)
  | _, .db (.removeVolunteer id), _ => some (.eraseRow id)
  | _, _, _ => none

instance : Observer (Served Uuid) (RegistrarOp Uuid) (RegistrarEnv Uuid) (Journal Uuid) where
  note who e op answer journal :=
    match actOf op answer with
    | none => journal
    | some act => ⟨who, e.now, act⟩ :: journal

abbrev Step (Uuid : Type) := Signed (Served Uuid) (RegistrarOp Uuid) (Journal Uuid)

abbrev Observed (Uuid : Type) := World Uuid × Journal Uuid

def seen (g : Guard (RegistrarOp Uuid) (RegistrarEnv Uuid) (World Uuid)) :
    Guard (Step Uuid) (RegistrarEnv Uuid) (Observed Uuid) := fun β e op s => g β e op.op s.1

instance (g : Guard (RegistrarOp Uuid) (RegistrarEnv Uuid) (World Uuid))
    [∀ β e op s, Decidable (g β e op s)] (β : Type) (e : RegistrarEnv Uuid) (op : Step Uuid β)
    (s : Observed Uuid) : Decidable (seen g β e op s) :=
  inferInstanceAs (Decidable (g β e op.op s.1))

def RegistrarOp.usedBy (q : Request Uuid) : (β : Type) → RegistrarOp Uuid β → Prop
  | _, .haproxy _ => True
  | _, .db op => match q, op with
    | .enroll _, .findByHostname _ | .enroll _, .getAssignment _ | .enroll _, .upsertAssignment _ _
    | .enroll _, .upsertVolunteer _ | .heartbeat _, .upsertVolunteer _
    | .updateTunnelPort _ _, .upsertVolunteer _ | .disconnect _, .removeVolunteer _
    | .registerService _, .upsertAssignment _ _ | .churn, .removeVolunteer _
    | .churn, .removeAssignment _ | .restart, _ => True
    | _, _ => False
  | _, .own op => match q, op with
    | _, .utcNow | _, .tunnelHost | _, .lookupHost _ | .enroll _, .newV4 | .enroll _, .findByKey _
    | .enroll _, .assignedServiceOf _ | .enroll _, .insertVolunteer _ | .enroll _, .popPending
    | .enroll _, .pushFrontPending _ | .heartbeat _, .recordHeartbeat _
    | .updateTunnelPort _ _, .setServiceAddr _ _ | .disconnect _, .removeVolunteer _
    | .registerService _, .activeVolunteers | .registerService _, .setAssignedService _ _
    | .registerService _, .pushBackPending _ | .churn, .deadVolunteers
    | .churn, .removeVolunteer _ | .churn, .pushBackPending _ | .restart, _ => True
    | _, _ => False

/-- What an enrollment awaits before it writes the row of its volunteer. -/
def RegistrarOp.prepares : (β : Type) → RegistrarOp Uuid β → Prop
  | _, .haproxy _ => True
  | _, .db (.findByHostname _) | _, .db (.getAssignment _) | _, .db (.upsertAssignment _ _)
  | _, .own .utcNow | _, .own .newV4 | _, .own .tunnelHost | _, .own (.lookupHost _)
  | _, .own (.findByKey _) | _, .own (.assignedServiceOf _) | _, .own .popPending
  | _, .own (.pushFrontPending _) => True
  | _, _ => False

theorem RegistrarOp.prepares.usedBy {body : EnrollRequest} {β : Type} {op : RegistrarOp Uuid β}
    (h : RegistrarOp.prepares β op) : RegistrarOp.usedBy (.enroll body) β op := by
  cases op with
  | haproxy op => trivial
  | db op => cases op <;> trivial
  | own op => cases op <;> trivial

section Uses

open Future

theorem uses_haproxy {P : ∀ β : Type, RegistrarOp Uuid β → Prop} {α : Type}
    (h : ∀ β (op : HaproxyOp β), P β (.haproxy op)) (call : HaproxyManager.Call α) :
    Uses P (haproxy call) := uses_hoist h _

theorem uses_serviceAddrFor {P : ∀ β : Type, RegistrarOp Uuid β → Prop}
    (hhost : P _ (.own .tunnelHost)) (hlookup : ∀ host, P _ (.own (.lookupHost host)))
    (port : UInt16) : Uses P (serviceAddrFor port) := by
  refine (uses_perform hhost).bind fun host => ?_
  refine Uses.bind ((uses_perform (hlookup _)).bind fun found => ?_) fun ip => uses_pure _
  cases found with
  | ok addr => exact uses_pure _
  | error message => exact uses_pure _

theorem uses_findExisting {P : ∀ β : Type, RegistrarOp Uuid β → Prop}
    (hkey : ∀ key, P _ (.own (.findByKey key))) (hhost : ∀ key, P _ (.db (.findByHostname key)))
    (nodeKey : Text) : Uses P (findExisting nodeKey) := by
  rw [findExisting]
  split_ifs
  · exact uses_pure _
  · refine (uses_perform (hkey nodeKey)).bind fun found => ?_
    cases found with
    | some id => exact uses_pure _
    | none => exact uses_perform (hhost nodeKey)

theorem uses_findAssignment {P : ∀ β : Type, RegistrarOp Uuid β → Prop}
    (hentry : ∀ id, P _ (.own (.assignedServiceOf id))) (hrow : ∀ id, P _ (.db (.getAssignment id)))
    (existingId : Option Uuid) : Uses P (findAssignment existingId) := by
  cases existingId with
  | none => exact uses_pure _
  | some id =>
      refine (uses_perform (hentry id)).bind fun found => ?_
      cases found with
      | some a => exact uses_pure _
      | none => exact uses_perform (hrow id)

theorem uses_identify {P : ∀ β : Type, RegistrarOp Uuid β → Prop} (hnew : P _ (.own .newV4))
    (existingId : Option Uuid) : Uses P (identify existingId) := by
  cases existingId with
  | some id => exact uses_pure _
  | none => exact uses_perform hnew

theorem uses_attachService (id : Uuid) (addr : Text) (now : DateTime)
    (existing : Option ServiceAssignment) :
    Uses RegistrarOp.prepares (attachService id addr now existing) := by
  cases existing with
  | some a =>
      refine (uses_haproxy (fun _ _ => trivial) _).bind fun _ => ?_
      exact (uses_perform trivial).bind fun _ => uses_pure _
  | none =>
      refine (uses_perform trivial).bind fun popped => ?_
      cases popped with
      | none => exact uses_pure _
      | some p =>
          refine (uses_haproxy (fun _ _ => trivial) _).bind fun r => ?_
          cases r with
          | ok u => exact (uses_perform trivial).bind fun _ => uses_pure _
          | error e => exact (uses_perform trivial).bind fun _ => uses_pure _

variable [UuidFormat Uuid]

theorem uses_enroll (body : EnrollRequest) :
    Uses (RegistrarOp.usedBy (.enroll body)) (enroll body : Async Uuid EnrollResponse) := by
  refine (uses_perform trivial).bind fun now => ?_
  refine (uses_serviceAddrFor trivial (fun _ => trivial) _).bind fun addr => ?_
  have hprepares : ∀ β (op : RegistrarOp Uuid β), RegistrarOp.prepares β op →
      RegistrarOp.usedBy (.enroll body) β op := fun _ _ h => h.usedBy
  refine (uses_findExisting (fun _ => trivial) (fun _ => trivial) _).bind fun existingId => ?_
  refine (uses_findAssignment (fun _ => trivial) (fun _ => trivial) _).bind fun existing => ?_
  refine (uses_identify trivial _).bind fun id => ?_
  refine ((uses_attachService _ _ _ _).mono hprepares).bind fun a => ?_
  refine (uses_perform trivial).bind fun _ => ?_
  refine (uses_perform trivial).bind fun _ => ?_
  exact (uses_haproxy (fun _ _ => trivial) _).bind fun _ => uses_pure _

theorem uses_heartbeat (body : HeartbeatRequest Uuid) :
    Uses (RegistrarOp.usedBy (.heartbeat body)) (heartbeat body) := by
  refine (uses_perform trivial).bind fun found => ?_
  cases found with
  | none => exact uses_pure _
  | some entry =>
      refine (uses_perform trivial).bind fun _ => ?_
      refine (uses_haproxy (fun _ _ => trivial) _).bind fun r => ?_
      cases r with
      | ok u => exact uses_pure _
      | error e =>
          dsimp only
          split_ifs
          · exact (uses_haproxy (fun _ _ => trivial) _).bind fun _ => uses_pure _
          · exact uses_pure _

theorem uses_updateTunnelPort (idStr : Text) (port : UInt16) :
    Uses (RegistrarOp.usedBy (.updateTunnelPort idStr port))
      (updateTunnelPort idStr port : Async Uuid VolunteerReply) := by
  rw [updateTunnelPort]
  cases (UuidFormat.parseStr idStr : Option Uuid) with
  | none => exact uses_pure _
  | some id =>
      refine (uses_serviceAddrFor trivial (fun _ => trivial) _).bind fun addr => ?_
      refine (uses_perform trivial).bind fun found => ?_
      cases found with
      | none => exact uses_pure _
      | some entry =>
          refine (uses_perform trivial).bind fun _ => ?_
          exact (uses_haproxy (fun _ _ => trivial) _).bind fun _ => uses_pure _

theorem uses_disconnect (idStr : Text) :
    Uses (RegistrarOp.usedBy (.disconnect idStr)) (disconnect idStr : Async Uuid VolunteerReply) := by
  rw [disconnect]
  cases (UuidFormat.parseStr idStr : Option Uuid) with
  | none => exact uses_pure _
  | some id =>
      refine (uses_perform trivial).bind fun found => ?_
      cases found with
      | none => exact uses_pure _
      | some v =>
          refine (uses_perform trivial).bind fun _ => ?_
          exact (uses_haproxy (fun _ _ => trivial) _).bind fun _ => uses_pure _

theorem uses_registerService (body : Service) :
    Uses (RegistrarOp.usedBy (.registerService body))
      (registerService body : Async Uuid RegisterReply) := by
  refine (uses_perform trivial).bind fun active => ?_
  cases active.find? (·.assignedService.isNone) with
  | none => exact (uses_perform trivial).bind fun _ => uses_pure _
  | some v =>
      refine (uses_haproxy (fun _ _ => trivial) _).bind fun r => ?_
      cases r with
      | error e => exact uses_pure _
      | ok u =>
          refine (uses_perform trivial).bind fun now => ?_
          refine (uses_perform trivial).bind fun _ => ?_
          exact (uses_perform trivial).bind fun _ => uses_pure _

theorem uses_evict (id : Uuid) (assignment : Option ServiceAssignment) :
    Uses (RegistrarOp.usedBy .churn) (evict id assignment) := by
  refine (uses_perform trivial).bind fun _ => ?_
  refine (uses_perform trivial).bind fun _ => ?_
  refine (uses_haproxy (fun _ _ => trivial) _).bind fun _ => ?_
  cases assignment with
  | none => exact uses_pure _
  | some a => exact (uses_perform trivial).bind fun _ => uses_perform trivial

theorem uses_churnPass :
    Uses (RegistrarOp.usedBy .churn)
      (churnPass : Async Uuid (List (Uuid × Option ServiceAssignment))) := by
  have hall : ∀ dead : List (Uuid × Option ServiceAssignment),
      Uses (RegistrarOp.usedBy .churn) (evictAll dead) := by
    intro dead
    induction dead with
    | nil => exact uses_pure _
    | cons d dead ih => exact (uses_evict d.1 d.2).bind fun _ => ih
  exact (uses_perform trivial).bind fun dead => (hall dead).bind fun _ => uses_pure _

variable [Rfc3339] [DecidableEq Uuid]

theorem uses_handle (q : Served Uuid) : Uses (RegistrarOp.usedBy q.1) (handle q.1) := by
  obtain ⟨q, hq⟩ := q
  cases q with
  | enroll body => exact (uses_enroll body).map _
  | heartbeat body => exact (uses_heartbeat body).map _
  | updateTunnelPort idStr port => exact (uses_updateTunnelPort idStr port).map _
  | disconnect idStr => exact (uses_disconnect idStr).map _
  | registerService body => exact (uses_registerService body).map _
  | churn => exact uses_churnPass.map _
  | restart => exact absurd rfl hq

end Uses

section Steps

variable [DecidableEq Uuid]

theorem lookup_alterVolunteer (s : World Uuid) (id key : Uuid)
    (f : VolunteerState Uuid → VolunteerState Uuid) :
    (s.alterVolunteer id f).volunteers.lookup key =
      if key = id then (s.volunteers.lookup id).map f else s.volunteers.lookup key := by
  rw [World.alterVolunteer]
  cases hv : s.volunteers.lookup id with
  | none =>
      split_ifs with hk
      · rw [hk]
        exact hv
      · rfl
  | some v =>
      rw [Table.lookup_insert_if]
      rfl

theorem lookup_alterVolunteer_ne (s : World Uuid) {id key : Uuid} (hne : key ≠ id)
    (f : VolunteerState Uuid → VolunteerState Uuid) :
    (s.alterVolunteer id f).volunteers.lookup key = s.volunteers.lookup key := by
  rw [lookup_alterVolunteer, if_neg hne]

def Keyed (s : World Uuid) : Prop := ∀ key v, s.volunteers.lookup key = some v → v.id = key

variable {s : World Uuid}

theorem Keyed.alterVolunteer (hs : Keyed s) {id : Uuid} {f : VolunteerState Uuid → VolunteerState Uuid}
    (hf : ∀ v, (f v).id = v.id) : Keyed (s.alterVolunteer id f) := by
  intro key v hv
  rw [lookup_alterVolunteer] at hv
  split_ifs at hv with hk
  · obtain ⟨w, hw, rfl⟩ := Option.map_eq_some_iff.1 hv
    rw [hf, hk]
    exact hs id w hw
  · exact hs key v hv

theorem keyed_insert {map : Table Uuid (VolunteerState Uuid)}
    (hmap : ∀ key v, map.lookup key = some v → v.id = key) {id : Uuid} {w : VolunteerState Uuid}
    (hw : w.id = id) : ∀ key v, (map.insert id w).lookup key = some v → v.id = key := by
  intro key v hv
  rw [Table.lookup_insert_if] at hv
  split_ifs at hv with hk
  · rw [← Option.some.inj hv, hk, hw]
  · exact hmap key v hv

theorem Keyed.answered [UuidFormat Uuid] [Rfc3339] (hs : Keyed s) {β : Type} (op : LocalOp Uuid β)
    (e : RegistrarEnv Uuid) : Keyed (op.answered e s).2 := by
  cases op with
  | insertVolunteer v => exact keyed_insert hs rfl
  | recordHeartbeat body => exact hs.alterVolunteer fun _ => rfl
  | setServiceAddr id addr => exact hs.alterVolunteer fun _ => rfl
  | setAssignedService id a => exact hs.alterVolunteer fun _ => rfl
  | removeVolunteer id =>
      intro key v hv
      have hlookup : (s.volunteers.erase id).lookup key = some v := hv
      rw [Table.lookup_erase_if] at hlookup
      split_ifs at hlookup
      exact hs key v hlookup
  | start =>
      intro key v hv
      have hlookup : (∅ : Table Uuid (VolunteerState Uuid)).lookup key = some v := hv
      simp at hlookup
  | recoverVolunteers survivors =>
      have hfold : ∀ (vs : List (VolunteerState Uuid)) (map : Table Uuid (VolunteerState Uuid)),
          (∀ key v, map.lookup key = some v → v.id = key) → ∀ key v,
          (vs.foldl (fun map v => map.insert v.id { v with lastHeartbeat := e.clock v.id })
            map).lookup key = some v → v.id = key := by
        intro vs
        induction vs with
        | nil => exact fun _ hmap => hmap
        | cons w vs ih => exact fun map hmap => ih _ (keyed_insert hmap rfl)
      exact hfold survivors s.volunteers hs
  | _ => exact hs

end Steps

section Serving

variable [DecidableEq Uuid] [UuidFormat Uuid] [Rfc3339]

def serve (q : Served Uuid) : Future (Step Uuid) (Reply Uuid) := signed (Journal Uuid) q (handle q.1)

theorem exec_own {β : Type} {e : RegistrarEnv Uuid} {op : LocalOp Uuid β} {s s' : World Uuid} {c : β}
    (he : Machine.exec e (RegistrarOp.own op) s = some (c, s')) : op.answered e s = (c, s') :=
  Option.some.inj he

theorem exec_db {β : Type} {e : RegistrarEnv Uuid} {op : DbOp Uuid β} {s s' : World Uuid} {c : β}
    (he : Machine.exec e (RegistrarOp.db op) s = some (c, s')) :
    ∃ db, Machine.exec e.db op s.db = some (c, db) ∧ s' = { s with db } := by
  obtain ⟨⟨b, db⟩, hexec, heq⟩ := Option.map_eq_some_iff.1 he
  obtain ⟨rfl, rfl⟩ := Prod.mk.inj heq
  exact ⟨db, hexec, rfl⟩

theorem exec_haproxy {β : Type} {e : RegistrarEnv Uuid} {op : HaproxyOp β} {s s' : World Uuid} {c : β}
    (he : Machine.exec e (RegistrarOp.haproxy op : RegistrarOp Uuid β) s = some (c, s')) :
    ∃ h, s' = { s with haproxy := h } := by
  obtain ⟨⟨b, h⟩, -, heq⟩ := Option.map_eq_some_iff.1 he
  obtain ⟨rfl, rfl⟩ := Prod.mk.inj heq
  exact ⟨h, rfl⟩

end Serving

end Observers

section Schedules

def calmAt (now : DateTime) (s : Observed Node) : RegistrarEnv Node := calmEnv now now s.1

def enrolls (hostname : Text) (port : UInt16) : Served Node := ⟨.enroll (joins hostname port), by simp⟩

def beats (id : Node) : Served Node :=
  ⟨.heartbeat ⟨id, 0.0, 0.0, 0.0, 0, none, none⟩, by simp⟩

theorem keyed_initial (h : Haproxy) : Keyed (World.initial h : World Node) := by
  intro key v hv
  simp [World.initial] at hv

variable (g : Guard (Step Node) (RegistrarEnv Node) (Observed Node))
  [∀ β e op s, Decidable (g β e op s)]

def played (moves : List (Move (Served Node) (Observed Node) (RegistrarEnv Node))) :
    List (Served Node × Future (Step Node) (Reply Node)) × Observed Node :=
  play g serve moves [] (World.initial smallHaproxy, [])

theorem interleaving_played (moves : List (Move (Served Node) (Observed Node) (RegistrarEnv Node))) :
    Interleaving g serve (World.initial smallHaproxy, []) (played g moves).1
      ((played g moves).2.1, (played g moves).2.2) := Interleaving.start.play moves

end Schedules

end OpenShard.Registrar
