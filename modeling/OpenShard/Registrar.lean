import OpenShard.HaproxyManager
import OpenShard.Db

/-!
# The registrar as a machine

The state of the registrar together with the database and the HAProxy it talks to, and the
operations its handlers await: the critical sections under the two locks, queries, HAProxy calls,
name lookups, and readings of the clock and of the random source. `issued` records every identifier
that `Uuid::new_v4` has returned.
-/

namespace OpenShard

structure World (Uuid : Type) where
  volunteers : Table Uuid (VolunteerState Uuid)
  pendingServices : List PendingService
  db : Db
  haproxy : Haproxy
  issued : List Uuid

structure HeartbeatRequest (Uuid : Type) where
  volunteerId : Uuid
  cpuPct : Float32
  memPct : Float32
  loadAvg : Float32
  activeRequests : UInt32
  serviceRunning : Option Bool
  serviceImage : Option Text

inductive LocalOp (Uuid : Type) : Type → Type
  | utcNow : LocalOp Uuid DateTime
  | newV4 : LocalOp Uuid Uuid
  | tunnelHost : LocalOp Uuid (Option Text)
  | lookupHost (host : Text) : LocalOp Uuid (Except Text (Option Text))
  | findByKey (nodeKey : Text) : LocalOp Uuid (Option Uuid)
  | assignedServiceOf (id : Uuid) : LocalOp Uuid (Option ServiceAssignment)
  | insertVolunteer (v : VolunteerState Uuid) : LocalOp Uuid Unit
  | recordHeartbeat (body : HeartbeatRequest Uuid) :
      LocalOp Uuid (Option (VolunteerState Uuid × UInt32))
  | removeVolunteer (id : Uuid) : LocalOp Uuid (Option (VolunteerState Uuid))
  | setServiceAddr (id : Uuid) (addr : Text) :
      LocalOp Uuid (Option (VolunteerState Uuid × Option (Text × Text)))
  | setAssignedService (id : Uuid) (a : ServiceAssignment) : LocalOp Uuid Unit
  | activeVolunteers : LocalOp Uuid (List (VolunteerState Uuid))
  | deadVolunteers : LocalOp Uuid (List (Uuid × Option ServiceAssignment))
  | popPending : LocalOp Uuid (Option PendingService)
  | pushFrontPending (p : PendingService) : LocalOp Uuid Unit
  | pushBackPending (service : Service) : LocalOp Uuid Unit
  | start : LocalOp Uuid Unit
  | recoverVolunteers (survivors : List (VolunteerState Uuid)) : LocalOp Uuid Unit
  | sleep (ms : ℕ) : LocalOp Uuid Unit

inductive RegistrarOp (Uuid β : Type) : Type
  | own (op : LocalOp Uuid β)
  | db (op : DbOp Uuid β)
  | haproxy (op : HaproxyOp β)

/-- How the outside world answers one step. `clock` is what the clock says while the entry of a
volunteer is looked at. -/
structure RegistrarEnv (Uuid : Type) where
  now : DateTime
  clock : Uuid → DateTime
  uuid : Uuid
  tunnelHost : Option Text
  lookupHost : Except Text (Option Text)
  volunteers : IterOrder (VolunteerState Uuid)
  db : DbEnv
  haproxy : HaproxyEnv

namespace World

variable {Uuid : Type} [DecidableEq Uuid] (s : World Uuid)

/-- The process is gone, and with it what it had in memory. -/
def crashed : World Uuid := { s with volunteers := ∅, pendingServices := [] }

def insertVolunteer (v : VolunteerState Uuid) : World Uuid :=
  { s with volunteers := s.volunteers.insert v.id v }

/-- `map.get_mut(&id)`: change the entry if it is there. -/
def alterVolunteer (id : Uuid) (f : VolunteerState Uuid → VolunteerState Uuid) : World Uuid :=
  match s.volunteers.lookup id with
  | none => s
  | some v => { s with volunteers := s.volunteers.insert id (f v) }

theorem alterVolunteer_of_lookup {s : World Uuid} {id : Uuid} {v : VolunteerState Uuid}
    (hv : s.volunteers.lookup id = some v) (f : VolunteerState Uuid → VolunteerState Uuid) :
    s.alterVolunteer id f = { s with volunteers := s.volunteers.insert id (f v) } := by
  rw [alterVolunteer, hv]

section Fields

variable (s : World Uuid) (id : Uuid) (f : VolunteerState Uuid → VolunteerState Uuid)

theorem alterVolunteer_eq :
    s.alterVolunteer id f = { s with volunteers := (s.alterVolunteer id f).volunteers } := by
  rw [alterVolunteer]
  split <;> rfl

@[simp] theorem alterVolunteer_pendingServices :
    (s.alterVolunteer id f).pendingServices = s.pendingServices := by rw [alterVolunteer_eq]

@[simp] theorem alterVolunteer_db : (s.alterVolunteer id f).db = s.db := by rw [alterVolunteer_eq]

@[simp] theorem alterVolunteer_issued : (s.alterVolunteer id f).issued = s.issued := by
  rw [alterVolunteer_eq]

end Fields

end World

namespace VolunteerState

variable {Uuid : Type}

def beat (now : DateTime) (body : HeartbeatRequest Uuid) (v : VolunteerState Uuid) :
    VolunteerState Uuid :=
  { v with
    metrics := ⟨body.cpuPct, body.memPct, body.loadAvg, body.activeRequests⟩
    lastHeartbeat := now
    serviceRunning := body.serviceRunning.or v.serviceRunning
    serviceImage := body.serviceImage.or v.serviceImage }

def moveTo (addr : Text) (v : VolunteerState Uuid) : VolunteerState Uuid :=
  { v with info := { v.info with serviceAddr := addr } }

def assign (a : ServiceAssignment) (v : VolunteerState Uuid) : VolunteerState Uuid :=
  { v with assignedService := some a }

end VolunteerState

def Service.pending (now : DateTime) (S : Service) : PendingService :=
  ⟨S.name, S.domain, S.image, S.port, now⟩

section Machine

variable {Uuid : Type} [DecidableEq Uuid] [UuidFormat Uuid] [Rfc3339]

/-- One step inside the process; none of them waits. -/
def LocalOp.answered (e : RegistrarEnv Uuid) : {β : Type} → LocalOp Uuid β → World Uuid →
    β × World Uuid
  | _, .utcNow, s => (e.now, s)
  | _, .newV4, s => (e.uuid, { s with issued := e.uuid :: s.issued })
  | _, .tunnelHost, s => (e.tunnelHost, s)
  | _, .lookupHost _, s => (e.lookupHost, s)
  | _, .findByKey nodeKey, s =>
    (((e.volunteers.order (Table.values s.volunteers)).find?
      (·.info.hostname == nodeKey)).map (·.id), s)
  | _, .assignedServiceOf id, s => ((s.volunteers.lookup id).bind (·.assignedService), s)
  | _, .insertVolunteer v, s => ((), s.insertVolunteer v)
  | _, .recordHeartbeat body, s =>
    ((s.volunteers.lookup body.volunteerId).map fun v =>
      (v.beat e.now body, (v.beat e.now body).metrics.weight),
      s.alterVolunteer body.volunteerId (·.beat e.now body))
  | _, .removeVolunteer id, s =>
    (s.volunteers.lookup id, { s with volunteers := s.volunteers.erase id })
  | _, .setServiceAddr id addr, s =>
    ((s.volunteers.lookup id).map fun v =>
      (v.moveTo addr, v.assignedService.map fun a => (a.serviceName, addr)),
      s.alterVolunteer id (·.moveTo addr))
  | _, .setAssignedService id a, s => ((), s.alterVolunteer id (·.assign a))
  | _, .activeVolunteers, s => (OpenShard.activeVolunteers e.volunteers e.clock s.volunteers, s)
  | _, .deadVolunteers, s =>
    (((e.volunteers.order (Table.values s.volunteers)).filter
      fun v => !v.isAlive (e.clock v.id)).map fun v => (v.id, v.assignedService), s)
  | _, .popPending, s =>
    (s.pendingServices.head?, { s with pendingServices := s.pendingServices.tail })
  | _, .pushFrontPending p, s => ((), { s with pendingServices := p :: s.pendingServices })
  | _, .pushBackPending service, s =>
    ((), { s with pendingServices := s.pendingServices ++ [service.pending e.now] })
  | _, .start, s => ((), s.crashed)
  | _, .recoverVolunteers survivors, s =>
    ((), { s with
      volunteers := survivors.foldl (fun map v =>
        map.insert v.id { v with lastHeartbeat := e.clock v.id }) s.volunteers })
  | _, .sleep _, s => ((), s)

instance : Machine (RegistrarOp Uuid) (RegistrarEnv Uuid) (World Uuid) where
  exec
    | e, .own op, s => some (op.answered e s)
    | e, .db op, s => (Machine.exec e.db op s.db).map fun r => (r.1, { s with db := r.2 })
    | e, .haproxy op, s =>
      (Machine.exec e.haproxy op s.haproxy).map fun r => (r.1, { s with haproxy := r.2 })

end Machine

namespace Registrar

open Future

abbrev Async (Uuid α : Type) := Future (RegistrarOp Uuid) α

variable {Uuid α : Type}

def own (op : LocalOp Uuid α) : Async Uuid α := perform (.own op)

def query (op : DbOp Uuid α) : Async Uuid α := perform (.db op)

/-- A call of the manager, its error handed to the caller. -/
def haproxy (call : HaproxyManager.Call α) : Async Uuid (Except Error α) :=
  hoist (fun op => .haproxy op) call.run

def resolveTunnelIp (tunnelHost : Text) : Async Uuid Text := do
  match ← own (.lookupHost (tunnelHost ++ ":0")) with
  | .ok addr => return addr.getD tunnelHost
  | .error _ => return tunnelHost

def serviceAddrFor (tunnelPublicPort : UInt16) : Async Uuid Text := do
  let tunnelHost := (← own .tunnelHost).getD "tunnel"
  let resolvedIp ← resolveTunnelIp tunnelHost
  return resolvedIp ++ ":" ++ Text.ofNat tunnelPublicPort.toNat

section Runs

variable [DecidableEq Uuid] [UuidFormat Uuid] [Rfc3339]

def Queried (g : Guard (RegistrarOp Uuid) (RegistrarEnv Uuid) (World Uuid)) (s : World Uuid)
    (op : DbOp Uuid α) (a : α) (db : Db) : Prop :=
  ∃ e, g α e (.db op) s ∧ Machine.exec e.db op s.db = some (a, db)

/-- The guard of the registrar on the calls it sends to HAProxy while the rest is as in `s`. -/
def haproxyPart (g : Guard (RegistrarOp Uuid) (RegistrarEnv Uuid) (World Uuid)) (s : World Uuid) :
    Guard HaproxyOp HaproxyEnv Haproxy :=
  g.part (fun op => .haproxy op) (·.haproxy) (fun s h => { s with haproxy := h }) s

variable {g : Guard (RegistrarOp Uuid) (RegistrarEnv Uuid) (World Uuid)} {s s' : World Uuid} {a : α}

theorem runs_own (op : LocalOp Uuid α) :
    Runs g (own op) s a s' ↔ ∃ e, g α e (.own op) s ∧ op.answered e s = (a, s') := by
  simp only [own, runs_perform, Machine.exec, Option.some.injEq]

theorem runs_query (op : DbOp Uuid α) :
    Runs g (query op) s a s' ↔ ∃ db, Queried g s op a db ∧ s' = { s with db } := by
  simp only [query, runs_perform, Queried]
  constructor
  · rintro ⟨e, hg, he⟩
    obtain ⟨⟨b, db⟩, hexec, heq⟩ := Option.map_eq_some_iff.1 he
    obtain ⟨rfl, rfl⟩ := Prod.mk.inj heq
    exact ⟨db, ⟨e, hg, hexec⟩, rfl⟩
  · rintro ⟨db, ⟨e, hg, hexec⟩, rfl⟩
    exact ⟨e, hg, Option.map_eq_some_iff.2 ⟨(a, db), hexec, rfl⟩⟩

theorem runs_haproxy (call : HaproxyManager.Call α) (r : Except Error α) :
    Runs g (haproxy call) s r s' ↔
      ∃ h, Runs (haproxyPart g s) call.run s.haproxy r h ∧ s' = { s with haproxy := h } :=
  @runs_hoist HaproxyOp (RegistrarOp Uuid) HaproxyEnv (RegistrarEnv Uuid) Haproxy (World Uuid)
    (Except Error α) _ _ (fun op => .haproxy op) (·.haproxy) (·.haproxy)
    (fun s h => { s with haproxy := h }) (fun _ _ => rfl) (fun _ _ _ => rfl) (fun _ => rfl)
    (fun _ _ _ _ => rfl) g call.run s s' r

omit [DecidableEq Uuid] [UuidFormat Uuid] [Rfc3339] in
theorem haproxyPart_calm (hg : ∀ β e (op : RegistrarOp Uuid β) s, g β e op s → e.haproxy = .calm)
    {t : Future HaproxyOp α} {h h' : Haproxy} (run : Runs (haproxyPart g s) t h a h') :
    calm t h = some (a, h') := by
  refine (runs_calm _ _ _ _).1 (run.mono fun β e op k hpart => ?_)
  obtain ⟨e', rfl, hg'⟩ := hpart
  exact hg _ _ _ _ hg'

theorem Queried.answered {op : DbOp Uuid α} {db : Db} (h : Queried g s op a db)
    (hg : ∀ β e (op : RegistrarOp Uuid β) s, g β e op s → e.db.fault = false) :
    ∃ e, op.answered e s.db = (a, db) := by
  obtain ⟨e, hge, hexec⟩ := h
  refine ⟨e.db, ?_⟩
  simpa [Machine.exec, hg _ _ _ _ hge] using hexec

theorem Queried.reads {op : DbOp Uuid α} {db : Db} (h : Queried g s op a db)
    (hop : ∀ e, (op.answered e s.db).2 = s.db) : db = s.db := by
  obtain ⟨e, -, hexec⟩ := h
  simp only [Machine.exec] at hexec
  split_ifs at hexec
  · exact (Prod.mk.inj (Option.some.inj hexec)).2.symm
  · rw [← hop e.db, Option.some.inj hexec]

/-- An address ends in a colon and a port. -/
theorem serviceAddrFor_run {port : UInt16} {addr : Text}
    (h : Runs g (serviceAddrFor port) s addr s') : s' = s ∧ ':' ∈ addr := by
  simp only [serviceAddrFor, resolveTunnelIp, runs_bind, runs_own, LocalOp.answered, runs_pure,
    Prod.mk.injEq] at h
  obtain ⟨host, s₁, ⟨e, -, -, rfl⟩, ip, s₂, ⟨found, s₃, ⟨e', -, -, rfl⟩, hip⟩, rfl, rfl⟩ := h
  refine ⟨?_, by simp⟩
  cases found with
  | ok addr => exact ((runs_pure _ _ _ _).1 hip).2
  | error message => exact ((runs_pure _ _ _ _).1 hip).2

end Runs

end Registrar

section Guards

variable {Uuid : Type}

def dbAnswers : Guard (RegistrarOp Uuid) (RegistrarEnv Uuid) (World Uuid) :=
  fun _ e _ _ => e.db.fault = false

def haproxyAnswers : Guard (RegistrarOp Uuid) (RegistrarEnv Uuid) (World Uuid) :=
  fun _ e _ _ => e.haproxy = .calm

def RegistrarOp.drawsId : {β : Type} → RegistrarOp Uuid β → Bool
  | _, .own .newV4 => true
  | _, _ => false

/-- `Uuid::new_v4` never returns an identifier twice. -/
def freshIds : Guard (RegistrarOp Uuid) (RegistrarEnv Uuid) (World Uuid) :=
  fun _ e op s => op.drawsId → e.uuid ∉ s.issued

end Guards
end OpenShard
