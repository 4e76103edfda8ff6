import OpenShard.Registrar

/-!
# Services: registration, eviction of their hosts, recovery

`services.rs`, `churn.rs` and the recovery of `main.rs`: a service is given to the first free live
volunteer or queued, it is queued again when its volunteer is evicted, and after a restart it is
restored to the volunteer that the database remembers.
-/

namespace OpenShard.Registrar

open UuidFormat

structure RegisterServiceResponse where
  backend : Text
  domain : Text
  assignedTo : Option Text
  deriving DecidableEq

inductive RegisterReply
  | created (r : RegisterServiceResponse)
  | failed (error : Text)
  deriving DecidableEq

def tunnelAddrFor (serviceAddr : Text) : Text := serviceAddr

def Service.assignment (body : Service) (now : DateTime) : ServiceAssignment :=
  ⟨body.name, body.domain, body.image, body.port, now⟩

variable {Uuid : Type}

section Register

variable [UuidFormat Uuid]

def registerService (body : Service) : Async Uuid RegisterReply := do
  let active ← own .activeVolunteers
  match active.find? (·.assignedService.isNone) with
  | some volunteer =>
    let tunnelAddr := tunnelAddrFor volunteer.info.serviceAddr
    match ← haproxy (HaproxyManager.assignService body.name body.domain tunnelAddr) with
    | .error e => return .failed e.toText
    | .ok () =>
      let now ← own .utcNow
      query (.upsertAssignment volunteer.id (Service.assignment body now))
      own (.setAssignedService volunteer.id (Service.assignment body now))
      return .created ⟨HaproxyManager.serviceBackend body.name, body.domain,
        some (toText volunteer.id)⟩
  | none =>
    own (.pushBackPending body)
    return .created ⟨HaproxyManager.serviceBackend body.name, body.domain, none⟩

end Register

section Churn

variable [UuidFormat Uuid]

/-- The body of the churn monitor's loop over the dead volunteers. -/
def evict (id : Uuid) (assignment : Option ServiceAssignment) : Async Uuid Unit := do
  let _ ← own (.removeVolunteer id)
  query (.removeVolunteer id)
  let _ ← haproxy (HaproxyManager.removeVolunteer HaproxyManager.volunteers id)
  match assignment with
  | none => return
  | some a =>
    query (.removeAssignment id)
    own (.pushBackPending a.service)

def evictAll : List (Uuid × Option ServiceAssignment) → Async Uuid Unit
  | [] => return
  | d :: ds => do
    evict d.1 d.2
    evictAll ds

/-- One tick of the churn monitor; it returns what it evicted. -/
def churnPass : Async Uuid (List (Uuid × Option ServiceAssignment)) := do
  let dead ← own .deadVolunteers
  evictAll dead
  return dead

end Churn

section Recovery

abbrev Recovered (Uuid : Type) := Uuid × Text × Option (Text × Text)

def recovered (v : VolunteerState Uuid) : Recovered Uuid :=
  (v.id, v.info.serviceAddr, v.assignedService.map fun a => (a.serviceName, a.domain))

def logged (r : Except Error Unit) : List Error :=
  match r with
  | .ok () => []
  | .error e => [e]

/-- Pass 1: the configuration of every service; the errors are logged. -/
def restoreConfigs : List (Recovered Uuid) → Async Uuid (List Error)
  | [] => return []
  | (_, _, none) :: rs => restoreConfigs rs
  | (_, _, some (serviceName, domain)) :: rs => do
    let r ← haproxy (HaproxyManager.ensureServiceConfig serviceName domain)
    return logged r ++ (← restoreConfigs rs)

/-- Let the last worker come up before servers are added to it. -/
def settle (rs : List (Recovered Uuid)) : Async Uuid Unit :=
  if rs.any (·.2.2.isSome) then own (.sleep 1000) else return

variable [UuidFormat Uuid]

/-- Pass 2: the servers, with no more changes to the configuration. -/
def restoreServers : List (Recovered Uuid) → Async Uuid (List Error)
  | [] => return []
  | (id, addr, svc) :: rs => do
    let r ← haproxy (HaproxyManager.upsertVolunteer HaproxyManager.volunteers id addr 1)
    match svc with
    | none => return logged r ++ (← restoreServers rs)
    | some (serviceName, _) =>
      let r' ← haproxy (HaproxyManager.restoreServiceServer serviceName addr)
      return logged r ++ logged r' ++ (← restoreServers rs)

/-- The recovery block of `main`; it returns the errors it logs. -/
def recoverFrom (survivors : List (VolunteerState Uuid)) : Async Uuid (List Error) := do
  if survivors = [] then return []
  let recovery := survivors.map recovered
  own (.recoverVolunteers survivors)
  let configErrors ← restoreConfigs recovery
  settle recovery
  let serverErrors ← restoreServers recovery
  return configErrors ++ serverErrors

variable [Rfc3339] [DecidableEq Uuid]

def loadAll : Async Uuid (List (VolunteerState Uuid)) := do
  let assignments ← query .loadAssignments
  return Db.attach assignments (← query .selectVolunteers)

/-- `main` up to the point where it serves requests: orphaned assignments are pruned, and the volunteers
in the database are recovered. -/
def recovery : Async Uuid (List Error) := do
  query .pruneOrphanAssignments
  recoverFrom (← loadAll)

/-- The process ends, and a new one recovers. -/
def restart : Async Uuid (List Error) := do
  own .start
  recovery

end Recovery

end OpenShard.Registrar
