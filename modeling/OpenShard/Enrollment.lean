import OpenShard.Registrar

/-!
# Volunteers: enrollment, heartbeats, moves and departures

The handlers of `enrollment.rs`. A volunteer is recognised by its hostname, first in memory and then
in the database; it keeps its identifier and the service it holds, or takes the oldest pending one.
-/

namespace OpenShard.Registrar

open UuidFormat

structure EnrollRequest where
  info : HandshakeInfo
  tunnelPublicPort : UInt16

structure AssignmentPayload where
  image : Text
  servicePort : UInt16
  deriving DecidableEq

structure EnrollResponse where
  volunteerId : Text
  heartbeatIntervalSeconds : UInt64
  assignment : Option AssignmentPayload
  deriving DecidableEq

structure ErrorResponse where
  error : Text
  code : Text
  deriving DecidableEq

inductive HeartbeatReply
  | notFound (e : ErrorResponse)
  | ok (assignment : Option AssignmentPayload)
  deriving DecidableEq

inductive VolunteerReply
  | badRequest (e : ErrorResponse)
  | notFound (e : ErrorResponse)
  | ok (status : Text)
  deriving DecidableEq

def invalidId : ErrorResponse := ⟨"Invalid UUID", "INVALID_ID"⟩

def volunteerNotFound : ErrorResponse := ⟨"Volunteer not found", "VOLUNTEER_NOT_FOUND"⟩

def payload (a : ServiceAssignment) : AssignmentPayload := ⟨a.image, a.servicePort⟩

def assignmentFor (p : PendingService) (now : DateTime) : ServiceAssignment :=
  ⟨p.name, p.domain, p.image, p.servicePort, now⟩

variable {Uuid : Type}

def newVolunteer (id : Uuid) (now : DateTime) (info : HandshakeInfo)
    (assignedService : Option ServiceAssignment) : VolunteerState Uuid where
  id
  info
  metrics := ⟨0.0, 0.0, 0.0, 0⟩
  enrolledAt := now
  lastHeartbeat := now
  assignedService
  serviceRunning := none
  serviceImage := none

def findExisting (nodeKey : Text) : Async Uuid (Option Uuid) := do
  if nodeKey = [] then return none
  match ← own (.findByKey nodeKey) with
  | some id => return some id
  | none => query (.findByHostname nodeKey)

def findAssignment : Option Uuid → Async Uuid (Option ServiceAssignment)
  | none => return none
  | some id => do
    match ← own (.assignedServiceOf id) with
    | some a => return some a
    | none => query (.getAssignment id)

def identify : Option Uuid → Async Uuid Uuid
  | some id => return id
  | none => own .newV4

/-- A returning volunteer keeps its service, whatever HAProxy says; another one takes the oldest
pending service, which goes back to the front of the queue if HAProxy refuses it. -/
def attachService (id : Uuid) (serviceAddr : Text) (now : DateTime) :
    Option ServiceAssignment → Async Uuid (Option ServiceAssignment)
  | some a => do
    let _ ← haproxy (HaproxyManager.assignService a.serviceName a.domain serviceAddr)
    query (.upsertAssignment id a)
    return some a
  | none => do
    match ← own .popPending with
    | none => return none
    | some p =>
      match ← haproxy (HaproxyManager.assignService p.name p.domain serviceAddr) with
      | .ok () =>
        query (.upsertAssignment id (assignmentFor p now))
        return some (assignmentFor p now)
      | .error _ =>
        own (.pushFrontPending p)
        return none

variable [UuidFormat Uuid]

def enroll (body : EnrollRequest) : Async Uuid EnrollResponse := do
  let now ← own .utcNow
  let serviceAddr ← serviceAddrFor body.tunnelPublicPort
  let existingId ← findExisting body.info.hostname
  let existing ← findAssignment existingId
  let id ← identify existingId
  let assignedService ← attachService id serviceAddr now existing
  let volunteer := newVolunteer id now { body.info with serviceAddr } assignedService
  query (.upsertVolunteer volunteer)
  own (.insertVolunteer volunteer)
  let _ ← haproxy (HaproxyManager.upsertVolunteer HaproxyManager.volunteers id serviceAddr 100)
  return ⟨toText id, heartbeatIntervalSecs, assignedService.map payload⟩

def heartbeat (body : HeartbeatRequest Uuid) : Async Uuid HeartbeatReply := do
  match ← own (.recordHeartbeat body) with
  | none => return .notFound volunteerNotFound
  | some (volunteer, weight) =>
    query (.upsertVolunteer volunteer)
    match ← haproxy (HaproxyManager.setWeight HaproxyManager.volunteers volunteer.id weight) with
    | .ok () => return .ok (volunteer.assignedService.map payload)
    | .error e =>
      if Error.noSuchServer e.toText then
        let _ ← haproxy (HaproxyManager.addVolunteer HaproxyManager.volunteers volunteer.id
          volunteer.info.serviceAddr weight)
      return .ok (volunteer.assignedService.map payload)

/-- Nothing but the entry of the volunteer, its row and its server in `volunteers` is removed. -/
def disconnect (idStr : Text) : Async Uuid VolunteerReply := do
  match (parseStr idStr : Option Uuid) with
  | none => return .badRequest invalidId
  | some id =>
    match ← own (.removeVolunteer id) with
    | none => return .notFound volunteerNotFound
    | some _ =>
      query (.removeVolunteer id)
      let _ ← haproxy (HaproxyManager.removeVolunteer HaproxyManager.volunteers id)
      return .ok "disconnected"

def updateTunnelPort (idStr : Text) (tunnelPublicPort : UInt16) : Async Uuid VolunteerReply := do
  match (parseStr idStr : Option Uuid) with
  | none => return .badRequest invalidId
  | some id =>
    let newServiceAddr ← serviceAddrFor tunnelPublicPort
    match ← own (.setServiceAddr id newServiceAddr) with
    | none => return .notFound volunteerNotFound
    | some (volunteer, svcInfo) =>
      query (.upsertVolunteer volunteer)
      let _ ← haproxy (HaproxyManager.updateVolunteerAddr id newServiceAddr svcInfo)
      return .ok "ok"

end OpenShard.Registrar
