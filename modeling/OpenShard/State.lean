import OpenShard.Text
import OpenShard.Table

/-!
# The registrar's records

Volunteers, their metrics and the services they hold, as `state.rs` declares them, with the load
weight and the liveness test. Identifiers are the type `Uuid`; a point in time counts nanoseconds.
-/

namespace OpenShard

/-- A point in time, in nanoseconds since the epoch. -/
abbrev DateTime := ℤ

/-- How a point in time is written to a text column and read back. -/
class Rfc3339 where
  toRfc3339 : DateTime → Text
  parse : Text → Option DateTime
  parse_toRfc3339 : ∀ t, parse (toRfc3339 t) = some t

/-- `later.signed_duration_since(earlier).num_seconds()`, which rounds towards zero. -/
def secondsSince (later earlier : DateTime) : ℤ := (later - earlier).tdiv 1000000000

/-- How identifiers are written and read. -/
class UuidFormat (Uuid : Type) where
  toText : Uuid → Text
  simple : Uuid → Text
  parseStr : Text → Option Uuid
  parseStr_toText : ∀ u, parseStr (toText u) = some u
  simple_injective : Function.Injective simple

theorem UuidFormat.toText_injective {Uuid : Type} [UuidFormat Uuid] :
    Function.Injective (toText : Uuid → Text) := by
  intro u u' h
  have hsome : (some u : Option Uuid) = some u' := by
    rw [← parseStr_toText u, ← parseStr_toText u', h]
  exact Option.some.inj hsome

def heartbeatTimeoutSecs : ℤ := 45

def heartbeatIntervalSecs : UInt64 := 15

structure HandshakeInfo where
  hostname : Text
  os : Text
  arch : Text
  cpuCores : UInt32
  cpuModel : Text
  memoryTotalMb : UInt64
  diskFreeGb : UInt64
  dockerVersion : Text
  tunnelVersion : Text
  serviceAddr : Text
  deriving DecidableEq

structure Metrics where
  cpuPct : Float32
  memPct : Float32
  loadAvg : Float32
  activeRequests : UInt32
  deriving DecidableEq

/-- `f32::min` of numbers that are no NaN. -/
def minF32 (x y : Float32) : Float32 := if x ≤ y then x else y

/-- `f32::clamp`: a NaN passes through. -/
def clampF32 (x lo hi : Float32) : Float32 :=
  let x := if x < lo then lo else x
  if x > hi then hi else x

def Metrics.weight (m : Metrics) : UInt32 :=
  let reqPressure := minF32 m.activeRequests.toFloat32 20.0
  let score := 100.0 - (m.cpuPct * 0.5 + m.memPct * 0.3 + reqPressure)
  (clampF32 score 1.0 100.0).toUInt32

/-- What the owner of a service registered: the part of it that no assignment changes. -/
structure Service where
  name : Text
  domain : Text
  image : Text
  port : UInt16
  deriving DecidableEq

structure ServiceAssignment where
  serviceName : Text
  domain : Text
  image : Text
  servicePort : UInt16
  assignedAt : DateTime
  deriving DecidableEq

structure PendingService where
  name : Text
  domain : Text
  image : Text
  servicePort : UInt16
  registeredAt : DateTime
  deriving DecidableEq

def ServiceAssignment.service (a : ServiceAssignment) : Service :=
  ⟨a.serviceName, a.domain, a.image, a.servicePort⟩

def PendingService.service (p : PendingService) : Service :=
  ⟨p.name, p.domain, p.image, p.servicePort⟩

structure VolunteerState (Uuid : Type) where
  id : Uuid
  info : HandshakeInfo
  metrics : Metrics
  enrolledAt : DateTime
  lastHeartbeat : DateTime
  assignedService : Option ServiceAssignment
  serviceRunning : Option Bool
  serviceImage : Option Text
  deriving DecidableEq

namespace VolunteerState

variable {Uuid : Type}

def isAlive (now : DateTime) (v : VolunteerState Uuid) : Bool :=
  secondsSince now v.lastHeartbeat < heartbeatTimeoutSecs

def holds (v : VolunteerState Uuid) : Option Service := v.assignedService.map (·.service)

/-- The services of one volunteer as a multiset of at most one. -/
def held (v : VolunteerState Uuid) : Multiset Service :=
  (v.assignedService.toList.map (·.service) : List Service)

theorem held_of_none {v : VolunteerState Uuid} (h : v.assignedService = none) : v.held = 0 := by
  rw [held, h]
  rfl

theorem held_congr {v w : VolunteerState Uuid} (h : v.assignedService = w.assignedService) :
    v.held = w.held := by
  rw [held, held, h]

end VolunteerState

variable {Uuid : Type} [DecidableEq Uuid]

/-- `AppState::active_volunteers`: the live volunteers, heaviest first, ties in iteration order. The
clock is read for every volunteer. -/
def activeVolunteers (order : IterOrder (VolunteerState Uuid)) (clock : Uuid → DateTime)
    (map : Table Uuid (VolunteerState Uuid)) : List (VolunteerState Uuid) :=
  ((order.order (Table.values map)).filter fun v => v.isAlive (clock v.id)).insertionSort
    fun a b => b.metrics.weight ≤ a.metrics.weight

theorem mem_activeVolunteers {order : IterOrder (VolunteerState Uuid)} {clock : Uuid → DateTime}
    {map : Table Uuid (VolunteerState Uuid)} {v : VolunteerState Uuid} :
    v ∈ activeVolunteers order clock map ↔
      (∃ id, map.lookup id = some v) ∧ v.isAlive (clock v.id) := by
  simp [activeVolunteers, List.mem_insertionSort, Table.mem_values]

end OpenShard
