import OpenShard.State
import OpenShard.FloatCast
import OpenShard.Future

/-!
# The database

`db.rs`: two tables whose primary keys are identifiers written as text. Integers of every width are
stored as signed 64-bit integers and single floats as doubles, so a row is read back with the
opposite casts. A query that fails changes nothing and its method answers as if nothing were there.
-/

namespace OpenShard

open FloatCast UuidFormat

structure DbRow where
  id : Text
  hostname : Text
  os : Text
  arch : Text
  cpuCores : Int64
  cpuModel : Text
  memoryTotalMb : Int64
  diskFreeGb : Int64
  dockerVersion : Text
  tunnelVersion : Text
  serviceAddr : Text
  cpuPct : Float
  memPct : Float
  loadAvg : Float
  activeRequests : Int64
  enrolledAt : Text
  lastHeartbeat : Text
  deriving DecidableEq

structure AssignmentRow where
  volunteerId : Text
  serviceName : Text
  domain : Text
  image : Text
  servicePort : Int64
  assignedAt : Text
  deriving DecidableEq

structure Db where
  volunteers : Table Text DbRow
  assignments : Table Text AssignmentRow

section Codec

variable {Uuid : Type} [UuidFormat Uuid] [Rfc3339]

open Rfc3339 (toRfc3339 parse)

def DbRow.ofVolunteer (v : VolunteerState Uuid) : DbRow where
  id := toText v.id
  hostname := v.info.hostname
  os := v.info.os
  arch := v.info.arch
  cpuCores := v.info.cpuCores.toUInt64.toInt64
  cpuModel := v.info.cpuModel
  memoryTotalMb := v.info.memoryTotalMb.toInt64
  diskFreeGb := v.info.diskFreeGb.toInt64
  dockerVersion := v.info.dockerVersion
  tunnelVersion := v.info.tunnelVersion
  serviceAddr := v.info.serviceAddr
  cpuPct := toF64 v.metrics.cpuPct
  memPct := toF64 v.metrics.memPct
  loadAvg := toF64 v.metrics.loadAvg
  activeRequests := v.metrics.activeRequests.toUInt64.toInt64
  enrolledAt := toRfc3339 v.enrolledAt
  lastHeartbeat := toRfc3339 v.lastHeartbeat

def VolunteerState.tryFrom (r : DbRow) : Option (VolunteerState Uuid) := do
  let id ← parseStr r.id
  let enrolledAt ← parse r.enrolledAt
  let lastHeartbeat ← parse r.lastHeartbeat
  return {
    id
    enrolledAt
    lastHeartbeat
    info := {
      hostname := r.hostname
      os := r.os
      arch := r.arch
      cpuCores := r.cpuCores.toUInt64.toUInt32
      cpuModel := r.cpuModel
      memoryTotalMb := r.memoryTotalMb.toUInt64
      diskFreeGb := r.diskFreeGb.toUInt64
      dockerVersion := r.dockerVersion
      tunnelVersion := r.tunnelVersion
      serviceAddr := r.serviceAddr }
    metrics := {
      cpuPct := toF32 r.cpuPct
      memPct := toF32 r.memPct
      loadAvg := toF32 r.loadAvg
      activeRequests := r.activeRequests.toUInt64.toUInt32 }
    assignedService := none
    serviceRunning := none
    serviceImage := none }

def AssignmentRow.ofAssignment (id : Uuid) (a : ServiceAssignment) : AssignmentRow where
  volunteerId := toText id
  serviceName := a.serviceName
  domain := a.domain
  image := a.image
  servicePort := a.servicePort.toUInt64.toInt64
  assignedAt := toRfc3339 a.assignedAt

def AssignmentRow.assignment (r : AssignmentRow) : Option ServiceAssignment := do
  let assignedAt ← parse r.assignedAt
  return {
    serviceName := r.serviceName
    domain := r.domain
    image := r.image
    servicePort := r.servicePort.toUInt64.toUInt16
    assignedAt }

/-- Every column is read back as it was bound; the fields that have none come back empty. -/
theorem tryFrom_ofVolunteer (v : VolunteerState Uuid) :
    VolunteerState.tryFrom (DbRow.ofVolunteer v) =
      some { v with assignedService := none, serviceRunning := none, serviceImage := none } := by
  simp [VolunteerState.tryFrom, DbRow.ofVolunteer, parseStr_toText, Rfc3339.parse_toRfc3339,
    toF32_toF64]

theorem assignment_ofAssignment (id : Uuid) (a : ServiceAssignment) :
    (AssignmentRow.ofAssignment id a).assignment = some a := by
  simp [AssignmentRow.ofAssignment, AssignmentRow.assignment, Rfc3339.parse_toRfc3339]

end Codec

namespace Db

variable {Uuid : Type} [UuidFormat Uuid] [Rfc3339] [DecidableEq Uuid]

def upsertVolunteer (db : Db) (v : VolunteerState Uuid) : Db :=
  { db with volunteers := db.volunteers.insert (toText v.id) (.ofVolunteer v) }

def removeVolunteer (db : Db) (id : Uuid) : Db :=
  { db with volunteers := db.volunteers.erase (toText id) }

/-- `SELECT id FROM volunteers WHERE hostname = ?1 LIMIT 1`: any of the rows may come first. -/
def findByHostname (order : IterOrder DbRow) (db : Db) (hostname : Text) : Option Uuid :=
  ((order.order (Table.values db.volunteers)).find? (·.hostname == hostname)).bind
    fun r => parseStr r.id

omit [Rfc3339] [DecidableEq Uuid] in
theorem row_of_findByHostname {order : IterOrder DbRow} {db : Db} {hostname : Text} {id : Uuid}
    (h : findByHostname order db hostname = some id) :
    ∃ key r, db.volunteers.lookup key = some r ∧ r.hostname = hostname ∧
      parseStr r.id = some id := by
  obtain ⟨r, hfind, hparse⟩ := Option.bind_eq_some_iff.1 h
  obtain ⟨key, hkey, hname⟩ := Table.lookup_of_find?_order hfind
  exact ⟨key, r, hkey, by simpa using hname, hparse⟩

def getAssignment (db : Db) (id : Uuid) : Option ServiceAssignment :=
  (db.assignments.lookup (toText id)).bind AssignmentRow.assignment

def pruneOrphanAssignments (db : Db) : Db :=
  { db with assignments := Table.restrict (fun key => (db.volunteers.lookup key).isSome) db.assignments }

def upsertAssignment (db : Db) (id : Uuid) (a : ServiceAssignment) : Db :=
  { db with assignments := db.assignments.insert (toText id) (.ofAssignment id a) }

def removeAssignment (db : Db) (id : Uuid) : Db :=
  { db with assignments := db.assignments.erase (toText id) }

/-- One row collected into the assignments by volunteer; a row that does not parse is left out. -/
def collect (found : Table Uuid ServiceAssignment) (r : AssignmentRow) :
    Table Uuid ServiceAssignment :=
  match (parseStr r.volunteerId : Option Uuid), r.assignment with
  | some id, some a => found.insert id a
  | _, _ => found

def loadAssignments (order : IterOrder AssignmentRow) (db : Db) : Table Uuid ServiceAssignment :=
  (order.order (Table.values db.assignments)).foldl collect ∅

/-- The loop of `load_all`: each volunteer takes its assignment out of the loaded ones. -/
def attach : Table Uuid ServiceAssignment → List DbRow → List (VolunteerState Uuid)
  | _, [] => []
  | assignments, r :: rows =>
    match (parseStr r.id : Option Uuid) with
    | none => attach assignments rows
    | some id =>
      match VolunteerState.tryFrom r with
      | none => attach (assignments.erase id) rows
      | some v =>
        { v with assignedService := assignments.lookup id } :: attach (assignments.erase id) rows

theorem collect_ofAssignment (found : Table Uuid ServiceAssignment) (id : Uuid)
    (a : ServiceAssignment) : collect found (.ofAssignment id a) = found.insert id a := by
  have hid : (parseStr (AssignmentRow.ofAssignment id a).volunteerId : Option Uuid) = some id :=
    parseStr_toText id
  rw [collect, hid, assignment_ofAssignment]

theorem lookup_collect {rows : List AssignmentRow} (found : Table Uuid ServiceAssignment)
    (hrows : ∀ r ∈ rows, ∃ id : Uuid, ∃ a, r = .ofAssignment id a)
    (huniq : ∀ (id : Uuid) a a', .ofAssignment id a ∈ rows → .ofAssignment id a' ∈ rows → a = a')
    (id : Uuid) :
    (∀ a, .ofAssignment id a ∈ rows → (rows.foldl collect found).lookup id = some a) ∧
      ((∀ a, .ofAssignment id a ∉ rows) → (rows.foldl collect found).lookup id = found.lookup id) := by
  induction rows generalizing found with
  | nil => simp
  | cons r rows ih =>
      obtain ⟨id₀, a₀, rfl⟩ := hrows r (by simp)
      have ih := ih (found.insert id₀ a₀) (fun r hr => hrows r (by simp [hr]))
        fun id a a' h h' => huniq id a a' (List.mem_cons_of_mem _ h) (List.mem_cons_of_mem _ h')
      rw [List.foldl_cons, collect_ofAssignment]
      refine ⟨fun a ha => ?_, fun hno => ?_⟩
      · by_cases hin : ∃ a', .ofAssignment id a' ∈ rows
        · obtain ⟨a', ha'⟩ := hin
          rw [ih.1 a' ha', huniq id a a' ha (by simp [ha'])]
        · have hrow : AssignmentRow.ofAssignment id a = .ofAssignment id₀ a₀ := by
            rcases List.mem_cons.1 ha with h | h
            · exact h
            · exact absurd ⟨a, h⟩ hin
          have hid : toText id = toText id₀ := congrArg AssignmentRow.volunteerId hrow
          obtain rfl := toText_injective hid
          rw [ih.2 fun a' ha' => hin ⟨a', ha'⟩, AList.lookup_insert,
            huniq id a a₀ ha (by simp)]
      · have hid : id ≠ id₀ := by
          rintro rfl
          exact hno a₀ (by simp)
        rw [ih.2 fun a' ha' => hno a' (by simp [ha']), AList.lookup_insert_ne hid]

theorem lookup_loadAssignments (order : IterOrder AssignmentRow) {db : Db}
    (hrows : ∀ key r, db.assignments.lookup key = some r →
      ∃ id : Uuid, ∃ a, key = toText id ∧ r = .ofAssignment id a) (id : Uuid) :
    (db.loadAssignments order).lookup id = db.getAssignment id := by
  have hmem : ∀ (id : Uuid) a, .ofAssignment id a ∈ order.order (Table.values db.assignments) ↔
      db.assignments.lookup (toText id) = some (.ofAssignment id a) := by
    intro id a
    rw [IterOrder.mem_order, Table.mem_values]
    constructor
    · rintro ⟨key, hkey⟩
      obtain ⟨id', a', rfl, hrow⟩ := hrows key _ hkey
      have hid : toText id = toText id' := congrArg AssignmentRow.volunteerId hrow
      rw [hid]
      exact hkey
    · exact fun h => ⟨_, h⟩
  have hcollect := lookup_collect (∅ : Table Uuid ServiceAssignment)
    (fun r (hr : r ∈ order.order (Table.values db.assignments)) => by
      rw [IterOrder.mem_order, Table.mem_values] at hr
      obtain ⟨key, hkey⟩ := hr
      obtain ⟨id', a, -, hrow⟩ := hrows key r hkey
      exact ⟨id', a, hrow⟩)
    (fun id' a a' ha ha' => by
      rw [hmem] at ha ha'
      have hrow := congrArg AssignmentRow.assignment (Option.some.inj (ha.symm.trans ha'))
      rw [assignment_ofAssignment, assignment_ofAssignment] at hrow
      exact Option.some.inj hrow)
    id
  rw [loadAssignments, getAssignment]
  cases hrow : db.assignments.lookup (toText id) with
  | none =>
      have hno : ∀ a, .ofAssignment id a ∉ order.order (Table.values db.assignments) := by
        intro a ha
        rw [hmem, hrow] at ha
        simp at ha
      rw [hcollect.2 hno]
      rfl
  | some r =>
      obtain ⟨id', a, hid, rfl⟩ := hrows _ r hrow
      obtain rfl := toText_injective hid
      rw [hcollect.1 a ((hmem id a).2 hrow), Option.bind_some, assignment_ofAssignment]

/-- A volunteer as it is loaded: the assignment comes from the other table. -/
def attached (assignments : Table Uuid ServiceAssignment) (v : VolunteerState Uuid) :
    VolunteerState Uuid :=
  { v with
    assignedService := assignments.lookup v.id
    serviceRunning := none
    serviceImage := none }

/-- Rows of different volunteers are loaded as those volunteers with their assignments. -/
theorem attach_map (assignments : Table Uuid ServiceAssignment) {vs : List (VolunteerState Uuid)}
    (hids : (vs.map (·.id)).Nodup) :
    attach assignments (vs.map .ofVolunteer) = vs.map (attached assignments) := by
  induction vs generalizing assignments with
  | nil => rfl
  | cons v vs ih =>
      rw [List.map_cons, List.nodup_cons] at hids
      have hid : (parseStr (DbRow.ofVolunteer v).id : Option Uuid) = some v.id := parseStr_toText v.id
      have hrest : ∀ w ∈ vs, (assignments.erase v.id).lookup w.id = assignments.lookup w.id := by
        intro w hw
        refine AList.lookup_erase_ne fun heq => hids.1 ?_
        rw [← heq]
        exact List.mem_map_of_mem hw
      rw [List.map_cons, attach, hid, tryFrom_ofVolunteer]
      simp only [List.map_cons, ih (assignments.erase v.id) hids.2]
      congr 1
      exact List.map_congr_left fun w hw => by rw [attached, attached, hrest w hw]

end Db

inductive DbOp (Uuid : Type) : Type → Type
  | upsertVolunteer (v : VolunteerState Uuid) : DbOp Uuid Unit
  | removeVolunteer (id : Uuid) : DbOp Uuid Unit
  | selectVolunteers : DbOp Uuid (List DbRow)
  | findByHostname (hostname : Text) : DbOp Uuid (Option Uuid)
  | getAssignment (id : Uuid) : DbOp Uuid (Option ServiceAssignment)
  | pruneOrphanAssignments : DbOp Uuid Unit
  | upsertAssignment (id : Uuid) (a : ServiceAssignment) : DbOp Uuid Unit
  | removeAssignment (id : Uuid) : DbOp Uuid Unit
  | loadAssignments : DbOp Uuid (Table Uuid ServiceAssignment)

/-- Whether a query fails, and the order in which it meets the rows. -/
structure DbEnv where
  fault : Bool
  rows : IterOrder DbRow
  assignments : IterOrder AssignmentRow

def DbEnv.calm : DbEnv := ⟨false, default, default⟩

section Machine

variable {Uuid : Type} [UuidFormat Uuid] [Rfc3339] [DecidableEq Uuid]

def DbOp.failed : {β : Type} → DbOp Uuid β → β
  | _, .upsertVolunteer _ => ()
  | _, .removeVolunteer _ => ()
  | _, .selectVolunteers => []
  | _, .findByHostname _ => none
  | _, .getAssignment _ => none
  | _, .pruneOrphanAssignments => ()
  | _, .upsertAssignment _ _ => ()
  | _, .removeAssignment _ => ()
  | _, .loadAssignments => ∅

def DbOp.answered (e : DbEnv) : {β : Type} → DbOp Uuid β → Db → β × Db
  | _, .upsertVolunteer v, db => ((), db.upsertVolunteer v)
  | _, .removeVolunteer id, db => ((), db.removeVolunteer id)
  | _, .selectVolunteers, db => (e.rows.order (Table.values db.volunteers), db)
  | _, .findByHostname hostname, db => (Db.findByHostname e.rows db hostname, db)
  | _, .getAssignment id, db => (db.getAssignment id, db)
  | _, .pruneOrphanAssignments, db => ((), db.pruneOrphanAssignments)
  | _, .upsertAssignment id a, db => ((), db.upsertAssignment id a)
  | _, .removeAssignment id, db => ((), db.removeAssignment id)
  | _, .loadAssignments, db => (db.loadAssignments e.assignments, db)

instance : Machine (DbOp Uuid) DbEnv Db where
  exec e op db := if e.fault then some (op.failed, db) else some (op.answered e db)

end Machine

end OpenShard
