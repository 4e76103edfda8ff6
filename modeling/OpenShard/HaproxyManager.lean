import OpenShard.Runtime
import OpenShard.State

/-!
# The HAProxy manager

`lib.rs` of the manager: what the registrar calls to put volunteers and services into HAProxy and to
take them out. A volunteer is a server of the backend `volunteers` named after its identifier; a
service is a backend of its own with one server, `primary`.
-/

namespace OpenShard

inductive Error
  | runtime (e : RuntimeError)
  | config (e : ConfigError)
  deriving DecidableEq

namespace ConfigError

def toText : ConfigError → Text
  | io message => "io error: " ++ message
  | frontendNotFound => "frontend section not found in haproxy config — cannot insert ACL"
  | validationFailed stderr => "haproxy config validation failed: " ++ stderr
  | reloadFailed reason => "haproxy reload failed: " ++ reason

end ConfigError

namespace Error

def toText : Error → Text
  | runtime e => "runtime API error: " ++ e.toText
  | config e => "config error: " ++ e.toText

/-- The message says that HAProxy does not know the server. -/
def noSuchServer (message : Text) : Bool := Text.contains message "No such server"

end Error

namespace HaproxyManager

open Future

abbrev Call (α : Type) := ExceptT Error (Future HaproxyOp) α

def runtime {α : Type} (call : Runtime.Call α) : Call α := ExceptT.mk do
  return (← call.run).mapError .runtime

def config {α : Type} (call : Config.Manager α) : Call α := ExceptT.mk do
  return (← call.run).mapError .config

def serviceBackend (serviceName : Text) : Text := "svc_" ++ serviceName

def primary : Text := "primary"

def volunteers : Text := "volunteers"

def upsertServer (backend serverName addr : Text) (weight : UInt32) : Call Unit := do
  match ← (ExceptT.mk (Except.ok <$> (Runtime.setAddr backend serverName addr).run) :
      Call (Except RuntimeError Unit)) with
  | .ok () => pure ()
  | .error e =>
    if Error.noSuchServer e.toText then runtime (Runtime.addServer backend serverName addr)
    else throw (.runtime e)
  runtime (Runtime.setWeight backend serverName weight)
  runtime (Runtime.setState backend serverName .ready)

def upsertSvcServer (serviceName tunnelAddr : Text) : Call Unit :=
  upsertServer (serviceBackend serviceName) primary tunnelAddr 100

/-- Writes the service into the configuration if it is not there, which reloads HAProxy, and points
its server at the volunteer. -/
def assignService (serviceName domain tunnelAddr : Text) : Call Unit := do
  config (Config.addService (serviceBackend serviceName) domain)
  config (Config.sleep 500)
  upsertSvcServer serviceName tunnelAddr

def ensureServiceConfig (serviceName domain : Text) : Call Unit :=
  config (Config.addService (serviceBackend serviceName) domain)

def restoreServiceServer (serviceName tunnelAddr : Text) : Call Unit :=
  upsertSvcServer serviceName tunnelAddr

section Volunteers

variable {Uuid : Type} [UuidFormat Uuid]

def serverNameFor (id : Uuid) : Text := UuidFormat.simple id

def addVolunteer (serviceName : Text) (id : Uuid) (addr : Text) (weight : UInt32) : Call Unit := do
  runtime (Runtime.addServer serviceName (serverNameFor id) addr)
  runtime (Runtime.setWeight serviceName (serverNameFor id) weight)
  runtime (Runtime.setState serviceName (serverNameFor id) .ready)

def removeVolunteer (serviceName : Text) (id : Uuid) : Call Unit := do
  runtime (Runtime.setState serviceName (serverNameFor id) .maint)
  runtime (Runtime.removeServer serviceName (serverNameFor id))

def upsertVolunteer (serviceName : Text) (id : Uuid) (addr : Text) (weight : UInt32) : Call Unit :=
  upsertServer serviceName (serverNameFor id) addr weight

def setWeight (serviceName : Text) (id : Uuid) (weight : UInt32) : Call Unit :=
  runtime (Runtime.setWeight serviceName (serverNameFor id) weight)

/-- Moves the volunteer's server, and then the server of the service it holds, to a new address. -/
def updateVolunteerAddr (id : Uuid) (newVolunteersAddr : Text)
    (assignedService : Option (Text × Text)) : Call Unit := do
  runtime (Runtime.setState volunteers (serverNameFor id) .maint)
  runtime (Runtime.setAddr volunteers (serverNameFor id) newVolunteersAddr)
  runtime (Runtime.setState volunteers (serverNameFor id) .ready)
  match assignedService with
  | none => pure ()
  | some (serviceName, tunnelAddr) =>
    runtime (Runtime.setState (serviceBackend serviceName) primary .maint)
    runtime (Runtime.setAddr (serviceBackend serviceName) primary tunnelAddr)
    runtime (Runtime.setState (serviceBackend serviceName) primary .ready)

end Volunteers

section Calm

variable (h : Haproxy)

theorem calm_runtime {α : Type} (call : Runtime.Call α) :
    calm (runtime call).run h = (calm call.run h).map fun r => (r.1.mapError .runtime, r.2) := by
  rw [runtime, ExceptT.run_mk, calm_bind]
  cases calm call.run h with
  | none => rfl
  | some r => rfl

theorem calm_config {α : Type} (call : Config.Manager α) :
    calm (config call).run h = (calm call.run h).map fun r => (r.1.mapError .config, r.2) := by
  rw [config, ExceptT.run_mk, calm_bind]
  cases calm call.run h with
  | none => rfl
  | some r => rfl

theorem noSuchServer_server :
    Error.noSuchServer (RuntimeError.response Haproxy.noSuchServer).toText = true := by decide

theorem noSuchServer_backend :
    Error.noSuchServer (RuntimeError.response Haproxy.noSuchBackend).toText = false := by decide

variable {h}

theorem altered_of_lookup {k : ServerKey} {sv : Server} (hb : hasBackend h.loaded k.1)
    (hs : h.servers.lookup k = some sv) (f : Server → Server) :
    Runtime.altered h k f = (.ok (), h.setServer k (f sv)) := by
  rw [Runtime.altered, if_pos hb, hs]

theorem altered_setServer {k : ServerKey} (hb : hasBackend h.loaded k.1) (sv : Server)
    (f : Server → Server) : Runtime.altered (h.setServer k sv) k f = (.ok (), h.setServer k (f sv)) := by
  rw [@altered_of_lookup (h.setServer k sv) k sv hb (Haproxy.lookup_setServer_self h k sv),
    Haproxy.setServer_setServer]

theorem altered_of_absent {k : ServerKey} (hb : hasBackend h.loaded k.1)
    (hs : h.servers.lookup k = none) (f : Server → Server) :
    Runtime.altered h k f = (.error (.response Haproxy.noSuchServer), h) := by
  rw [Runtime.altered, if_pos hb, hs]

theorem altered_of_not_backend {k : ServerKey} (hb : ¬ hasBackend h.loaded k.1)
    (f : Server → Server) :
    Runtime.altered h k f = (.error (.response Haproxy.noSuchBackend), h) := by
  rw [Runtime.altered, if_neg hb]

variable (h)

/-- Upserting leaves the server ready at the address if its backend is loaded, and nothing else. -/
theorem calm_upsertServer (backend serverName : Text) {addr : Text} (ha : ':' ∈ addr)
    (weight : UInt32) :
    calm (upsertServer backend serverName addr weight).run h =
      some (if hasBackend h.loaded backend then
        (.ok (), h.setServer (backend, serverName) ⟨addr, weight, .ready⟩)
        else (.error (.runtime (.response Haproxy.noSuchBackend)), h)) := by
  simp only [upsertServer, calm_run_bind, ExceptT.run_mk, calm_map, Runtime.calm_setAddr h _ _ ha,
    Option.map_some, Option.bind_some]
  by_cases hb : hasBackend h.loaded backend
  · have hfinish : ∀ sv, calm (do
        runtime (Runtime.setWeight backend serverName weight)
        runtime (Runtime.setState backend serverName .ready) : Call Unit).run
          (h.setServer (backend, serverName) sv) =
        some (.ok (), h.setServer (backend, serverName) ⟨sv.addr, weight, .ready⟩) := by
      intro sv
      rw [calm_run_bind, calm_runtime, Runtime.calm_setWeight, altered_setServer hb]
      simp only [Option.map_some, Option.bind_some, Except.mapError]
      rw [calm_runtime, Runtime.calm_setState, altered_setServer hb]
      rfl
    rw [if_pos hb]
    cases hs : h.servers.lookup (backend, serverName) with
    | some sv =>
        rw [altered_of_lookup hb hs]
        exact hfinish _
    | none =>
        rw [altered_of_absent hb hs]
        simp only [noSuchServer_server, if_true]
        rw [calm_run_bind, calm_runtime, Runtime.calm_addServer, if_pos hb, if_pos hs]
        simp only [Option.map_some, Option.bind_some, Except.mapError]
        exact hfinish _
  · rw [if_neg hb, altered_of_not_backend hb]
    simp only [noSuchServer_backend, Bool.false_eq_true, if_false]
    rfl

theorem serviceBackend_ne_volunteers (serviceName : Text) :
    serviceBackend serviceName ≠ volunteers := by
  unfold serviceBackend volunteers
  simp

theorem serviceBackend_injective : Function.Injective serviceBackend :=
  fun _ _ h => List.append_cancel_left h

def upserted (serviceName addr : Text) : Except Error Unit × Haproxy :=
  if hasBackend h.loaded (serviceBackend serviceName) then
    (.ok (), h.setServer (serviceBackend serviceName, primary) ⟨addr, 100, .ready⟩)
  else (.error (.runtime (.response Haproxy.noSuchBackend)), h)

theorem calm_upsertSvcServer (serviceName : Text) {addr : Text} (ha : ':' ∈ addr) :
    calm (upsertSvcServer serviceName addr).run h = some (upserted h serviceName addr) :=
  calm_upsertServer h (serviceBackend serviceName) primary ha 100

def assigned (serviceName domain addr : Text) : Except Error Unit × Haproxy :=
  match Config.added h (serviceBackend serviceName) domain with
  | (.error e, h') => (.error (.config e), h')
  | (.ok (), h') => upserted h' serviceName addr

theorem calm_assignService (serviceName domain : Text) {addr : Text} (ha : ':' ∈ addr)
    (hl : h.configLocked = false) :
    calm (assignService serviceName domain addr).run h =
      some (assigned h serviceName domain addr) := by
  rw [assignService, calm_run_bind, calm_config, Config.calm_addService h _ _ hl, assigned]
  obtain ⟨r, h'⟩ := Config.added h (serviceBackend serviceName) domain
  cases r with
  | error e => rfl
  | ok u =>
      simp only [Option.map_some, Option.bind_some, Except.mapError, calm_run_bind, calm_config,
        Config.sleep, ExceptT.run_mk, calm_bind, calm_sleep, calm_pure]
      exact calm_upsertSvcServer h' serviceName ha

/-- While somebody holds the lock on the configuration, no assignment is completed. -/
theorem calm_assignService_unlocked {h : Haproxy} {serviceName domain addr : Text}
    {r : Except Error Unit × Haproxy}
    (hcalm : calm (assignService serviceName domain addr).run h = some r) :
    h.configLocked = false := by
  rw [← Bool.not_eq_true]
  intro hlocked
  rw [assignService, calm_run_bind, calm_config, Config.addService,
    Config.calm_withConfigLock_locked h _ hlocked] at hcalm
  simp at hcalm

end Calm

section Moves

variable {Uuid : Type} [UuidFormat Uuid] {h : Haproxy}

theorem calm_call_setState (backend serverName : Text) (state : AdminState) (h : Haproxy) :
    calm (runtime (Runtime.setState backend serverName state)).run h =
      some ((Runtime.altered h (backend, serverName) fun sv => { sv with state }).1.mapError .runtime,
        (Runtime.altered h (backend, serverName) fun sv => { sv with state }).2) := by
  rw [calm_runtime, Runtime.calm_setState, Option.map_some]

theorem calm_call_setAddr (backend serverName : Text) {addr : Text} (ha : ':' ∈ addr)
    (h : Haproxy) :
    calm (runtime (Runtime.setAddr backend serverName addr)).run h =
      some ((Runtime.altered h (backend, serverName) fun sv => { sv with addr }).1.mapError .runtime,
        (Runtime.altered h (backend, serverName) fun sv => { sv with addr }).2) := by
  rw [calm_runtime, Runtime.calm_setAddr _ _ _ ha, Option.map_some]

def weighed (h : Haproxy) (k : ServerKey) (weight : UInt32) : Except Error Unit × Haproxy :=
  ((Runtime.altered h k fun sv => { sv with weight }).1.mapError .runtime,
    (Runtime.altered h k fun sv => { sv with weight }).2)

theorem calm_setWeight (h : Haproxy) (backend : Text) (id : Uuid) (weight : UInt32) :
    calm (setWeight backend id weight).run h =
      some (weighed h (backend, serverNameFor id) weight) := by
  rw [setWeight, calm_runtime, Runtime.calm_setWeight, Option.map_some]
  rfl

theorem calm_addVolunteer {backend : Text} {id : Uuid} (hb : hasBackend h.loaded backend)
    (hno : h.servers.lookup (backend, serverNameFor id) = none) (addr : Text) (weight : UInt32) :
    calm (addVolunteer backend id addr weight).run h =
      some (.ok (), h.setServer (backend, serverNameFor id) ⟨addr, weight, .ready⟩) := by
  rw [addVolunteer, calm_run_bind, calm_runtime, Runtime.calm_addServer, if_pos hb, if_pos hno]
  simp only [Option.map_some, Option.bind_some, Except.mapError]
  rw [calm_run_bind, calm_runtime, Runtime.calm_setWeight, altered_setServer hb]
  simp only [Option.map_some, Option.bind_some, Except.mapError]
  rw [calm_call_setState, altered_setServer hb]
  rfl

theorem calm_removeVolunteer {backend : Text} {id : Uuid} (hb : hasBackend h.loaded backend) :
    ∃ r, calm (removeVolunteer backend id).run h =
      some (r, { h with servers := h.servers.erase (backend, serverNameFor id) }) := by
  rw [removeVolunteer, calm_run_bind, calm_call_setState]
  cases hs : h.servers.lookup (backend, serverNameFor id) with
  | none =>
      rw [altered_of_absent hb hs, Table.erase_of_lookup_none hs]
      exact ⟨_, rfl⟩
  | some sv =>
      rw [altered_of_lookup hb hs]
      simp only [Option.bind_some, Except.mapError]
      rw [calm_runtime, Runtime.calm_removeServer
        (h.setServer (backend, serverNameFor id) { sv with state := .maint }) backend _ hb
        (Haproxy.lookup_setServer_self _ _ _) rfl]
      refine ⟨.ok (), ?_⟩
      simp only [Option.map_some, Except.mapError, Haproxy.setServer, Table.erase_insert]

def retargeted (h : Haproxy) (k : ServerKey) (addr : Text) : Except Error Unit × Haproxy :=
  if hasBackend h.loaded k.1 then
    match h.servers.lookup k with
    | none => (.error (.runtime (.response Haproxy.noSuchServer)), h)
    | some sv => (.ok (), h.setServer k ⟨addr, sv.weight, .ready⟩)
  else (.error (.runtime (.response Haproxy.noSuchBackend)), h)

theorem calm_updateVolunteerAddr (h : Haproxy) (id : Uuid) {addr : Text} (ha : ':' ∈ addr)
    {svc : Option (Text × Text)} (hsvc : ∀ x ∈ svc, ':' ∈ x.2) :
    calm (updateVolunteerAddr id addr svc).run h =
      some (match retargeted h (volunteers, serverNameFor id) addr, svc with
        | (.error e, h'), _ => (.error e, h')
        | (.ok (), h'), none => (.ok (), h')
        | (.ok (), h'), some (serviceName, tunnelAddr) =>
          retargeted h' (serviceBackend serviceName, primary) tunnelAddr) := by
  unfold updateVolunteerAddr
  rw [calm_run_bind, calm_call_setState, retargeted]
  by_cases hb : hasBackend h.loaded volunteers
  · rw [if_pos hb]
    cases hs : h.servers.lookup (volunteers, serverNameFor id) with
    | none =>
        rw [altered_of_absent hb hs]
        rfl
    | some sv =>
        rw [altered_of_lookup hb hs]
        simp only [Option.bind_some, Except.mapError]
        rw [calm_run_bind, calm_call_setAddr _ _ ha, altered_setServer hb]
        simp only [Option.bind_some, Except.mapError]
        rw [calm_run_bind, calm_call_setState, altered_setServer hb]
        simp only [Option.bind_some, Except.mapError]
        cases svc with
        | none => rfl
        | some svc =>
            obtain ⟨serviceName, tunnelAddr⟩ := svc
            have hcolon : ':' ∈ tunnelAddr := hsvc (serviceName, tunnelAddr) rfl
            simp only
            generalize h.setServer (volunteers, serverNameFor id) ⟨addr, sv.weight, .ready⟩ = k
            rw [calm_run_bind, calm_call_setState, retargeted]
            by_cases hb' : hasBackend k.loaded (serviceBackend serviceName)
            · rw [if_pos hb']
              cases hs' : k.servers.lookup (serviceBackend serviceName, primary) with
              | none =>
                  rw [altered_of_absent hb' hs']
                  rfl
              | some sv' =>
                  rw [altered_of_lookup hb' hs']
                  simp only [Option.bind_some, Except.mapError]
                  rw [calm_run_bind, calm_call_setAddr _ _ hcolon, altered_setServer hb']
                  simp only [Option.bind_some, Except.mapError]
                  rw [calm_call_setState, altered_setServer hb']
                  rfl
            · rw [if_neg hb', altered_of_not_backend hb']
              rfl
  · rw [if_neg hb, altered_of_not_backend hb]
    rfl

end Moves

section Commands

def isCommand : (β : Type) → HaproxyOp β → Prop
  | _, .command _ => True
  | _, _ => False

end Commands

end HaproxyManager
end OpenShard
