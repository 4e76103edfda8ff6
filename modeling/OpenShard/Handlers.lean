import OpenShard.Completion
import OpenShard.Healing

/-!
# What the handlers are made of

Every handler is put together by `bind` from steps inside the process, queries, commands on servers of
the registrar, sleeps and `add_service`. A property of futures that these have and that `bind` keeps is
one of every handler.
-/

namespace OpenShard

def Command.key : Command → ServerKey
  | .addServer backend server _ => (backend, server)
  | .delServer backend server => (backend, server)
  | .setWeight backend server _ => (backend, server)
  | .setState backend server _ => (backend, server)
  | .setAddr backend server _ _ => (backend, server)

namespace HaproxyManager

open Future

/-- The volunteers have one server each, under their identifiers, and the services one each, under the
fixed name. -/
inductive OwnServer (Uuid : Type) [UuidFormat Uuid] : ServerKey → Prop
  | volunteer (id : Uuid) : OwnServer Uuid (volunteers, serverNameFor id)
  | service (serviceName : Text) : OwnServer Uuid (serviceBackend serviceName, primary)

def commandOn (Q : ServerKey → Prop) : (β : Type) → HaproxyOp β → Prop
  | _, .command cmd => Q cmd.key
  | _, _ => False

theorem isCommand_of_commandOn {Q : ServerKey → Prop} (β : Type) (op : HaproxyOp β)
    (hop : commandOn Q β op) : isCommand β op := by
  cases op with
  | command cmd => trivial
  | _ => exact hop

section Servers

variable {Q : ServerKey → Prop} {backend serverName : Text}

theorem sends {cmd : Command} (hcmd : Q cmd.key) :
    Uses (commandOn Q) (runtime (do let _ ← Runtime.sendCommand cmd)).run :=
  uses_call (Uses.runBind (uses_send hcmd) fun _ => uses_pure _)

theorem sends_setAddr (hQ : Q (backend, serverName)) (addr : Text) :
    Uses (commandOn Q) (Runtime.setAddr backend serverName addr).run := by
  rw [Runtime.setAddr]
  cases Text.rsplitOnce ':' addr with
  | none => exact uses_pure _
  | some split => exact Uses.runBind (uses_send hQ) fun _ => uses_pure _

theorem sends_upsertServer (hQ : Q (backend, serverName)) (addr : Text) (weight : UInt32) :
    Uses (commandOn Q) (upsertServer backend serverName addr weight).run := by
  have hfinish : Uses (commandOn Q) (do
      runtime (Runtime.setWeight backend serverName weight)
      runtime (Runtime.setState backend serverName .ready) : Call Unit).run :=
    Uses.runBind (sends hQ) fun _ => sends hQ
  refine Uses.runBind ((sends_setAddr hQ addr).map _) fun r => ?_
  cases r with
  | ok u => exact hfinish
  | error e =>
      dsimp only
      split_ifs
      · exact Uses.runBind (sends hQ) fun _ => hfinish
      · exact Uses.runBind (uses_pure _) fun _ => hfinish

variable {Uuid : Type} [UuidFormat Uuid]

theorem sends_setWeight (id : Uuid) (weight : UInt32) :
    Uses (commandOn (OwnServer Uuid)) (setWeight volunteers id weight).run :=
  sends (.volunteer id)

theorem sends_addVolunteer (id : Uuid) (addr : Text) (weight : UInt32) :
    Uses (commandOn (OwnServer Uuid)) (addVolunteer volunteers id addr weight).run :=
  Uses.runBind (sends (.volunteer id)) fun _ =>
    Uses.runBind (sends (.volunteer id)) fun _ => sends (.volunteer id)

theorem sends_upsertVolunteer (id : Uuid) (addr : Text) (weight : UInt32) :
    Uses (commandOn (OwnServer Uuid)) (upsertVolunteer volunteers id addr weight).run :=
  sends_upsertServer (.volunteer id) addr weight

theorem sends_removeVolunteer (id : Uuid) :
    Uses (commandOn (OwnServer Uuid)) (removeVolunteer volunteers id).run :=
  Uses.runBind (sends (.volunteer id)) fun _ => sends (.volunteer id)

variable (Uuid) in
theorem sends_upsertSvcServer (serviceName addr : Text) :
    Uses (commandOn (OwnServer Uuid)) (upsertSvcServer serviceName addr).run :=
  sends_upsertServer (.service serviceName) addr 100

theorem sends_updateVolunteerAddr (id : Uuid) (addr : Text) (svc : Option (Text × Text)) :
    Uses (commandOn (OwnServer Uuid)) (updateVolunteerAddr id addr svc).run := by
  unfold updateVolunteerAddr
  refine Uses.runBind (sends (.volunteer id)) fun _ => ?_
  refine Uses.runBind (uses_call (sends_setAddr (.volunteer id) addr)) fun _ => ?_
  refine Uses.runBind (sends (.volunteer id)) fun _ => ?_
  cases svc with
  | none => exact uses_pure _
  | some svc =>
      refine Uses.runBind (sends (.service svc.1)) fun _ => ?_
      refine Uses.runBind (uses_call (sends_setAddr (.service svc.1) svc.2)) fun _ => ?_
      exact sends (.service svc.1)

end Servers

end HaproxyManager

namespace Registrar

open Future HaproxyManager

def lifted (Uuid : Type) {α : Type} (t : Future HaproxyOp α) : Async Uuid α :=
  t.hoist fun op => .haproxy op

section Closed

variable {Uuid : Type} [UuidFormat Uuid]

structure Closed (P : ∀ {α : Type}, Async Uuid α → Prop) : Prop where
  pure : ∀ {α : Type} (a : α), P (Pure.pure a : Async Uuid α)
  bind : ∀ {α β : Type} {t : Async Uuid α} {f : α → Async Uuid β}, P t → (∀ a, P (f a)) →
    P (t >>= f)
  own : ∀ {α : Type} (op : LocalOp Uuid α), P (own op)
  query : ∀ {α : Type} (op : DbOp Uuid α), P (query op)
  commands : ∀ {α : Type} {t : Future HaproxyOp α}, Uses (commandOn (OwnServer Uuid)) t →
    P (lifted Uuid t)
  sleep : ∀ ms, P (lifted Uuid (perform (.sleep ms)))
  addService : ∀ name domain, P (lifted Uuid (Config.addService name domain).run)

variable {P : ∀ {α : Type}, Async Uuid α → Prop} {α β ε : Type}

theorem Closed.map (h : Closed @P) {t : Async Uuid α} (ht : P t) (f : α → β) : P (f <$> t) := by
  rw [map_eq_pure_bind]
  exact h.bind ht fun a => h.pure (f a)

theorem Closed.lifted_bind (h : Closed @P) {t : Future HaproxyOp α} {f : α → Future HaproxyOp β}
    (ht : P (lifted Uuid t)) (hf : ∀ a, P (lifted Uuid (f a))) : P (lifted Uuid (t >>= f)) := by
  rw [lifted, hoist_bind]
  exact h.bind ht hf

theorem Closed.lifted_runBind (h : Closed @P) {t : ExceptT ε (Future HaproxyOp) α}
    {f : α → ExceptT ε (Future HaproxyOp) β} (ht : P (lifted Uuid t.run))
    (hf : ∀ a, P (lifted Uuid (f a).run)) : P (lifted Uuid (t >>= f).run) := by
  rw [ExceptT.run_bind]
  refine h.lifted_bind ht fun r => ?_
  cases r with
  | ok a => exact hf a
  | error e => exact h.pure _

theorem Closed.ensureServiceConfig (h : Closed @P) (serviceName domain : Text) :
    P (haproxy (ensureServiceConfig serviceName domain) : Async Uuid (Except Error Unit)) :=
  h.lifted_bind (h.addService _ _) fun _ => h.pure _

theorem Closed.assignService (h : Closed @P) (serviceName domain addr : Text) :
    P (haproxy (assignService serviceName domain addr) : Async Uuid (Except Error Unit)) := by
  have hsleep : P (lifted Uuid (config (Config.sleep 500)).run) :=
    h.lifted_bind (h.lifted_bind (h.sleep 500) fun _ => h.pure _) fun _ => h.pure _
  refine h.lifted_runBind (h.ensureServiceConfig serviceName domain) fun _ => ?_
  exact h.lifted_runBind hsleep fun _ => h.commands (sends_upsertSvcServer _ _ _)

theorem Closed.serviceAddrFor (h : Closed @P) (port : UInt16) :
    P (serviceAddrFor port : Async Uuid Text) := by
  refine h.bind (h.own _) fun host => ?_
  refine h.bind (h.bind (h.own _) fun r => ?_) fun _ => h.pure _
  cases r with
  | ok addr => exact h.pure _
  | error message => exact h.pure _

theorem Closed.findExisting (h : Closed @P) (nodeKey : Text) :
    P (findExisting nodeKey : Async Uuid (Option Uuid)) := by
  unfold Registrar.findExisting
  split_ifs
  · exact h.pure _
  · refine h.bind (h.own _) fun r => ?_
    cases r with
    | some id => exact h.pure _
    | none => exact h.query _

theorem Closed.findAssignment (h : Closed @P) (existingId : Option Uuid) :
    P (findAssignment existingId) := by
  cases existingId with
  | none => exact h.pure _
  | some id =>
      refine h.bind (h.own _) fun r => ?_
      cases r with
      | some a => exact h.pure _
      | none => exact h.query _

theorem Closed.identify (h : Closed @P) (existingId : Option Uuid) : P (identify existingId) := by
  cases existingId with
  | none => exact h.own _
  | some id => exact h.pure _

theorem Closed.attachService (h : Closed @P) (id : Uuid) (addr : Text) (now : DateTime)
    (existing : Option ServiceAssignment) : P (attachService id addr now existing) := by
  cases existing with
  | some a =>
      refine h.bind (h.assignService _ _ _) fun _ => ?_
      exact h.bind (h.query _) fun _ => h.pure _
  | none =>
      refine h.bind (h.own _) fun r => ?_
      cases r with
      | none => exact h.pure _
      | some p =>
          refine h.bind (h.assignService _ _ _) fun r => ?_
          cases r with
          | ok u => exact h.bind (h.query _) fun _ => h.pure _
          | error e => exact h.bind (h.own _) fun _ => h.pure _

theorem Closed.enroll (h : Closed @P) (body : EnrollRequest) :
    P (enroll body : Async Uuid EnrollResponse) := by
  refine h.bind (h.own _) fun now => h.bind (h.serviceAddrFor _) fun addr => ?_
  refine h.bind (h.findExisting _) fun existingId => ?_
  refine h.bind (h.findAssignment existingId) fun existing => ?_
  refine h.bind (h.identify existingId) fun id => h.bind (h.attachService _ _ _ _) fun a => ?_
  refine h.bind (h.query _) fun _ => h.bind (h.own _) fun _ => ?_
  exact h.bind (h.commands (sends_upsertVolunteer _ _ _)) fun _ => h.pure _

theorem Closed.heartbeat (h : Closed @P) (body : HeartbeatRequest Uuid) : P (heartbeat body) := by
  refine h.bind (h.own _) fun r => ?_
  cases r with
  | none => exact h.pure _
  | some found =>
      refine h.bind (h.query _) fun _ => h.bind (h.commands (sends_setWeight _ _)) fun r => ?_
      cases r with
      | ok u => exact h.pure _
      | error e =>
          dsimp only
          split_ifs
          · exact h.bind (h.commands (sends_addVolunteer _ _ _)) fun _ => h.pure _
          · exact h.pure _

theorem Closed.disconnect (h : Closed @P) (idStr : Text) :
    P (disconnect idStr : Async Uuid VolunteerReply) := by
  unfold Registrar.disconnect
  split
  · exact h.pure _
  · refine h.bind (h.own _) fun r => ?_
    cases r with
    | none => exact h.pure _
    | some v =>
        refine h.bind (h.query _) fun _ => ?_
        exact h.bind (h.commands (sends_removeVolunteer _)) fun _ => h.pure _

theorem Closed.updateTunnelPort (h : Closed @P) (idStr : Text) (port : UInt16) :
    P (updateTunnelPort idStr port : Async Uuid VolunteerReply) := by
  unfold Registrar.updateTunnelPort
  split
  · exact h.pure _
  · refine h.bind (h.serviceAddrFor _) fun addr => h.bind (h.own _) fun r => ?_
    cases r with
    | none => exact h.pure _
    | some found =>
        refine h.bind (h.query _) fun _ => ?_
        exact h.bind (h.commands (sends_updateVolunteerAddr _ _ _)) fun _ => h.pure _

theorem Closed.registerService (h : Closed @P) (body : Service) :
    P (registerService body : Async Uuid RegisterReply) := by
  refine h.bind (h.own _) fun active => ?_
  split
  · refine h.bind (h.assignService _ _ _) fun r => ?_
    cases r with
    | error e => exact h.pure _
    | ok u =>
        refine h.bind (h.own _) fun now => h.bind (h.query _) fun _ => ?_
        exact h.bind (h.own _) fun _ => h.pure _
  · exact h.bind (h.own _) fun _ => h.pure _

theorem Closed.evictAll (h : Closed @P) (dead : List (Uuid × Option ServiceAssignment)) :
    P (evictAll dead) := by
  induction dead with
  | nil => exact h.pure _
  | cons d dead ih =>
      refine h.bind ?_ fun _ => ih
      refine h.bind (h.own _) fun _ => h.bind (h.query _) fun _ => ?_
      refine h.bind (h.commands (sends_removeVolunteer _)) fun _ => ?_
      cases d.2 with
      | none => exact h.pure _
      | some a => exact h.bind (h.query _) fun _ => h.own _

theorem Closed.restoreConfigs (h : Closed @P) (rs : List (Recovered Uuid)) :
    P (restoreConfigs rs) := by
  induction rs with
  | nil => exact h.pure _
  | cons r rs ih =>
      obtain ⟨id, addr, svc⟩ := r
      cases svc with
      | none => exact ih
      | some svc =>
          exact h.bind (h.ensureServiceConfig _ _) fun _ => h.bind ih fun _ => h.pure _

theorem Closed.restoreServers (h : Closed @P) (rs : List (Recovered Uuid)) :
    P (restoreServers rs) := by
  induction rs with
  | nil => exact h.pure _
  | cons r rs ih =>
      obtain ⟨id, addr, svc⟩ := r
      refine h.bind (h.commands (sends_upsertVolunteer _ _ _)) fun _ => ?_
      cases svc with
      | none => exact h.bind ih fun _ => h.pure _
      | some svc =>
          refine h.bind (h.commands (sends_upsertSvcServer _ _ _)) fun _ => ?_
          exact h.bind ih fun _ => h.pure _

theorem Closed.recoverFrom (h : Closed @P) (survivors : List (VolunteerState Uuid)) :
    P (recoverFrom survivors) := by
  unfold Registrar.recoverFrom
  split_ifs
  · exact h.pure _
  · refine h.bind (h.own _) fun _ => h.bind (h.restoreConfigs _) fun _ => ?_
    refine h.bind ?_ fun _ => h.bind (h.restoreServers _) fun _ => h.pure _
    unfold settle
    split_ifs
    · exact h.own _
    · exact h.pure _

variable [Rfc3339] [DecidableEq Uuid]

theorem Closed.restart (h : Closed @P) : P (restart : Async Uuid (List Error)) := by
  refine h.bind (h.own _) fun _ => h.bind (h.query _) fun _ => ?_
  refine h.bind ?_ fun survivors => h.recoverFrom survivors
  exact h.bind (h.query _) fun _ => h.bind (h.query _) fun _ => h.pure _

theorem Closed.handle (h : Closed @P) (q : Request Uuid) : P (handle q) := by
  cases q with
  | enroll body => exact h.map (h.enroll body) _
  | heartbeat body => exact h.map (h.heartbeat body) _
  | updateTunnelPort idStr port => exact h.map (h.updateTunnelPort idStr port) _
  | disconnect idStr => exact h.map (h.disconnect idStr) _
  | registerService body => exact h.map (h.registerService body) _
  | churn => exact h.map (h.bind (h.own _) fun dead => h.bind (h.evictAll dead) fun _ => h.pure _) _
  | restart => exact h.map h.restart _

end Closed

def unhindered : Guard (RegistrarOp Node) (RegistrarEnv Node) (World Node) := fun _ _ _ _ => True

instance (β : Type) (e : RegistrarEnv Node) (op : RegistrarOp Node β) (s : World Node) :
    Decidable (unhindered β e op s) := .isTrue trivial

end Registrar

end OpenShard
