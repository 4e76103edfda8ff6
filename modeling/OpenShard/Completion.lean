import OpenShard.History

/-!
# Completion

Nothing that a handler awaits waits for ever: the only operation that can wait takes the config
lock, and whoever takes the lock gives it back on every path. So a handler that starts while the lock
is free leaves it free, whatever fails, and comes to its end if nothing fails.
-/

namespace OpenShard

open Future

section Manager

variable {α : Type}

/-- A call that does not touch the lock. -/
def Steady (t : Future HaproxyOp α) : Prop :=
  ∀ b, Completes haproxySucceeds (fun h => h.configLocked = b) t

/-- A call that leaves the lock free if it was free. -/
def Tidy (t : Future HaproxyOp α) : Prop :=
  Completes haproxySucceeds (fun h => h.configLocked = false) t

theorem Steady.tidy {t : Future HaproxyOp α} (h : Steady t) : Tidy t := h false

def HaproxyOp.free : {β : Type} → HaproxyOp β → Bool
  | _, .lockConfig => false
  | _, .unlockConfig => false
  | _, _ => true

theorem command_servers (h : Haproxy) (cmd : Command) :
    ∃ servers, (h.command cmd).2 = { h with servers := servers } := by
  have halter : ∀ k f, ∃ servers, (h.alter k f).2 = { h with servers := servers } := by
    intro k f
    rw [Haproxy.alter]
    split_ifs
    · split <;> exact ⟨_, rfl⟩
    · exact ⟨_, rfl⟩
  cases cmd with
  | addServer backend server addr =>
      rw [Haproxy.command]
      split_ifs
      · split <;> exact ⟨_, rfl⟩
      · exact ⟨_, rfl⟩
  | delServer backend server =>
      rw [Haproxy.command]
      split_ifs
      · split
        · exact ⟨_, rfl⟩
        · split_ifs <;> exact ⟨_, rfl⟩
      · exact ⟨_, rfl⟩
  | setWeight => exact halter _ _
  | setState => exact halter _ _
  | setAddr => exact halter _ _

theorem command_configLocked (h : Haproxy) (cmd : Command) :
    (h.command cmd).2.configLocked = h.configLocked := by
  obtain ⟨servers, heq⟩ := command_servers h cmd
  rw [heq]

theorem steady_perform {op : HaproxyOp α} (hop : op.free) : Steady (.perform op) := by
  intro b
  refine completes_perform (fun e h a h' he hb => ?_) fun h hb => ⟨.calm, ?_⟩
  · cases op with
    | lockConfig => simp [HaproxyOp.free] at hop
    | unlockConfig => simp [HaproxyOp.free] at hop
    | command cmd =>
        simp only [Machine.exec] at he
        split at he
        · obtain ⟨-, rfl⟩ := Prod.mk.inj (Option.some.inj he)
          rw [command_configLocked, hb]
        · obtain ⟨-, rfl⟩ := Prod.mk.inj (Option.some.inj he)
          exact hb
    | _ =>
        simp only [Machine.exec] at he
        try split at he
        all_goals
          obtain ⟨-, rfl⟩ := Prod.mk.inj (Option.some.inj he)
          exact hb
  · cases op with
    | lockConfig => simp [HaproxyOp.free] at hop
    | _ => exact ⟨_, _, rfl, rfl⟩

theorem steady_pure (a : α) : Steady (pure a : Future HaproxyOp α) := fun _ => completes_pure a

variable {β : Type}

theorem Steady.bind {t : Future HaproxyOp α} {f : α → Future HaproxyOp β} (ht : Steady t)
    (hf : ∀ a, Steady (f a)) : Steady (t >>= f) := fun b => (ht b).bind fun a => hf a b

theorem Steady.map {t : Future HaproxyOp α} (ht : Steady t) (f : α → β) : Steady (f <$> t) :=
  fun b => (ht b).map f

theorem Steady.run_bind {ε : Type} {t : ExceptT ε (Future HaproxyOp) α}
    {f : α → ExceptT ε (Future HaproxyOp) β} (ht : Steady t.run) (hf : ∀ a, Steady (f a).run) :
    Steady (t >>= f).run := fun b => (ht b).run_bind fun a => hf a b

theorem steady_run_pure {ε : Type} (a : α) :
    Steady (pure a : ExceptT ε (Future HaproxyOp) α).run := steady_pure (Except.ok a)

theorem steady_run_throw {ε : Type} (e : ε) :
    Steady (throw e : ExceptT ε (Future HaproxyOp) α).run := steady_pure (Except.error e)

section Config

open Config

theorem steady_readConfig : Steady readConfig.run :=
  (steady_perform rfl).bind fun _ => steady_pure _

theorem steady_writeConfig (content : Text) : Steady (writeConfig content).run :=
  (steady_perform rfl).bind fun _ => steady_pure _

theorem steady_install (content newContent : Text) : Steady (install content newContent).run := by
  refine (steady_writeConfig newContent).run_bind fun _ => ?_
  refine ((steady_perform rfl).map _).run_bind fun r => ?_
  cases r with
  | error e => exact (steady_writeConfig content).run_bind fun _ => steady_run_throw e
  | ok u =>
      have hreload : Steady reloadHaproxy.run := (steady_perform rfl).bind fun _ => steady_pure _
      exact hreload.run_bind fun _ => (steady_perform rfl).bind fun _ => steady_pure _

/-- The lock is taken when it is free and given back however the body ends. -/
theorem tidy_withConfigLock {body : Manager α} (hbody : Steady body.run) :
    Tidy (withConfigLock body).run where
  keeps h hl := by
    rw [withConfigLock, ExceptT.run_mk, runs_bind] at h
    obtain ⟨u, h₁, -, h⟩ := h
    obtain ⟨r, h₂, -, h⟩ := (runs_bind _ _ _ _ _).1 h
    obtain ⟨u', h₃, hunlock, h⟩ := (runs_bind _ _ _ _ _).1 h
    obtain ⟨e, -, he⟩ := (runs_perform _ _ _ _).1 hunlock
    obtain ⟨-, rfl⟩ := Prod.mk.inj (Option.some.inj he)
    obtain ⟨-, rfl⟩ := (runs_pure _ _ _ _).1 h
    rfl
  ends {h} hl := by
    obtain ⟨r, h₁, hr⟩ := (hbody true).ends (@rfl _ { h with configLocked := true }.configLocked)
    refine ⟨r, { h₁ with configLocked := false }, (runs_calm _ _ _ _).2 ?_⟩
    rw [calm_withConfigLock _ _ hl, (runs_calm _ _ _ _).1 hr]
    rfl

theorem tidy_addService (serviceName domain : Text) : Tidy (addService serviceName domain).run := by
  refine tidy_withConfigLock (steady_readConfig.run_bind fun content => ?_)
  split_ifs
  · exact steady_run_pure _
  · split
    · exact steady_run_throw _
    · exact steady_install _ _

end Config

section Runtime

open OpenShard.Runtime

theorem steady_sendCommand (cmd : Command) : Steady (sendCommand cmd).run := by
  refine (steady_perform rfl).bind fun r => ?_
  cases r with
  | error message => exact steady_pure _
  | ok response =>
      simp only
      split_ifs <;> exact steady_pure _

theorem steady_discard (cmd : Command) :
    Steady (do let _ ← sendCommand cmd : Runtime.Call Unit).run :=
  (steady_sendCommand cmd).run_bind fun _ => steady_run_pure _

theorem steady_setAddr (backend serverName addr : Text) :
    Steady (setAddr backend serverName addr).run := by
  unfold setAddr
  split
  · exact steady_run_throw _
  · exact steady_discard _

end Runtime

section HaproxyManager

open HaproxyManager

theorem steady_runtime {call : Runtime.Call α} (h : Steady call.run) : Steady (runtime call).run :=
  h.bind fun _ => steady_pure _

theorem tidy_config {call : Config.Manager α} (h : Tidy call.run) : Tidy (config call).run :=
  Completes.bind h fun _ => completes_pure _

theorem steady_upsertServer (backend serverName addr : Text) (weight : UInt32) :
    Steady (upsertServer backend serverName addr weight).run := by
  have hfinish : Steady (do
      runtime (Runtime.setWeight backend serverName weight)
      runtime (Runtime.setState backend serverName .ready) : HaproxyManager.Call Unit).run :=
    (steady_runtime (steady_discard _)).run_bind fun _ => steady_runtime (steady_discard _)
  refine ((steady_setAddr backend serverName addr).map _).run_bind fun r => ?_
  cases r with
  | ok u => exact hfinish
  | error e =>
      simp only
      split_ifs
      · exact (steady_runtime (steady_discard _)).run_bind fun _ => hfinish
      · exact (steady_run_throw _).run_bind fun _ => hfinish

theorem tidy_assignService (serviceName domain tunnelAddr : Text) :
    Tidy (assignService serviceName domain tunnelAddr).run := by
  refine Completes.run_bind (tidy_config (tidy_addService _ _)) fun _ => ?_
  have hsleep : Steady (Config.sleep 500).run := (steady_perform rfl).bind fun _ => steady_pure _
  exact Completes.run_bind (tidy_config hsleep.tidy) fun _ => (steady_upsertServer _ _ _ _).tidy

theorem tidy_ensureServiceConfig (serviceName domain : Text) :
    Tidy (ensureServiceConfig serviceName domain).run := tidy_config (tidy_addService _ _)

variable {Uuid : Type} [UuidFormat Uuid]

theorem steady_addVolunteer (serviceName : Text) (id : Uuid) (addr : Text) (weight : UInt32) :
    Steady (addVolunteer serviceName id addr weight).run :=
  (steady_runtime (steady_discard _)).run_bind fun _ =>
    (steady_runtime (steady_discard _)).run_bind fun _ => steady_runtime (steady_discard _)

theorem steady_removeVolunteer (serviceName : Text) (id : Uuid) :
    Steady (removeVolunteer serviceName id).run :=
  (steady_runtime (steady_discard _)).run_bind fun _ => steady_runtime (steady_discard _)

theorem steady_setWeight (serviceName : Text) (id : Uuid) (weight : UInt32) :
    Steady (setWeight serviceName id weight).run := steady_runtime (steady_discard _)

theorem steady_updateVolunteerAddr (id : Uuid) (addr : Text) (svc : Option (Text × Text)) :
    Steady (updateVolunteerAddr id addr svc).run := by
  refine (steady_runtime (steady_discard _)).run_bind fun _ => ?_
  refine (steady_runtime (steady_setAddr _ _ _)).run_bind fun _ => ?_
  refine (steady_runtime (steady_discard _)).run_bind fun _ => ?_
  cases svc with
  | none => exact steady_run_pure _
  | some svc =>
      refine (steady_runtime (steady_discard _)).run_bind fun _ => ?_
      exact (steady_runtime (steady_setAddr _ _ _)).run_bind fun _ =>
        steady_runtime (steady_discard _)

end HaproxyManager

end Manager

namespace Registrar

variable {Uuid α β : Type} [DecidableEq Uuid] [UuidFormat Uuid] [Rfc3339] [Inhabited Uuid]

/-- A handler that leaves the lock free and completes if every step may be as in `c`. -/
abbrev Ends (c : Guard (RegistrarOp Uuid) (RegistrarEnv Uuid) (World Uuid)) (t : Async Uuid α) :
    Prop :=
  Completes c (fun s => s.haproxy.configLocked = false) t

/-- Steps at which nothing fails and no identifier is drawn are allowed. -/
def Permits (c : Guard (RegistrarOp Uuid) (RegistrarEnv Uuid) (World Uuid)) : Prop :=
  ∀ β e (op : RegistrarOp Uuid β) s, e.db.fault = false → e.haproxy = .calm → op.drawsId = false →
    c β e op s

omit [UuidFormat Uuid] [Rfc3339] [Inhabited Uuid] in
theorem answered_haproxy (e : RegistrarEnv Uuid) (op : LocalOp Uuid α) (s : World Uuid) :
    (op.answered e s).2.haproxy = s.haproxy := by
  have halter : ∀ id f, (s.alterVolunteer id f).haproxy = s.haproxy := by
    intro id f
    rw [World.alterVolunteer]
    split <;> rfl
  cases op with
  | recordHeartbeat body => exact halter _ _
  | setServiceAddr id addr => exact halter _ _
  | setAssignedService id a => exact halter _ _
  | _ => rfl

def calmAnswer : RegistrarEnv Uuid :=
  ⟨0, fun _ => 0, default, none, .ok none, default, .calm, .calm⟩

variable {c : Guard (RegistrarOp Uuid) (RegistrarEnv Uuid) (World Uuid)}

omit [Inhabited Uuid] in
theorem ends_own_of {op : LocalOp Uuid α} (hop : ∀ s, ∃ e, c α e (.own op) s) : Ends c (own op) := by
  refine completes_perform (fun e s a s' he hs => ?_) fun s _ => ?_
  · have heq : op.answered e s = (a, s') := Option.some.inj he
    have hsame := answered_haproxy e op s
    rw [heq] at hsame
    exact (congrArg Haproxy.configLocked hsame).trans hs
  · obtain ⟨e, he⟩ := hop s
    exact ⟨e, _, _, he, rfl⟩

variable (hc : Permits c)

include hc

theorem ends_own {op : LocalOp Uuid α} (hop : (RegistrarOp.own op).drawsId = false) :
    Ends c (own op) := ends_own_of fun s => ⟨calmAnswer, hc _ _ _ s rfl rfl hop⟩

theorem ends_query (op : DbOp Uuid α) : Ends c (query op) := by
  refine completes_perform (fun e s a s' he hs => ?_) fun s _ => ?_
  · obtain ⟨⟨b, db⟩, -, heq⟩ := Option.map_eq_some_iff.1 he
    obtain ⟨-, rfl⟩ := Prod.mk.inj heq
    exact hs
  · exact ⟨calmAnswer, _, _, hc _ _ _ s rfl rfl rfl, rfl⟩

theorem ends_haproxy {call : HaproxyManager.Call α} (hcall : Tidy call.run) :
    Ends c (haproxy call) := by
  refine @Completes.hoist HaproxyOp (RegistrarOp Uuid) HaproxyEnv (RegistrarEnv Uuid) Haproxy
    (World Uuid) (Except Error α) _ _ (fun op => .haproxy op) (·.haproxy) (·.haproxy)
    (fun s h => { s with haproxy := h }) (fun _ _ => rfl) (fun _ _ _ => rfl) (fun _ => rfl)
    (fun _ _ _ _ => rfl) c haproxySucceeds _ (fun β e op k s he => ?_) _ hcall
  exact ⟨{ calmAnswer with haproxy := e }, rfl, hc _ _ _ _ rfl he rfl⟩

theorem ends_serviceAddrFor (port : UInt16) : Ends c (serviceAddrFor port) := by
  refine (ends_own hc rfl).bind fun host => ?_
  refine Completes.bind ((ends_own hc rfl).bind fun r => ?_) fun _ => completes_pure _
  cases r with
  | ok addr => exact completes_pure _
  | error message => exact completes_pure _

theorem ends_findExisting (nodeKey : Text) : Ends c (findExisting nodeKey) := by
  unfold findExisting
  split_ifs
  · exact completes_pure _
  · refine (ends_own hc rfl).bind fun r => ?_
    cases r with
    | some id => exact completes_pure _
    | none => exact ends_query hc _

theorem ends_findAssignment (existingId : Option Uuid) : Ends c (findAssignment existingId) := by
  cases existingId with
  | none => exact completes_pure _
  | some id =>
      refine (ends_own hc rfl).bind fun r => ?_
      cases r with
      | some a => exact completes_pure _
      | none => exact ends_query hc _

theorem ends_attachService (id : Uuid) (addr : Text) (now : DateTime)
    (existing : Option ServiceAssignment) : Ends c (attachService id addr now existing) := by
  cases existing with
  | some a =>
      refine (ends_haproxy hc (tidy_assignService _ _ _)).bind fun _ => ?_
      exact (ends_query hc _).bind fun _ => completes_pure _
  | none =>
      refine (ends_own hc rfl).bind fun r => ?_
      cases r with
      | none => exact completes_pure _
      | some p =>
          refine (ends_haproxy hc (tidy_assignService _ _ _)).bind fun r => ?_
          cases r with
          | ok u => exact (ends_query hc _).bind fun _ => completes_pure _
          | error e => exact (ends_own hc rfl).bind fun _ => completes_pure _

/-- An enrollment completes if identifiers can be drawn. -/
theorem ends_enroll (hdraw : ∀ s, ∃ e, c Uuid e (.own .newV4) s) (body : EnrollRequest) :
    Ends c (enroll body) := by
  refine (ends_own hc rfl).bind fun now => (ends_serviceAddrFor hc _).bind fun addr => ?_
  refine (ends_findExisting hc _).bind fun existingId => ?_
  refine (ends_findAssignment hc existingId).bind fun existing => ?_
  have hident : Ends c (identify existingId) := by
    cases existingId with
    | some id => exact completes_pure _
    | none => exact ends_own_of hdraw
  refine hident.bind fun id => (ends_attachService hc _ _ _ _).bind fun a => ?_
  refine (ends_query hc _).bind fun _ => (ends_own hc rfl).bind fun _ => ?_
  exact (ends_haproxy hc (steady_upsertServer _ _ _ _).tidy).bind fun _ => completes_pure _

theorem ends_heartbeat (body : HeartbeatRequest Uuid) : Ends c (heartbeat body) := by
  refine (ends_own hc rfl).bind fun r => ?_
  cases r with
  | none => exact completes_pure _
  | some found =>
      refine (ends_query hc _).bind fun _ => ?_
      refine (ends_haproxy hc (steady_setWeight _ _ _).tidy).bind fun r => ?_
      cases r with
      | ok u => exact completes_pure _
      | error e =>
          simp only
          split_ifs
          · refine Completes.bind (ends_haproxy hc (steady_addVolunteer _ _ _ _).tidy) fun _ => ?_
            exact completes_pure _
          · exact completes_pure _

theorem ends_disconnect (idStr : Text) : Ends c (disconnect idStr : Async Uuid VolunteerReply) := by
  unfold disconnect
  split
  · exact completes_pure _
  · refine (ends_own hc rfl).bind fun r => ?_
    cases r with
    | none => exact completes_pure _
    | some v =>
        refine (ends_query hc _).bind fun _ => ?_
        exact (ends_haproxy hc (steady_removeVolunteer _ _).tidy).bind fun _ => completes_pure _

theorem ends_updateTunnelPort (idStr : Text) (port : UInt16) :
    Ends c (updateTunnelPort idStr port : Async Uuid VolunteerReply) := by
  unfold updateTunnelPort
  split
  · exact completes_pure _
  · refine (ends_serviceAddrFor hc port).bind fun addr => (ends_own hc rfl).bind fun r => ?_
    cases r with
    | none => exact completes_pure _
    | some found =>
        refine (ends_query hc _).bind fun _ => ?_
        exact (ends_haproxy hc (steady_updateVolunteerAddr _ _ _).tidy).bind fun _ =>
          completes_pure _

theorem ends_registerService (body : Service) :
    Ends c (registerService body : Async Uuid RegisterReply) := by
  refine (ends_own hc rfl).bind fun active => ?_
  split
  · refine (ends_haproxy hc (tidy_assignService _ _ _)).bind fun r => ?_
    cases r with
    | error e => exact completes_pure _
    | ok u =>
        refine (ends_own hc rfl).bind fun now => (ends_query hc _).bind fun _ => ?_
        exact (ends_own hc rfl).bind fun _ => completes_pure _
  · exact (ends_own hc rfl).bind fun _ => completes_pure _

theorem ends_evictAll (dead : List (Uuid × Option ServiceAssignment)) : Ends c (evictAll dead) := by
  induction dead with
  | nil => exact completes_pure _
  | cons d ds ih =>
      refine Completes.bind ?_ fun _ => ih
      unfold evict
      refine (ends_own hc rfl).bind fun _ => (ends_query hc _).bind fun _ => ?_
      refine (ends_haproxy hc (steady_removeVolunteer _ _).tidy).bind fun _ => ?_
      cases d.2 with
      | none => exact completes_pure _
      | some a => exact (ends_query hc _).bind fun _ => ends_own hc rfl

theorem ends_churnPass : Ends c (churnPass : Async Uuid _) :=
  (ends_own hc rfl).bind fun dead => (ends_evictAll hc dead).bind fun _ => completes_pure _

theorem ends_restoreConfigs (rs : List (Recovered Uuid)) : Ends c (restoreConfigs rs) := by
  induction rs with
  | nil => exact completes_pure _
  | cons r rs ih =>
      obtain ⟨id, addr, svc⟩ := r
      cases svc with
      | none => exact ih
      | some svc =>
          refine (ends_haproxy hc (tidy_ensureServiceConfig _ _)).bind fun r => ?_
          exact ih.bind fun _ => completes_pure _

theorem ends_restoreServers (rs : List (Recovered Uuid)) : Ends c (restoreServers rs) := by
  induction rs with
  | nil => exact completes_pure _
  | cons r rs ih =>
      obtain ⟨id, addr, svc⟩ := r
      refine (ends_haproxy hc (steady_upsertServer _ _ _ _).tidy).bind fun r => ?_
      cases svc with
      | none => exact ih.bind fun _ => completes_pure _
      | some svc =>
          refine (ends_haproxy hc (steady_upsertServer _ _ _ _).tidy).bind fun r' => ?_
          exact ih.bind fun _ => completes_pure _

theorem ends_recoverFrom (survivors : List (VolunteerState Uuid)) : Ends c (recoverFrom survivors) := by
  unfold recoverFrom
  split_ifs
  · exact completes_pure _
  · refine (ends_own hc rfl).bind fun _ => (ends_restoreConfigs hc _).bind fun _ => ?_
    have hsettle : Ends c (settle (survivors.map recovered)) := by
      unfold settle
      split_ifs
      · exact ends_own hc rfl
      · exact completes_pure _
    exact hsettle.bind fun _ => (ends_restoreServers hc _).bind fun _ => completes_pure _

theorem ends_recovery : Ends c (recovery : Async Uuid (List Error)) := by
  refine (ends_query hc _).bind fun _ => ?_
  have hload : Ends c (loadAll : Async Uuid _) :=
    (ends_query hc _).bind fun _ => (ends_query hc _).bind fun _ => completes_pure _
  exact hload.bind fun survivors => ends_recoverFrom hc survivors

theorem ends_restart : Ends c (restart : Async Uuid (List Error)) :=
  (ends_own hc rfl).bind fun _ => ends_recovery hc

theorem ends_handle (hdraw : ∀ s, ∃ e, c Uuid e (.own .newV4) s) (q : Request Uuid) :
    Ends c (handle q) := by
  cases q with
  | enroll body => exact (ends_enroll hc hdraw body).map _
  | heartbeat body => exact (ends_heartbeat hc body).map _
  | updateTunnelPort idStr port => exact (ends_updateTunnelPort hc idStr port).map _
  | disconnect idStr => exact (ends_disconnect hc idStr).map _
  | registerService body => exact (ends_registerService hc body).map _
  | churn => exact (ends_churnPass hc).map _
  | restart => exact (ends_restart hc).map _

omit hc in
theorem handle_lockFree {g : Guard (RegistrarOp Uuid) (RegistrarEnv Uuid) (World Uuid)}
    {q : Request Uuid} {r : Reply Uuid} {s s' : World Uuid} (run : Runs g (handle q) s r s')
    (hs : s.haproxy.configLocked = false) : s'.haproxy.configLocked = false := by
  have hends := @ends_handle Uuid _ _ _ _ (fun _ _ _ _ => True) (fun _ _ _ _ _ _ _ => trivial)
    (fun _ => ⟨calmAnswer, trivial⟩) q
  exact hends.keeps run hs

omit hc in
theorem History.lockFree {g : Guard (RegistrarOp Uuid) (RegistrarEnv Uuid) (World Uuid)} {h : Haproxy}
    {events : List (Event Uuid)} {s : World Uuid} (hrun : History g (World.initial h) events s) :
    s.haproxy.configLocked = false := by
  induction hrun with
  | nil => rfl
  | step past run ih => exact handle_lockFree run ih

end Registrar

end OpenShard
