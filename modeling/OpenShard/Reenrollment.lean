import OpenShard.Consistency
import OpenShard.Retarget

/-!
# Volunteers that enroll again

A volunteer that is in the map and enrolls under its hostname keeps its identifier and its service, or
takes the oldest pending service if it has none, and both its servers are moved to the new address.
Adding the service to the configuration reloads HAProxy and drops the volunteer's server, which is
added again afterwards: the order of the two calls matters.
-/

namespace OpenShard

namespace HaproxyManager

open Future

variable {Uuid : Type} [UuidFormat Uuid] {h h' : Haproxy} {addr : Text}

/-- The calls that an enrollment sends to HAProxy: for the service, if there is one, and then for the
volunteer's own server. -/
def enrollCalls (id : Uuid) (addr : Text) : Option (Text × Text) → Call Unit
  | none => upsertVolunteer volunteers id addr 100
  | some (serviceName, domain) => do
    assignService serviceName domain addr
    upsertVolunteer volunteers id addr 100

theorem serverOf_setServer_ne {k k' : ServerKey} {sv : Server} (hne : k' ≠ k) :
    serverOf (h.setServer k sv) k' = serverOf h k' := by
  rw [serverOf, Haproxy.setServer_loaded, Haproxy.lookup_setServer, if_neg hne, serverOf]

theorem readyAt_of_hasBackend {k : ServerKey} {weight : UInt32} (hb : hasBackend h.loaded k.1) :
    ReadyAt (h.setServer k ⟨addr, weight, .ready⟩) k addr := by
  refine ⟨⟨addr, weight, .ready⟩, ?_, rfl, rfl⟩
  rw [serverOf, Haproxy.setServer_loaded, if_pos hb]
  exact Haproxy.lookup_setServer_self _ _ _

theorem ReadyAt.setServer {k k' : ServerKey} {sv : Server} (hready : ReadyAt h k' addr)
    (hne : k' ≠ k) : ReadyAt (h.setServer k sv) k' addr := by
  rw [ReadyAt, serverOf_setServer_ne hne]
  exact hready

theorem upsert_ready {backend serverName : Text} {weight : UInt32} (ha : ':' ∈ addr)
    (hcalm : calm (upsertServer backend serverName addr weight).run h = some (.ok (), h')) :
    ReadyAt h' (backend, serverName) addr ∧
      ∀ k, k ≠ (backend, serverName) → ∀ other, ReadyAt h k other → ReadyAt h' k other := by
  rw [calm_upsertServer h backend serverName ha, Option.some.injEq] at hcalm
  split_ifs at hcalm with hb
  · obtain ⟨-, rfl⟩ := Prod.mk.inj hcalm
    exact ⟨readyAt_of_hasBackend hb, fun k hne other hready => hready.setServer hne⟩
  · simp at hcalm

theorem assign_ready {serviceName domain : Text} (ha : ':' ∈ addr)
    (hcalm : calm (assignService serviceName domain addr).run h = some (.ok (), h')) :
    ReadyAt h' (servicePrimary serviceName) addr := by
  rw [calm_assignService _ _ _ ha (calm_assignService_unlocked hcalm), Option.some.injEq,
    assigned] at hcalm
  split at hcalm
  · simp at hcalm
  · rw [← Option.some.injEq, ← calm_upsertSvcServer _ _ ha] at hcalm
    exact (upsert_ready ha hcalm).1

theorem enrollCalls_assigned {id : Uuid} {serviceName domain : Text} {r : Except Error Unit}
    (hok : ∃ h'', calm (enrollCalls id addr (some (serviceName, domain))).run h = some (.ok (), h''))
    (hcalm : calm (assignService serviceName domain addr).run h = some (r, h')) :
    r = .ok () ∧ ∃ h'', calm (enrollCalls id addr none).run h' = some (.ok (), h'') := by
  obtain ⟨h'', hok⟩ := hok
  rw [enrollCalls, calm_run_bind, hcalm, Option.bind_some] at hok
  cases r with
  | ok u => exact ⟨rfl, h'', hok⟩
  | error e => simp at hok

theorem enrollCalls_succeed {id : Uuid} {svc : Option (Text × Text)} (hl : h.configLocked = false)
    (hb : hasBackend h.loaded volunteers)
    (hsvc : ∀ x ∈ svc, Config.serviceExists h.file (serviceBackend x.1) ∧
      hasBackend h.loaded (serviceBackend x.1)) (ha : ':' ∈ addr) :
    ∃ h', calm (enrollCalls id addr svc).run h = some (.ok (), h') := by
  have hown : ∀ h : Haproxy, hasBackend h.loaded volunteers →
      ∃ h', calm (enrollCalls id addr none).run h = some (.ok (), h') :=
    fun h hb => ⟨_, (calm_upsertServer h _ _ ha 100).trans (congrArg some (if_pos hb))⟩
  cases svc with
  | none => exact hown h hb
  | some x =>
      obtain ⟨hexists, hloaded⟩ := hsvc x rfl
      have hassigned : calm (assignService x.1 x.2 addr).run h =
          some (.ok (), h.setServer (servicePrimary x.1) ⟨addr, 100, .ready⟩) := by
        rw [calm_assignService _ _ _ ha hl, assigned, Config.added, if_pos hexists]
        exact congrArg some (if_pos hloaded)
      rw [enrollCalls, calm_run_bind, hassigned, Option.bind_some]
      exact hown (h.setServer (servicePrimary x.1) ⟨addr, 100, .ready⟩) hb

end HaproxyManager

namespace Registrar

open HaproxyManager Future UuidFormat

section Enrolling

variable {Uuid : Type} [DecidableEq Uuid] [UuidFormat Uuid] [Rfc3339] {s s' : World Uuid}

/-- The name and the domain of the service that an enrollment is about: the one that the volunteer
holds, or else the head of the queue. -/
def route (existing : Option ServiceAssignment) (pending : List PendingService) :
    Option (Text × Text) :=
  match existing with
  | some a => some (a.serviceName, a.domain)
  | none => pending.head?.map fun p => (p.name, p.domain)

/-- Attaching a service where the calls all succeed: which service the volunteer gets, what is left in
the queue, and that the service's server is moved. -/
theorem attached_succeeds {id : Uuid} {addr : Text} {now : DateTime}
    {existing a : Option ServiceAssignment} (hattached : Attached answering s id addr now existing a s')
    (ha : ':' ∈ addr)
    (hok : ∃ h', calm (enrollCalls id addr (route existing s.pendingServices)).run s.haproxy =
      some (.ok (), h')) :
    (∀ b, existing = some b → a = some b ∧ s'.pendingServices = s.pendingServices) ∧
    (existing = none → a = s.pendingServices.head?.map (assignmentFor · now) ∧
      s'.pendingServices = s.pendingServices.tail) ∧
    (∃ h', calm (enrollCalls id addr none).run s'.haproxy = some (.ok (), h')) ∧
    ∀ b ∈ a, ReadyAt s'.haproxy (servicePrimary b.serviceName) addr := by
  have hcalls : ∀ {t : World Uuid} {name domain : Text} {r : Except Error Unit} {h : Haproxy},
      Runs (haproxyPart answering t) (assignService name domain addr).run s.haproxy r h →
      calm (assignService name domain addr).run s.haproxy = some (r, h) :=
    fun run => haproxyPart_calm (fun _ _ _ _ hg => hg.2.1) run
  cases hattached with
  | @reattached a r h db hh hq =>
      obtain ⟨rfl, hrest⟩ := enrollCalls_assigned hok (hcalls hh)
      refine ⟨?_, by simp, hrest, ?_⟩
      · rintro b ⟨rfl⟩
        exact ⟨rfl, rfl⟩
      · rintro b ⟨rfl⟩
        exact assign_ready ha (hcalls hh)
  | @taken p ps h db hp hh hq =>
      rw [hp] at hok ⊢
      obtain ⟨-, hrest⟩ := enrollCalls_assigned hok (hcalls hh)
      refine ⟨by simp, fun _ => ⟨rfl, rfl⟩, hrest, ?_⟩
      rintro b ⟨rfl⟩
      exact assign_ready ha (hcalls hh)
  | @refused p ps e h hp hh =>
      rw [hp] at hok
      obtain ⟨hr, -⟩ := enrollCalls_assigned hok (hcalls hh)
      simp at hr
  | nothingPending hp =>
      rw [hp] at hok ⊢
      exact ⟨by simp, fun _ => ⟨rfl, rfl⟩, hok, by simp⟩

end Enrolling

end Registrar

end OpenShard
