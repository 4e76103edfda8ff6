import OpenShard.Cluster
import OpenShard.Handlers
import OpenShard.Reports

/-!
# Nodes come back

A volunteer is forgotten when it is evicted or leaves, and an answer to its agent may be lost. The
agent of a node that has its port is still only some answers away from being known: from every state
of the system, steps of that agent alone, with the registrar's answers to it, lead to one in which it
beats under an identifier that the registrar has in its map.
-/

namespace OpenShard

open Agent Registrar UuidFormat Future

namespace Agent

section Known

def Mode.Known (Uuid : Type) [UuidFormat Uuid] : Mode → Prop
  | .beating vid _ => ∃ id : Uuid, parseStr vid = some id
  | _ => True

/-- An enrollment is answered with an identifier of the registrar's. -/
def vouched (Uuid : Type) [UuidFormat Uuid] : Guard AgentOp HostEnv Host := fun _ e op _ =>
  match op with
  | .postEnroll _ => ∀ vid a, e.enrollReply = some (vid, a) → ∃ id : Uuid, parseStr vid = some id
  | _ => True

variable {Uuid : Type} [UuidFormat Uuid] {g : Guard AgentOp HostEnv Host} {vars vars' : Vars}
  {mode mode' : Mode} {h h' : Host} {port : UInt16}

theorem enrolled_beating {again : Mode} {vid : Text} {a : Option AssignmentPayload}
    (run : Runs g (enrolled vars port again (some (vid, a))) h (vars', mode') h') :
    mode' = .beating vid port := by
  cases a with
  | none =>
      obtain ⟨heq, -⟩ := (runs_pure _ _ _ _).1 run
      exact (Prod.mk.inj heq).2
  | some a =>
      rw [enrolled, runs_bind] at run
      obtain ⟨vars₁, h₁, -, run⟩ := run
      obtain ⟨heq, -⟩ := (runs_pure _ _ _ _).1 run
      exact (Prod.mk.inj heq).2

theorem enroll_known {again : Mode} (hagain : again.Known Uuid)
    (run : Runs (vouched Uuid) (do enrolled vars port again (← enroll port)) h (vars', mode') h') :
    mode'.Known Uuid := by
  rw [runs_bind] at run
  obtain ⟨reply, h₁, henroll, run⟩ := run
  cases reply with
  | none =>
      rw [enrolled, runs_bind] at run
      obtain ⟨u, h₂, -, run⟩ := run
      obtain ⟨heq, -⟩ := (runs_pure _ _ _ _).1 run
      rw [(Prod.mk.inj heq).2]
      exact hagain
  | some r =>
      obtain ⟨vid, a⟩ := r
      rw [enroll, runs_bind] at henroll
      obtain ⟨info, h₂, -, hpost⟩ := henroll
      obtain ⟨e, hvouched, he⟩ := (runs_perform _ _ _ _).1 hpost
      rw [enrolled_beating run]
      refine hvouched vid a ?_
      cases hreply : e.enrollReply with
      | none =>
          simp only [Machine.exec, hreply] at he
          cases he
      | some r =>
          simp only [Machine.exec, hreply] at he
          exact (Prod.mk.inj (Option.some.inj he)).1

theorem beat_mode {vid : Text} (run : Runs g (beat vars vid port) h (vars', mode') h') :
    mode' = .beating vid port ∨ mode' = .reEnrolling port := by
  rw [beat, runs_bind] at run
  obtain ⟨u, h₁, -, run⟩ := run
  rw [runs_bind] at run
  obtain ⟨metrics, h₂, -, run⟩ := run
  rw [runs_bind] at run
  obtain ⟨running, h₃, -, run⟩ := run
  rw [runs_bind] at run
  obtain ⟨answer, h₄, -, run⟩ := run
  cases answer with
  | ok assignment =>
      cases assignment with
      | none =>
          obtain ⟨heq, -⟩ := (runs_pure _ _ _ _).1 run
          exact .inl (Prod.mk.inj heq).2
      | some a =>
          rw [runs_bind] at run
          obtain ⟨up, h₅, -, run⟩ := run
          split_ifs at run
          · obtain ⟨heq, -⟩ := (runs_pure _ _ _ _).1 run
            exact .inl (Prod.mk.inj heq).2
          · rw [runs_bind] at run
            obtain ⟨vars₁, h₆, -, run⟩ := run
            obtain ⟨heq, -⟩ := (runs_pure _ _ _ _).1 run
            exact .inl (Prod.mk.inj heq).2
  | notFound =>
      obtain ⟨heq, -⟩ := (runs_pure _ _ _ _).1 run
      exact .inr (Prod.mk.inj heq).2
  | failed =>
      obtain ⟨heq, -⟩ := (runs_pure _ _ _ _).1 run
      exact .inl (Prod.mk.inj heq).2

theorem turn_known {script script' : Script} (hknown : script.2.Known Uuid)
    (run : Runs (vouched Uuid) (turn script) h script' h') : script'.2.Known Uuid := by
  obtain ⟨vars, mode⟩ := script
  obtain ⟨vars', mode'⟩ := script'
  cases mode with
  | waiting =>
      rw [turn, runs_bind] at run
      obtain ⟨port, h₁, -, run⟩ := run
      cases port with
      | none =>
          rw [runs_bind] at run
          obtain ⟨u, h₂, -, run⟩ := run
          obtain ⟨heq, -⟩ := (runs_pure _ _ _ _).1 run
          rw [(Prod.mk.inj heq).2]
          trivial
      | some port =>
          obtain ⟨heq, -⟩ := (runs_pure _ _ _ _).1 run
          rw [(Prod.mk.inj heq).2]
          trivial
  | enrolling port =>
      have hagain : (Mode.enrolling port).Known Uuid := trivial
      exact enroll_known hagain run
  | beating vid port =>
      rcases beat_mode run with hmode | hmode
      · exact hmode ▸ hknown
      · rw [hmode]
        trivial
  | reEnrolling port =>
      rw [turn, runs_bind] at run
      obtain ⟨port', h₁, -, run⟩ := run
      have hagain : (Mode.reEnrolling (port'.getD port)).Known Uuid := trivial
      exact enroll_known hagain run

end Known

section Idle

variable {k : Guard AgentOp HostEnv Host}

/-- The guard says nothing about what the agent reads in the file and how it is answered. -/
def Willing (k : Guard AgentOp HostEnv Host) : Prop :=
  ∀ (β : Type) (op : AgentOp β) (h : Host) (file : Option UInt16)
    (reply : Option (Text × Option AssignmentPayload)) (answer : HeartbeatAnswer),
    ∃ e, k β e op h ∧ e.publicPort = file ∧ e.enrollReply = reply ∧ e.heartbeatReply = answer

/-- The agent gets no answer, and reads this in the file. -/
def unanswered (k : Guard AgentOp HostEnv Host) (file : Option UInt16) : Guard AgentOp HostEnv Host :=
  fun β e op h => k β e op h ∧ e.publicPort = file ∧ e.enrollReply = none ∧
    e.heartbeatReply = .failed

theorem exec_isSome {β : Type} (e : HostEnv) (op : AgentOp β) (h : Host) :
    ∃ b h', Machine.exec e op h = some (b, h') := by
  cases op with
  | postEnroll body =>
      cases hreply : e.enrollReply with
      | none => exact ⟨none, h, by simp only [Machine.exec, hreply]⟩
      | some r => exact ⟨some r, h.hear (.enrolled r.2), by simp only [Machine.exec, hreply]⟩
  | postHeartbeat body =>
      cases hreply : e.heartbeatReply with
      | ok a => exact ⟨.ok a, h.hear (.heartbeat a), by simp only [Machine.exec, hreply]⟩
      | notFound => exact ⟨.notFound, h, by simp only [Machine.exec, hreply]⟩
      | failed => exact ⟨.failed, h, by simp only [Machine.exec, hreply]⟩
  | removeContainer name =>
      by_cases hdocker : e.docker
      · exact ⟨true, h.remove name, by simp only [Machine.exec, if_pos hdocker]⟩
      · exact ⟨false, h, by simp only [Machine.exec, if_neg hdocker]⟩
  | createContainer name image =>
      by_cases hdocker : e.docker
      · exact ⟨some e.cid, _, by simp only [Machine.exec, if_pos hdocker]; rfl⟩
      · exact ⟨none, h, by simp only [Machine.exec, if_neg hdocker]⟩
  | startContainer cid =>
      by_cases hdocker : e.docker
      · exact ⟨true, h.start cid, by simp only [Machine.exec, if_pos hdocker]⟩
      · exact ⟨false, h, by simp only [Machine.exec, if_neg hdocker]⟩
  | _ => exact ⟨_, _, rfl⟩

theorem exists_unanswered (hk : Willing k) (file : Option UInt16) {α : Type}
    (t : Future AgentOp α) (h : Host) : ∃ a h', Runs (unanswered k file) t h a h' := by
  induction t generalizing h with
  | ready a => exact ⟨a, h, .ready a h⟩
  | await op next ih =>
      obtain ⟨e, he, hfile, hreply, hanswer⟩ := hk _ op h file none .failed
      obtain ⟨b, h₁, hexec⟩ := exec_isSome e op h
      obtain ⟨a, h', hrest⟩ := ih b h₁
      exact ⟨a, h', .await ⟨he, hfile, hreply, hanswer⟩ hexec hrest⟩

end Idle

end Agent

namespace Cluster

section Moves

variable {ι Uuid : Type} [DecidableEq ι] (c : Cluster ι Uuid) (n : ι)

@[simp] theorem setAgent_setAgent (t t' : Future AgentOp Script)
    (host host' : Host) :
    (c.setAgent n t host).setAgent n t' host' = c.setAgent n t' host' := by
  simp [Cluster.setAgent]

theorem setAgent_self : c.setAgent n (c.scripts n) (c.hosts n) = c := by
  simp [Cluster.setAgent]

end Moves

section Comeback

variable {ι Uuid : Type} [DecidableEq ι] [DecidableEq Uuid] [UuidFormat Uuid] [Rfc3339]
  {g : Guard (RegistrarOp Uuid) (RegistrarEnv Uuid) (World Uuid)} {k : Guard AgentOp HostEnv Host}
  {h : Haproxy} {c c' c'' : Cluster ι Uuid} {n : ι}

/-- Whatever answer the turn of an agent ends with, it beats under an identifier of the registrar's. -/
def Vouched (c : Cluster ι Uuid) : Prop :=
  ∀ n script host, Runs (vouched Uuid) (c.scripts n) (c.hosts n) script host →
    script.2.Known Uuid

omit [DecidableEq Uuid] [Rfc3339] in
theorem Vouched.setAgent (hc : Vouched c) {d : Cluster ι Uuid} (hscripts : d.scripts = c.scripts)
    (hhosts : d.hosts = c.hosts) {n : ι} {script : Future AgentOp Script} {host : Host}
    (hnew : ∀ script' host', Runs (vouched Uuid) script host script' host' →
      script'.2.Known Uuid) : Vouched (d.setAgent n script host) := by
  intro m script' host' run
  by_cases hm : m = n
  · subst hm
    simp only [Cluster.setAgent, Function.update_self] at run
    exact hnew _ _ run
  · simp only [Cluster.setAgent, Function.update_of_ne hm, hscripts, hhosts] at run
    exact hc _ _ _ run

omit [DecidableEq ι] [DecidableEq Uuid] [Rfc3339] in
theorem Vouched.acts (hc : Vouched c) {n : ι} {β : Type} {op : AgentOp β}
    {next : β → Future AgentOp Script} {e : HostEnv} {b : β} {host : Host}
    (hs : c.scripts n = .await op next) (hk : vouched Uuid β e op (c.hosts n))
    (he : Machine.exec e op (c.hosts n) = some (b, host)) {script : Script} {host' : Host}
    (run : Runs (vouched Uuid) (next b) host script host') : script.2.Known Uuid := by
  refine hc n script host' ?_
  rw [hs]
  exact .await hk he run

theorem Vouched.step {l : Label ι Uuid} (hc : Vouched c) (step : Step g k c l c') :
    Vouched c' := by
  cases step with
  | request _ => exact hc
  | connect _ _ _ _ => exact hc
  | portWritten _ => exact hc
  | writeFails _ _ => exact hc
  | sessionOver _ => exact hc
  | portRemoved _ _ => exact hc
  | released _ => exact hc
  | @agent n l c' step =>
      cases step with
      | @turn script hs =>
          refine hc.setAgent rfl rfl fun script' host' run => ?_
          have hknown : script.2.Known Uuid := by
            refine hc n script (c.hosts n) ?_
            rw [hs]
            exact .ready _ _
          exact turn_known hknown run
      | @acts β op next e b host hs hfile hlost hk he =>
          refine hc.setAgent rfl rfl fun _ _ run => hc.acts hs ?_ he run
          cases op with
          | postEnroll body =>
              intro vid a hreply
              rw [hlost.1] at hreply
              cases hreply
          | _ => trivial
      | @enrolls body next e r w b host hs run hreply hk he =>
          refine hc.setAgent rfl rfl fun _ _ run' => hc.acts hs ?_ he run'
          intro vid a hvid
          rcases hreply with hreply | hreply
          · obtain ⟨r', hrun, hr⟩ := (runs_map _ _ _ _ _).1 run
            obtain rfl := Reply.enrolled.inj hr
            obtain ⟨v, hid, -⟩ := enroll_enters hrun
            rw [hreply] at hvid
            obtain ⟨rfl, -⟩ := Prod.mk.inj (Option.some.inj hvid)
            exact ⟨v.id, hid ▸ parseStr_toText v.id⟩
          · rw [hreply] at hvid
            cases hvid
      | beats hs _ _ _ _ he => exact hc.setAgent rfl rfl fun _ _ run => hc.acts hs trivial he run

theorem Reach.vouched (hreach : Reach g k h c) : Vouched c := by
  induction hreach with
  | initial =>
      intro n script host run
      obtain ⟨rfl, -⟩ := (runs_ready _ _ _ _).1 run
      trivial
  | step _ step ih => exact ih.step step

/-- Steps of the agent of the node, with the answers that it gets. -/
def Leads (g : Guard (RegistrarOp Uuid) (RegistrarEnv Uuid) (World Uuid))
    (k : Guard AgentOp HostEnv Host) (n : ι) : Cluster ι Uuid → Cluster ι Uuid → Prop :=
  Relation.ReflTransGen fun c c' => ∃ l, AgentStep g k n c l c'

theorem leads_step {t t' : Future AgentOp Script} {host host' : Host} {l : Label ι Uuid}
    (step : AgentStep g k n (c.setAgent n t host) l ((c.setAgent n t host).setAgent n t' host')) :
    Leads g k n (c.setAgent n t host) (c.setAgent n t' host') := by
  rw [setAgent_setAgent] at step
  exact .single ⟨l, step⟩

theorem leads_served {t t' : Future AgentOp Script} {host host' : Host} {q : Request Uuid}
    {r : Reply Uuid} {w : World Uuid} {l : Label ι Uuid}
    (step : AgentStep g k n (c.setAgent n t host) l
      (((c.setAgent n t host).served q r w).setAgent n t' host')) :
    Leads g k n (c.setAgent n t host) ((c.served q r w).setAgent n t' host') := by
  have hsame : ((c.setAgent n t host).served q r w).setAgent n t' host' =
      (c.served q r w).setAgent n t' host' := setAgent_setAgent (c.served q r w) n t t' host host'
  rw [hsame] at step
  exact .single ⟨l, step⟩

/-- What the agent does without answers, it does as a part of its turn. -/
theorem leads_of_run {file : Option UInt16} (hfile : file = none ∨ file = c.portFiles n) {α : Type}
    {t : Future AgentOp α} {host host' : Host} {a : α}
    (run : Runs (unanswered k file) t host a host') (f : α → Future AgentOp Script) :
    Leads g k n (c.setAgent n (t >>= f) host) (c.setAgent n (f a) host') := by
  induction run with
  | ready a host => exact .refl
  | @await β op next e h₁ h₂ h₃ b a hg he _ ih =>
      have hstep := @AgentStep.acts _ _ _ _ _ _ g k n (c.setAgent n (.await op fun b => next b >>= f) h₁)
        β op (fun b => next b >>= f) e b h₂ (Function.update_self _ _ _) (hg.2.1 ▸ hfile) hg.2.2
        (by simpa [Cluster.setAgent] using hg.1) (by simpa [Cluster.setAgent] using he)
      exact Relation.ReflTransGen.trans (leads_step hstep) ih

theorem leads_turn (script : Script) (host : Host) :
    Leads g k n (c.setAgent n (.ready script) host) (c.setAgent n (turn script) host) := by
  have hstep := @AgentStep.turn _ _ _ _ _ _ g k n (c.setAgent n (.ready script) host) script
    (Function.update_self _ _ _)
  have hhost : (c.setAgent n (.ready script) host).hosts n = host := Function.update_self _ _ _
  rw [hhost] at hstep
  exact leads_step hstep

/-- The agent beats under an identifier that the registrar has in its map. -/
def Member (n : ι) (c : Cluster ι Uuid) : Prop :=
  ∃ vars vid port, ∃ id : Uuid, ∃ v, c.scripts n = .ready (vars, .beating vid port) ∧
    parseStr vid = some id ∧ c.world.volunteers.lookup id = some v

/-- The agent of the node is only some answers away from being known. -/
def Returns (g : Guard (RegistrarOp Uuid) (RegistrarEnv Uuid) (World Uuid))
    (k : Guard AgentOp HostEnv Host) (n : ι) (c : Cluster ι Uuid) : Prop :=
  ∃ c', Leads g k n c c' ∧ Member n c'

theorem Returns.after (hleads : Leads g k n c c') (h : Returns g k n c') : Returns g k n c := by
  obtain ⟨c'', hrest, hmember⟩ := h
  exact ⟨c'', hleads.trans hrest, hmember⟩

variable (hk : Willing k)

include hk

theorem returns_bind {α : Type} (t : Future AgentOp α) {f : α → Future AgentOp Script}
    (hrest : ∀ a host, Returns g k n (c.setAgent n (f a) host)) (host : Host) :
    Returns g k n (c.setAgent n (t >>= f) host) := by
  obtain ⟨a, host', run⟩ := exists_unanswered hk none t host
  exact (hrest a host').after (leads_of_run (.inl rfl) run f)

theorem leads_enrolls {body : EnrollRequest} {r : EnrollResponse} {w : World Uuid}
    (run : Runs g (handle (.enroll body)) c.world (.enrolled r) w)
    (f : Option (Text × Option AssignmentPayload) → Future AgentOp Script) (host : Host) :
    Leads g k n (c.setAgent n (perform (.postEnroll body) >>= f) host)
      ((c.served (.enroll body) (.enrolled r) w).setAgent n (f (some (r.volunteerId, r.assignment)))
        (host.hear (.enrolled r.assignment))) := by
  obtain ⟨e, hg, -, hreply, -⟩ := hk _ (.postEnroll body) host none
    (some (r.volunteerId, r.assignment)) .failed
  refine leads_served (@AgentStep.enrolls _ _ _ _ _ _ g k n
    (c.setAgent n (.await (.postEnroll body) f) host) body f e r w _ _
    (Function.update_self _ _ _) run (.inl hreply) ?_ ?_)
  · simpa [Cluster.setAgent] using hg
  · simp [Cluster.setAgent, Machine.exec, hreply]

theorem leads_refused {body : HeartbeatBody} {id : Uuid} {err : ErrorResponse} {w : World Uuid}
    (hid : parseStr body.volunteerId = some id)
    (run : Runs g (handle (.heartbeat (body.request id))) c.world (.heartbeat (.notFound err)) w)
    (f : HeartbeatAnswer → Future AgentOp Script) (host : Host) :
    Leads g k n (c.setAgent n (perform (.postHeartbeat body) >>= f) host)
      ((c.served (.heartbeat (body.request id)) (.heartbeat (.notFound err)) w).setAgent n
        (f .notFound) host) := by
  obtain ⟨e, hg, -, -, hanswer⟩ := hk _ (.postHeartbeat body) host none none .notFound
  refine leads_served (@AgentStep.beats _ _ _ _ _ _ g k n
    (c.setAgent n (.await (.postHeartbeat body) f) host) body id f e (.notFound err) w _ _
    (Function.update_self _ _ _) hid run (.inl hanswer) ?_ ?_)
  · simpa [Cluster.setAgent] using hg
  · simp [Cluster.setAgent, Machine.exec, hanswer]

variable [Inhabited Uuid] (hg : Permits g) (hdraw : ∀ s, ∃ e, g Uuid e (.own .newV4) s)

include hg hdraw

theorem returns_enroll (hlock : c.world.haproxy.configLocked = false) (vars : Vars) (port : UInt16)
    (again : Mode) (host : Host) :
    Returns g k n (c.setAgent n (enroll port >>= enrolled vars port again) host) := by
  change Returns g k n (c.setAgent n (perform .hostFacts >>= fun info =>
    perform (.postEnroll ⟨info, port⟩) >>= enrolled vars port again) host)
  refine returns_bind hk _ (fun info h₁ => ?_) host
  obtain ⟨reply, w, hrun⟩ := (ends_handle hg hdraw (.enroll ⟨info, port⟩)).ends hlock
  obtain ⟨r, henroll, rfl⟩ := (runs_map _ _ _ _ _).1 hrun
  obtain ⟨v, hid, hinsert, -⟩ := enroll_enters henroll
  refine Returns.after (leads_enrolls hk hrun _ h₁) ?_
  obtain ⟨⟨vars', mode'⟩, h₂, hdone⟩ := exists_unanswered hk none
    (enrolled vars port again (some (r.volunteerId, r.assignment))) (h₁.hear (.enrolled r.assignment))
  obtain rfl := enrolled_beating hdone
  have hleads := @leads_of_run _ _ _ _ _ _ g k
    (c.served (.enroll ⟨info, port⟩) (.enrolled r) w) n none (.inl rfl) _ _ _ _ _ hdone pure
  rw [bind_pure] at hleads
  refine ⟨_, hleads, vars', r.volunteerId, port, v.id, v, Function.update_self _ _ _, ?_, ?_⟩
  · rw [hid]
    exact parseStr_toText v.id
  · change w.volunteers.lookup v.id = some v
    rw [hinsert]
    exact AList.lookup_insert _

theorem returns_enrolling (hlock : c.world.haproxy.configLocked = false) (vars : Vars)
    (port : UInt16) (host : Host) :
    Returns g k n (c.setAgent n (.ready (vars, .enrolling port)) host) :=
  (returns_enroll hk hg hdraw hlock vars port _ host).after (leads_turn _ host)

theorem returns_reEnrolling (hlock : c.world.haproxy.configLocked = false) (vars : Vars)
    (port : UInt16) (host : Host) :
    Returns g k n (c.setAgent n (.ready (vars, .reEnrolling port)) host) := by
  refine Returns.after (leads_turn _ host) ?_
  rw [turn]
  exact returns_bind hk _ (fun port' h₁ => returns_enroll hk hg hdraw hlock vars _ _ h₁) host

/-- A heartbeat of an unknown volunteer is answered 404, and the agent enrolls again. -/
theorem returns_unknown (hlock : c.world.haproxy.configLocked = false) {vid : Text} {id : Uuid}
    (hid : parseStr vid = some id) (hno : c.world.volunteers.lookup id = none) (vars : Vars)
    (port : UInt16) (host : Host) :
    Returns g k n (c.setAgent n (.ready (vars, .beating vid port)) host) := by
  refine Returns.after (leads_turn _ host) ?_
  rw [turn, beat]
  refine returns_bind hk _ (fun _ h₁ => returns_bind hk _ (fun metrics h₂ => ?_) h₁) host
  generalize metrics.getD (0.0, 0.0, 0.0) = m
  obtain ⟨cpu, mem, load⟩ := m
  refine returns_bind hk _ (fun running h₃ => ?_) h₂
  obtain ⟨body, hbody⟩ : ∃ body : HeartbeatBody, body = ⟨vid, cpu, mem, load, 0, running,
    if vars.serviceImage = [] then none else some vars.serviceImage⟩ := ⟨_, rfl⟩
  have hvid : parseStr body.volunteerId = some id := by
    rw [hbody]
    exact hid
  obtain ⟨reply, w, hrun⟩ := (ends_handle hg hdraw (.heartbeat (body.request id))).ends hlock
  obtain ⟨r, hbeat, rfl⟩ := (runs_map _ _ _ _ _).1 hrun
  cases heartbeat_run hbeat with
  | known hv hq hw => exact absurd (hno.symm.trans hv) (Option.some_ne_none _).symm
  | unknown hno' =>
      subst hbody
      refine Returns.after (leads_refused hk hvid hrun _ h₃) ?_
      exact @returns_reEnrolling _ _ _ _ _ _ g k (c.served _ _ c.world) n hk _ hg hdraw hlock vars
        port h₃

omit hk hg hdraw in
theorem Reach.lockFree (hreach : Reach g k h c) : c.world.haproxy.configLocked = false := by
  induction hreach with
  | initial => rfl
  | step _ step ih =>
      cases step with
      | request run => exact handle_lockFree run ih
      | agent step =>
          cases step with
          | enrolls _ run _ _ _ => exact handle_lockFree run ih
          | beats _ _ run _ _ _ => exact handle_lockFree run ih
          | _ => exact ih
      | _ => exact ih

/-- From every state of the system, the agent of a node that has its port comes back into the map with
steps of its own and the answers to them, whatever the registrar knows of it and wherever it is. -/
theorem node_returns (hreach : Reach g k h c) (hport : (c.portFiles n).isSome) :
    Returns g k n c := by
  obtain ⟨script, host, run⟩ := exists_unanswered hk none (c.scripts n) (c.hosts n)
  have hleads := @leads_of_run _ _ _ _ _ _ g k c n none (.inl rfl) _ _ _ _ _ run pure
  rw [bind_pure, setAgent_self] at hleads
  refine Returns.after hleads ?_
  have hlock := hreach.lockFree
  have hknown : script.2.Known Uuid := by
    refine hreach.vouched n script host (run.mono fun β e op s hop => ?_)
    cases op with
    | postEnroll body =>
        intro vid a hreply
        rw [hop.2.2.1] at hreply
        cases hreply
    | _ => trivial
  obtain ⟨vars, mode⟩ := script
  cases mode with
  | waiting =>
      obtain ⟨port, hfile⟩ := Option.isSome_iff_exists.1 hport
      obtain ⟨e, he, hread, hreply, hanswer⟩ := hk _ .readPublicPort host (some port) none .failed
      have hrun : Runs (unanswered k (some port)) (perform .readPublicPort) host (some port) host :=
        (runs_perform _ _ _ _).2 ⟨e, ⟨he, hread, hreply, hanswer⟩, by simp [Machine.exec, hread]⟩
      refine Returns.after ((leads_turn _ host).trans (leads_of_run (.inr hfile.symm) hrun _)) ?_
      exact returns_enrolling hk hg hdraw hlock vars port host
  | enrolling port => exact returns_enrolling hk hg hdraw hlock vars port host
  | reEnrolling port => exact returns_reEnrolling hk hg hdraw hlock vars port host
  | beating vid port =>
      obtain ⟨id, hid⟩ := hknown
      cases hv : c.world.volunteers.lookup id with
      | some v => exact ⟨_, .refl, vars, vid, port, id, v, Function.update_self _ _ _, hid, hv⟩
      | none => exact returns_unknown hk hg hdraw hlock hid hv vars port host

end Comeback

section Example

theorem willing_dockerSucceeds : Willing dockerSucceeds := by
  intro β op h file reply answer
  refine ⟨{ willing 0 h with
    publicPort := file
    cid := 'c' :: h.containers.keys.flatten
    enrollReply := reply
    heartbeatReply := answer }, ⟨rfl, List.cons_ne_nil _ _, ?_⟩, rfl, rfl, rfl⟩
  rw [AList.lookup_eq_none]
  intro hmem
  have hlen := (List.sublist_flatten_of_mem (AList.mem_keys.1 hmem)).length_le
  rw [List.length_cons] at hlen
  omega

def evictedOnce (n : Fin 2) : Moves :=
  joinsIn n ++ [.request (calmEnv 0 46000000000) .churn, .request (calmEnv 0 0) .restart]

theorem node_returns_evicted : ∃ c : Cluster (Fin 2) Node,
    Reach unhindered dockerSucceeds smallHaproxy c ∧ c.events.length = 3 ∧
      c.world.volunteers.lookup Node.a = none ∧ Returns unhindered dockerSucceeds 0 c := by
  have hrun : (playAll unhindered dockerSucceeds (calmEnv 0 0) willing (evictedOnce 0)
      ([], .initial smallHaproxy)).any fun r => decide (r.2.events.length = 3 ∧
        r.2.world.volunteers.lookup Node.a = none ∧ (r.2.portFiles 0).isSome) := by
    decide +kernel
  obtain ⟨⟨log, c⟩, hplay, hholds⟩ := (Option.any_eq_true _ _).1 hrun
  obtain ⟨hthree, hno, hport⟩ := of_decide_eq_true hholds
  have hreach := (run_of_playAll .initial hplay).reach
  exact ⟨c, hreach, hthree, hno, node_returns willing_dockerSucceeds
    (fun _ _ _ _ _ _ _ => trivial) (fun s => ⟨calmEnv 0 0 s, trivial⟩) hreach hport⟩

end Example

end Cluster

end OpenShard
