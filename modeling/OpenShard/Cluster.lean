import OpenShard.Agent
import OpenShard.Consistency
import OpenShard.Tunnel

/-!
# The whole system

The tunnel server, the registrar, and any number of nodes, each with a tunnel client (`client.rs`) and
an agent (`agent.py`). The client of a node that connects is given its ports out of the server's pool,
writes the public one to the file that the agent reads, and removes the file when the session is over;
the server gives the ports back when it notices that itself, but goes on listening on the data port.
The registrar's operations complete one after the other, those that an agent asks for, any others, and
restarts; an answer may be lost.
-/

namespace OpenShard

open Agent Registrar UuidFormat

/-- Where the loop of the tunnel client is. -/
inductive Client
  | idle
  | greeted (publicPort dataPort : UInt16)
  | serving (publicPort dataPort : UInt16)
  | ended
  deriving DecidableEq

/-- `events` are the completed operations of the registrar, the latest first, `listeners` the data ports
on which the server listens, and `lost` the ports of the sessions that are over but for the server. -/
structure Cluster (ι Uuid : Type) where
  world : World Uuid
  events : List (Event Uuid)
  used : Finset UInt16
  listeners : Finset UInt16
  lost : List (UInt16 × UInt16)
  clients : ι → Client
  portFiles : ι → Option UInt16
  hosts : ι → Host
  scripts : ι → Future AgentOp Script

/-- What a step tells: the tunnel of a node came up on a port, its agent read one, a port was reported
for a volunteer, by the agent of a node or by somebody else, or a node's heartbeat was answered 200. -/
inductive Label (ι Uuid : Type)
  | silent
  | connected (n : ι) (p : UInt16)
  | read (n : ι) (p : UInt16)
  | reported (who : Option ι) (id : Uuid) (p : UInt16)
  | answered (n : ι) (id : Uuid)
  deriving DecidableEq

variable {ι Uuid : Type}

def Agent.HeartbeatBody.request (body : HeartbeatBody) (id : Uuid) : HeartbeatRequest Uuid :=
  ⟨id, body.cpuPct, body.memPct, body.loadAvg, body.activeRequests, some body.serviceRunning,
    body.serviceImage⟩

def Agent.HeartbeatAnswer.of : HeartbeatReply → HeartbeatAnswer
  | .ok a => .ok a
  | .notFound _ => .notFound

def Agent.AgentOp.label (n : ι) : {β : Type} → AgentOp β → β → Label ι Uuid
  | _, .readPublicPort, some p => .read n p
  | _, _, _ => .silent

def Label.of [UuidFormat Uuid] (who : Option ι) : Event Uuid → Label ι Uuid
  | (.enroll body, .enrolled r) =>
    match parseStr r.volunteerId with
    | some id => .reported who id body.tunnelPublicPort
    | none => .silent
  | (.updateTunnelPort idStr port, .volunteer (.ok _)) =>
    match parseStr idStr with
    | some id => .reported who id port
    | none => .silent
  | (.heartbeat body, .heartbeat (.ok _)) =>
    match who with
    | some n => .answered n body.volunteerId
    | none => .silent
  | _ => .silent

namespace Cluster

def initial (h : Haproxy) : Cluster ι Uuid where
  world := World.initial h
  events := []
  used := ∅
  listeners := ∅
  lost := []
  clients := fun _ => .idle
  portFiles := fun _ => none
  hosts := fun _ => .initial
  scripts := fun _ => .ready .initial

section Updates

variable (c : Cluster ι Uuid)

def served (q : Request Uuid) (r : Reply Uuid) (w : World Uuid) : Cluster ι Uuid :=
  { c with world := w, events := (q, r) :: c.events }

variable [DecidableEq ι] (n : ι)

def setAgent (script : Future AgentOp Script) (host : Host) : Cluster ι Uuid :=
  { c with
    scripts := Function.update c.scripts n script
    hosts := Function.update c.hosts n host }

def setClient (client : Client) : Cluster ι Uuid :=
  { c with clients := Function.update c.clients n client }

def setFile (file : Option UInt16) : Cluster ι Uuid :=
  { c with portFiles := Function.update c.portFiles n file }

def lose (p d : UInt16) : Cluster ι Uuid := { c with lost := (p, d) :: c.lost }

end Updates

section System

variable [DecidableEq ι] [DecidableEq Uuid] [UuidFormat Uuid] [Rfc3339]

/-- What the agent of a node does in one step. It cannot read the file while it is written. A heartbeat
whose identifier cannot be read is refused, as if it did not arrive. -/
inductive AgentStep (g : Guard (RegistrarOp Uuid) (RegistrarEnv Uuid) (World Uuid))
    (k : Guard AgentOp HostEnv Host) (n : ι) (c : Cluster ι Uuid) :
    Label ι Uuid → Cluster ι Uuid → Prop
  | turn {script : Script} (hs : c.scripts n = .ready script) :
      AgentStep g k n c .silent (c.setAgent n (Agent.turn script) (c.hosts n))
  | acts {β : Type} {op : AgentOp β} {next : β → Future AgentOp Script} {e : HostEnv} {b : β}
      {host : Host} (hs : c.scripts n = .await op next)
      (hfile : e.publicPort = none ∨ e.publicPort = c.portFiles n)
      (hlost : e.enrollReply = none ∧ e.heartbeatReply = .failed) (hk : k β e op (c.hosts n))
      (he : Machine.exec e op (c.hosts n) = some (b, host)) :
      AgentStep g k n c (op.label n b) (c.setAgent n (next b) host)
  | enrolls {body : EnrollRequest}
      {next : Option (Text × Option AssignmentPayload) → Future AgentOp Script} {e : HostEnv}
      {r : EnrollResponse} {w : World Uuid} {b : Option (Text × Option AssignmentPayload)}
      {host : Host} (hs : c.scripts n = .await (.postEnroll body) next)
      (run : Runs g (handle (.enroll body)) c.world (.enrolled r) w)
      (hreply : e.enrollReply = some (r.volunteerId, r.assignment) ∨ e.enrollReply = none)
      (hk : k _ e (.postEnroll body) (c.hosts n))
      (he : Machine.exec e (AgentOp.postEnroll body) (c.hosts n) = some (b, host)) :
      AgentStep g k n c (.of (some n) (.enroll body, .enrolled r))
        ((c.served (.enroll body) (.enrolled r) w).setAgent n (next b) host)
  | beats {body : HeartbeatBody} {id : Uuid}
      {next : HeartbeatAnswer → Future AgentOp Script} {e : HostEnv} {r : HeartbeatReply}
      {w : World Uuid} {b : HeartbeatAnswer} {host : Host}
      (hs : c.scripts n = .await (.postHeartbeat body) next)
      (hid : parseStr body.volunteerId = some id)
      (run : Runs g (handle (.heartbeat (body.request id))) c.world (.heartbeat r) w)
      (hreply : e.heartbeatReply = .of r ∨ e.heartbeatReply = .failed)
      (hk : k _ e (.postHeartbeat body) (c.hosts n))
      (he : Machine.exec e (AgentOp.postHeartbeat body) (c.hosts n) = some (b, host)) :
      AgentStep g k n c (.of (some n) (.heartbeat (body.request id), .heartbeat r))
        ((c.served (.heartbeat (body.request id)) (.heartbeat r) w).setAgent n (next b) host)

/-- What any of the parties can do. The server cannot bind a port on which it listens, and the file is
not removed where that fails. -/
inductive Step (g : Guard (RegistrarOp Uuid) (RegistrarEnv Uuid) (World Uuid))
    (k : Guard AgentOp HostEnv Host) (c : Cluster ι Uuid) : Label ι Uuid → Cluster ι Uuid → Prop
  | request {q : Request Uuid} {r : Reply Uuid} {w : World Uuid}
      (run : Runs g (handle q) c.world r w) : Step g k c (.of none (q, r)) (c.served q r w)
  | connect {n : ι} {p d : UInt16} {bind bind' : UInt16 → Bool} (hc : c.clients n = .idle)
      (hbind : ∀ q ∈ c.listeners, bind q = false ∧ bind' q = false)
      (hp : Tunnel.allocatePort bind c.used = some p)
      (hd : Tunnel.allocatePort bind' (insert p c.used) = some d) :
      Step g k c (.connected n p)
        ({ c with
          used := insert d (insert p c.used)
          listeners := insert d c.listeners }.setClient n (.greeted p d))
  | portWritten {n : ι} {p d : UInt16} (hc : c.clients n = .greeted p d) :
      Step g k c .silent ((c.setClient n (.serving p d)).setFile n (some p))
  | writeFails {n : ι} {p d : UInt16} {file : Option UInt16} (hc : c.clients n = .greeted p d)
      (hfile : file = none ∨ file = c.portFiles n) :
      Step g k c .silent (((c.setClient n .idle).setFile n file).lose p d)
  | sessionOver {n : ι} {p d : UInt16} (hc : c.clients n = .serving p d) :
      Step g k c .silent ((c.setClient n .ended).lose p d)
  | portRemoved {n : ι} {file : Option UInt16} (hc : c.clients n = .ended)
      (hfile : file = none ∨ file = c.portFiles n) :
      Step g k c .silent ((c.setClient n .idle).setFile n file)
  | released {p d : UInt16} (hlost : (p, d) ∈ c.lost) :
      Step g k c .silent { c with used := (c.used.erase p).erase d, lost := c.lost.erase (p, d) }
  | agent {n : ι} {l : Label ι Uuid} {c' : Cluster ι Uuid} (step : AgentStep g k n c l c') :
      Step g k c l c'

inductive Reach (g : Guard (RegistrarOp Uuid) (RegistrarEnv Uuid) (World Uuid))
    (k : Guard AgentOp HostEnv Host) (h : Haproxy) : Cluster ι Uuid → Prop
  | initial : Reach g k h (.initial h)
  | step {c c' : Cluster ι Uuid} {l : Label ι Uuid} (past : Reach g k h c) (step : Step g k c l c') :
      Reach g k h c'

/-- Runs of the system, with what their steps told, the latest first. -/
inductive Run (g : Guard (RegistrarOp Uuid) (RegistrarEnv Uuid) (World Uuid))
    (k : Guard AgentOp HostEnv Host) (h : Haproxy) : List (Label ι Uuid) → Cluster ι Uuid → Prop
  | initial : Run g k h [] (.initial h)
  | step {c c' : Cluster ι Uuid} {l : Label ι Uuid} {log : List (Label ι Uuid)}
      (past : Run g k h log c) (step : Step g k c l c') : Run g k h (l :: log) c'

theorem Run.reach {g : Guard (RegistrarOp Uuid) (RegistrarEnv Uuid) (World Uuid)}
    {k : Guard AgentOp HostEnv Host} {h : Haproxy} {log : List (Label ι Uuid)} {c : Cluster ι Uuid}
    (run : Run g k h log c) : Reach g k h c := by
  induction run with
  | initial => exact .initial
  | step _ step ih => exact .step ih step

section Serving

variable {g : Guard (RegistrarOp Uuid) (RegistrarEnv Uuid) (World Uuid)} {h : Haproxy}
  {c c' : Cluster ι Uuid}

/-- Wherever the turn of an agent ends, the agent serves what it has settled on. -/
def Steady (c : Cluster ι Uuid) : Prop :=
  ∀ n script host, Runs dockerSucceeds (c.scripts n) (c.hosts n) script host → Settled script.1 host

omit [DecidableEq Uuid] [UuidFormat Uuid] [Rfc3339] in
theorem Steady.setAgent (hc : Steady c) {d : Cluster ι Uuid} (hscripts : d.scripts = c.scripts)
    (hhosts : d.hosts = c.hosts) {n : ι} {script : Future AgentOp Script} {host : Host}
    (hnew : ∀ script' host', Runs dockerSucceeds script host script' host' →
      Settled script'.1 host') : Steady (d.setAgent n script host) := by
  intro m script' host' run
  by_cases hm : m = n
  · subst hm
    simp only [Cluster.setAgent, Function.update_self] at run
    exact hnew _ _ run
  · simp only [Cluster.setAgent, Function.update_of_ne hm, hscripts, hhosts] at run
    exact hc _ _ _ run

omit [DecidableEq ι] [DecidableEq Uuid] [UuidFormat Uuid] [Rfc3339] in
theorem Steady.acts (hc : Steady c) {n : ι} {β : Type} {op : AgentOp β}
    {next : β → Future AgentOp Script} {e : HostEnv} {b : β} {host : Host}
    (hs : c.scripts n = .await op next) (hk : dockerSucceeds β e op (c.hosts n))
    (he : Machine.exec e op (c.hosts n) = some (b, host)) {script : Script} {host' : Host}
    (run : Runs dockerSucceeds (next b) host script host') : Settled script.1 host' := by
  refine hc n script host' ?_
  rw [hs]
  exact .await hk he run

theorem Steady.step {l : Label ι Uuid} (hc : Steady c) (step : Step g dockerSucceeds c l c') :
    Steady c' := by
  cases step with
  | request _ => exact hc
  | connect _ _ _ _ => exact hc
  | portWritten _ => exact hc
  | writeFails _ _ => exact hc
  | sessionOver _ => exact hc
  | portRemoved _ _ => exact hc
  | released _ => exact hc
  | @agent n l c' step =>
      cases step with
      | @turn script hs =>
          refine hc.setAgent rfl rfl fun script' host' run => ?_
          have hsettled : Settled script.1 (c.hosts n) := by
            refine hc n script _ ?_
            rw [hs]
            exact .ready _ _
          exact turn_settled hsettled run
      | acts hs _ _ hk he => exact hc.setAgent rfl rfl fun _ _ run => hc.acts hs hk he run
      | enrolls hs _ _ hk he => exact hc.setAgent rfl rfl fun _ _ run => hc.acts hs hk he run
      | beats hs _ _ _ hk he => exact hc.setAgent rfl rfl fun _ _ run => hc.acts hs hk he run

theorem Reach.steady (hreach : Reach g dockerSucceeds h c) : Steady c := by
  induction hreach with
  | initial =>
      intro n script host run
      obtain ⟨rfl, rfl⟩ := (runs_ready _ _ _ _).1 run
      rfl
  | step _ step ih => exact ih.step step

/-- An agent whose last answer was a heartbeat's with an assignment serves that assignment exactly if
it had not settled on another one before. -/
theorem assignment_served_iff (hreach : Reach g dockerSucceeds h c) {n : ι} {vars : Vars}
    {mode : Mode} {a : AssignmentPayload} {answers : List Answer}
    (hready : c.scripts n = .ready (vars, mode))
    (hanswers : (c.hosts n).answers = .heartbeat (some a) :: answers) :
    Serves vars (c.hosts n) a ↔ ∀ b ∈ settledOn answers, b = a := by
  refine serves_iff (hreach.steady n (vars, mode) (c.hosts n) ?_) hanswers
  rw [hready]
  exact .ready _ _

end Serving

section Play

/-- A step to play, the registrar's environment and Docker's identifiers given. -/
inductive Move (ι Uuid : Type)
  | request (strat : World Uuid → RegistrarEnv Uuid) (q : Request Uuid)
  | connect (n : ι)
  | portWritten (n : ι)
  | sessionOver (n : ι)
  | portRemoved (n : ι)
  | released (p d : UInt16)
  | agent (n : ι)

variable (g : Guard (RegistrarOp Uuid) (RegistrarEnv Uuid) (World Uuid)) (k : Guard AgentOp HostEnv Host)
  [∀ β e op s, Decidable (g β e op s)] [∀ β e op s, Decidable (k β e op s)]
  (strat : World Uuid → RegistrarEnv Uuid) (env : ι → Host → HostEnv) (c : Cluster ι Uuid)

/-- The operation that the agent awaits, every answer of the registrar delivered. -/
def playOp (n : ι) : {β : Type} → AgentOp β → (β → Future AgentOp Script) →
    Option (Label ι Uuid × Cluster ι Uuid)
  | _, .postEnroll body, next =>
    match runBy g strat (handle (.enroll body)) c.world with
    | some (.enrolled r, w) =>
      let e := { env n (c.hosts n) with enrollReply := some (r.volunteerId, r.assignment) }
      if k _ e (.postEnroll body) (c.hosts n) then
        (Machine.exec e (AgentOp.postEnroll body) (c.hosts n)).map fun x =>
          (.of (some n) (.enroll body, .enrolled r),
            (c.served (.enroll body) (.enrolled r) w).setAgent n (next x.1) x.2)
      else none
    | _ => none
  | _, .postHeartbeat body, next =>
    match (parseStr body.volunteerId : Option Uuid) with
    | none => none
    | some id =>
      match runBy g strat (handle (.heartbeat (body.request id))) c.world with
      | some (.heartbeat r, w) =>
        let e := { env n (c.hosts n) with heartbeatReply := .of r }
        if k _ e (.postHeartbeat body) (c.hosts n) then
          (Machine.exec e (AgentOp.postHeartbeat body) (c.hosts n)).map fun x =>
            (.of (some n) (.heartbeat (body.request id), .heartbeat r),
              (c.served (.heartbeat (body.request id)) (.heartbeat r) w).setAgent n (next x.1) x.2)
        else none
      | _ => none
  | _, op, next =>
    let e := { env n (c.hosts n) with
      publicPort := c.portFiles n
      enrollReply := none
      heartbeatReply := .failed }
    if k _ e op (c.hosts n) then
      (Machine.exec e op (c.hosts n)).map fun x => (op.label n x.1, c.setAgent n (next x.1) x.2)
    else none

def play : Move ι Uuid → Option (Label ι Uuid × Cluster ι Uuid)
  | .request strat q =>
    (runBy g strat (handle q) c.world).map fun r => (.of none (q, r.1), c.served q r.1 r.2)
  | .connect n =>
    let bind := fun port => decide (port ∉ c.listeners)
    if c.clients n = .idle then
      (Tunnel.allocatePort bind c.used).bind fun p =>
        (Tunnel.allocatePort bind (insert p c.used)).map fun d =>
          (.connected n p,
            { c with
              used := insert d (insert p c.used)
              listeners := insert d c.listeners }.setClient n (.greeted p d))
    else none
  | .portWritten n =>
    match c.clients n with
    | .greeted p d => some (.silent, (c.setClient n (.serving p d)).setFile n (some p))
    | _ => none
  | .sessionOver n =>
    match c.clients n with
    | .serving p d => some (.silent, (c.setClient n .ended).lose p d)
    | _ => none
  | .portRemoved n =>
    if c.clients n = .ended then some (.silent, (c.setClient n .idle).setFile n none) else none
  | .released p d =>
    if (p, d) ∈ c.lost then
      some (.silent, { c with used := (c.used.erase p).erase d, lost := c.lost.erase (p, d) })
    else none
  | .agent n =>
    match c.scripts n with
    | .ready script => some (.silent, c.setAgent n (Agent.turn script) (c.hosts n))
    | .await op next => playOp g k strat env c n op next

/-- The state after some moves, and what the steps told, the latest first. -/
def playAll : List (Move ι Uuid) → List (Label ι Uuid) × Cluster ι Uuid →
    Option (List (Label ι Uuid) × Cluster ι Uuid)
  | [], r => some r
  | m :: ms, (log, c) => (play g k strat env c m).bind fun r => playAll ms (r.1 :: log, r.2)

variable {g k strat env c} {c' : Cluster ι Uuid} {l : Label ι Uuid}

theorem step_of_playOp {n : ι} {β : Type} {op : AgentOp β} {next : β → Future AgentOp Script}
    (hs : c.scripts n = .await op next) (h : playOp g k strat env c n op next = some (l, c')) :
    AgentStep g k n c l c' := by
  have hother : ∀ {e : HostEnv}, e.publicPort = c.portFiles n → e.enrollReply = none →
      e.heartbeatReply = .failed →
      (if k _ e op (c.hosts n) then (Machine.exec e op (c.hosts n)).map fun x =>
        ((op.label n x.1 : Label ι Uuid), c.setAgent n (next x.1) x.2) else none) = some (l, c') →
      AgentStep g k n c l c' := by
    intro e hport henroll hbeat h
    split_ifs at h with hk
    obtain ⟨⟨b, host⟩, he, heq⟩ := Option.map_eq_some_iff.1 h
    obtain ⟨rfl, rfl⟩ := Prod.mk.inj heq
    exact .acts hs (Or.inr hport) ⟨henroll, hbeat⟩ hk he
  cases op with
  | postEnroll body =>
      simp only [playOp] at h
      cases hrun : runBy g strat (handle (.enroll body)) c.world with
      | none => simp [hrun] at h
      | some res =>
          obtain ⟨r, w⟩ := res
          have run := runs_of_runBy strat _ _ _ _ hrun
          obtain ⟨r, -, rfl⟩ := (runs_map _ _ _ _ _).1 run
          simp only [hrun] at h
          split_ifs at h with hk
          obtain ⟨⟨b, host⟩, he, heq⟩ := Option.map_eq_some_iff.1 h
          obtain ⟨rfl, rfl⟩ := Prod.mk.inj heq
          exact .enrolls hs run (Or.inl rfl) hk he
  | postHeartbeat body =>
      simp only [playOp] at h
      cases hid : (parseStr body.volunteerId : Option Uuid) with
      | none => simp [hid] at h
      | some id =>
          cases hrun : runBy g strat (handle (.heartbeat (body.request id))) c.world with
          | none => simp [hid, hrun] at h
          | some res =>
              obtain ⟨r, w⟩ := res
              have run := runs_of_runBy strat _ _ _ _ hrun
              obtain ⟨r, -, rfl⟩ := (runs_map _ _ _ _ _).1 run
              simp only [hid, hrun] at h
              split_ifs at h with hk
              obtain ⟨⟨b, host⟩, he, heq⟩ := Option.map_eq_some_iff.1 h
              obtain ⟨rfl, rfl⟩ := Prod.mk.inj heq
              exact .beats hs hid run (Or.inl rfl) hk he
  | sleep => exact hother rfl rfl rfl h
  | readPublicPort => exact hother rfl rfl rfl h
  | hostFacts => exact hother rfl rfl rfl h
  | metrics => exact hother rfl rfl rfl h
  | removeContainer name => exact hother rfl rfl rfl h
  | pullImage image => exact hother rfl rfl rfl h
  | createContainer name image => exact hother rfl rfl rfl h
  | startContainer cid => exact hother rfl rfl rfl h
  | containerAddress name => exact hother rfl rfl rfl h
  | containerRunning cid => exact hother rfl rfl rfl h
  | writeLocalAddr addr => exact hother rfl rfl rfl h

theorem step_of_play {m : Move ι Uuid} (h : play g k strat env c m = some (l, c')) :
    Step g k c l c' := by
  cases m with
  | request strat' q =>
      obtain ⟨⟨r, w⟩, hrun, heq⟩ := Option.map_eq_some_iff.1 h
      obtain ⟨rfl, rfl⟩ := Prod.mk.inj heq
      exact .request (runs_of_runBy strat' _ _ _ _ hrun)
  | connect n =>
      simp only [play] at h
      split_ifs at h with hc
      obtain ⟨p, hp, h⟩ := Option.bind_eq_some_iff.1 h
      obtain ⟨d, hd, h⟩ := Option.map_eq_some_iff.1 h
      obtain ⟨rfl, rfl⟩ := Prod.mk.inj h
      refine .connect hc (fun q hq => ?_) hp hd
      simp [hq]
  | portWritten n =>
      simp only [play] at h
      cases hc : c.clients n with
      | greeted p d =>
          rw [hc] at h
          obtain ⟨rfl, rfl⟩ := Prod.mk.inj (Option.some.inj h)
          exact .portWritten hc
      | idle => simp [hc] at h
      | serving p d => simp [hc] at h
      | ended => simp [hc] at h
  | sessionOver n =>
      simp only [play] at h
      cases hc : c.clients n with
      | serving p d =>
          rw [hc] at h
          obtain ⟨rfl, rfl⟩ := Prod.mk.inj (Option.some.inj h)
          exact .sessionOver hc
      | idle => simp [hc] at h
      | greeted p d => simp [hc] at h
      | ended => simp [hc] at h
  | portRemoved n =>
      simp only [play] at h
      split_ifs at h with hc
      obtain ⟨rfl, rfl⟩ := Prod.mk.inj (Option.some.inj h)
      exact .portRemoved hc (Or.inl rfl)
  | released p d =>
      simp only [play] at h
      split_ifs at h with hlost
      obtain ⟨rfl, rfl⟩ := Prod.mk.inj (Option.some.inj h)
      exact .released hlost
  | agent n =>
      simp only [play] at h
      cases hs : c.scripts n with
      | ready script =>
          rw [hs] at h
          obtain ⟨rfl, rfl⟩ := Prod.mk.inj (Option.some.inj h)
          exact .agent (.turn hs)
      | await op next =>
          rw [hs] at h
          exact .agent (step_of_playOp hs h)

theorem run_of_playAll {hx : Haproxy} {ms : List (Move ι Uuid)} {log log' : List (Label ι Uuid)}
    (hc : Run g k hx log c) (h : playAll g k strat env ms (log, c) = some (log', c')) :
    Run g k hx log' c' := by
  induction ms generalizing log c with
  | nil =>
      obtain ⟨rfl, rfl⟩ := Prod.mk.inj (Option.some.inj h)
      exact hc
  | cons m ms ih =>
      obtain ⟨⟨l, c₁⟩, hplay, h⟩ := Option.bind_eq_some_iff.1 h
      exact ih (hc.step (step_of_play hplay)) h

end Play

end System

section Plays

def willing (n : Fin 2) (h : Host) : HostEnv where
  publicPort := none
  info := (joins (if n = 0 then "volunteer-101" else "volunteer-102") 0).info
  metrics := none
  docker := true
  cid := if h.containers.lookup ("f0e1" : Text) = none then "f0e1" else "7c5d"
  address := "172.17.0.2"
  enrollReply := none
  heartbeatReply := .failed

abbrev Moves := List (Move (Fin 2) Node)

def stepsLogged (moves : Moves) : Option (List (Label (Fin 2) Node) × Cluster (Fin 2) Node) :=
  playAll answering dockerSucceeds (calmEnv 0 0) willing moves ([], .initial smallHaproxy)

def steps (moves : Moves) : Option (Cluster (Fin 2) Node) := (stepsLogged moves).map Prod.snd

theorem reach_of_steps {moves : Moves} {c : Cluster (Fin 2) Node} (h : steps moves = some c) :
    Reach answering dockerSucceeds smallHaproxy c := by
  obtain ⟨⟨log, c'⟩, hplay, rfl⟩ := Option.map_eq_some_iff.1 h
  exact (run_of_playAll .initial hplay).reach

def joinsIn (n : Fin 2) : Moves :=
  [.connect n, .portWritten n] ++ List.replicate 5 (.agent n)

def takesBlog : Moves :=
  [.request (calmEnv 0 0) (.registerService blog)] ++ joinsIn 0 ++ List.replicate 6 (.agent 0)

/-- The volunteer is evicted, its service goes to another one, and it enrolls again and is assigned a
second service. -/
def takesWiki : Moves :=
  takesBlog ++ [.request (calmEnv 0 46000000000) .churn,
    .request (calmEnv 0 0) (.enroll (joins "volunteer-103" 30900))] ++
    List.replicate 9 (.agent 0) ++ [.request (calmEnv 0 0) (.registerService wiki)] ++
    List.replicate 6 (.agent 0)

/-- The assignment of the last answer, where the turn of the agent is over. -/
def lastAssigned (c : Cluster (Fin 2) Node) : Option (Vars × AssignmentPayload) :=
  match c.scripts 0, (c.hosts 0).answers with
  | .ready (vars, _), .heartbeat (some a) :: _ => some (vars, a)
  | _, _ => none

theorem lastAssigned_eq_some {c : Cluster (Fin 2) Node} {vars : Vars} {a : AssignmentPayload}
    (h : lastAssigned c = some (vars, a)) : ∃ mode answers, c.scripts 0 = .ready (vars, mode) ∧
      (c.hosts 0).answers = .heartbeat (some a) :: answers := by
  rw [lastAssigned] at h
  split at h
  · rename_i vars' mode a' answers hs hanswers
    obtain ⟨rfl, rfl⟩ := Prod.mk.inj (Option.some.inj h)
    exact ⟨mode, answers, hs, hanswers⟩
  · simp at h

/-- An agent whose old service is still running does not take the one that it is assigned. -/
theorem assignment_not_served :
    ¬ ∀ (h : Haproxy) (c : Cluster (Fin 2) Node) (n : Fin 2) (vars : Vars) (mode : Mode)
      (a : AssignmentPayload) (answers : List Answer), Reach answering dockerSucceeds h c →
      c.scripts n = .ready (vars, mode) →
      (c.hosts n).answers = .heartbeat (some a) :: answers → Serves vars (c.hosts n) a := by
  intro hclaim
  have hbad : (steps takesWiki).any fun c => (lastAssigned c).any fun r =>
      ((c.hosts 0).containers.lookup r.1.serviceContainerId).all fun v =>
        decide (v.image ≠ r.2.image) := by
    decide +kernel
  obtain ⟨c, hsteps, hlast⟩ := (Option.any_eq_true _ _).1 hbad
  obtain ⟨⟨vars, a⟩, hassigned, hother⟩ := (Option.any_eq_true _ _).1 hlast
  obtain ⟨mode, answers, hready, hanswers⟩ := lastAssigned_eq_some hassigned
  obtain ⟨v, hv, himage, -⟩ := hclaim _ c 0 vars mode a answers (reach_of_steps hsteps) hready
    hanswers
  have hv' : (c.hosts 0).containers.lookup vars.serviceContainerId = some v := hv
  rw [hv', Option.all_some] at hother
  exact of_decide_eq_true hother himage

/-- A service that an agent without one is assigned by a heartbeat. -/
def takesBlogLater : Moves :=
  joinsIn 0 ++ [.request (calmEnv 0 0) (.registerService blog)] ++ List.replicate 10 (.agent 0)

/-- An agent that had no service runs the one that its heartbeat is answered. -/
theorem assignment_served_first :
    ∃ c vars mode a answers, steps takesBlogLater = some c ∧ c.scripts 0 = .ready (vars, mode) ∧
      (c.hosts 0).answers = .heartbeat (some a) :: answers ∧ settledOn answers = none ∧
      Serves vars (c.hosts 0) a := by
  have hgood : (steps takesBlogLater).any fun c => (lastAssigned c).isSome &&
      decide (settledOn (c.hosts 0).answers.tail = none) := by
    decide +kernel
  obtain ⟨c, hsteps, hlast⟩ := (Option.any_eq_true _ _).1 hgood
  rw [Bool.and_eq_true] at hlast
  obtain ⟨⟨vars, a⟩, hassigned⟩ := Option.isSome_iff_exists.1 hlast.1
  obtain ⟨mode, answers, hready, hanswers⟩ := lastAssigned_eq_some hassigned
  have hnone : settledOn answers = none := by
    have htail := of_decide_eq_true hlast.2
    rwa [hanswers] at htail
  have hserves := (assignment_served_iff (reach_of_steps hsteps) hready hanswers).2 fun b hb => by
    rw [hnone] at hb
    simp at hb
  exact ⟨c, vars, mode, a, answers, hsteps, hready, hanswers, hnone, hserves⟩

end Plays

end Cluster
end OpenShard
