import OpenShard.Enrollment

/-!
# The volunteer agent

`agent.py`: the agent waits for the public port that the tunnel client writes to a file, enrolls with
it, and from then on sends heartbeats. A service that a reply carries is run in a container, and the
file from which the tunnel client learns the local target is pointed at it. Each of the agent's loops
is cut into turns, and what the next turn does is decided by the mode the last one ended in.
-/

namespace OpenShard.Agent

open Future Registrar

/-- The body of a heartbeat, the identifier as the text that the enrollment answered. -/
structure HeartbeatBody where
  volunteerId : Text
  cpuPct : Float32
  memPct : Float32
  loadAvg : Float32
  activeRequests : UInt32
  serviceRunning : Bool
  serviceImage : Option Text

/-- What the heartbeat loop tells apart: an answer with status 200, status 404, and everything else. -/
inductive HeartbeatAnswer
  | ok (assignment : Option AssignmentPayload)
  | notFound
  | failed
  deriving DecidableEq

/-- What the agent waits for. A call to Docker answers `none` or `false` where the source raises. -/
inductive AgentOp : Type → Type
  | sleep : AgentOp Unit
  | readPublicPort : AgentOp (Option UInt16)
  | hostFacts : AgentOp HandshakeInfo
  | metrics : AgentOp (Option (Float32 × Float32 × Float32))
  | postEnroll (body : EnrollRequest) : AgentOp (Option (Text × Option AssignmentPayload))
  | postHeartbeat (body : HeartbeatBody) : AgentOp HeartbeatAnswer
  | removeContainer (name : Text) : AgentOp Bool
  | pullImage (image : Text) : AgentOp Bool
  | createContainer (name image : Text) : AgentOp (Option Text)
  | startContainer (cid : Text) : AgentOp Bool
  | containerAddress (name : Text) : AgentOp (Option Text)
  | containerRunning (cid : Text) : AgentOp Bool
  | writeLocalAddr (addr : Text) : AgentOp Unit

structure Vars where
  volunteerId : Text
  serviceContainerId : Text
  serviceImage : Text
  deriving DecidableEq

/-- Where the script is between two turns. -/
inductive Mode
  | waiting
  | enrolling (tunnelPublicPort : UInt16)
  | beating (currentVid : Text) (tunnelPublicPort : UInt16)
  | reEnrolling (tunnelPublicPort : UInt16)
  deriving DecidableEq

abbrev Script := Vars × Mode

def Script.initial : Script := (⟨[], [], []⟩, .waiting)

def containerName (vars : Vars) : Text := "svc_" ++ vars.volunteerId

/-- The old container of the volunteer goes, whatever its image, and a new one is started. -/
def runService (vars : Vars) (image : Text) : Future AgentOp (Vars × Option Text) := do
  if !(← perform (.removeContainer (containerName vars))) then return (vars, none)
  if !(← perform (.pullImage image)) then return (vars, none)
  match ← perform (.createContainer (containerName vars) image) with
  | none => return (vars, none)
  | some cid =>
    if !(← perform (.startContainer cid)) then return (vars, none)
    let ip ← perform (.containerAddress (containerName vars))
    return ({ vars with serviceContainerId := cid, serviceImage := image }, ip)

def serviceIsRunning (vars : Vars) : Future AgentOp Bool :=
  if vars.serviceContainerId = [] then return false
  else perform (.containerRunning vars.serviceContainerId)

/-- A service that does not come up is only reported. -/
def applyServiceAssignment (vars : Vars) (a : AssignmentPayload) : Future AgentOp Vars := do
  let (vars, ip) ← runService vars a.image
  match ip with
  | none => return vars
  | some ip =>
    perform (.writeLocalAddr (ip ++ ":" ++ Text.ofNat a.servicePort.toNat))
    return vars

def enroll (tunnelPublicPort : UInt16) : Future AgentOp (Option (Text × Option AssignmentPayload)) := do
  let info ← perform .hostFacts
  perform (.postEnroll ⟨info, tunnelPublicPort⟩)

/-- What both enrollment loops do with their answer; an attempt that fails is made again. -/
def enrolled (vars : Vars) (tunnelPublicPort : UInt16) (again : Mode) :
    Option (Text × Option AssignmentPayload) → Future AgentOp Script
  | none => do
    perform .sleep
    return (vars, again)
  | some (vid, none) => return ({ vars with volunteerId := vid }, .beating vid tunnelPublicPort)
  | some (vid, some a) => do
    let vars ← applyServiceAssignment { vars with volunteerId := vid } a
    return (vars, .beating vid tunnelPublicPort)

/-- One round of the heartbeat loop. An assignment is only applied where no service is running, and an
unknown volunteer enrolls again. -/
def beat (vars : Vars) (currentVid : Text) (tunnelPublicPort : UInt16) : Future AgentOp Script := do
  perform .sleep
  let (cpu, mem, load) := (← perform .metrics).getD (0.0, 0.0, 0.0)
  let running ← serviceIsRunning vars
  let image := if vars.serviceImage = [] then none else some vars.serviceImage
  match ← perform (.postHeartbeat ⟨currentVid, cpu, mem, load, 0, running, image⟩) with
  | .ok (some a) =>
    if ← serviceIsRunning vars then return (vars, .beating currentVid tunnelPublicPort)
    let vars ← applyServiceAssignment vars a
    return (vars, .beating currentVid tunnelPublicPort)
  | .ok none => return (vars, .beating currentVid tunnelPublicPort)
  | .notFound => return (vars, .reEnrolling tunnelPublicPort)
  | .failed => return (vars, .beating currentVid tunnelPublicPort)

def turn : Script → Future AgentOp Script
  | (vars, .waiting) => do
    match ← perform .readPublicPort with
    | none =>
      perform .sleep
      return (vars, .waiting)
    | some tunnelPublicPort => return (vars, .enrolling tunnelPublicPort)
  | (vars, .enrolling tunnelPublicPort) => do
    enrolled vars tunnelPublicPort (.enrolling tunnelPublicPort) (← enroll tunnelPublicPort)
  | (vars, .beating currentVid tunnelPublicPort) => beat vars currentVid tunnelPublicPort
  | (vars, .reEnrolling tunnelPublicPort) => do
    let tunnelPublicPort := (← perform .readPublicPort).getD tunnelPublicPort
    enrolled vars tunnelPublicPort (.reEnrolling tunnelPublicPort) (← enroll tunnelPublicPort)

structure Container where
  image : Text
  address : Text
  running : Bool
  deriving DecidableEq

inductive Answer
  | enrolled (assignment : Option AssignmentPayload)
  | heartbeat (assignment : Option AssignmentPayload)
  deriving DecidableEq

/-- The machine of a volunteer: the file that tells the tunnel client the local target, Docker's
containers by identifier and by name, and a record of the registrar's answers, the latest first. -/
structure Host where
  localAddr : Option Text
  containers : Table Text Container
  named : Table Text Text
  answers : List Answer

def Host.initial : Host := ⟨none, ∅, ∅, []⟩

/-- What is not in the hands of the agent: what it reads, and how Docker and the registrar answer. -/
structure HostEnv where
  publicPort : Option UInt16
  info : HandshakeInfo
  metrics : Option (Float32 × Float32 × Float32)
  docker : Bool
  cid : Text
  address : Text
  enrollReply : Option (Text × Option AssignmentPayload)
  heartbeatReply : HeartbeatAnswer

/-- Docker carries out what it is asked, each container under an identifier of its own. -/
def dockerSucceeds : Guard AgentOp HostEnv Host :=
  fun _ e _ h => e.docker = true ∧ e.cid ≠ [] ∧ h.containers.lookup e.cid = none

instance (β : Type) (e : HostEnv) (op : AgentOp β) (h : Host) :
    Decidable (dockerSucceeds β e op h) := inferInstanceAs (Decidable (_ ∧ _ ∧ _))

namespace Host

variable (h : Host)

def remove (name : Text) : Host :=
  match h.named.lookup name with
  | none => h
  | some cid => { h with containers := h.containers.erase cid, named := h.named.erase name }

def create (name cid : Text) (c : Container) : Host :=
  { h with containers := h.containers.insert cid c, named := h.named.insert name cid }

def start (cid : Text) : Host :=
  match h.containers.lookup cid with
  | none => h
  | some c => { h with containers := h.containers.insert cid { c with running := true } }

def addressOf (name : Text) : Text :=
  (((h.named.lookup name).bind h.containers.lookup).map (·.address)).getD []

def isRunning (cid : Text) : Bool := ((h.containers.lookup cid).map (·.running)).getD false

def hear (a : Answer) : Host := { h with answers := a :: h.answers }

end Host

instance : Machine AgentOp HostEnv Host where
  exec
    | _, .sleep, h => some ((), h)
    | e, .readPublicPort, h => some (e.publicPort, h)
    | e, .hostFacts, h => some (e.info, h)
    | e, .metrics, h => some (e.metrics, h)
    | e, .postEnroll _, h =>
      match e.enrollReply with
      | none => some (none, h)
      | some (vid, a) => some (some (vid, a), h.hear (.enrolled a))
    | e, .postHeartbeat _, h =>
      match e.heartbeatReply with
      | .ok a => some (.ok a, h.hear (.heartbeat a))
      | answer => some (answer, h)
    | e, .removeContainer name, h => if e.docker then some (true, h.remove name) else some (false, h)
    | e, .pullImage _, h => some (e.docker, h)
    | e, .createContainer name image, h =>
      if e.docker then some (some e.cid, h.create name e.cid ⟨image, e.address, false⟩)
      else some (none, h)
    | e, .startContainer cid, h => if e.docker then some (true, h.start cid) else some (false, h)
    | e, .containerAddress name, h =>
      some (if e.docker then some (h.addressOf name) else none, h)
    | e, .containerRunning cid, h => some (e.docker && h.isRunning cid, h)
    | _, .writeLocalAddr addr, h => some ((), { h with localAddr := some addr })

section Docker

def isLocal : (β : Type) → AgentOp β → Prop
  | _, .removeContainer _ => True
  | _, .pullImage _ => True
  | _, .createContainer _ _ => True
  | _, .startContainer _ => True
  | _, .containerAddress _ => True
  | _, .containerRunning _ => True
  | _, .writeLocalAddr _ => True
  | _, _ => False

theorem local_runService (vars : Vars) (image : Text) : (runService vars image).Uses isLocal := by
  refine Uses.bind (uses_perform trivial) fun removed => ?_
  split_ifs
  · exact uses_pure _
  · refine Uses.bind (uses_perform trivial) fun pulled => ?_
    split_ifs
    · exact uses_pure _
    · refine Uses.bind (uses_perform trivial) fun cid => ?_
      cases cid with
      | none => exact uses_pure _
      | some cid =>
          refine Uses.bind (uses_perform trivial) fun up => ?_
          split_ifs
          · exact uses_pure _
          · exact Uses.bind (uses_perform trivial) fun ip => uses_pure _

theorem local_applyServiceAssignment (vars : Vars) (a : AssignmentPayload) :
    (applyServiceAssignment vars a).Uses isLocal := by
  refine (local_runService vars a.image).bind fun r => ?_
  obtain ⟨vars', ip⟩ := r
  cases ip with
  | none => exact uses_pure _
  | some ip => exact Uses.bind (uses_perform trivial) fun _ => uses_pure _

theorem local_serviceIsRunning (vars : Vars) : (serviceIsRunning vars).Uses isLocal := by
  unfold serviceIsRunning
  split_ifs
  · exact uses_pure _
  · exact uses_perform trivial

end Docker

section Turns

variable {g : Guard AgentOp HostEnv Host} {vars vars' : Vars} {h h' : Host} {mode mode' : Mode}

/-- Starting a service, step by step: what bore the name is removed, and a new container is created
under it, started and tracked. -/
theorem runService_steps (hg : ∀ β e op h, g β e op h → dockerSucceeds β e op h) {image : Text}
    {ip : Option Text} (run : Runs g (runService vars image) h (vars', ip) h') :
    ∃ e cid address, g Bool e (.removeContainer (containerName vars)) h ∧ cid ≠ [] ∧
      (h.remove (containerName vars)).containers.lookup cid = none ∧
      vars' = { vars with serviceContainerId := cid, serviceImage := image } ∧
      ip = some (h'.addressOf (containerName vars)) ∧
      h' = ((h.remove (containerName vars)).create (containerName vars) cid
        ⟨image, address, false⟩).start cid := by
  rw [runService, runs_bind] at run
  obtain ⟨removed, h₁, hremove, run⟩ := run
  obtain ⟨e₁, hg₁, he₁⟩ := (runs_perform _ _ _ _).1 hremove
  simp only [Machine.exec, (hg _ _ _ _ hg₁).1, if_true, Option.some.injEq, Prod.mk.injEq] at he₁
  obtain ⟨rfl, rfl⟩ := he₁
  simp only [Bool.not_true, Bool.false_eq_true, if_false, runs_bind] at run
  obtain ⟨pulled, h₂, hpull, run⟩ := run
  obtain ⟨e₂, hg₂, he₂⟩ := (runs_perform _ _ _ _).1 hpull
  simp only [Machine.exec, (hg _ _ _ _ hg₂).1, Option.some.injEq, Prod.mk.injEq] at he₂
  obtain ⟨rfl, rfl⟩ := he₂
  simp only [Bool.not_true, Bool.false_eq_true, if_false, runs_bind] at run
  obtain ⟨created, h₃, hcreate, run⟩ := run
  obtain ⟨e₃, hg₃, he₃⟩ := (runs_perform _ _ _ _).1 hcreate
  obtain ⟨hdocker, hcid, hfresh⟩ := hg _ _ _ _ hg₃
  simp only [Machine.exec, hdocker, if_true, Option.some.injEq, Prod.mk.injEq] at he₃
  obtain ⟨rfl, rfl⟩ := he₃
  simp only [runs_bind] at run
  obtain ⟨up, h₄, hstart, run⟩ := run
  obtain ⟨e₄, hg₄, he₄⟩ := (runs_perform _ _ _ _).1 hstart
  simp only [Machine.exec, (hg _ _ _ _ hg₄).1, if_true, Option.some.injEq, Prod.mk.injEq] at he₄
  obtain ⟨rfl, rfl⟩ := he₄
  simp only [Bool.not_true, Bool.false_eq_true, if_false, runs_bind] at run
  obtain ⟨found, h₅, haddress, run⟩ := run
  obtain ⟨e₅, hg₅, he₅⟩ := (runs_perform _ _ _ _).1 haddress
  simp only [Machine.exec, (hg _ _ _ _ hg₅).1, if_true, Option.some.injEq, Prod.mk.injEq] at he₅
  obtain ⟨rfl, rfl⟩ := he₅
  obtain ⟨heq, rfl⟩ := (runs_pure _ _ _ _).1 run
  obtain ⟨rfl, rfl⟩ := Prod.mk.inj heq
  exact ⟨e₁, e₃.cid, e₃.address, hg₁, hcid, hfresh, rfl, rfl, rfl⟩

theorem applyServiceAssignment_steps (hg : ∀ β e op h, g β e op h → dockerSucceeds β e op h)
    {a : AssignmentPayload} (run : Runs g (applyServiceAssignment vars a) h vars' h') :
    ∃ address h₁, Runs g (runService vars a.image) h (vars', some address) h₁ ∧
      h' = { h₁ with localAddr := some (address ++ ":" ++ Text.ofNat a.servicePort.toNat) } := by
  rw [applyServiceAssignment, runs_bind] at run
  obtain ⟨⟨vars₁, ip⟩, h₁, hservice, run⟩ := run
  obtain ⟨e, cid, address, -, -, -, -, rfl, -⟩ := runService_steps hg hservice
  simp only [runs_bind] at run
  obtain ⟨u, h₂, hwrite, run⟩ := run
  obtain ⟨e', -, he'⟩ := (runs_perform _ _ _ _).1 hwrite
  obtain ⟨-, rfl⟩ := Prod.mk.inj (Option.some.inj he')
  obtain ⟨rfl, rfl⟩ := (runs_pure _ _ _ _).1 run
  exact ⟨_, h₁, hservice, rfl⟩

def Up (vars : Vars) (h : Host) : Prop :=
  vars.serviceContainerId ≠ [] ∧ h.isRunning vars.serviceContainerId

theorem serviceIsRunning_run (hg : ∀ β e op h, g β e op h → dockerSucceeds β e op h)
    {running : Bool} (run : Runs g (serviceIsRunning vars) h running h') :
    h' = h ∧ (running = true ↔ Up vars h) := by
  rw [serviceIsRunning] at run
  split_ifs at run with hnone
  · obtain ⟨rfl, rfl⟩ := (runs_pure _ _ _ _).1 run
    exact ⟨rfl, by simp [Up, hnone]⟩
  · obtain ⟨e, hop, he⟩ := (runs_perform _ _ _ _).1 run
    simp only [Machine.exec, (hg _ _ _ _ hop).1, Bool.true_and, Option.some.injEq,
      Prod.mk.injEq] at he
    obtain ⟨rfl, rfl⟩ := he
    exact ⟨rfl, by simp [Up, hnone]⟩

theorem enroll_run {port : UInt16} {reply : Option (Text × Option AssignmentPayload)}
    (run : Runs g (enroll port) h reply h') :
    (reply = none ∧ h' = h) ∨ ∃ vid a, reply = some (vid, a) ∧ h' = h.hear (.enrolled a) := by
  rw [enroll, runs_bind] at run
  obtain ⟨info, h₁, hinfo, run⟩ := run
  obtain ⟨e, -, he⟩ := (runs_perform _ _ _ _).1 hinfo
  obtain ⟨-, rfl⟩ := Prod.mk.inj (Option.some.inj he)
  obtain ⟨e', -, he'⟩ := (runs_perform _ _ _ _).1 run
  simp only [Machine.exec] at he'
  cases hreply : e'.enrollReply with
  | none =>
      rw [hreply] at he'
      obtain ⟨rfl, rfl⟩ := Prod.mk.inj (Option.some.inj he')
      exact Or.inl ⟨rfl, rfl⟩
  | some answer =>
      obtain ⟨vid, a⟩ := answer
      rw [hreply] at he'
      obtain ⟨rfl, rfl⟩ := Prod.mk.inj (Option.some.inj he')
      exact Or.inr ⟨vid, a, rfl, rfl⟩

/-- Everything that a turn can do: hear nothing or one answer, and apply the assignment that an
enrollment brings, or that a heartbeat brings while no service is running. -/
inductive Turned (g : Guard AgentOp HostEnv Host) (vars : Vars) (h : Host) : Vars → Host → Prop
  | idle : Turned g vars h vars h
  | named (vid : Text) :
      Turned g vars h { vars with volunteerId := vid } (h.hear (.enrolled none))
  | assigned {vid : Text} {a : AssignmentPayload} {vars' : Vars} {h' : Host}
      (run : Runs g (applyServiceAssignment { vars with volunteerId := vid } a)
        (h.hear (.enrolled (some a))) vars' h') : Turned g vars h vars' h'
  | beaten : Turned g vars h vars (h.hear (.heartbeat none))
  | serving {a : AssignmentPayload} (hup : Up vars h) :
      Turned g vars h vars (h.hear (.heartbeat (some a)))
  | given {a : AssignmentPayload} {vars' : Vars} {h' : Host} (hdown : ¬ Up vars h)
      (run : Runs g (applyServiceAssignment vars a) (h.hear (.heartbeat (some a))) vars' h') :
      Turned g vars h vars' h'

theorem enrolled_turned {port : UInt16} {again : Mode}
    (run : Runs g (do enrolled vars port again (← enroll port)) h (vars', mode') h') :
    Turned g vars h vars' h' := by
  rw [runs_bind] at run
  obtain ⟨reply, h₁, henroll, run⟩ := run
  rcases enroll_run henroll with ⟨rfl, rfl⟩ | ⟨vid, a, rfl, rfl⟩
  · rw [enrolled, runs_bind] at run
    obtain ⟨u, h₂, hsleep, run⟩ := run
    obtain ⟨e, -, he⟩ := (runs_perform _ _ _ _).1 hsleep
    obtain ⟨-, rfl⟩ := Prod.mk.inj (Option.some.inj he)
    obtain ⟨heq, rfl⟩ := (runs_pure _ _ _ _).1 run
    obtain ⟨rfl, rfl⟩ := Prod.mk.inj heq
    exact .idle
  · cases a with
    | none =>
        obtain ⟨heq, rfl⟩ := (runs_pure _ _ _ _).1 run
        obtain ⟨rfl, rfl⟩ := Prod.mk.inj heq
        exact .named vid
    | some a =>
        rw [enrolled, runs_bind] at run
        obtain ⟨vars₁, h₂, happly, run⟩ := run
        obtain ⟨heq, rfl⟩ := (runs_pure _ _ _ _).1 run
        obtain ⟨rfl, rfl⟩ := Prod.mk.inj heq
        exact .assigned happly

theorem beat_turned (hg : ∀ β e op h, g β e op h → dockerSucceeds β e op h) {vid : Text}
    {port : UInt16} (run : Runs g (beat vars vid port) h (vars', mode') h') :
    Turned g vars h vars' h' := by
  rw [beat, runs_bind] at run
  obtain ⟨u, h₁, hsleep, run⟩ := run
  obtain ⟨e, -, he⟩ := (runs_perform _ _ _ _).1 hsleep
  obtain ⟨-, rfl⟩ := Prod.mk.inj (Option.some.inj he)
  rw [runs_bind] at run
  obtain ⟨metrics, h₂, hmetrics, run⟩ := run
  obtain ⟨e₁, -, he₁⟩ := (runs_perform _ _ _ _).1 hmetrics
  obtain ⟨-, rfl⟩ := Prod.mk.inj (Option.some.inj he₁)
  rw [runs_bind] at run
  obtain ⟨running, h₃, hrunning, run⟩ := run
  obtain ⟨rfl, -⟩ := serviceIsRunning_run hg hrunning
  rw [runs_bind] at run
  obtain ⟨answer, h₄, hpost, run⟩ := run
  obtain ⟨e₂, -, he₂⟩ := (runs_perform _ _ _ _).1 hpost
  simp only [Machine.exec] at he₂
  have hdone : ∀ {k : Host} {mode : Mode}, Turned g vars h₃ vars k →
      Runs g (pure (vars, mode)) k (vars', mode') h' → Turned g vars h₃ vars' h' := by
    intro k mode hk run
    obtain ⟨heq, rfl⟩ := (runs_pure _ _ _ _).1 run
    obtain ⟨rfl, rfl⟩ := Prod.mk.inj heq
    exact hk
  cases hreply : e₂.heartbeatReply with
  | notFound =>
      rw [hreply] at he₂
      obtain ⟨rfl, rfl⟩ := Prod.mk.inj (Option.some.inj he₂)
      exact hdone .idle run
  | failed =>
      rw [hreply] at he₂
      obtain ⟨rfl, rfl⟩ := Prod.mk.inj (Option.some.inj he₂)
      exact hdone .idle run
  | ok a =>
      rw [hreply] at he₂
      obtain ⟨rfl, rfl⟩ := Prod.mk.inj (Option.some.inj he₂)
      cases a with
      | none => exact hdone .beaten run
      | some a =>
          simp only [runs_bind] at run
          obtain ⟨up, h₅, hup, run⟩ := run
          obtain ⟨rfl, hiff⟩ := serviceIsRunning_run hg hup
          have hsame : Up vars (h₃.hear (.heartbeat (some a))) ↔ Up vars h₃ := Iff.rfl
          rw [hsame] at hiff
          cases up with
          | true => exact hdone (.serving (hiff.1 rfl)) run
          | false =>
              simp only [Bool.false_eq_true, if_false, runs_bind] at run
              obtain ⟨vars₁, h₆, happly, run⟩ := run
              obtain ⟨heq, rfl⟩ := (runs_pure _ _ _ _).1 run
              obtain ⟨rfl, rfl⟩ := Prod.mk.inj heq
              exact .given (fun hyes => by simpa using hiff.2 hyes) happly

theorem turn_turned (hg : ∀ β e op h, g β e op h → dockerSucceeds β e op h)
    (run : Runs g (turn (vars, mode)) h (vars', mode') h') : Turned g vars h vars' h' := by
  cases mode with
  | waiting =>
      rw [turn, runs_bind] at run
      obtain ⟨port, h₁, hread, run⟩ := run
      obtain ⟨e, -, he⟩ := (runs_perform _ _ _ _).1 hread
      obtain ⟨-, rfl⟩ := Prod.mk.inj (Option.some.inj he)
      cases port with
      | none =>
          simp only [runs_bind] at run
          obtain ⟨u, h₂, hsleep, run⟩ := run
          obtain ⟨e', -, he'⟩ := (runs_perform _ _ _ _).1 hsleep
          obtain ⟨-, rfl⟩ := Prod.mk.inj (Option.some.inj he')
          obtain ⟨heq, rfl⟩ := (runs_pure _ _ _ _).1 run
          obtain ⟨rfl, rfl⟩ := Prod.mk.inj heq
          exact .idle
      | some port =>
          obtain ⟨heq, rfl⟩ := (runs_pure _ _ _ _).1 run
          obtain ⟨rfl, rfl⟩ := Prod.mk.inj heq
          exact .idle
  | enrolling port => exact enrolled_turned run
  | beating vid port => exact beat_turned hg run
  | reEnrolling port =>
      rw [turn, runs_bind] at run
      obtain ⟨read, h₁, hread, run⟩ := run
      obtain ⟨e, -, he⟩ := (runs_perform _ _ _ _).1 hread
      obtain ⟨-, rfl⟩ := Prod.mk.inj (Option.some.inj he)
      exact enrolled_turned run

end Turns

section Serving

/-- The container that the agent tracks was created from the image, and the file holds its address with
the port. -/
def Serves (vars : Vars) (h : Host) (a : AssignmentPayload) : Prop :=
  ∃ c ∈ h.containers.lookup vars.serviceContainerId, c.image = a.image ∧
    h.localAddr = some (c.address ++ ":" ++ Text.ofNat a.servicePort.toNat)

/-- The assignment that the agent has settled on: the last one that an enrollment answered, or the
first one that a heartbeat did. -/
def settledOn : List Answer → Option AssignmentPayload
  | [] => none
  | .enrolled a :: answers => a.or (settledOn answers)
  | .heartbeat a :: answers => (settledOn answers).or a

/-- Between two turns the agent serves what it has settled on. -/
def Settled (vars : Vars) (h : Host) : Prop :=
  match settledOn h.answers with
  | none => vars.serviceContainerId = []
  | some a => vars.serviceContainerId ≠ [] ∧ h.isRunning vars.serviceContainerId ∧ Serves vars h a

theorem Serves.unique {vars : Vars} {h : Host} {a b : AssignmentPayload} (ha : Serves vars h a)
    (hb : Serves vars h b) : a = b := by
  obtain ⟨c, hc, himage, haddr⟩ := ha
  obtain ⟨c', hc', himage', haddr'⟩ := hb
  obtain rfl := Option.some.inj (hc.symm.trans hc')
  have htext := List.append_cancel_left (Option.some.inj (haddr.symm.trans haddr'))
  have hport := Text.ofNat_injective htext
  obtain ⟨image, port⟩ := a
  obtain ⟨image', port'⟩ := b
  obtain rfl := UInt16.toNat_inj.1 hport
  obtain rfl : image = image' := himage.symm.trans himage'
  rfl

variable {vars vars' : Vars} {h h' : Host} {mode mode' : Mode}

theorem answers_remove (name : Text) : (h.remove name).answers = h.answers := by
  rw [Host.remove]
  cases h.named.lookup name with
  | none => rfl
  | some cid => rfl

theorem started (name cid image address : Text) :
    ((h.create name cid ⟨image, address, false⟩).start cid).containers.lookup cid =
        some ⟨image, address, true⟩ ∧
      ((h.create name cid ⟨image, address, false⟩).start cid).addressOf name = address ∧
      ((h.create name cid ⟨image, address, false⟩).start cid).answers = h.answers := by
  have hcreated : (h.create name cid ⟨image, address, false⟩).containers.lookup cid =
      some ⟨image, address, false⟩ := AList.lookup_insert _
  have hnamed : (h.create name cid ⟨image, address, false⟩).named.lookup name = some cid :=
    AList.lookup_insert _
  have hstarted : (h.create name cid ⟨image, address, false⟩).start cid =
      { h.create name cid ⟨image, address, false⟩ with
        containers := (h.create name cid ⟨image, address, false⟩).containers.insert cid
          ⟨image, address, true⟩ } := by
    rw [Host.start, hcreated]
  rw [hstarted]
  refine ⟨AList.lookup_insert _, ?_, rfl⟩
  simp only [Host.addressOf, hnamed, Option.bind_some, AList.lookup_insert, Option.map_some,
    Option.getD_some]

theorem runService_run {image : Text} {ip : Option Text}
    (run : Runs dockerSucceeds (runService vars image) h (vars', ip) h') :
    ∃ address, ip = some address ∧ vars'.serviceContainerId ≠ [] ∧
      h'.containers.lookup vars'.serviceContainerId = some ⟨image, address, true⟩ ∧
      h'.answers = h.answers := by
  obtain ⟨-, cid, address, -, hcid, -, rfl, rfl, rfl⟩ := runService_steps (fun _ _ _ _ => id) run
  obtain ⟨hcontainer, hfound, hanswers⟩ :=
    @started (h.remove (containerName vars)) (containerName vars) cid image address
  exact ⟨address, congrArg some hfound, hcid, hcontainer, hanswers.trans (answers_remove _)⟩

theorem applyServiceAssignment_run {a : AssignmentPayload}
    (run : Runs dockerSucceeds (applyServiceAssignment vars a) h vars' h') :
    h'.answers = h.answers ∧ Up vars' h' ∧ Serves vars' h' a := by
  obtain ⟨ip, h₁, hservice, rfl⟩ := applyServiceAssignment_steps (fun _ _ _ _ => id) run
  obtain ⟨address, heq, hcid, hcontainer, hanswers⟩ := runService_run hservice
  obtain rfl := Option.some.inj heq
  have hrunning : h₁.isRunning vars'.serviceContainerId = true := by
    rw [Host.isRunning, hcontainer]
    rfl
  exact ⟨hanswers, ⟨hcid, hrunning⟩, _, hcontainer, rfl, rfl⟩

theorem settled_of_applied {a : AssignmentPayload} (hsettled : settledOn h.answers = some a)
    (run : Runs dockerSucceeds (applyServiceAssignment vars a) h vars' h') : Settled vars' h' := by
  obtain ⟨hanswers, hup, hserves⟩ := applyServiceAssignment_run run
  rw [Settled, hanswers, hsettled]
  exact ⟨hup.1, hup.2, hserves⟩

theorem Settled.hear {vid : Text} {answer : Answer} (hs : Settled vars h)
    (hsame : settledOn (answer :: h.answers) = settledOn h.answers) :
    Settled { vars with volunteerId := vid } (h.hear answer) := by
  rw [Settled, Host.hear, hsame]
  exact hs

theorem Settled.up_iff (hs : Settled vars h) : Up vars h ↔ (settledOn h.answers).isSome := by
  rw [Settled] at hs
  cases hsettled : settledOn h.answers with
  | none =>
      rw [hsettled] at hs
      simp [Up, hs]
  | some a =>
      rw [hsettled] at hs
      simp [Up, hs.1, hs.2.1]

theorem Turned.settled (hs : Settled vars h) (hturned : Turned dockerSucceeds vars h vars' h') :
    Settled vars' h' := by
  cases hturned with
  | idle => exact hs
  | named vid => exact hs.hear rfl
  | assigned run => exact settled_of_applied rfl run
  | beaten => exact hs.hear Option.or_none
  | @serving a hup =>
      obtain ⟨b, hb⟩ := Option.isSome_iff_exists.1 (hs.up_iff.1 hup)
      refine hs.hear ?_
      rw [settledOn, hb, Option.some_or]
  | @given a _ _ hdown run =>
      have hnone : settledOn h.answers = none := by
        rw [hs.up_iff, Option.isSome_iff_ne_none, not_not] at hdown
        exact hdown
      refine settled_of_applied ?_ run
      rw [Host.hear, settledOn, hnone, Option.none_or]

/-- A turn keeps the agent serving what it has settled on. -/
theorem turn_settled (hs : Settled vars h)
    (run : Runs dockerSucceeds (turn (vars, mode)) h (vars', mode') h') : Settled vars' h' :=
  (turn_turned (fun _ _ _ _ => id) run).settled hs

theorem serves_iff (hs : Settled vars h) {a : AssignmentPayload} {answers : List Answer}
    (hanswers : h.answers = .heartbeat (some a) :: answers) :
    Serves vars h a ↔ ∀ b ∈ settledOn answers, b = a := by
  rw [Settled, hanswers, settledOn] at hs
  cases hbefore : settledOn answers with
  | none =>
      rw [hbefore, Option.none_or] at hs
      exact ⟨fun _ b hb => by simp at hb, fun _ => hs.2.2⟩
  | some b =>
      rw [hbefore, Option.some_or] at hs
      constructor
      · rintro hserves _ ⟨⟩
        exact hs.2.2.unique hserves
      · intro hsame
        obtain rfl := hsame b rfl
        exact hs.2.2

end Serving

end OpenShard.Agent
