import OpenShard.Agent

/-!
# The service containers of a node

Starting a service removes the container that bears the volunteer's name and creates a new one under
it. As long as that name is the one of the container that is there, a node has one service container,
the one that the agent tracks. An agent that enrolled again under another identifier looks for its old
container under a name that it never had, and starting a service then leaves two.
-/

namespace OpenShard.Agent

open Future Registrar

/-- A container ends by itself. -/
def Host.exit (h : Host) (cid : Text) : Host :=
  match h.containers.lookup cid with
  | none => h
  | some c => { h with containers := h.containers.insert cid { c with running := false } }

/-- The turns of an agent, whatever it is answered; containers end at any points between them. -/
inductive Lives (g : Guard AgentOp HostEnv Host) : Script → Host → Prop
  | start : Lives g .initial .initial
  | turn {script script' : Script} {h h' : Host} (past : Lives g script h)
      (run : Runs g (turn script) h script' h') : Lives g script' h'
  | exit {script : Script} {h : Host} (past : Lives g script h) (cid : Text) :
      Lives g script (h.exit cid)

/-- Docker succeeds, and a service is only started where every container that exists bears the name
under which the agent looks for it. -/
def replacesOwn : Guard AgentOp HostEnv Host :=
  fun β e op h => dockerSucceeds β e op h ∧
    match op with
    | .removeContainer name => ∀ other ∈ h.named.keys, other = name
    | _ => True

section Sole

variable {g : Guard AgentOp HostEnv Host} {vars vars' : Vars} {h h' : Host}

/-- Every container is the one that is tracked, and has a name. -/
structure Sole (vars : Vars) (h : Host) : Prop where
  tracked : ∀ cid c, h.containers.lookup cid = some c → cid = vars.serviceContainerId
  named : ∀ cid c, h.containers.lookup cid = some c → ∃ name, h.named.lookup name = some cid

theorem Sole.same (hs : Sole vars h) (hcid : vars'.serviceContainerId = vars.serviceContainerId)
    (hcontainers : h'.containers = h.containers) (hnamed : h'.named = h.named) : Sole vars' h' := by
  refine ⟨fun cid c hc => ?_, fun cid c hc => ?_⟩
  · rw [hcontainers] at hc
    rw [hcid]
    exact hs.tracked cid c hc
  · rw [hcontainers] at hc
    rw [hnamed]
    exact hs.named cid c hc

theorem sole_initial : Sole Script.initial.1 .initial :=
  ⟨fun _ _ hc => by simp [Host.initial] at hc, fun _ _ hc => by simp [Host.initial] at hc⟩

theorem Sole.remove (hs : Sole vars h) {name : Text} (hname : ∀ other ∈ h.named.keys, other = name)
    (cid : Text) : (h.remove name).containers.lookup cid = none := by
  have hown : ∀ c, h.containers.lookup cid = some c → h.named.lookup name = some cid := by
    intro c hc
    obtain ⟨other, hother⟩ := hs.named cid c hc
    have hkey : other ∈ h.named.keys := by
      rw [← AList.mem_keys, ← AList.lookup_isSome, hother]
      rfl
    rw [← hname other hkey]
    exact hother
  rw [Host.remove]
  cases hlookup : h.named.lookup name with
  | none =>
      cases hc : h.containers.lookup cid with
      | none => rfl
      | some c => simp [hown c hc] at hlookup
  | some own =>
      by_cases hsame : cid = own
      · rw [hsame]
        exact AList.lookup_erase _ _
      · refine (AList.lookup_erase_ne hsame).trans ?_
        cases hc : h.containers.lookup cid with
        | none => rfl
        | some c => exact absurd (Option.some.inj ((hown c hc).symm.trans hlookup)) hsame

theorem Sole.exit (hs : Sole vars h) (cid : Text) : Sole vars (h.exit cid) := by
  rw [Host.exit]
  cases hc : h.containers.lookup cid with
  | none => exact hs
  | some c =>
      have hlookup : ∀ cid' c', (h.containers.insert cid { c with running := false }).lookup cid' =
          some c' → ∃ c'', h.containers.lookup cid' = some c'' := by
        intro cid' c' hc'
        by_cases hsame : cid' = cid
        · exact ⟨c, hsame ▸ hc⟩
        · rw [AList.lookup_insert_ne hsame] at hc'
          exact ⟨c', hc'⟩
      refine ⟨fun cid' c' hc' => ?_, fun cid' c' hc' => ?_⟩
      · obtain ⟨c'', hc''⟩ := hlookup cid' c' hc'
        exact hs.tracked cid' c'' hc''
      · obtain ⟨c'', hc''⟩ := hlookup cid' c' hc'
        exact hs.named cid' c'' hc''

theorem sole_started {name cid : Text} {c : Container}
    (hnone : ∀ cid', h.containers.lookup cid' = none)
    (hcid : vars.serviceContainerId = cid) : Sole vars ((h.create name cid c).start cid) := by
  have hcreated : (h.create name cid c).containers.lookup cid = some c := AList.lookup_insert _
  have hnamed : (h.create name cid c).named.lookup name = some cid := AList.lookup_insert _
  have hlookup : ∀ cid' c', ((h.create name cid c).start cid).containers.lookup cid' = some c' →
      cid' = cid := by
    intro cid' c' hc'
    by_contra hne
    rw [Host.start, hcreated] at hc'
    have hother : ((h.create name cid c).containers.insert cid
        { c with running := true }).lookup cid' = none := by
      rw [AList.lookup_insert_ne hne]
      exact (AList.lookup_insert_ne hne).trans (hnone cid')
    simp [hother] at hc'
  have hnames : ((h.create name cid c).start cid).named = (h.create name cid c).named := by
    rw [Host.start, hcreated]
  refine ⟨fun cid' c' hc' => (hlookup cid' c' hc').trans hcid.symm, fun cid' c' hc' => ?_⟩
  rw [hlookup cid' c' hc', hnames]
  exact ⟨name, hnamed⟩

theorem applied_sole {a : AssignmentPayload} (hs : Sole vars h)
    (run : Runs replacesOwn (applyServiceAssignment vars a) h vars' h') : Sole vars' h' := by
  obtain ⟨ip, h₁, hservice, rfl⟩ := applyServiceAssignment_steps (fun _ _ _ _ hg => hg.1) run
  obtain ⟨e, cid, address, hremove, -, -, rfl, -, rfl⟩ :=
    runService_steps (fun _ _ _ _ hg => hg.1) hservice
  have hsole := @sole_started { vars with serviceContainerId := cid, serviceImage := a.image }
    (h.remove (containerName vars)) (containerName vars) cid ⟨a.image, address, false⟩
    (hs.remove hremove.2) rfl
  exact hsole.same rfl rfl rfl

theorem Turned.sole (hs : Sole vars h) (hturned : Turned replacesOwn vars h vars' h') :
    Sole vars' h' := by
  cases hturned with
  | idle => exact hs
  | named vid => exact hs.same rfl rfl rfl
  | @assigned vid a _ _ run =>
      have hnamed : Sole { vars with volunteerId := vid } (h.hear (.enrolled (some a))) :=
        hs.same rfl rfl rfl
      exact applied_sole hnamed run
  | beaten => exact hs.same rfl rfl rfl
  | serving hup => exact hs.same rfl rfl rfl
  | @given a _ _ hdown run =>
      have hheard : Sole vars (h.hear (.heartbeat (some a))) := hs.same rfl rfl rfl
      exact applied_sole hheard run

theorem Lives.sole {script : Script} (hlives : Lives replacesOwn script h) : Sole script.1 h := by
  induction hlives with
  | start => exact sole_initial
  | turn past run ih => exact (turn_turned (fun _ _ _ _ hg => hg.1) run).sole ih
  | exit past cid ih => exact ih.exit cid

/-- In a run in which a service is only started where every container bears the name of the volunteer,
a node has at most one service container, and it is the one that the agent tracks. -/
theorem one_container {script : Script} (hlives : Lives replacesOwn script h) :
    ∀ cid ∈ h.containers, cid = script.1.serviceContainerId := by
  intro cid hcid
  obtain ⟨c, hc⟩ := Option.isSome_iff_exists.1 (AList.lookup_isSome.2 hcid)
  exact hlives.sole.tracked cid c hc

end Sole

instance (β : Type) (e : HostEnv) (op : AgentOp β) (h : Host) :
    Decidable (replacesOwn β e op h) := by
  unfold replacesOwn
  cases op <;> infer_instance

/-- An agent that is evicted after it was given a service, and enrolls again with another one, under
the identifier `vid`. -/
def evicted (vid : Text) (h : Host) : HostEnv where
  publicPort := some 7001
  info := ⟨"volunteer-101", "Linux", "x86_64", 4, "i5", 8192, 100, "27.0", "1.0", []⟩
  metrics := none
  docker := true
  cid := 'c' :: h.containers.keys.flatten
  address := "172.17.0.2"
  enrollReply := if h.answers = [] then some ("a", some ⟨"nginx", 80⟩)
    else some (vid, some ⟨"wikijs", 3000⟩)
  heartbeatReply := .notFound

/-- The agent waits for its port, enrolls, sends a heartbeat and enrolls again. -/
def turns (g : Guard AgentOp HostEnv Host) [∀ β e op h, Decidable (g β e op h)] (vid : Text) :
    ℕ → Option (Script × Host)
  | 0 => some (.initial, .initial)
  | n + 1 => (turns g vid n).bind fun r => runBy g (evicted vid) (turn r.1) r.2

theorem lives_of_turns {g : Guard AgentOp HostEnv Host} [∀ β e op h, Decidable (g β e op h)]
    {vid : Text} {n : ℕ} {script : Script} {h : Host} (hturns : turns g vid n = some (script, h)) :
    Lives g script h := by
  induction n generalizing script h with
  | zero =>
      obtain ⟨rfl, rfl⟩ := Prod.mk.inj (Option.some.inj hturns)
      exact .start
  | succ n ih =>
      obtain ⟨r, hr, hrun⟩ := Option.bind_eq_some_iff.1 hturns
      exact (ih hr).turn (runs_of_runBy _ _ _ _ _ hrun)

/-- Under a new identifier the agent does not find its old container. -/
theorem two_containers :
    ¬ ∀ (script : Script) (h : Host), Lives dockerSucceeds script h →
      ∀ cid ∈ h.containers, cid = script.1.serviceContainerId := by
  intro hclaim
  have hrun : (turns dockerSucceeds "b" 4).any fun r =>
      decide (¬ ∀ cid ∈ r.2.containers.keys, cid = r.1.1.serviceContainerId) := by
    decide +kernel
  obtain ⟨⟨script, h⟩, hturns, hbad⟩ := (Option.any_eq_true _ _).1 hrun
  exact of_decide_eq_true hbad (hclaim script h (lives_of_turns hturns))

/-- Under its old identifier it replaces the container. -/
theorem one_container_replaced :
    ∃ script h, Lives replacesOwn script h ∧ h.answers.length = 2 ∧
      ∀ cid ∈ h.containers, cid = script.1.serviceContainerId := by
  have hrun : (turns replacesOwn "a" 4).any fun r => decide (r.2.answers.length = 2) := by
    decide +kernel
  obtain ⟨⟨script, h⟩, hturns, htwo⟩ := (Option.any_eq_true _ _).1 hrun
  have hlives := lives_of_turns hturns
  exact ⟨script, h, hlives, of_decide_eq_true htwo, one_container hlives⟩

end OpenShard.Agent
