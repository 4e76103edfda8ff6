import OpenShard.Healing

/-!
# Moving a volunteer's servers

An update of a volunteer's address takes its server in `volunteers` and then the server of its
service through maintenance, the new address and back to ready, six commands one after the other, and
ends at the first that fails. A failure between maintenance and ready leaves the server out of
service. A server that is not there is a failure, and so the service's server is not moved where the
volunteer's own has been dropped by a reload.
-/

namespace OpenShard

namespace HaproxyManager

open Future Registrar

def serverOf (h : Haproxy) (k : ServerKey) : Option Server :=
  if hasBackend h.loaded k.1 then h.servers.lookup k else none

def move (k : ServerKey) (addr : Text) : Call Unit := do
  runtime (Runtime.setState k.1 k.2 .maint)
  runtime (Runtime.setAddr k.1 k.2 addr)
  runtime (Runtime.setState k.1 k.2 .ready)

def servicePrimary (serviceName : Text) : ServerKey := (serviceBackend serviceName, primary)

section Move

variable {Uuid : Type} [UuidFormat Uuid] {h : Haproxy} {k k' : ServerKey} {sv : Server}

theorem serverOf_setServer (hk : serverOf h k ≠ none) (k' : ServerKey) :
    serverOf (h.setServer k sv) k' = if k' = k then some sv else serverOf h k' := by
  rw [serverOf, Haproxy.setServer_loaded, Haproxy.lookup_setServer]
  by_cases hsame : k' = k
  · subst hsame
    have hb : hasBackend h.loaded k'.1 := by
      by_contra hno
      exact hk (if_neg hno)
    rw [if_pos hb, if_pos rfl, if_pos rfl]
  · rw [if_neg hsame, if_neg hsame, serverOf]

theorem altered_eq (f : Server → Server) :
    (serverOf h k = none → ∃ e, Runtime.altered h k f = (.error e, h)) ∧
      ∀ sv, serverOf h k = some sv → Runtime.altered h k f = (.ok (), h.setServer k (f sv)) := by
  rw [serverOf]
  by_cases hb : hasBackend h.loaded k.1
  · rw [if_pos hb]
    exact ⟨fun hs => ⟨_, altered_of_absent hb hs f⟩, fun sv hs => altered_of_lookup hb hs f⟩
  · rw [if_neg hb]
    exact ⟨fun _ => ⟨_, altered_of_not_backend hb f⟩, fun sv hs => by simp at hs⟩

theorem updateVolunteerAddr_eq (id : Uuid) (addr : Text) (svc : Option (Text × Text)) :
    updateVolunteerAddr id addr svc = (do
      move (volunteers, serverNameFor id) addr
      match svc with
      | none => pure ()
      | some (serviceName, tunnelAddr) => move (servicePrimary serviceName) tunnelAddr) := by
  unfold updateVolunteerAddr move
  refine Eq.trans ?_ (LawfulMonad.bind_assoc _ _ _).symm
  exact congrArg (_ >>= ·) (funext fun _ => (LawfulMonad.bind_assoc _ _ _).symm)

end Move

section Failing

/-- How the client takes an answer that it only looks at for an error. -/
def heard : Except Text Text → Except RuntimeError Unit
  | .error message => .error (.io message)
  | .ok response =>
    if Runtime.isError (Text.trim response) then .error (.response (Text.trim response)) else .ok ()

def refusal (answer : Except Text Text) : Bool := decide (heard answer ≠ .ok ())

/-- The command fails wherever it is sent and changes nothing; every other one is answered. -/
def failsAt (failing : Command) : Guard HaproxyOp HaproxyEnv Haproxy :=
  fun _ e op _ =>
    match op with
    | .command cmd => if cmd = failing then e.socket.any refusal = true else e.socket = none
    | _ => True

instance (failing : Command) (β : Type) (e : HaproxyEnv) (op : HaproxyOp β) (h : Haproxy) :
    Decidable (failsAt failing β e op h) := by
  unfold failsAt
  cases op <;> infer_instance

/-- The command is one of the two that are sent while the server is in maintenance. -/
def Between (k : ServerKey) (addr : Text) (cmd : Command) : Prop :=
  cmd = .setState k.1 k.2 .ready ∨
    ∃ ip port, Text.rsplitOnce ':' addr = some (ip, port) ∧ cmd = .setAddr k.1 k.2 ip port

variable {h h' : Haproxy} {k : ServerKey} {failing cmd : Command} {f : Server → Server}
  {r : Except Error Unit} {addr : Text}

theorem discard_run {g : Guard HaproxyOp HaproxyEnv Haproxy} {r : Except RuntimeError Unit}
    (run : Runs g (do let _ ← Runtime.sendCommand cmd : Runtime.Call Unit).run h r h') :
    ∃ e answer, g _ e (HaproxyOp.command cmd) h ∧
      Machine.exec e (HaproxyOp.command cmd) h = some (answer, h') ∧ r = heard answer := by
  have hsend : ∀ {r₁ : Except RuntimeError Text} {h₁ : Haproxy},
      Runs g (Runtime.sendCommand cmd).run h r₁ h₁ →
      ∃ e answer, g _ e (HaproxyOp.command cmd) h ∧
        Machine.exec e (HaproxyOp.command cmd) h = some (answer, h₁) ∧
          (fun _ => ()) <$> r₁ = heard answer := by
    intro r₁ h₁ hrun
    obtain ⟨answer, h₂, hop, hret⟩ := (runs_bind _ _ _ _ _).1 hrun
    obtain ⟨e, hg, he⟩ := (runs_perform _ _ _ _).1 hop
    cases answer with
    | error message =>
        obtain ⟨rfl, rfl⟩ := (runs_pure _ _ _ _).1 hret
        exact ⟨e, _, hg, he, rfl⟩
    | ok response =>
        dsimp only at hret
        split_ifs at hret with herror
        · obtain ⟨rfl, rfl⟩ := (runs_pure _ _ _ _).1 hret
          exact ⟨e, _, hg, he, (if_pos herror).symm⟩
        · obtain ⟨rfl, rfl⟩ := (runs_pure _ _ _ _).1 hret
          exact ⟨e, _, hg, he, (if_neg herror).symm⟩
  rw [runs_run_bind] at run
  rcases run with ⟨a, h₁, hrun, hret⟩ | ⟨err, hrun, rfl⟩
  · obtain ⟨rfl, rfl⟩ := (runs_pure _ _ _ _).1 hret
    exact hsend hrun
  · exact hsend hrun

theorem command_failsAt (hcmd : h.command cmd = h.alter k f)
    (run : Runs (failsAt failing) (runtime (do let _ ← Runtime.sendCommand cmd)).run h r h') :
    ((cmd = failing ∨ serverOf h k = none) → (∃ e, r = .error e) ∧ h' = h) ∧
      ∀ sv, cmd ≠ failing → serverOf h k = some sv → r = .ok () ∧ h' = h.setServer k (f sv) := by
  obtain ⟨r₁, h₁, hrun, hret⟩ := (runs_bind _ _ _ _ _).1 run
  obtain ⟨rfl, rfl⟩ := (runs_pure _ _ _ _).1 hret
  obtain ⟨e, answer, hg, he, rfl⟩ := discard_run hrun
  simp only [failsAt] at hg
  by_cases hfails : cmd = failing
  · rw [if_pos hfails] at hg
    obtain ⟨forced, hsocket, hrefused⟩ := (Option.any_eq_true _ _).1 hg
    simp only [Machine.exec, hsocket, Option.some.injEq, Prod.mk.injEq] at he
    obtain ⟨rfl, rfl⟩ := he
    refine ⟨fun _ => ⟨?_, rfl⟩, fun sv hno => absurd hfails hno⟩
    cases hheard : heard forced with
    | error err => exact ⟨_, rfl⟩
    | ok u => exact absurd hheard (of_decide_eq_true hrefused)
  · rw [if_neg hfails] at hg
    have he' : some (Except.ok (h.command cmd).1, (h.command cmd).2) = some (answer, h') := by
      rw [← he]
      simp only [Machine.exec, hg]
    obtain ⟨rfl, rfl⟩ := Prod.mk.inj (Option.some.inj he')
    have hheard : (heard (.ok (h.command cmd).1), (h.command cmd).2) = Runtime.outcome h cmd := rfl
    rw [Runtime.outcome_alter h hcmd] at hheard
    have hr : heard (.ok (h.command cmd).1) = (Runtime.altered h k f).1 := congrArg Prod.fst hheard
    have hh : (h.command cmd).2 = (Runtime.altered h k f).2 := congrArg Prod.snd hheard
    refine ⟨fun hcase => ?_, fun sv _ hs => ?_⟩
    · obtain ⟨err, herr⟩ := (altered_eq f).1 (hcase.resolve_left hfails)
      rw [hr, hh, herr]
      exact ⟨⟨_, rfl⟩, rfl⟩
    · rw [hr, hh, (altered_eq f).2 sv hs]
      exact ⟨rfl, rfl⟩

inductive MoveOutcome (failing : Command) (h : Haproxy) (k : ServerKey) (addr : Text) :
    Except Error Unit → Haproxy → Prop
  | kept {e : Error} (hno : serverOf h k = none ∨ failing = .setState k.1 k.2 .maint) :
      MoveOutcome failing h k addr (.error e) h
  | stuck {e : Error} {sv sv' : Server} (hs : serverOf h k = some sv)
      (hcmd : Between k addr failing) (hmaint : sv'.state = .maint) :
      MoveOutcome failing h k addr (.error e) (h.setServer k sv')
  | moved {sv : Server} (hs : serverOf h k = some sv) (hcmd : ¬ Between k addr failing) :
      MoveOutcome failing h k addr (.ok ()) (h.setServer k ⟨addr, sv.weight, .ready⟩)

theorem command_bind_failsAt {rest : Unit → Call Unit} (hcmd : h.command cmd = h.alter k f)
    {sv : Server} (hs : serverOf h k = some sv)
    (run : Runs (failsAt failing) (runtime (do let _ ← Runtime.sendCommand cmd) >>= rest).run h r h') :
    (cmd = failing ∧ (∃ e, r = .error e) ∧ h' = h) ∨
      (cmd ≠ failing ∧ Runs (failsAt failing) (rest ()).run (h.setServer k (f sv)) r h') := by
  rw [runs_run_bind] at run
  by_cases hfails : cmd = failing
  · refine Or.inl ⟨hfails, ?_⟩
    rcases run with ⟨u, h₁, hrun, -⟩ | ⟨e, hrun, rfl⟩
    · obtain ⟨⟨e, he⟩, -⟩ := (command_failsAt hcmd hrun).1 (Or.inl hfails)
      simp at he
    · exact ⟨⟨e, rfl⟩, ((command_failsAt hcmd hrun).1 (Or.inl hfails)).2⟩
  · refine Or.inr ⟨hfails, ?_⟩
    rcases run with ⟨u, h₁, hrun, hrest⟩ | ⟨e, hrun, -⟩
    · obtain ⟨-, rfl⟩ := (command_failsAt hcmd hrun).2 sv hfails hs
      exact hrest
    · obtain ⟨he, -⟩ := (command_failsAt hcmd hrun).2 sv hfails hs
      simp at he

theorem move_failsAt (ha : ':' ∈ addr)
    (run : Runs (failsAt failing) (move k addr).run h r h') : MoveOutcome failing h k addr r h' := by
  obtain ⟨ip, port, hsplit, hjoin⟩ := Text.rsplitOnce_of_mem ha
  have haddr : ip ++ ":" ++ port = addr := by
    rw [← hjoin]
    simp
  have hset : ∀ h : Haproxy, h.command (.setAddr k.1 k.2 ip port) =
      h.alter k fun s => { s with addr } := by
    intro h
    rw [Haproxy.command, haddr]
  rw [move] at run
  cases hs : serverOf h k with
  | none =>
      rw [runs_run_bind] at run
      rcases run with ⟨u, h₁, hmaint, -⟩ | ⟨e, hmaint, rfl⟩
      · obtain ⟨⟨e, he⟩, -⟩ := (@command_failsAt h h₁ k _ (.setState k.1 k.2 .maint) _ _ rfl hmaint).1
          (Or.inr hs)
        simp at he
      · obtain ⟨-, rfl⟩ := (@command_failsAt h h' k _ (.setState k.1 k.2 .maint) _ _ rfl hmaint).1
          (Or.inr hs)
        exact .kept (Or.inl hs)
  | some sv =>
      have hk : serverOf h k ≠ none := by simp [hs]
      have hset_self : ∀ sv', serverOf (h.setServer k sv') k = some sv' := fun sv' => by
        rw [serverOf_setServer hk, if_pos rfl]
      rcases @command_bind_failsAt h h' k failing (.setState k.1 k.2 .maint) _ r _ rfl sv hs run with
        ⟨hfails, ⟨e, rfl⟩, rfl⟩ | ⟨-, run⟩
      · exact .kept (Or.inr hfails.symm)
      rw [Runtime.setAddr, hsplit] at run
      rcases command_bind_failsAt (hset _) (hset_self _) run with
        ⟨hfails, ⟨e, rfl⟩, rfl⟩ | ⟨haddrfails, run⟩
      · exact .stuck hs (Or.inr ⟨ip, port, hsplit, hfails.symm⟩) rfl
      rw [Haproxy.setServer_setServer] at run
      have hthird := @command_failsAt (h.setServer k ⟨addr, sv.weight, .maint⟩) h' k failing
        (.setState k.1 k.2 .ready) _ r rfl run
      by_cases hreadyfails : Command.setState k.1 k.2 .ready = failing
      · obtain ⟨⟨e, rfl⟩, rfl⟩ := hthird.1 (Or.inl hreadyfails)
        exact .stuck hs (Or.inl hreadyfails.symm) rfl
      · obtain ⟨rfl, rfl⟩ := hthird.2 _ hreadyfails (hset_self _)
        rw [Haproxy.setServer_setServer]
        refine @MoveOutcome.moved failing h k addr sv hs ?_
        rintro (hready | ⟨ip', port', hsplit', hcmd⟩)
        · exact hreadyfails hready.symm
        · rw [hsplit, Option.some.injEq, Prod.mk.injEq] at hsplit'
          obtain ⟨rfl, rfl⟩ := hsplit'
          exact haddrfails hcmd.symm

def Ready (h : Haproxy) (k : ServerKey) : Prop :=
  ∃ sv, serverOf h k = some sv ∧ sv.state = .ready

/-- Every server that was in service still is, at its old address or at the one it was to get. -/
def StillReady (targets : List (ServerKey × Text)) (h h' : Haproxy) : Prop :=
  ∀ k sv, serverOf h k = some sv → sv.state = .ready →
    ∃ sv', serverOf h' k = some sv' ∧ sv'.state = .ready ∧
      (sv'.addr = sv.addr ∨ (k, sv'.addr) ∈ targets)

variable {targets : List (ServerKey × Text)} {h₁ : Haproxy} {sv sv' : Server} {k' : ServerKey}

theorem StillReady.refl (h : Haproxy) : StillReady targets h h :=
  fun _ sv hs hready => ⟨sv, hs, hready, Or.inl rfl⟩

theorem StillReady.trans (hfirst : StillReady targets h h₁) (hsecond : StillReady targets h₁ h') :
    StillReady targets h h' := by
  intro k sv hs hready
  obtain ⟨sv₁, hs₁, hready₁, haddr₁⟩ := hfirst k sv hs hready
  obtain ⟨sv₂, hs₂, hready₂, haddr₂⟩ := hsecond k sv₁ hs₁ hready₁
  refine ⟨sv₂, hs₂, hready₂, ?_⟩
  rcases haddr₂ with hkept | hmoved
  · rw [hkept]
    exact haddr₁
  · exact Or.inr hmoved

theorem StillReady.ready (hstill : StillReady targets h h') (hready : Ready h k) : Ready h' k := by
  obtain ⟨sv, hs, hsv⟩ := hready
  obtain ⟨sv', hs', hsv', -⟩ := hstill k sv hs hsv
  exact ⟨sv', hs', hsv'⟩

theorem ready_setServer (hk : serverOf h k ≠ none) (hne : k' ≠ k) :
    Ready (h.setServer k sv) k' ↔ Ready h k' := by
  rw [Ready, serverOf_setServer hk, if_neg hne, Ready]

theorem not_ready_setServer (hk : serverOf h k ≠ none) (hmaint : sv.state = .maint) :
    ¬ Ready (h.setServer k sv) k := by
  rw [Ready, serverOf_setServer hk, if_pos rfl]
  rintro ⟨sv', hs, hready⟩
  obtain rfl := Option.some.inj hs
  rw [hmaint] at hready
  simp at hready

theorem stillReady_moved (hk : serverOf h k ≠ none) (htarget : (k, sv.addr) ∈ targets)
    (hready : sv.state = .ready) : StillReady targets h (h.setServer k sv) := by
  intro k' sv' hs' hready'
  rw [serverOf_setServer hk]
  by_cases hsame : k' = k
  · rw [if_pos hsame, hsame]
    exact ⟨sv, rfl, hready, Or.inr htarget⟩
  · rw [if_neg hsame]
    exact ⟨sv', hs', hready', Or.inl rfl⟩

theorem stillReady_idle (hk : serverOf h k ≠ none) (hidle : ¬ Ready h k) :
    StillReady targets h (h.setServer k sv) := by
  intro k' sv' hs' hready'
  rw [serverOf_setServer hk]
  by_cases hsame : k' = k
  · exact absurd ⟨sv', hsame ▸ hs', hready'⟩ hidle
  · rw [if_neg hsame]
    exact ⟨sv', hs', hready', Or.inl rfl⟩

theorem ready_ne_none (hready : Ready h k) : serverOf h k ≠ none := by
  obtain ⟨sv, hs, -⟩ := hready
  simp [hs]

theorem between_ne_maint (hcmd : Between k addr failing) (k' : ServerKey) :
    failing ≠ .setState k'.1 k'.2 .maint := by
  rcases hcmd with rfl | ⟨ip, port, -, rfl⟩
  · simp
  · simp

theorem not_between_of_between {addr' : Text} (hne : k.1 ≠ k'.1) (hcmd : Between k addr failing) :
    ¬ Between k' addr' failing := by
  rcases hcmd with rfl | ⟨ip, port, -, rfl⟩
  · rintro (hready | ⟨ip, port, -, haddr⟩)
    · exact hne (Command.setState.inj hready).1
    · simp at haddr
  · rintro (hready | ⟨ip', port', -, haddr⟩)
    · simp at hready
    · exact hne (Command.setAddr.inj haddr).1

/-- A move that the command breaks off leaves the server out of service. -/
theorem MoveOutcome.not_ready (hout : MoveOutcome failing h k addr r h') (hk : serverOf h k ≠ none)
    (hcmd : Between k addr failing) : (∃ e, r = .error e) ∧ ¬ Ready h' k := by
  cases hout with
  | kept hno => exact absurd (hno.resolve_left hk) (between_ne_maint hcmd k)
  | stuck hs _ hmaint => exact ⟨⟨_, rfl⟩, not_ready_setServer hk hmaint⟩
  | moved hs hnot => exact absurd hcmd hnot

theorem MoveOutcome.stillReady (hout : MoveOutcome failing h k addr r h')
    (htarget : (k, addr) ∈ targets) (hidle : Between k addr failing → ¬ Ready h k) :
    StillReady targets h h' := by
  cases hout with
  | kept hno => exact .refl h
  | stuck hs hcmd hmaint => exact stillReady_idle (by simp [hs]) (hidle hcmd)
  | moved hs _ => exact stillReady_moved (by simp [hs]) htarget rfl

end Failing

section Update

variable {Uuid : Type} [UuidFormat Uuid] {id : Uuid} {addr : Text} {svc : Option (Text × Text)}
  {failing : Command} {h h' : Haproxy} {r : Except Error Unit}

/-- The servers that an update moves, with the addresses that they get. -/
def moves (id : Uuid) (addr : Text) (svc : Option (Text × Text)) : List (ServerKey × Text) :=
  ((volunteers, serverNameFor id), addr) :: svc.toList.map fun x => (servicePrimary x.1, x.2)

/-- The command fails at no server that is in service and in maintenance for the update. -/
def Spares (failing : Command) (h : Haproxy) (id : Uuid) (addr : Text)
    (svc : Option (Text × Text)) : Prop :=
  (Between (volunteers, serverNameFor id) addr failing → ¬ Ready h (volunteers, serverNameFor id)) ∧
    ∀ x ∈ svc, Between (servicePrimary x.1) x.2 failing →
      serverOf h (volunteers, serverNameFor id) = none ∨ ¬ Ready h (servicePrimary x.1)

theorem servicePrimary_ne (id : Uuid) (name : Text) :
    servicePrimary name ≠ (volunteers, serverNameFor id) :=
  fun hsame => serviceBackend_ne_volunteers name (congrArg Prod.fst hsame)

/-- An update in which one command fails leaves every server in service that was, if it reports an
error, exactly if the command does not fail at a server that is in service and in maintenance for the
update. -/
theorem failed_update_keeps_ready_iff (ha : ':' ∈ addr) (hsvc : ∀ x ∈ svc, ':' ∈ x.2)
    (run : Runs (failsAt failing) (updateVolunteerAddr id addr svc).run h r h') :
    ((∃ e, r = .error e) → StillReady (moves id addr svc) h h') ↔ Spares failing h id addr svc := by
  rw [updateVolunteerAddr_eq, runs_run_bind] at run
  have hfirst := fun r₁ h₁ => @move_failsAt h h₁ (volunteers, serverNameFor id) failing r₁ addr ha
  have hsecond : ∀ x ∈ svc, ∀ h₁,
      Runs (failsAt failing) (move (servicePrimary x.1) x.2).run h₁ r h' →
      MoveOutcome failing h₁ (servicePrimary x.1) x.2 r h' :=
    fun x hx h₁ => move_failsAt (hsvc x hx)
  constructor
  · intro hkeeps
    refine ⟨fun hcmd hready => ?_, fun x hx hcmd => ?_⟩
    · rcases run with ⟨u, h₁, hvol, -⟩ | ⟨e, hvol, rfl⟩
      · obtain ⟨⟨e, he⟩, -⟩ := (hfirst _ _ hvol).not_ready (ready_ne_none hready) hcmd
        simp at he
      · exact ((hfirst _ _ hvol).not_ready (ready_ne_none hready) hcmd).2
          ((hkeeps ⟨e, rfl⟩).ready hready)
    · by_contra hboth
      rw [not_or, not_not] at hboth
      obtain ⟨hvol, hready⟩ := hboth
      have hready₁ := hready
      rcases run with ⟨u, h₁, hmove, run⟩ | ⟨e, hmove, rfl⟩
      · obtain rfl := Option.mem_def.1 hx
        cases hfirst _ _ hmove with
        | @moved sv hs hnot =>
            rw [← @ready_setServer h (volunteers, serverNameFor id) ⟨addr, sv.weight, .ready⟩
              (servicePrimary x.1) hvol (servicePrimary_ne id x.1)] at hready₁
            obtain ⟨⟨e, rfl⟩, hnotready⟩ :=
              (hsecond x hx _ run).not_ready (ready_ne_none hready₁) hcmd
            exact hnotready ((hkeeps ⟨e, rfl⟩).ready hready)
      · cases hfirst _ _ hmove with
        | kept hno => exact between_ne_maint hcmd _ (hno.resolve_left hvol)
        | stuck hs hstuck _ =>
            exact not_between_of_between (serviceBackend_ne_volunteers x.1) hcmd hstuck
  · rintro ⟨hvol, hservice⟩ ⟨e, rfl⟩
    have hown : ((volunteers, serverNameFor id), addr) ∈ moves id addr svc := List.mem_cons_self
    rcases run with ⟨u, h₁, hmove, run⟩ | ⟨e', hmove, -⟩
    swap
    · exact (hfirst _ _ hmove).stillReady hown hvol
    have hout := hfirst _ _ hmove
    refine (hout.stillReady hown hvol).trans ?_
    cases svc with
    | none =>
        obtain ⟨hr, -⟩ := (runs_pure _ _ _ _).1 run
        simp at hr
    | some x =>
        refine (hsecond x rfl _ run).stillReady (List.mem_cons_of_mem _ List.mem_cons_self) ?_
        intro hcmd
        cases hout with
        | moved hs hnot =>
            rw [ready_setServer (by simp [hs]) (servicePrimary_ne id x.1)]
            exact (hservice x rfl hcmd).resolve_left (by simp [hs])

def ReadyAt (h : Haproxy) (k : ServerKey) (addr : Text) : Prop :=
  ∃ sv, serverOf h k = some sv ∧ sv.state = .ready ∧ sv.addr = addr

theorem readyAt_setServer_self {k : ServerKey} {weight : UInt32} (hk : serverOf h k ≠ none) :
    ReadyAt (h.setServer k ⟨addr, weight, .ready⟩) k addr :=
  ⟨_, by rw [serverOf_setServer hk, if_pos rfl], rfl, rfl⟩

theorem readyAt_setServer {k k' : ServerKey} {sv : Server} (hk : serverOf h k ≠ none) (hne : k' ≠ k) :
    ReadyAt (h.setServer k sv) k' addr ↔ ReadyAt h k' addr := by
  rw [ReadyAt, serverOf_setServer hk, if_neg hne, ReadyAt]

theorem retargeted_eq (h : Haproxy) (k : ServerKey) (addr : Text) :
    (serverOf h k = none → ∃ e, retargeted h k addr = (.error e, h)) ∧
      ∀ sv, serverOf h k = some sv →
        retargeted h k addr = (.ok (), h.setServer k ⟨addr, sv.weight, .ready⟩) := by
  rw [serverOf, retargeted]
  by_cases hb : hasBackend h.loaded k.1
  · rw [if_pos hb, if_pos hb]
    exact ⟨fun hs => ⟨_, by rw [hs]⟩, fun sv hs => by rw [hs]⟩
  · rw [if_neg hb, if_neg hb]
    exact ⟨fun _ => ⟨_, rfl⟩, fun sv hs => by simp at hs⟩

/-- Where HAProxy answers, both servers end ready at the new address exactly if the volunteer's own was
there, or its service's was ready at that address before. -/
theorem updated_reaches_service_iff {name : Text} (ha : ':' ∈ addr)
    (hsvc : serverOf h (servicePrimary name) ≠ none)
    (hcalm : calm (updateVolunteerAddr id addr (some (name, addr))).run h = some (r, h')) :
    (ReadyAt h' (servicePrimary name) addr ∧
      (serverOf h' (volunteers, serverNameFor id) ≠ none →
        ReadyAt h' (volunteers, serverNameFor id) addr)) ↔
      (serverOf h (volunteers, serverNameFor id) ≠ none ∨ ReadyAt h (servicePrimary name) addr) := by
  have hcolons : ∀ x ∈ some (name, addr), ':' ∈ x.2 := by
    rintro x ⟨rfl⟩
    exact ha
  rw [calm_updateVolunteerAddr h id ha hcolons] at hcalm
  cases hs : serverOf h (volunteers, serverNameFor id) with
  | none =>
      obtain ⟨e, he⟩ := (retargeted_eq h (volunteers, serverNameFor id) addr).1 hs
      rw [he] at hcalm
      obtain ⟨-, rfl⟩ := Prod.mk.inj (Option.some.inj hcalm)
      simp [hs]
  | some sv =>
      have hvol : serverOf h (volunteers, serverNameFor id) ≠ none := by simp [hs]
      rw [(retargeted_eq h (volunteers, serverNameFor id) addr).2 sv hs] at hcalm
      obtain ⟨sv', hs'⟩ := Option.ne_none_iff_exists'.1 hsvc
      have hs₁ : serverOf (h.setServer (volunteers, serverNameFor id) ⟨addr, sv.weight, .ready⟩)
          (servicePrimary name) = some sv' := by
        rw [serverOf_setServer hvol, if_neg (servicePrimary_ne id name), hs']
      have hthen := (retargeted_eq _ (servicePrimary name) addr).2 sv' hs₁
      obtain ⟨-, rfl⟩ := Prod.mk.inj (Option.some.inj (hcalm.symm.trans (congrArg some hthen)))
      have hsvc₁ : serverOf (h.setServer (volunteers, serverNameFor id) ⟨addr, sv.weight, .ready⟩)
          (servicePrimary name) ≠ none := by simp [hs₁]
      refine iff_of_true ⟨readyAt_setServer_self hsvc₁, fun _ => ?_⟩ (Or.inl (by simp))
      rw [readyAt_setServer hsvc₁ (servicePrimary_ne id name).symm]
      exact readyAt_setServer_self hvol

def joined : Haproxy :=
  smallHaproxy.setServer (volunteers, serverNameFor Node.a) ⟨"10.8.0.2:7001", 100, .ready⟩

/-- HAProxy refuses whatever is sent while the volunteer's server is at its new address. -/
def refusesAtNew (h : Haproxy) : HaproxyEnv :=
  if h.servers.lookup (volunteers, serverNameFor Node.a) = some ⟨"10.8.0.2:7002", 100, .maint⟩ then
    { HaproxyEnv.calm with socket := some (.error "broken pipe") }
  else .calm

/-- The server is left in maintenance when the last command fails. -/
theorem failed_update_loses_ready :
    ¬ ∀ (failing : Command) (id : Node) (addr : Text) (svc : Option (Text × Text)) (h h' : Haproxy)
      (e : Error), ':' ∈ addr → (∀ x ∈ svc, ':' ∈ x.2) →
      Runs (failsAt failing) (updateVolunteerAddr id addr svc).run h (.error e) h' →
      StillReady (moves id addr svc) h h' := by
  intro hclaim
  have hrun : (runBy (failsAt (.setState volunteers (serverNameFor Node.a) .ready)) refusesAtNew
      (updateVolunteerAddr Node.a "10.8.0.2:7002" none).run joined).any fun r =>
        decide (r.1 = .error (.runtime (.io "broken pipe"))) &&
          decide (serverOf r.2 (volunteers, serverNameFor Node.a) =
            some ⟨"10.8.0.2:7002", 100, .maint⟩) := by
    decide +kernel
  obtain ⟨⟨r, h'⟩, hupdate, hbad⟩ := (Option.any_eq_true _ _).1 hrun
  simp only [Bool.and_eq_true, decide_eq_true_eq] at hbad
  obtain ⟨rfl, hmaint⟩ := hbad
  have hjoined : serverOf joined (volunteers, serverNameFor Node.a) =
      some ⟨"10.8.0.2:7001", 100, .ready⟩ := by decide +kernel
  obtain ⟨sv, hs, hready, -⟩ := hclaim _ _ _ _ _ _ _ (by decide) (by simp)
    (runs_of_runBy _ _ _ _ _ hupdate) _ _ hjoined rfl
  obtain rfl := Option.some.inj (hmaint.symm.trans hs)
  simp at hready

/-- The server stays in service when the first command fails. -/
theorem failed_update_keeps_ready :
    ∃ r h', Runs (failsAt (.setState volunteers (serverNameFor Node.a) .maint))
        (updateVolunteerAddr Node.a "10.8.0.2:7002" none).run joined r h' ∧
      (∃ e, r = .error e) ∧ StillReady (moves Node.a "10.8.0.2:7002" none) joined h' := by
  have hrun : (runBy (failsAt (.setState volunteers (serverNameFor Node.a) .maint))
      (fun _ => { HaproxyEnv.calm with socket := some (.error "broken pipe") })
      (updateVolunteerAddr Node.a "10.8.0.2:7002" none).run joined).any fun r =>
        decide (r.1 = .error (.runtime (.io "broken pipe"))) := by
    decide +kernel
  obtain ⟨⟨r, h'⟩, hupdate, hfails⟩ := (Option.any_eq_true _ _).1 hrun
  have hr := of_decide_eq_true hfails
  have run := runs_of_runBy _ _ _ _ _ hupdate
  refine ⟨r, h', run, ⟨_, hr⟩, (failed_update_keeps_ready_iff (by decide) (by simp) run).2 ?_ ⟨_, hr⟩⟩
  exact ⟨fun hcmd => (between_ne_maint hcmd (volunteers, serverNameFor Node.a) rfl).elim, by simp⟩

end Update

end HaproxyManager

namespace Registrar

open HaproxyManager Future UuidFormat

section Routes

variable {Uuid : Type} [DecidableEq Uuid] [UuidFormat Uuid] [Rfc3339] {s s' : World Uuid}

def socketAnswers : Guard (RegistrarOp Uuid) (RegistrarEnv Uuid) (World Uuid) :=
  fun _ e _ _ => e.haproxy.socket = none

instance (β : Type) (e : RegistrarEnv Uuid) (op : RegistrarOp Uuid β) (s : World Uuid) :
    Decidable (socketAnswers β e op s) := inferInstanceAs (Decidable (_ = none))

/-- After an answered report of a port, the servers of the volunteer and of its service are ready at
the address of that port exactly if the volunteer's own was in HAProxy's table, or that of its service
was ready there before. -/
theorem update_reaches_service_iff {idStr : Text} {port : UInt16} {status : Text} {id : Uuid}
    {v : VolunteerState Uuid} {a : ServiceAssignment} (hparse : parseStr idStr = some id)
    (hv : s.volunteers.lookup id = some v) (ha : v.assignedService = some a)
    (hsvc : serverOf s.haproxy (servicePrimary a.serviceName) ≠ none)
    (run : Runs socketAnswers (updateTunnelPort idStr port) s (.ok status) s') :
    ∃ addr, Runs socketAnswers (serviceAddrFor port) s addr s ∧
      s'.volunteers.lookup id = some (v.moveTo addr) ∧
      ((ReadyAt s'.haproxy (servicePrimary a.serviceName) addr ∧
        (serverOf s'.haproxy (volunteers, serverNameFor id) ≠ none →
          ReadyAt s'.haproxy (volunteers, serverNameFor id) addr)) ↔
        (serverOf s.haproxy (volunteers, serverNameFor id) ≠ none ∨
          ReadyAt s.haproxy (servicePrimary a.serviceName) addr)) := by
  obtain ⟨hmoved, ⟨hno, -⟩ | ⟨id', v', addr, hparse', -, hv', hstored, haddr⟩⟩ :=
    updateTunnelPort_stores run
  · exact absurd rfl (hno status)
  obtain rfl : id = id' := Option.some.inj (hparse.symm.trans hparse')
  obtain rfl : v = v' := Option.some.inj (hv.symm.trans hv')
  have hlookup : s'.volunteers.lookup id = some (v.moveTo addr) := by
    rw [hstored]
    exact AList.lookup_insert _
  refine ⟨addr, haddr, hlookup, ?_⟩
  cases hmoved with
  | @known id' v' addr' _ _ _ hparse' hcolon hv' _ _ _ hh =>
      obtain rfl : id = id' := Option.some.inj (hparse.symm.trans hparse')
      obtain rfl : v = v' := Option.some.inj (hv.symm.trans hv')
      have hlookup' : (s.volunteers.insert id (v.moveTo addr')).lookup id =
          some (v.moveTo addr') := AList.lookup_insert _
      obtain rfl : addr' = addr := congrArg (fun w => w.info.serviceAddr)
        (Option.some.inj (hlookup'.symm.trans hlookup))
      have hcalm := calm_of_answers (by
        rintro β e op h ⟨e', rfl, hsocket⟩
        exact hsocket) (uses_updateVolunteerAddr _ _ _) hh
      rw [svcInfo, ha] at hcalm
      exact updated_reaches_service_iff hcolon hsvc hcalm

end Routes

def reported (requests : List (Request Node)) : Option (World Node × VolunteerReply × World Node) :=
  match replay socketAnswers (calmEnv 0 0) requests (.initial smallHaproxy) with
  | none => none
  | some (_, s) => (runBy socketAnswers (calmEnv 0 0) (updateTunnelPort (toText Node.a) 7002) s).map
    fun r => (s, r)

theorem reported_runs {requests : List (Request Node)} {s s' : World Node} {r : VolunteerReply}
    (h : reported requests = some (s, r, s')) :
    Runs socketAnswers (updateTunnelPort (toText Node.a) 7002) s r s' := by
  rw [reported] at h
  split at h
  · simp at h
  · obtain ⟨⟨r₁, s₁⟩, hrun, heq⟩ := Option.map_eq_some_iff.1 h
    obtain ⟨rfl, rfl, rfl⟩ := heq
    exact runs_of_runBy _ _ _ _ _ hrun

/-- A volunteer joins and is given a service, which reloads HAProxy; its next port does not reach the
service. -/
theorem update_misses_service :
    ¬ ∀ (idStr : Text) (port : UInt16) (status : Text) (id : Node) (v : VolunteerState Node)
      (a : ServiceAssignment) (s s' : World Node), parseStr idStr = some id →
      s.volunteers.lookup id = some v → v.assignedService = some a →
      serverOf s.haproxy (servicePrimary a.serviceName) ≠ none →
      Runs socketAnswers (updateTunnelPort idStr port) s (.ok status) s' →
      ∃ addr, s'.volunteers.lookup id = some (v.moveTo addr) ∧
        ReadyAt s'.haproxy (servicePrimary a.serviceName) addr ∧
        (serverOf s'.haproxy (volunteers, serverNameFor id) ≠ none →
          ReadyAt s'.haproxy (volunteers, serverNameFor id) addr) := by
  intro hclaim
  have hrun : (reported [.registerService blog, .enroll (joins "volunteer-101" 7001)]).any fun r =>
      decide (r.2.1 = .ok "ok") &&
      ((r.1.volunteers.lookup Node.a).bind (·.assignedService)).any (fun a =>
        decide (a.serviceName = blog.name)) &&
      decide (serverOf r.1.haproxy (servicePrimary blog.name) ≠ none) &&
      decide ((serverOf r.2.2.haproxy (servicePrimary blog.name)).map Server.addr ≠
        (r.2.2.volunteers.lookup Node.a).map (·.info.serviceAddr)) := by
    decide +kernel
  obtain ⟨⟨s, r, s'⟩, hreported, hbad⟩ := (Option.any_eq_true _ _).1 hrun
  simp only [Bool.and_eq_true, decide_eq_true_eq] at hbad
  obtain ⟨⟨⟨rfl, hassigned⟩, hsvc⟩, hdiffers⟩ := hbad
  obtain ⟨a, hbound, hname⟩ := (Option.any_eq_true _ _).1 hassigned
  obtain ⟨v, hv, ha⟩ := Option.bind_eq_some_iff.1 hbound
  have hblog : a.serviceName = blog.name := of_decide_eq_true hname
  obtain ⟨addr, hlookup, ⟨sv, hs, -, rfl⟩, -⟩ := hclaim (toText Node.a) 7002 "ok" .a v a s s'
    (by decide) hv ha (by rw [hblog]; exact hsvc) (reported_runs hreported)
  rw [hblog] at hs
  rw [hs, hlookup] at hdiffers
  exact hdiffers rfl

/-- A volunteer that joins when its service is waiting is in the table, and its next port reaches both
servers. -/
theorem update_reaches_service :
    ∃ (s s' : World Node) (a : ServiceAssignment) (addr : Text),
      Runs socketAnswers (updateTunnelPort (toText Node.a) 7002) s (.ok "ok") s' ∧
      a.serviceName = blog.name ∧ ReadyAt s'.haproxy (servicePrimary blog.name) addr := by
  have hrun : (reported [.enroll (joins "volunteer-101" 7001), .registerService blog]).any fun r =>
      decide (r.2.1 = .ok "ok") &&
      ((r.1.volunteers.lookup Node.a).bind (·.assignedService)).any (fun a =>
        decide (a.serviceName = blog.name)) &&
      decide (serverOf r.1.haproxy (servicePrimary blog.name) ≠ none) &&
      decide (serverOf r.1.haproxy (volunteers, serverNameFor Node.a) ≠ none) := by
    decide +kernel
  obtain ⟨⟨s, r, s'⟩, hreported, hgood⟩ := (Option.any_eq_true _ _).1 hrun
  simp only [Bool.and_eq_true, decide_eq_true_eq] at hgood
  obtain ⟨⟨⟨rfl, hassigned⟩, hsvc⟩, hvol⟩ := hgood
  obtain ⟨a, hbound, hname⟩ := (Option.any_eq_true _ _).1 hassigned
  obtain ⟨v, hv, ha⟩ := Option.bind_eq_some_iff.1 hbound
  have hblog : a.serviceName = blog.name := of_decide_eq_true hname
  have run := reported_runs hreported
  obtain ⟨addr, -, -, hiff⟩ := @update_reaches_service_iff Node _ _ _ s s' _ _ _ .a v a
    (by decide) hv ha (by rw [hblog]; exact hsvc) run
  rw [hblog] at hiff
  exact ⟨s, s', a, addr, run, hblog, (hiff.2 (Or.inl hvol)).1⟩

end Registrar

end OpenShard
