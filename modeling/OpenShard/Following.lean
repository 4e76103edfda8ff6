import OpenShard.Cluster
import OpenShard.Reports

/-!
# The registrar's address follows the tunnel

The server gives a session its port, the client writes it to a file, the agent reads it there from time
to time, and what the agent enrolls with becomes the port of the volunteer's address. So the address
has the port of the node's session exactly if the tunnel came up last on the port that was reported
last. That is so throughout a run if the tunnel of a node, once its agent has read a port, comes up on
no other, the agent reads no port of an earlier session, and nobody else reports one for its volunteer.
-/

namespace OpenShard

open Agent Registrar UuidFormat Future

namespace Label

variable {ι Uuid : Type} [DecidableEq ι] [DecidableEq Uuid]

def portFor (id : Uuid) : Label ι Uuid → Option UInt16
  | .reported _ id' p => if id' = id then some p else none
  | _ => none

def reporter (id : Uuid) : Label ι Uuid → Option ι
  | .reported who id' _ => if id' = id then who else none
  | _ => none

def upOn (n : ι) : Label ι Uuid → Option UInt16
  | .connected m p => if m = n then some p else none
  | _ => none

def readBy (n : ι) : Label ι Uuid → Option UInt16
  | .read m p => if m = n then some p else none
  | _ => none

end Label

section Logs

variable {ι Uuid : Type} [DecidableEq ι] [DecidableEq Uuid]

/-- The port that was reported last for a volunteer. -/
def reportedPort (id : Uuid) (log : List (Label ι Uuid)) : Option UInt16 :=
  log.findSome? (Label.portFor id)

/-- The port on which the tunnel of a node came up last. -/
def tunnelPort (n : ι) (log : List (Label ι Uuid)) : Option UInt16 := log.findSome? (Label.upOn n)

/-- The port that the agent of a node read last. -/
def readPort (n : ι) (log : List (Label ι Uuid)) : Option UInt16 := log.findSome? (Label.readBy n)

/-- The nodes whose agents have reported a port for the volunteer. -/
def reporters (id : Uuid) (log : List (Label ι Uuid)) : List ι := log.filterMap (Label.reporter id)

/-- The tunnel comes up on the port that the agent has read before, if any; the agent reads the port on
which the tunnel came up last; and where a node's agent has reported a port for a volunteer, nobody else
does. -/
def Label.Fits (log : List (Label ι Uuid)) : Label ι Uuid → Prop
  | .connected n p => readPort n log = none ∨ readPort n log = some p
  | .read n p => tunnelPort n log = some p
  | .reported who id _ => ∀ n ∈ reporters id log, who = some n
  | _ => True

instance (log : List (Label ι Uuid)) : (l : Label ι Uuid) → Decidable (l.Fits log)
  | .silent => .isTrue trivial
  | .connected _ _ => inferInstanceAs (Decidable (_ ∨ _))
  | .read n p => inferInstanceAs (Decidable (tunnelPort n log = some p))
  | .reported who id _ => inferInstanceAs (Decidable (∀ n ∈ reporters id log, who = some n))
  | .answered _ _ => .isTrue trivial

def Steadfast : List (Label ι Uuid) → Prop
  | [] => True
  | l :: log => l.Fits log ∧ Steadfast log

instance : (log : List (Label ι Uuid)) → Decidable (Steadfast log)
  | [] => .isTrue trivial
  | _ :: log =>
    have := instDecidableSteadfast log
    inferInstanceAs (Decidable (_ ∧ _))

variable {log : List (Label ι Uuid)} {l : Label ι Uuid}

theorem findSome?_cons_or {α β : Type} (f : α → Option β) (a : α) (as : List α) :
    (a :: as).findSome? f = (f a).or (as.findSome? f) := by
  rw [List.findSome?_cons]
  cases f a with
  | none => rfl
  | some b => rfl

omit [DecidableEq ι] in
theorem mem_reporters_cons {id : Uuid} {n : ι} :
    n ∈ reporters id (l :: log) ↔ l.reporter id = some n ∨ n ∈ reporters id log := by
  rw [reporters, List.filterMap_cons]
  cases hl : l.reporter id with
  | none => simp [reporters]
  | some m => simp [reporters, eq_comm]

/-- Of a node that has enrolled a volunteer, the port reported last is the one that its agent read last;
and the tunnel came up last on the port that was read last. -/
structure Coherent (log : List (Label ι Uuid)) : Prop where
  reported : ∀ n id, n ∈ reporters id log → ∃ p, readPort n log = some p ∧
    reportedPort id log = some p
  read : ∀ n p, readPort n log = some p → tunnelPort n log = some p

/-- A step that fits keeps this, if an agent reports the port that it has read. -/
theorem Coherent.step (hlog : Coherent log) (hfits : l.Fits log)
    (hown : ∀ n id p, l = .reported (some n) id p → readPort n log = some p) :
    Coherent (l :: log) := by
  cases l with
  | silent => exact ⟨hlog.reported, hlog.read⟩
  | answered n id => exact ⟨hlog.reported, hlog.read⟩
  | connected m p =>
      refine ⟨hlog.reported, fun n q hq => ?_⟩
      have hread : readPort n log = some q := hq
      have hup := hlog.read n q hread
      rw [tunnelPort, findSome?_cons_or, Label.upOn]
      split_ifs with hm
      · obtain rfl := hm
        have hsame : readPort m log = some p := by
          rcases hfits with hnone | hsome
          · rw [hnone] at hread
            cases hread
          · exact hsome
        rw [Option.some_or, ← hread, hsame]
      · exact hup
  | read m p =>
      have hread : ∀ n q, readPort n (.read m p :: log) = some q →
          tunnelPort n log = some q := by
        intro n q hq
        rw [readPort, findSome?_cons_or, Label.readBy] at hq
        split_ifs at hq with hm
        · obtain rfl := hm
          exact hfits.trans hq
        · exact hlog.read n q hq
      refine ⟨fun n id hn => ?_, hread⟩
      obtain ⟨q, hq, hreported⟩ := hlog.reported n id hn
      refine ⟨q, ?_, hreported⟩
      rw [readPort, findSome?_cons_or, Label.readBy]
      split_ifs with hm
      · obtain rfl := hm
        rw [Option.some_or]
        exact hfits.symm.trans (hlog.read m q hq)
      · exact hq
  | reported who id' p =>
      refine ⟨fun n id hn => ?_, hlog.read⟩
      rw [reportedPort, findSome?_cons_or, Label.portFor]
      by_cases hid : id' = id
      · obtain rfl := hid
        have hwho : who = some n := by
          rcases mem_reporters_cons.1 hn with hnew | hold
          · rwa [Label.reporter, if_pos rfl] at hnew
          · exact hfits n hold
        refine ⟨p, hown n id' p (by rw [hwho]), ?_⟩
        rw [if_pos rfl, Option.some_or]
      · rw [if_neg hid, Option.none_or]
        refine hlog.reported n id ?_
        rcases mem_reporters_cons.1 hn with hnew | hold
        · rw [Label.reporter, if_neg hid] at hnew
          cases hnew
        · exact hold

end Logs

def Client.up : Client → Option UInt16
  | .greeted p _ => some p
  | .serving p _ => some p
  | _ => none

namespace Agent

section Scripts

/-- The port that the agent goes on with, and the identifier. -/
def Mode.Continues (known : Text → Prop) (port : Option UInt16) : Mode → Prop
  | .waiting => True
  | .enrolling p => port = some p
  | .beating vid p => known vid ∧ port = some p
  | .reEnrolling p => port = some p

/-- The rest of a turn enrolls with the port that was read last, and beats under an identifier that is
known or that an enrollment answers. -/
def Continues : Future AgentOp Script → (Text → Prop) → Option UInt16 → Prop
  | .ready script, known, port => script.2.Continues known port
  | .await .readPublicPort next, known, port => ∀ b, Continues (next b) known (b.or port)
  | .await (.postEnroll body) next, known, port => port = some body.tunnelPublicPort ∧
      Continues (next none) known port ∧
      ∀ vid a, Continues (next (some (vid, a))) (fun t => known t ∨ t = vid) port
  | .await (.postHeartbeat body) next, known, port => known body.volunteerId ∧
      ∀ b, Continues (next b) known port
  | .await _ next, known, port => ∀ b, Continues (next b) known port

variable {known known' : Text → Prop} {port : Option UInt16}

theorem Continues.mono {t : Future AgentOp Script} (h : Continues t known port)
    (hknown : ∀ vid, known vid → known' vid) : Continues t known' port := by
  induction t generalizing known known' port with
  | ready script =>
      obtain ⟨vars, mode⟩ := script
      cases mode with
      | beating vid p => exact ⟨hknown vid h.1, h.2⟩
      | _ => exact h
  | await op next ih =>
      cases op with
      | postEnroll body =>
          refine ⟨h.1, ih none h.2.1 hknown, fun vid a => ih _ (h.2.2 vid a) ?_⟩
          exact fun t ht => ht.imp_left (hknown t)
      | postHeartbeat body => exact ⟨hknown _ h.1, fun b => ih b (h.2 b) hknown⟩
      | _ => exact fun b => ih b (h b) hknown

theorem continues_bind {α : Type} {t : Future AgentOp α} (ht : t.Uses isLocal)
    {f : α → Future AgentOp Script} (hf : ∀ a, Continues (f a) known port) :
    Continues (t >>= f) known port := by
  induction t with
  | ready a => exact hf a
  | await op next ih =>
      have hop := ht.1
      cases op with
      | removeContainer name => exact fun b => ih b (ht.2 b)
      | pullImage image => exact fun b => ih b (ht.2 b)
      | createContainer name image => exact fun b => ih b (ht.2 b)
      | startContainer cid => exact fun b => ih b (ht.2 b)
      | containerAddress name => exact fun b => ih b (ht.2 b)
      | containerRunning cid => exact fun b => ih b (ht.2 b)
      | writeLocalAddr addr => exact fun b => ih b (ht.2 b)
      | _ => exact hop.elim

theorem continues_enroll {vars : Vars} {p : UInt16} {again : Mode}
    (hagain : again.Continues known (some p)) :
    Continues (do enrolled vars p again (← enroll p)) known (some p) := by
  refine fun info => ⟨rfl, fun u => hagain, fun vid a => ?_⟩
  have hvid : (Mode.beating vid p).Continues (fun t => known t ∨ t = vid) (some p) :=
    ⟨Or.inr rfl, rfl⟩
  cases a with
  | none => exact hvid
  | some a => exact continues_bind (local_applyServiceAssignment _ _) fun vars => hvid

theorem continues_beat {vars : Vars} {vid : Text} {p : UInt16} (hvid : known vid) :
    Continues (beat vars vid p) known (some p) := by
  have hbeating : (Mode.beating vid p).Continues known (some p) := ⟨hvid, rfl⟩
  refine fun _ metrics => ?_
  refine continues_bind (local_serviceIsRunning vars) fun running => ⟨hvid, fun answer => ?_⟩
  cases answer with
  | ok assignment =>
      cases assignment with
      | none => exact hbeating
      | some a =>
          refine continues_bind (local_serviceIsRunning vars) fun up => ?_
          split_ifs
          · exact hbeating
          · exact continues_bind (local_applyServiceAssignment vars a) fun _ => hbeating
  | notFound =>
      have hagain : (Mode.reEnrolling p).Continues known (some p) := rfl
      exact hagain
  | failed => exact hbeating

theorem continues_turn {script : Script} (h : script.2.Continues known port) :
    Continues (turn script) known port := by
  obtain ⟨vars, mode⟩ := script
  cases mode with
  | waiting =>
      intro read
      cases read with
      | none => exact fun u => trivial
      | some p =>
          have hread : (Mode.enrolling p).Continues known (some p) := rfl
          exact hread
  | enrolling p =>
      obtain rfl : port = some p := h
      exact continues_enroll rfl
  | beating vid p =>
      obtain ⟨hvid, rfl⟩ := h
      exact continues_beat hvid
  | reEnrolling p =>
      obtain rfl : port = some p := h
      intro read
      cases read with
      | none => exact continues_enroll rfl
      | some p' => exact continues_enroll rfl

theorem Continues.acts {ι Uuid : Type} [DecidableEq ι] [DecidableEq Uuid] {n : ι} {β : Type}
    {op : AgentOp β} {next : β → Future AgentOp Script} {e : HostEnv} {b : β} {host host' : Host}
    (h : Continues (.await op next) known port) (hlost : e.enrollReply = none)
    (he : Machine.exec e op host = some (b, host')) :
    Continues (next b) known (((op.label n b : Label ι Uuid).readBy n).or port) := by
  cases op with
  | readPublicPort =>
      cases b with
      | none => exact h none
      | some p =>
          have hread : ((AgentOp.readPublicPort.label n (some p) : Label ι Uuid).readBy n) = some p :=
            if_pos rfl
          rw [hread]
          exact h (some p)
  | postEnroll body =>
      simp only [Machine.exec, hlost] at he
      obtain ⟨rfl, rfl⟩ := Prod.mk.inj (Option.some.inj he)
      exact h.2.1
  | postHeartbeat body => exact h.2 b
  | _ => exact h b

end Scripts

end Agent

namespace Cluster

section Following

variable {ι Uuid : Type} [DecidableEq ι] [DecidableEq Uuid] [UuidFormat Uuid] [Rfc3339]
  {g : Guard (RegistrarOp Uuid) (RegistrarEnv Uuid) (World Uuid)} {k : Guard AgentOp HostEnv Host}
  {h : Haproxy} {c c' : Cluster ι Uuid} {log : List (Label ι Uuid)} {l : Label ι Uuid} {n : ι}
  {id : Uuid}

omit [DecidableEq ι] in
theorem portFor_of {q : Request Uuid} {r : Reply Uuid} {s s' : World Uuid} (who : Option ι)
    (run : Runs g (handle q) s r s') : (Label.of who (q, r)).portFor id = toldBy id (q, r) := by
  cases q with
  | enroll body =>
      obtain ⟨r, henroll, rfl⟩ := (runs_map _ _ _ _ _).1 run
      obtain ⟨v, hid, -⟩ := enroll_enters henroll
      simp only [Label.of, toldBy, hid, parseStr_toText, Label.portFor]
      exact if_congr (@toText_injective Uuid _).eq_iff.symm rfl rfl
  | updateTunnelPort idStr port =>
      obtain ⟨r, -, rfl⟩ := (runs_map _ _ _ _ _).1 run
      cases r with
      | ok status =>
          simp only [Label.of, toldBy]
          cases (parseStr idStr : Option Uuid) with
          | none => simp [Label.portFor]
          | some id' => simp [Label.portFor]
      | _ => rfl
  | heartbeat body =>
      obtain ⟨r, -, rfl⟩ := (runs_map _ _ _ _ _).1 run
      cases r with
      | ok a => cases who <;> rfl
      | notFound error => rfl
  | _ => rfl

omit [DecidableEq ι] [UuidFormat Uuid] [Rfc3339] in
theorem portFor_label (n : ι) {β : Type} (op : AgentOp β) (b : β) :
    (op.label n b : Label ι Uuid).portFor id = none := by
  cases op with
  | readPublicPort => cases b <;> rfl
  | _ => rfl

theorem Run.lastTold (run : Run g k h log c) : lastTold id c.events = reportedPort id log := by
  induction run with
  | initial => rfl
  | @step c c' l log past step ih =>
      rw [reportedPort, findSome?_cons_or]
      have hserved : ∀ {q : Request Uuid} {r : Reply Uuid} {s s' : World Uuid} {who : Option ι},
          Runs g (handle q) s r s' → Registrar.lastTold id ((q, r) :: c.events) =
            ((Label.of who (q, r)).portFor id).or (log.findSome? (Label.portFor id)) := by
        intro q r s s' who run
        rw [lastTold_cons, portFor_of who run, ih, reportedPort]
      cases step with
      | request run => exact hserved run
      | agent step =>
          cases step with
          | turn _ => exact ih
          | @acts β op next e b host _ _ _ _ _ =>
              rw [portFor_label, Option.none_or]
              exact ih
          | enrolls _ run _ _ _ => exact hserved run
          | beats _ _ run _ _ _ => exact hserved run
      | _ => exact ih

omit [DecidableEq Uuid] [Rfc3339] in
theorem upOn_of (who : Option ι) (e : Event Uuid) : (Label.of who e).upOn n = none := by
  unfold Label.of
  split <;> first | rfl | (split <;> rfl)

omit [DecidableEq Uuid] [UuidFormat Uuid] [Rfc3339] in
theorem upOn_label (m : ι) {β : Type} (op : AgentOp β) (b : β) :
    (op.label m b : Label ι Uuid).upOn n = none := by
  cases op with
  | readPublicPort => cases b <;> rfl
  | _ => rfl

theorem Step.up {p : UInt16} (step : Step g k c l c') (hup : (c'.clients n).up = some p) :
    l.upOn n = some p ∨ (l.upOn n = none ∧ (c.clients n).up = some p) := by
  have hset : ∀ {m : ι} {client : Client} {d : Cluster ι Uuid}, d.clients = c.clients →
      ((d.setClient m client).clients n).up = some p →
      (m = n ∧ client.up = some p) ∨ (m ≠ n ∧ (c.clients n).up = some p) := by
    intro m client d hclients hup
    by_cases hm : m = n
    · subst hm
      simp only [Cluster.setClient, Function.update_self] at hup
      exact Or.inl ⟨rfl, hup⟩
    · simp only [Cluster.setClient, Function.update_of_ne (Ne.symm hm), hclients] at hup
      exact Or.inr ⟨hm, hup⟩
  cases step with
  | request run => exact Or.inr ⟨upOn_of none _, hup⟩
  | connect _ _ _ _ =>
      rcases hset rfl hup with ⟨rfl, hp⟩ | ⟨hm, hup⟩
      · exact Or.inl ((if_pos rfl).trans hp)
      · exact Or.inr ⟨if_neg hm, hup⟩
  | portWritten hc =>
      rcases hset rfl hup with ⟨rfl, hp⟩ | ⟨-, hup⟩
      · exact Or.inr ⟨rfl, by rw [hc]; exact hp⟩
      · exact Or.inr ⟨rfl, hup⟩
  | writeFails _ _ =>
      rcases hset rfl hup with ⟨-, hp⟩ | ⟨-, hup⟩
      · cases hp
      · exact Or.inr ⟨rfl, hup⟩
  | sessionOver _ =>
      rcases hset rfl hup with ⟨-, hp⟩ | ⟨-, hup⟩
      · cases hp
      · exact Or.inr ⟨rfl, hup⟩
  | portRemoved _ _ =>
      rcases hset rfl hup with ⟨-, hp⟩ | ⟨-, hup⟩
      · cases hp
      · exact Or.inr ⟨rfl, hup⟩
  | released _ => exact Or.inr ⟨rfl, hup⟩
  | agent step =>
      cases step with
      | turn _ => exact Or.inr ⟨rfl, hup⟩
      | acts _ _ _ _ _ => exact Or.inr ⟨upOn_label _ _ _, hup⟩
      | enrolls _ _ _ _ _ => exact Or.inr ⟨upOn_of _ _, hup⟩
      | beats _ _ _ _ _ _ => exact Or.inr ⟨upOn_of _ _, hup⟩

theorem Run.tunnelPort {p : UInt16} (run : Run g k h log c) (hup : (c.clients n).up = some p) :
    tunnelPort n log = some p := by
  induction run with
  | initial => cases hup
  | step past step ih =>
      rw [OpenShard.tunnelPort, findSome?_cons_or]
      rcases step.up hup with hnew | ⟨hnone, hold⟩
      · rw [hnew, Option.some_or]
      · rw [hnone, Option.none_or]
        exact ih hold

/-- The registrar's addresses have the ports reported last. -/
theorem Run.told (run : Run g k h log c) (hevents : ∀ e ∈ c.events, e.1 ≠ .restart) :
    Told c.events c.world := by
  induction run with
  | initial =>
      intro id v hv
      simp [Cluster.initial, World.initial] at hv
  | step past step ih =>
      have hserved : ∀ {q : Request Uuid} {r : Reply Uuid} {events : List (Event Uuid)}
          {s s' : World Uuid}, Runs g (handle q) s r s' →
          (∀ e ∈ (q, r) :: events, e.1 ≠ .restart) →
          ((∀ e ∈ events, e.1 ≠ .restart) → Told events s) → Told ((q, r) :: events) s' := by
        intro q r events s s' run hevents ih
        have hpast := ih fun e he => hevents e (List.mem_cons_of_mem _ he)
        exact hpast.step (hevents _ List.mem_cons_self) run
      cases step with
      | request run => exact hserved run hevents ih
      | agent step =>
          cases step with
          | enrolls _ run _ _ _ => exact hserved run hevents ih
          | beats _ _ run _ _ _ => exact hserved run hevents ih
          | _ => exact ih hevents
      | _ => exact ih hevents

def EnrolledBy (n : ι) (log : List (Label ι Uuid)) (vid : Text) : Prop :=
  ∀ id : Uuid, parseStr vid = some id → n ∈ reporters id log

omit [DecidableEq ι] [Rfc3339] in
theorem EnrolledBy.cons {vid : Text} (hvid : EnrolledBy n log vid) : EnrolledBy n (l :: log) vid :=
  fun id hid => mem_reporters_cons.2 (Or.inr (hvid id hid))

structure Carried (log : List (Label ι Uuid)) (c : Cluster ι Uuid) : Prop where
  coherent : Coherent log
  scripts : ∀ n, Continues (c.scripts n) (EnrolledBy n log) (readPort n log)

omit [DecidableEq Uuid] [Rfc3339] in
theorem readBy_of (who : Option ι) (e : Event Uuid) : (Label.of who e).readBy n = none := by
  unfold Label.of
  split <;> first | rfl | (split <;> rfl)

omit [DecidableEq Uuid] [UuidFormat Uuid] [Rfc3339] in
theorem readBy_label {m : ι} (hm : m ≠ n) {β : Type} (op : AgentOp β) (b : β) :
    (op.label m b : Label ι Uuid).readBy n = none := by
  cases op with
  | readPublicPort =>
      cases b with
      | none => rfl
      | some p => exact if_neg hm
  | _ => rfl

omit [Rfc3339] in
theorem Carried.kept (hc : Carried log c) (hread : l.readBy n = none)
    (hscripts : c'.scripts n = c.scripts n) :
    Continues (c'.scripts n) (EnrolledBy n (l :: log)) (readPort n (l :: log)) := by
  rw [hscripts, readPort, findSome?_cons_or, hread, Option.none_or]
  exact (hc.scripts n).mono fun vid => EnrolledBy.cons

omit [DecidableEq Uuid] [UuidFormat Uuid] [Rfc3339] in
theorem readPort_cons_of_none (hread : l.readBy n = none) :
    readPort n (l :: log) = readPort n log := by
  rw [readPort, findSome?_cons_or, hread, Option.none_or]
  rfl

/-- A step of an agent concerns its own script, and what it reports is what it has read. -/
theorem Carried.agent (hc : Carried log c) (step : AgentStep g k n c l c') :
    (∀ m, Continues (c'.scripts m) (EnrolledBy m (l :: log)) (readPort m (l :: log))) ∧
      ∀ m id p, l = .reported (some m) id p → readPort m log = some p := by
  have hother : ∀ {script : Future AgentOp Script} {host : Host} {d : Cluster ι Uuid},
      d.scripts = c.scripts → (∀ m ≠ n, l.readBy m = none) →
      Continues script (EnrolledBy n (l :: log)) (readPort n (l :: log)) →
      ∀ m, Continues ((d.setAgent n script host).scripts m) (EnrolledBy m (l :: log))
        (readPort m (l :: log)) := by
    intro script host d hscripts hread hnew m
    by_cases hm : m = n
    · subst hm
      simp only [Cluster.setAgent, Function.update_self]
      exact hnew
    · refine hc.kept (hread m hm) ?_
      simp only [Cluster.setAgent, Function.update_of_ne hm, hscripts]
  have hn := hc.scripts n
  cases step with
  | @turn script hs =>
      refine ⟨hother rfl (fun _ _ => rfl) ?_, fun _ _ _ hl => by cases hl⟩
      rw [hs] at hn
      exact (continues_turn hn).mono fun vid => EnrolledBy.cons
  | @acts β op next e b host hs hfile hlost hk he =>
      refine ⟨hother rfl (fun m hm => readBy_label (Ne.symm hm) op b) ?_, fun m id p hl => ?_⟩
      · rw [hs] at hn
        rw [readPort, findSome?_cons_or]
        exact (@Continues.acts _ _ ι Uuid _ _ _ _ _ _ _ _ _ _ hn hlost.1 he).mono
          fun vid => EnrolledBy.cons
      · cases op with
        | readPublicPort => cases b <;> cases hl
        | _ => cases hl
  | @enrolls body next e r w b host hs run hreply hk he =>
      rw [hs] at hn
      obtain ⟨hport, hnone, hsome⟩ := hn
      obtain ⟨r', henroll, hr⟩ := (runs_map _ _ _ _ _).1 run
      obtain rfl := Reply.enrolled.inj hr
      obtain ⟨v, hid, -⟩ := enroll_enters henroll
      have hlabel : Label.of (some n) (Request.enroll body, Reply.enrolled r) =
          .reported (some n) v.id body.tunnelPublicPort := by
        simp only [Label.of, hid, parseStr_toText]
      refine ⟨hother rfl (fun m _ => readBy_of _ _) ?_, fun m id p hl => ?_⟩
      · rw [readPort_cons_of_none (readBy_of _ _)]
        have hb : b = none ∨ b = some (r.volunteerId, r.assignment) := by
          rcases hreply with hreply | hreply
          · simp only [Machine.exec, hreply] at he
            exact Or.inr (Prod.mk.inj (Option.some.inj he)).1.symm
          · simp only [Machine.exec, hreply] at he
            exact Or.inl (Prod.mk.inj (Option.some.inj he)).1.symm
        rcases hb with rfl | rfl
        · exact hnone.mono fun vid => EnrolledBy.cons
        · refine (hsome _ _).mono fun vid hvid => ?_
          rcases hvid with hvid | rfl
          · exact hvid.cons
          · intro id hparse
            rw [hid, parseStr_toText] at hparse
            obtain rfl := Option.some.inj hparse
            rw [hlabel]
            exact mem_reporters_cons.2 (Or.inl (if_pos rfl))
      · rw [hlabel] at hl
        obtain ⟨hm, -, rfl⟩ := Label.reported.inj hl
        obtain rfl := Option.some.inj hm
        exact hport
  | @beats body id next e r w b host hs hid run hreply hk he =>
      rw [hs] at hn
      refine ⟨hother rfl (fun m _ => readBy_of _ _) ?_, fun m id' p hl => ?_⟩
      · rw [readPort_cons_of_none (readBy_of _ _)]
        exact (hn.2 b).mono fun vid => EnrolledBy.cons
      · cases r <;> cases hl

theorem Carried.step (hc : Carried log c) (step : Step g k c l c') (hfits : l.Fits log) :
    Carried (l :: log) c' := by
  have hsilent : ∀ {l : Label ι Uuid}, (∀ m, l.readBy m = none) →
      (∀ m id p, l ≠ .reported (some m) id p) → l.Fits log → c'.scripts = c.scripts →
      Carried (l :: log) c' := by
    intro l hread hown hfits hscripts
    refine ⟨hc.coherent.step hfits fun m id p hl => absurd hl (hown m id p), fun m => ?_⟩
    exact hc.kept (hread m) (congrFun hscripts m)
  cases step with
  | @request q r w run =>
      refine hsilent (fun m => readBy_of _ _) (fun m id p hl => ?_) hfits rfl
      unfold Label.of at hl
      split at hl <;> first | cases hl | (split at hl <;> cases hl)
  | agent step =>
      obtain ⟨hscripts, hown⟩ := hc.agent step
      exact ⟨hc.coherent.step hfits hown, hscripts⟩
  | _ => exact hsilent (fun m => rfl) (fun m id p hl => nomatch hl) hfits rfl

theorem Run.carried (run : Run g k h log c) (hlog : Steadfast log) : Carried log c := by
  induction run with
  | initial =>
      refine ⟨⟨fun n id hn => ?_, fun n p hp => ?_⟩, fun n => trivial⟩
      · cases hn
      · cases hp
  | step past step ih => exact (ih hlog.2).step step hlog.1

omit [DecidableEq ι] [DecidableEq Uuid] [Rfc3339] in
theorem answered_eq_of {who : Option ι} {e : Event Uuid} (hl : Label.answered n id = Label.of who e) :
    who = some n ∧ ∃ body a, e = (.heartbeat body, .heartbeat (.ok a)) := by
  unfold Label.of at hl
  split at hl
  · split at hl <;> cases hl
  · split at hl <;> cases hl
  · split at hl
    · obtain ⟨rfl, -⟩ := Label.answered.inj hl
      exact ⟨rfl, _, _, rfl⟩
    · cases hl
  · cases hl

/-- The answer to a heartbeat comes in a step of the agent that sent it. -/
theorem Step.answered (step : Step g k c (.answered n id) c') :
    ∃ body next a w script host, c.scripts n = .await (.postHeartbeat body) next ∧
      parseStr body.volunteerId = some id ∧
      Runs g (handle (.heartbeat (body.request id))) c.world (.heartbeat (.ok a)) w ∧
      c' = (c.served (.heartbeat (body.request id)) (.heartbeat (.ok a)) w).setAgent n script host := by
  generalize hl : Label.answered n id = l at step
  cases step with
  | request run =>
      obtain ⟨hwho, -⟩ := answered_eq_of hl
      cases hwho
  | agent step =>
      cases step with
      | turn _ => cases hl
      | @acts β op next e b host hs hfile hlost hk he =>
          cases op with
          | readPublicPort => cases b <;> cases hl
          | _ => cases hl
      | enrolls _ _ _ _ _ =>
          obtain ⟨-, body, a, heq⟩ := answered_eq_of hl
          cases heq
      | @beats body id' next e r w b host hs hid run hreply hk he =>
          cases r with
          | notFound error => cases hl
          | ok a =>
              obtain ⟨rfl, rfl⟩ := Label.answered.inj hl
              exact ⟨body, next, a, w, next b, host, hs, hid, run, rfl⟩
  | _ => cases hl

/-- After the answer to the heartbeat of a node, the registrar has the port of the node's session
exactly if the tunnel came up last on the port that was reported last for the volunteer; and in a
steadfast run it always has. -/
theorem address_follows_tunnel_iff (run : Run g k h log c)
    (hevents : ∀ e ∈ c.events, e.1 ≠ .restart) (step : Step g k c (.answered n id) c')
    {p d : UInt16} (hup : c'.clients n = .serving p d) :
    ((∃ v ∈ c'.world.volunteers.lookup id,
        addrPort v.info.serviceAddr = some (Text.ofNat p.toNat)) ↔
      reportedPort id log = tunnelPort n log) ∧
    (Steadfast log → ∃ v ∈ c'.world.volunteers.lookup id,
      addrPort v.info.serviceAddr = some (Text.ofNat p.toNat)) := by
  obtain ⟨body, next, a, w, script, host, hs, hid, hrun, rfl⟩ := step.answered
  have htunnel : tunnelPort n log = some p := by
    have hup' : (c.clients n).up = some p := by
      have hsame : c.clients n = .serving p d := hup
      rw [hsame]
      rfl
    exact run.tunnelPort hup'
  obtain ⟨r, hbeat, hr⟩ := (runs_map _ _ _ _ _).1 hrun
  obtain rfl := Reply.heartbeat.inj hr
  have hbeats : Request.heartbeat (body.request id) ≠ .restart := fun hq => nomatch hq
  have htold := (run.told hevents).step hbeats hrun
  obtain ⟨v, hv⟩ : ∃ v, w.volunteers.lookup id = some v := by
    cases heartbeat_run hbeat with
    | known hv hq hw => exact ⟨_, AList.lookup_insert _⟩
  have hlast : lastTold id ((.heartbeat (body.request id), .heartbeat (.ok a)) :: c.events) =
      reportedPort id log := (lastTold_cons _ _ _).trans run.lastTold
  have hiff : (∃ v ∈ w.volunteers.lookup id,
      addrPort v.info.serviceAddr = some (Text.ofNat p.toNat)) ↔
        reportedPort id log = tunnelPort n log := by
    rw [htunnel, ← hlast, ← htold.addrPort_iff hv p]
    constructor
    · rintro ⟨v', hv', hport⟩
      obtain rfl := Option.some.inj (hv.symm.trans hv')
      exact hport
    · intro hport
      exact ⟨v, hv, hport⟩
  refine ⟨hiff, fun hlog => hiff.2 ?_⟩
  have hcarried := run.carried hlog
  have hn := hcarried.scripts n
  rw [hs] at hn
  obtain ⟨q, hread, hreported⟩ := hcarried.coherent.reported n id (hn.1 id hid)
  rw [hreported, hcarried.coherent.read n q hread]

end Following

section Plays

def isRestart {Uuid : Type} : Request Uuid → Bool
  | .restart => true
  | _ => false

/-- The sessions of two nodes end, and the nodes connect again, the second one first. -/
def reconnects (m n : Fin 2) : Moves :=
  joinsIn m ++ joinsIn n ++ [.sessionOver m, .sessionOver n, .portRemoved m, .portRemoved n,
    .released 30000 30001, .released 30002 30003, .connect n, .portWritten n, .connect m,
    .portWritten m]

def beatAfter (moves : Moves) (n : Fin 2) : Option (List (Label (Fin 2) Node) ×
    Cluster (Fin 2) Node × Label (Fin 2) Node × Cluster (Fin 2) Node) :=
  (stepsLogged (moves ++ List.replicate 3 (.agent n))).bind fun r =>
    (play answering dockerSucceeds (calmEnv 0 0) willing r.2 (.agent n)).map fun r' => (r.1, r.2, r')

theorem beatAfter_eq_some {moves : Moves} {n : Fin 2} {log : List (Label (Fin 2) Node)}
    {c c' : Cluster (Fin 2) Node} {l : Label (Fin 2) Node}
    (h : beatAfter moves n = some (log, c, l, c')) :
    Run answering dockerSucceeds smallHaproxy log c ∧ Step answering dockerSucceeds c l c' := by
  obtain ⟨⟨log₁, c₁⟩, hsteps, h⟩ := Option.bind_eq_some_iff.1 h
  obtain ⟨r, hplay, heq⟩ := Option.map_eq_some_iff.1 h
  obtain ⟨rfl, rfl, rfl⟩ : log₁ = log ∧ c₁ = c ∧ r = (l, c') := by simpa using heq
  exact ⟨run_of_playAll .initial hsteps, step_of_play hplay⟩

/-- The heartbeat is answered, and the address has the port that the tunnel of the other node has now. -/
theorem address_of_other_node :
    ¬ ∀ (h : Haproxy) (c c' : Cluster (Fin 2) Node) (n : Fin 2) (id : Node) (p d : UInt16),
      Reach answering dockerSucceeds h c → Step answering dockerSucceeds c (.answered n id) c' →
      c'.clients n = .serving p d → ∃ v ∈ c'.world.volunteers.lookup id,
        addrPort v.info.serviceAddr = some (Text.ofNat p.toNat) := by
  intro hclaim
  have hbad : (beatAfter (reconnects 0 1) 0).any fun r =>
      decide (r.2.2.1 = .answered 0 .a ∧ r.2.2.2.clients 0 = .serving 30004 30005 ∧
        r.2.2.2.clients 1 = .serving 30000 30002) &&
        (r.2.2.2.world.volunteers.lookup .a).all fun v =>
          decide (addrPort v.info.serviceAddr = some (Text.ofNat (30000 : UInt16).toNat)) := by
    decide +kernel
  obtain ⟨⟨log, c, l, c'⟩, hbeat, hchecked⟩ := (Option.any_eq_true _ _).1 hbad
  rw [Bool.and_eq_true, decide_eq_true_eq] at hchecked
  obtain ⟨⟨rfl, hup, -⟩, hother⟩ := hchecked
  obtain ⟨hrun, hstep⟩ := beatAfter_eq_some hbeat
  obtain ⟨v, hv, hport⟩ := hclaim _ c c' 0 .a 30004 30005 hrun.reach hstep hup
  have hv' : c'.world.volunteers.lookup .a = some v := hv
  rw [hv', Option.all_some, decide_eq_true_eq, hport] at hother
  revert hother
  decide

/-- The tunnels of both nodes come up once, and the port of the first one is the one that its agent
enrolled with. -/
theorem address_follows_tunnel_once :
    ∃ log c c', beatAfter (joinsIn 0 ++ joinsIn 1) 0 = some (log, c, .answered 0 .a, c') ∧
      c'.clients 0 = .serving 30000 30001 ∧ Steadfast log ∧
      reportedPort .a log = tunnelPort 0 log ∧ ∃ v ∈ c'.world.volunteers.lookup .a,
        addrPort v.info.serviceAddr = some (Text.ofNat (30000 : UInt16).toNat) := by
  have hgood : (beatAfter (joinsIn 0 ++ joinsIn 1) 0).any fun r =>
      decide (r.2.2.1 = .answered 0 .a ∧ r.2.2.2.clients 0 = .serving 30000 30001 ∧
        Steadfast r.1 ∧ ∀ e ∈ r.2.1.events, isRestart e.1 = false) := by
    decide +kernel
  obtain ⟨⟨log, c, l, c'⟩, hbeat, hchecked⟩ := (Option.any_eq_true _ _).1 hgood
  rw [decide_eq_true_eq] at hchecked
  obtain ⟨rfl, hup, hlog, hevents⟩ := hchecked
  obtain ⟨hrun, hstep⟩ := beatAfter_eq_some hbeat
  have hnone : ∀ e ∈ c.events, e.1 ≠ .restart := by
    intro e he hrestart
    have hno := hevents e he
    rw [hrestart] at hno
    cases hno
  obtain ⟨hiff, hsteady⟩ := address_follows_tunnel_iff hrun hnone hstep hup
  exact ⟨log, c, c', hbeat, hup, hlog, hiff.1 (hsteady hlog), hsteady hlog⟩

end Plays

end Cluster

end OpenShard
