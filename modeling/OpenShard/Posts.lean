import OpenShard.Containers

/-!
# The remembered status

`post` returns the body of a response or nothing, and leaves the status code in a global variable
that the heartbeat loop reads afterwards. A request that gets no response leaves the code of an
earlier one there, so that loop could take a lost heartbeat for one that was answered 404. It never
does, and the agent with its variable behaves as the one that is told how its heartbeat was answered.
-/

namespace OpenShard.Agent

open Future Registrar

/-- How a POST ends: with a response and its body, if that is what it should be, with an HTTP error,
or without any response. -/
inductive Post (α : Type)
  | response (status : ℕ) (body : Option α)
  | httpError (code : ℕ)
  | unreachable

/-- What `post` returns, and what it leaves in `_last_status_code`. -/
def post {α : Type} (lastStatusCode : ℕ) : Post α → Option α × ℕ
  | .response status body => (body, status)
  | .httpError code => (none, code)
  | .unreachable => (none, lastStatusCode)

/-- What the heartbeat loop makes of the result and of `last_status_code()`. -/
def classify (resp : Option (Option AssignmentPayload)) (lastStatusCode : ℕ) : HeartbeatAnswer :=
  match resp with
  | some assignment => .ok assignment
  | none => if lastStatusCode = 404 then .notFound else .failed

/-- How this heartbeat itself was answered. -/
def direct : Post (Option AssignmentPayload) → HeartbeatAnswer
  | .response _ (some assignment) => .ok assignment
  | .httpError code => if code = 404 then .notFound else .failed
  | _ => .failed

/-- The machine of a volunteer with the variable, and a record of the heartbeats. -/
structure Memory where
  host : Host
  lastStatusCode : ℕ
  beats : List (Post (Option AssignmentPayload) × HeartbeatAnswer)

def Memory.initial : Memory := ⟨.initial, 0, []⟩

structure PostEnv where
  host : HostEnv
  enroll : Post (Text × Option AssignmentPayload)
  heartbeat : Post (Option AssignmentPayload)

def PostEnv.seen (e : PostEnv) (lastStatusCode : ℕ) : HostEnv :=
  { e.host with
    enrollReply := (post lastStatusCode e.enroll).1
    heartbeatReply :=
      classify (post lastStatusCode e.heartbeat).1 (post lastStatusCode e.heartbeat).2 }

structure Posting (β : Type) where
  op : AgentOp β

/-- What an operation leaves in the variable and in the record. -/
def remember (e : PostEnv) : {β : Type} → AgentOp β → Memory → Host → Memory
  | _, .postEnroll _, m, h =>
    { m with host := h, lastStatusCode := (post m.lastStatusCode e.enroll).2 }
  | _, .postHeartbeat _, m, h =>
    { host := h
      lastStatusCode := (post m.lastStatusCode e.heartbeat).2
      beats := (e.heartbeat, (e.seen m.lastStatusCode).heartbeatReply) :: m.beats }
  | _, _, m, h => { m with host := h }

instance : Machine Posting PostEnv Memory where
  exec e op m := (Machine.exec (e.seen m.lastStatusCode) op.op m.host).map fun r =>
    (r.1, remember e op.op m r.2)

def posting {α : Type} (t : Future AgentOp α) : Future Posting α := t.hoist fun op => ⟨op⟩

/-- A response is one of success; any other status is an error. -/
def Post.Sorted {α : Type} : Post α → Prop
  | .response status _ => 200 ≤ status ∧ status < 300
  | _ => True

def told (g : Guard AgentOp HostEnv Host) : Guard Posting PostEnv Memory := fun β e op m =>
  g β (e.seen m.lastStatusCode) op.op m.host ∧ e.enroll.Sorted ∧ e.heartbeat.Sorted

/-- The turns of the agent with its variable; containers end at any points between them. -/
inductive Remembers (g : Guard AgentOp HostEnv Host) : Script → Memory → Prop
  | start : Remembers g .initial .initial
  | turn {script script' : Script} {m m' : Memory} (past : Remembers g script m)
      (run : Runs (told g) (posting (turn script)) m script' m') : Remembers g script' m'
  | exit {script : Script} {m : Memory} (past : Remembers g script m) (cid : Text) :
      Remembers g script { m with host := m.host.exit cid }

section Direct

/-- The machine of a volunteer whose script is told how its requests were answered, and a record of the
heartbeats. -/
structure Informed where
  host : Host
  beats : List (Post (Option AssignmentPayload))

def Informed.initial : Informed := ⟨.initial, []⟩

structure Informing (β : Type) where
  op : AgentOp β

def PostEnv.direct (e : PostEnv) : HostEnv :=
  { e.host with
    enrollReply := (post 0 e.enroll).1
    heartbeatReply := Agent.direct e.heartbeat }

def Informed.after (e : PostEnv) (m : Informed) (h : Host) : {β : Type} → AgentOp β → Informed
  | _, .postHeartbeat _ => ⟨h, e.heartbeat :: m.beats⟩
  | _, _ => ⟨h, m.beats⟩

instance : Machine Informing PostEnv Informed where
  exec e op m := (Machine.exec e.direct op.op m.host).map fun r => (r.1, m.after e r.2 op.op)

def informing {α : Type} (t : Future AgentOp α) : Future Informing α := t.hoist fun op => ⟨op⟩

def informed (g : Guard AgentOp HostEnv Host) : Guard Informing PostEnv Informed := fun β e op m =>
  g β e.direct op.op m.host ∧ e.enroll.Sorted ∧ e.heartbeat.Sorted

/-- The turns of the agent that is told; containers end at any points between them. -/
inductive Informs (g : Guard AgentOp HostEnv Host) : Script → Informed → Prop
  | start : Informs g .initial .initial
  | turn {script script' : Script} {m m' : Informed} (past : Informs g script m)
      (run : Runs (informed g) (informing (turn script)) m script' m') : Informs g script' m'
  | exit {script : Script} {m : Informed} (past : Informs g script m) (cid : Text) :
      Informs g script { m with host := m.host.exit cid }

/-- What the agent with the variable knows, but for the variable. -/
def Memory.informed (m : Memory) : Informed := ⟨m.host, m.beats.map Prod.fst⟩

end Direct

section Runs

variable {g : Guard AgentOp HostEnv Host} {α β : Type} {m m' : Memory}

theorem remember_host (e : PostEnv) (op : AgentOp β) (m : Memory) (h : Host) :
    (remember e op m h).host = h := by
  cases op <;> rfl

/-- What the agent does with its variable, it does when it is told. -/
theorem runs_of_posting {t : Future AgentOp α} {a : α} (h : Runs (told g) (posting t) m a m') :
    Runs g t m.host a m'.host := by
  induction t generalizing m with
  | ready b =>
      obtain ⟨rfl, rfl⟩ := (runs_ready b a m m').1 h
      exact .ready _ _
  | await op next ih =>
      obtain ⟨e, c, m₁, hg, he, hr⟩ := (runs_await (⟨op⟩ : Posting _) _ m m' a).1 h
      obtain ⟨⟨c', h₁⟩, hexec, heq⟩ := Option.map_eq_some_iff.1 he
      obtain ⟨rfl, rfl⟩ := Prod.mk.inj heq
      have hrest := ih c' hr
      rw [remember_host] at hrest
      exact .await hg.1 hexec hrest

theorem runs_posting_bind {t : Future AgentOp α} {f : α → Future AgentOp β} {b : β} :
    Runs (told g) (posting (t >>= f)) m b m' ↔
      ∃ a m₁, Runs (told g) (posting t) m a m₁ ∧ Runs (told g) (posting (f a)) m₁ b m' := by
  rw [posting, hoist_bind, runs_bind]
  rfl

def isQuiet : (β : Type) → AgentOp β → Prop
  | _, .postEnroll _ => False
  | _, .postHeartbeat _ => False
  | _, _ => True

theorem isQuiet_of_isLocal (β : Type) (op : AgentOp β) (h : isLocal β op) : isQuiet β op := by
  cases op <;> trivial

theorem kept_of_quiet {t : Future AgentOp α} (ht : t.Uses isQuiet) {a : α}
    (h : Runs (told g) (posting t) m a m') :
    m'.lastStatusCode = m.lastStatusCode ∧ m'.beats = m.beats := by
  induction t generalizing m with
  | ready b =>
      obtain ⟨-, rfl⟩ := (runs_ready b a m m').1 h
      exact ⟨rfl, rfl⟩
  | await op next ih =>
      obtain ⟨e, c, m₁, -, he, hr⟩ := (runs_await (⟨op⟩ : Posting _) _ m m' a).1 h
      obtain ⟨⟨c', h₁⟩, -, heq⟩ := Option.map_eq_some_iff.1 he
      obtain ⟨rfl, rfl⟩ := Prod.mk.inj heq
      obtain ⟨hstatus, hbeats⟩ := ih c' (ht.2 c') hr
      have hop := ht.1
      rw [hstatus, hbeats]
      cases op with
      | postEnroll body => exact hop.elim
      | postHeartbeat body => exact hop.elim
      | _ => exact ⟨rfl, rfl⟩

theorem quiet_applyServiceAssignment (vars : Vars) (a : AssignmentPayload) :
    (applyServiceAssignment vars a).Uses isQuiet :=
  (local_applyServiceAssignment vars a).mono isQuiet_of_isLocal

theorem quiet_serviceIsRunning (vars : Vars) : (serviceIsRunning vars).Uses isQuiet :=
  (local_serviceIsRunning vars).mono isQuiet_of_isLocal

/-- While it beats, the agent remembers no 404; and every heartbeat was taken for what it was. -/
structure Fresh (mode : Mode) (m : Memory) : Prop where
  status : ∀ vid port, mode = .beating vid port → m.lastStatusCode ≠ 404
  beats : ∀ b ∈ m.beats, b.2 = direct b.1

/-- Where no 404 is remembered, a heartbeat is taken for what it is. -/
theorem classify_post {status : ℕ} (hstatus : status ≠ 404) {p : Post (Option AssignmentPayload)}
    (hp : p.Sorted) : classify (post status p).1 (post status p).2 = direct p ∧
      (direct p ≠ .notFound → (post status p).2 ≠ 404) := by
  cases p with
  | response code body =>
      have hcode : code ≠ 404 := by
        have hless := hp.2
        omega
      cases body with
      | none => exact ⟨if_neg hcode, fun _ => hcode⟩
      | some a => exact ⟨rfl, fun _ => hcode⟩
  | httpError code =>
      refine ⟨rfl, fun hanswer hcode => hanswer ?_⟩
      change code = 404 at hcode
      rw [direct, if_pos hcode]
  | unreachable => exact ⟨if_neg hstatus, fun _ => hstatus⟩

theorem runs_postEnroll {body : EnrollRequest} {reply : Option (Text × Option AssignmentPayload)}
    (h : Runs (told g) (posting (perform (.postEnroll body))) m reply m') :
    ∃ e : PostEnv, e.enroll.Sorted ∧ reply = (post m.lastStatusCode e.enroll).1 ∧
      m'.lastStatusCode = (post m.lastStatusCode e.enroll).2 ∧ m'.beats = m.beats := by
  obtain ⟨e, ⟨-, hsorted, -⟩, he⟩ := (runs_perform (⟨_⟩ : Posting _) _ _ _).1 h
  obtain ⟨⟨reply', h₁⟩, hexec, heq⟩ := Option.map_eq_some_iff.1 he
  obtain ⟨rfl, rfl⟩ := Prod.mk.inj heq
  refine ⟨e, hsorted, ?_, rfl, rfl⟩
  simp only [Machine.exec, PostEnv.seen] at hexec
  split at hexec
  · rename_i hnone
    rw [hnone]
    exact (Prod.mk.inj (Option.some.inj hexec)).1.symm
  · rename_i vid a hsome
    rw [hsome]
    exact (Prod.mk.inj (Option.some.inj hexec)).1.symm

theorem enrolled_fresh {vars vars' : Vars} {port : UInt16} {again mode mode' : Mode}
    (hm : Fresh mode m) (hagain : ∀ vid port, again ≠ .beating vid port)
    (h : Runs (told g) (posting (do enrolled vars port again (← enroll port))) m (vars', mode') m') :
    Fresh mode' m' := by
  rw [runs_posting_bind] at h
  obtain ⟨reply, m₁, henroll, h⟩ := h
  rw [enroll, runs_posting_bind] at henroll
  obtain ⟨info, m₂, hinfo, henroll⟩ := henroll
  have hu : (perform AgentOp.hostFacts).Uses isQuiet := uses_perform trivial
  have hlocal := kept_of_quiet hu hinfo
  obtain ⟨e, hsorted, hreply, hstatus, hbeats⟩ := runs_postEnroll henroll
  have hbeats' : ∀ b ∈ m₁.beats, b.2 = direct b.1 := by
    rw [hbeats, hlocal.2]
    exact hm.beats
  cases reply with
  | none =>
      rw [enrolled, runs_posting_bind] at h
      obtain ⟨u, m₃, hsleep, h⟩ := h
      have hs : (perform AgentOp.sleep).Uses isQuiet := uses_perform trivial
      obtain ⟨-, hkept⟩ := kept_of_quiet hs hsleep
      obtain ⟨heq, rfl⟩ := (runs_pure _ _ _ _).1 h
      obtain ⟨rfl, rfl⟩ := Prod.mk.inj heq
      exact ⟨fun vid port hbeating => absurd hbeating (hagain vid port), hkept ▸ hbeats'⟩
  | some r =>
      have hfound : m₁.lastStatusCode ≠ 404 := by
        rw [hstatus]
        cases hpost : e.enroll with
        | response code body =>
            rw [hpost] at hsorted
            have hless := hsorted.2
            change code ≠ 404
            omega
        | httpError code =>
            rw [hpost] at hreply
            cases hreply
        | unreachable =>
            rw [hpost] at hreply
            cases hreply
      obtain ⟨vid, a⟩ := r
      have huses : (enrolled vars port again (some (vid, a))).Uses isQuiet := by
        cases a with
        | none => exact uses_pure _
        | some a => exact (quiet_applyServiceAssignment _ _).bind fun _ => uses_pure _
      obtain ⟨hs, hb⟩ := kept_of_quiet huses h
      exact ⟨fun _ _ _ => hs ▸ hfound, hb ▸ hbeats'⟩

theorem runs_postHeartbeat {body : HeartbeatBody} {answer : HeartbeatAnswer}
    (h : Runs (told g) (posting (perform (.postHeartbeat body))) m answer m') :
    ∃ e : PostEnv, e.heartbeat.Sorted ∧
      answer = classify (post m.lastStatusCode e.heartbeat).1 (post m.lastStatusCode e.heartbeat).2 ∧
      m'.lastStatusCode = (post m.lastStatusCode e.heartbeat).2 ∧
      m'.beats = (e.heartbeat, answer) :: m.beats := by
  obtain ⟨e, ⟨-, -, hsorted⟩, he⟩ := (runs_perform (⟨_⟩ : Posting _) _ _ _).1 h
  obtain ⟨⟨answer', h₁⟩, hexec, heq⟩ := Option.map_eq_some_iff.1 he
  obtain ⟨rfl, rfl⟩ := Prod.mk.inj heq
  have hanswer : answer' = (e.seen m.lastStatusCode).heartbeatReply := by
    simp only [Machine.exec] at hexec
    split at hexec
    · rename_i a hok
      rw [hok]
      exact (Prod.mk.inj (Option.some.inj hexec)).1.symm
    · exact (Prod.mk.inj (Option.some.inj hexec)).1.symm
  refine ⟨e, hsorted, hanswer, rfl, ?_⟩
  simp only [hanswer]
  rfl

theorem beat_fresh {vars vars' : Vars} {vid : Text} {port : UInt16} {mode' : Mode}
    (hm : Fresh (.beating vid port) m)
    (h : Runs (told g) (posting (beat vars vid port)) m (vars', mode') m') : Fresh mode' m' := by
  rw [beat, runs_posting_bind] at h
  obtain ⟨u, m₁, hsleep, h⟩ := h
  have hs : (perform AgentOp.sleep).Uses isQuiet := uses_perform trivial
  obtain ⟨hstatus₁, hbeats₁⟩ := kept_of_quiet hs hsleep
  rw [runs_posting_bind] at h
  obtain ⟨metrics, m₂, hmetrics, h⟩ := h
  have hr : (perform AgentOp.metrics).Uses isQuiet := uses_perform trivial
  obtain ⟨hstatus₂, hbeats₂⟩ := kept_of_quiet hr hmetrics
  rw [runs_posting_bind] at h
  obtain ⟨running, m₃, hrunning, h⟩ := h
  obtain ⟨hstatus₃, hbeats₃⟩ := kept_of_quiet (quiet_serviceIsRunning vars) hrunning
  rw [runs_posting_bind] at h
  obtain ⟨answer, m₄, hpost, h⟩ := h
  obtain ⟨e, hsorted, hanswer, hstatus₄, hbeats₄⟩ := runs_postHeartbeat hpost
  have hbefore : m₃.lastStatusCode ≠ 404 := by
    rw [hstatus₃, hstatus₂, hstatus₁]
    exact hm.status vid port rfl
  obtain ⟨hclassify, hfound⟩ := classify_post hbefore hsorted
  rw [← hanswer] at hclassify
  have hbeats : ∀ b ∈ m₄.beats, b.2 = direct b.1 := by
    intro b hb
    rw [hbeats₄, hbeats₃, hbeats₂, hbeats₁] at hb
    rcases List.mem_cons.1 hb with rfl | hb
    · exact hclassify
    · exact hm.beats b hb
  have hafter : answer ≠ .notFound → m₄.lastStatusCode ≠ 404 := by
    rw [hclassify, hstatus₄]
    exact hfound
  cases answer with
  | ok assignment =>
      have hfresh : Fresh mode' m₄ := ⟨fun _ _ _ => hafter (by simp), hbeats⟩
      cases assignment with
      | none =>
          obtain ⟨-, rfl⟩ := (runs_pure _ _ _ _).1 h
          exact hfresh
      | some a =>
          have huses : (do
              if ← serviceIsRunning vars then return (vars, Mode.beating vid port)
              let vars ← applyServiceAssignment vars a
              return (vars, Mode.beating vid port) : Future AgentOp Script).Uses isQuiet := by
            refine (quiet_serviceIsRunning vars).bind fun running => ?_
            split_ifs
            · exact uses_pure _
            · exact (quiet_applyServiceAssignment vars a).bind fun _ => uses_pure _
          obtain ⟨hs, hb⟩ := kept_of_quiet huses h
          exact ⟨fun _ _ _ => hs ▸ hafter (by simp), hb ▸ hbeats⟩
  | notFound =>
      obtain ⟨heq, rfl⟩ := (runs_pure _ _ _ _).1 h
      obtain ⟨rfl, rfl⟩ := Prod.mk.inj heq
      exact ⟨fun _ _ hmode => (by cases hmode), hbeats⟩
  | failed =>
      obtain ⟨-, rfl⟩ := (runs_pure _ _ _ _).1 h
      exact ⟨fun _ _ _ => hafter (by simp), hbeats⟩

theorem turn_fresh {script script' : Script} (hm : Fresh script.2 m)
    (h : Runs (told g) (posting (turn script)) m script' m') : Fresh script'.2 m' := by
  obtain ⟨vars, mode⟩ := script
  obtain ⟨vars', mode'⟩ := script'
  have hread : (perform AgentOp.readPublicPort).Uses isQuiet := uses_perform trivial
  cases mode with
  | waiting =>
      rw [turn, runs_posting_bind] at h
      obtain ⟨port, m₁, hport, h⟩ := h
      obtain ⟨-, hbeats⟩ := kept_of_quiet hread hport
      cases port with
      | none =>
          rw [runs_posting_bind] at h
          obtain ⟨u, m₂, hsleep, h⟩ := h
          have hs : (perform AgentOp.sleep).Uses isQuiet := uses_perform trivial
          obtain ⟨-, hkept⟩ := kept_of_quiet hs hsleep
          obtain ⟨heq, rfl⟩ := (runs_pure _ _ _ _).1 h
          obtain ⟨rfl, rfl⟩ := Prod.mk.inj heq
          exact ⟨fun _ _ hmode => (by cases hmode), hkept ▸ hbeats ▸ hm.beats⟩
      | some port =>
          obtain ⟨heq, rfl⟩ := (runs_pure _ _ _ _).1 h
          obtain ⟨rfl, rfl⟩ := Prod.mk.inj heq
          exact ⟨fun _ _ hmode => (by cases hmode), hbeats ▸ hm.beats⟩
  | enrolling port => exact enrolled_fresh hm (fun _ _ hmode => by cases hmode) h
  | beating vid port => exact beat_fresh hm h
  | reEnrolling port =>
      rw [turn, runs_posting_bind] at h
      obtain ⟨port', m₁, hport, h⟩ := h
      obtain ⟨-, hbeats⟩ := kept_of_quiet hread hport
      have hm₁ : Fresh (.reEnrolling port) m₁ :=
        ⟨fun _ _ hmode => (by cases hmode), hbeats ▸ hm.beats⟩
      exact enrolled_fresh hm₁ (fun _ _ hmode => by cases hmode) h

theorem Remembers.fresh {script : Script} (h : Remembers g script m) : Fresh script.2 m := by
  induction h with
  | start => exact ⟨fun _ _ hmode => (by cases hmode), fun b hb => (by cases hb)⟩
  | turn past run ih => exact turn_fresh ih run
  | exit past cid ih => exact ⟨ih.status, ih.beats⟩

theorem post_fst {α : Type} (status : ℕ) (p : Post α) : (post status p).1 = (post 0 p).1 := by
  cases p <;> rfl

def outcomeOf : HeartbeatAnswer → Post (Option AssignmentPayload)
  | .ok a => .response 200 (some a)
  | .notFound => .httpError 404
  | .failed => .unreachable

theorem direct_outcomeOf (answer : HeartbeatAnswer) :
    direct (outcomeOf answer) = answer ∧ (outcomeOf answer).Sorted := by
  cases answer with
  | ok a => exact ⟨rfl, by simp [outcomeOf, Post.Sorted]⟩
  | notFound => exact ⟨rfl, trivial⟩
  | failed => exact ⟨rfl, trivial⟩

theorem beats_kept {t : Future AgentOp α} {a : α} (h : Runs (told g) (posting t) m a m') :
    ∀ b ∈ m.beats, b ∈ m'.beats := by
  induction t generalizing m with
  | ready b =>
      obtain ⟨-, rfl⟩ := (runs_ready b a m m').1 h
      exact fun _ => id
  | await op next ih =>
      obtain ⟨e, c, m₁, -, he, hr⟩ := (runs_await (⟨op⟩ : Posting _) _ m m' a).1 h
      obtain ⟨⟨c', h₁⟩, -, heq⟩ := Option.map_eq_some_iff.1 he
      obtain ⟨rfl, rfl⟩ := Prod.mk.inj heq
      refine fun b hb => ih c' hr b ?_
      cases op with
      | postHeartbeat body => exact List.mem_cons_of_mem _ hb
      | _ => exact hb

/-- Where every heartbeat was taken for what it was, the agent with the variable takes the steps of the
one that is told. -/
theorem runs_informing {t : Future AgentOp α} {a : α} (h : Runs (told g) (posting t) m a m')
    (hbeats : ∀ b ∈ m'.beats, b.2 = direct b.1) :
    Runs (informed g) (informing t) m.informed a m'.informed := by
  induction t generalizing m with
  | ready b =>
      obtain ⟨rfl, rfl⟩ := (runs_ready b a m m').1 h
      exact .ready _ _
  | await op next ih =>
      obtain ⟨e, c, m₁, ⟨hg, hsorted⟩, he, hr⟩ := (runs_await (⟨op⟩ : Posting _) _ m m' a).1 h
      obtain ⟨⟨c', h₁⟩, hexec, heq⟩ := Option.map_eq_some_iff.1 he
      obtain ⟨rfl, rfl⟩ := Prod.mk.inj heq
      have hrest := ih c' hr
      -- What is told is what was seen: the outcome itself after a heartbeat, any such one elsewhere.
      obtain ⟨e', hsame, hsorted', hafter⟩ : ∃ e' : PostEnv, e'.direct = e.seen m.lastStatusCode ∧
          (e'.enroll.Sorted ∧ e'.heartbeat.Sorted) ∧
          m.informed.after e' h₁ op = (remember e op m h₁).informed := by
        have hother : ∃ e' : PostEnv, e'.direct = e.seen m.lastStatusCode ∧
            e'.enroll.Sorted ∧ e'.heartbeat.Sorted := by
          obtain ⟨hdirect, hout⟩ := direct_outcomeOf (e.seen m.lastStatusCode).heartbeatReply
          refine ⟨{ e with heartbeat := outcomeOf (e.seen m.lastStatusCode).heartbeatReply }, ?_,
            hsorted.1, hout⟩
          rw [PostEnv.direct, hdirect]
          simp only [PostEnv.seen, post_fst m.lastStatusCode e.enroll]
        cases op with
        | postHeartbeat body =>
            have htaken := hbeats _ (beats_kept hr _ List.mem_cons_self)
            refine ⟨e, ?_, hsorted, rfl⟩
            rw [PostEnv.direct, ← htaken]
            simp only [PostEnv.seen, post_fst m.lastStatusCode e.enroll]
        | _ =>
            obtain ⟨e', hsame, hsorted'⟩ := hother
            exact ⟨e', hsame, hsorted', rfl⟩
      refine .await (e := e') ⟨?_, hsorted'⟩ ?_ hrest
      · rw [hsame]
        exact hg
      · refine Option.map_eq_some_iff.2 ⟨(c', h₁), ?_, by rw [hafter]⟩
        rw [hsame]
        exact hexec

theorem lives_of_remembers {script : Script} (h : Remembers g script m) : Lives g script m.host := by
  induction h with
  | start => exact .start
  | turn past run ih => exact .turn ih (runs_of_posting run)
  | exit past cid ih => exact .exit ih cid

theorem informs_of_remembers {script : Script} (h : Remembers g script m) :
    Informs g script m.informed := by
  induction h with
  | start => exact .start
  | turn past run ih => exact .turn ih (runs_informing run (past.turn run).fresh.beats)
  | exit past cid ih => exact .exit ih cid

/-- In every run of the agent with its variable, a heartbeat was taken for answered 404 exactly when it
was itself, and the agent does what one does that is told how each of these heartbeats ended. -/
theorem heartbeats_taken {script : Script} (h : Remembers g script m) :
    Lives g script m.host ∧ Informs g script m.informed ∧ ∀ b ∈ m.beats, b.2 = direct b.1 :=
  ⟨lives_of_remembers h, informs_of_remembers h, h.fresh.beats⟩

end Runs

section Example

instance {α : Type} : (p : Post α) → Decidable p.Sorted
  | .response _ _ => inferInstanceAs (Decidable (_ ∧ _))
  | .httpError _ => .isTrue trivial
  | .unreachable => .isTrue trivial

instance (β : Type) (e : PostEnv) (op : Posting β) (m : Memory) :
    Decidable (told dockerSucceeds β e op m) := inferInstanceAs (Decidable (_ ∧ _ ∧ _))

def forgotten (m : Memory) : PostEnv where
  host := evicted "a" m.host
  enroll := .response 200 (some ("a", none))
  heartbeat := if m.beats = [] then .httpError 404 else .unreachable

def rounds : ℕ → Option (Script × Memory)
  | 0 => some (.initial, .initial)
  | n + 1 => (rounds n).bind fun r =>
      runBy (told dockerSucceeds) forgotten (posting (turn r.1)) r.2

theorem remembers_of_rounds {n : ℕ} {script : Script} {m : Memory}
    (hrounds : rounds n = some (script, m)) : Remembers dockerSucceeds script m := by
  induction n generalizing script m with
  | zero =>
      obtain ⟨rfl, rfl⟩ := Prod.mk.inj (Option.some.inj hrounds)
      exact .start
  | succ n ih =>
      obtain ⟨r, hr, hrun⟩ := Option.bind_eq_some_iff.1 hrounds
      exact (ih hr).turn (runs_of_runBy _ _ _ _ _ hrun)

/-- The agent enrolls again after the 404, and beats on after the heartbeat that is lost. -/
theorem heartbeats_taken_forgotten :
    ∃ script m, Remembers dockerSucceeds script m ∧ m.beats.map Prod.snd = [.failed, .notFound] ∧
      Lives dockerSucceeds script m.host ∧ Informs dockerSucceeds script m.informed ∧
      ∀ b ∈ m.beats, b.2 = direct b.1 := by
  have hrun : (rounds 5).any fun r => decide (r.2.beats.map Prod.snd = [.failed, .notFound]) := by
    decide +kernel
  obtain ⟨⟨script, m⟩, hrounds, hbeats⟩ := (Option.any_eq_true _ _).1 hrun
  have hremembers := remembers_of_rounds hrounds
  exact ⟨script, m, hremembers, of_decide_eq_true hbeats, heartbeats_taken hremembers⟩

end Example

end OpenShard.Agent
