import OpenShard.Proto

/-!
# A session and its visitors

`server.rs`: `public_acceptor` sends PINGs, gives every visitor the next stream identifier, puts it
into the pending map and asks the agent to open a data connection for it; `control_reader` drops the
visitors whose streams the agent closes; `data_acceptor` splices a data connection with the visitor
that waits under its identifier. The three share the pending map, and their steps come in any order.
-/

namespace OpenShard.Tunnel

/-- `PING_INTERVAL`, in milliseconds. -/
def pingInterval : ℕ := 10000

inductive Acceptor
  | top
  | accepting
  | inserting (visitor : ℕ) (streamId : UInt16)
  | opening (visitor : ℕ) (streamId : UInt16)
  | returned
  deriving DecidableEq

/-- Visitors are numbered as they arrive. `opens` are the OPENs that were written and whose data
connection the agent may still dial, `conns` the data connections that were not yet looked at, each
with the visitor it is for; `spliced` are the splices, the latest first, and `pings` counts the PINGs
since the last PONG. -/
structure Session where
  now : ℕ
  lastPing : ℕ
  streamCounter : UInt16
  acceptor : Acceptor
  pending : Table UInt16 ℕ
  visitors : ℕ
  opens : List (ℕ × UInt16)
  conns : List (ℕ × UInt16)
  spliced : List (ℕ × ℕ)
  pings : ℕ

def Session.initial : Session := ⟨0, 0, 0, .top, ∅, 0, [], [], [], 0⟩

inductive Act
  | wait (ms : ℕ)
  | ping
  | pingFails
  | noPing
  | accept
  | wouldBlock
  | acceptFails
  | insert
  | sendOpen
  | openFails
  | receive (f : Frame)
  | dial (visitor : ℕ) (streamId : UInt16)
  | ignoreOpen (visitor : ℕ) (streamId : UInt16)
  | take
  | dropConn

/-- `control_reader` on one frame. -/
def Session.receive (s : Session) (f : Frame) : Session :=
  if f.1 = tagPong then { s with pings := 0 }
  else if f.1 = tagClose then { s with pending := s.pending.erase f.2 }
  else s

/-- `data_acceptor` on a connection with this identifier. -/
def Session.splice (s : Session) (visitor : ℕ) (streamId : UInt16) : Session :=
  match s.pending.lookup streamId with
  | none => s
  | some waiting =>
    { s with
      pending := s.pending.erase streamId
      spliced := (visitor, waiting) :: s.spliced }

/-- The steps of the three threads and of the agent, and the passing of time. -/
inductive Session.Step (s : Session) : Act → Session → Prop
  | wait (ms : ℕ) : Step s (.wait ms) { s with now := s.now + ms }
  | ping (htop : s.acceptor = .top) (hdue : pingInterval ≤ s.now - s.lastPing) :
      Step s .ping { s with lastPing := s.now, acceptor := .accepting, pings := s.pings + 1 }
  | pingFails (htop : s.acceptor = .top) (hdue : pingInterval ≤ s.now - s.lastPing) :
      Step s .pingFails { s with acceptor := .returned }
  | noPing (htop : s.acceptor = .top) (hdue : s.now - s.lastPing < pingInterval) :
      Step s .noPing { s with acceptor := .accepting }
  | accept (hat : s.acceptor = .accepting) :
      Step s .accept { s with
        streamCounter := s.streamCounter + 1
        acceptor := .inserting s.visitors s.streamCounter
        visitors := s.visitors + 1 }
  | wouldBlock (hat : s.acceptor = .accepting) : Step s .wouldBlock { s with acceptor := .top }
  | acceptFails (hat : s.acceptor = .accepting) :
      Step s .acceptFails { s with acceptor := .returned }
  | insert {v : ℕ} {id : UInt16} (hat : s.acceptor = .inserting v id) :
      Step s .insert { s with pending := s.pending.insert id v, acceptor := .opening v id }
  | sendOpen {v : ℕ} {id : UInt16} (hat : s.acceptor = .opening v id) :
      Step s .sendOpen { s with opens := (v, id) :: s.opens, acceptor := .top }
  | openFails {v : ℕ} {id : UInt16} (hat : s.acceptor = .opening v id) :
      Step s .openFails { s with acceptor := .returned }
  | receive (f : Frame) : Step s (.receive f) (s.receive f)
  | dial {v : ℕ} {id : UInt16} (hopen : (v, id) ∈ s.opens) :
      Step s (.dial v id) { s with opens := s.opens.erase (v, id), conns := s.conns ++ [(v, id)] }
  | ignoreOpen {v : ℕ} {id : UInt16} (hopen : (v, id) ∈ s.opens) :
      Step s (.ignoreOpen v id) { s with opens := s.opens.erase (v, id) }
  | take {v : ℕ} {id : UInt16} {rest : List (ℕ × UInt16)} (hconns : s.conns = (v, id) :: rest) :
      Step s .take ({ s with conns := rest }.splice v id)
  | dropConn {v : ℕ} {id : UInt16} {rest : List (ℕ × UInt16)} (hconns : s.conns = (v, id) :: rest) :
      Step s .dropConn { s with conns := rest }

theorem ofNat_inj {m n : ℕ} (hm : m < 65536) (hn : n < 65536)
    (h : UInt16.ofNat m = UInt16.ofNat n) : m = n := by
  have hnat := congrArg UInt16.toNat h
  simp only [UInt16.toNat_ofNat'] at hnat
  omega

namespace Session

inductive Reach (P : Session → Act → Prop) : Session → Prop
  | initial : Reach P .initial
  | step {s s' : Session} {a : Act} (past : Reach P s) (hP : P s a) (step : s.Step a s') : Reach P s'

variable {P : Session → Act → Prop} {s s' : Session} {a : Act}

section Silence

def WritesSucceed (_ : Session) (a : Act) : Prop := a ≠ .pingFails ∧ a ≠ .openFails

def Works (s : Session) (a : Act) : Prop := WritesSucceed s a ∧ a ≠ .acceptFails

theorem Step.running (hrunning : s.acceptor ≠ .returned) (hworks : Works s a) (step : s.Step a s') :
    s'.acceptor ≠ .returned := by
  cases step with
  | pingFails _ _ => exact absurd rfl hworks.1.1
  | openFails _ => exact absurd rfl hworks.1.2
  | acceptFails _ => exact absurd rfl hworks.2
  | receive f =>
      rw [Session.receive]
      split_ifs
      · exact hrunning
      · exact hrunning
      · exact hrunning
  | take _ =>
      rw [Session.splice]
      split
      · exact hrunning
      · exact hrunning
  | wait _ => exact hrunning
  | dial _ => exact hrunning
  | ignoreOpen _ => exact hrunning
  | dropConn _ => exact hrunning
  | ping _ _ => simp
  | noPing _ _ => simp
  | accept _ => simp
  | wouldBlock _ => simp
  | insert _ => simp
  | sendOpen _ => simp

theorem Reach.running (hreach : Reach Works s) : s.acceptor ≠ .returned := by
  induction hreach with
  | initial => simp [Session.initial]
  | step _ hworks step ih => exact step.running ih hworks

theorem Reach.unanswered (hreach : Reach WritesSucceed s) (htop : s.acceptor = .top)
    (hpast : s.lastPing ≤ s.now) :
    ∃ s', Reach WritesSucceed s' ∧ s'.acceptor = .top ∧ s'.lastPing ≤ s'.now ∧
      s'.pings = s.pings + 1 := by
  have hwaited := hreach.step ⟨by simp, by simp⟩ (.wait pingInterval)
  have hdue : pingInterval ≤ s.now + pingInterval - s.lastPing := by omega
  have hpinged := hwaited.step ⟨by simp, by simp⟩ (.ping htop hdue)
  exact ⟨_, hpinged.step ⟨by simp, by simp⟩ (.wouldBlock rfl), rfl, le_refl _, rfl⟩

theorem silent (n : ℕ) : ∃ s, Reach WritesSucceed s ∧ s.acceptor = .top ∧ s.lastPing ≤ s.now ∧
    s.pings = n := by
  induction n with
  | zero => exact ⟨.initial, .initial, rfl, le_refl _, rfl⟩
  | succ n ih =>
      obtain ⟨s, hreach, htop, hpast, hpings⟩ := ih
      obtain ⟨s', hreach', htop', hpast', hpings'⟩ := hreach.unanswered htop hpast
      exact ⟨s', hreach', htop', hpast', by rw [hpings', hpings]⟩

/-- After so many PINGs without a PONG the session is over. -/
def DroppedAfter (bound : ℕ) : Prop :=
  ∀ s, Reach WritesSucceed s → bound ≤ s.pings → s.acceptor = .returned

/-- No number of unanswered PINGs ends a session, and nothing does as long as nothing fails. -/
theorem silent_session_goes_on (bound : ℕ) :
    ¬ DroppedAfter bound ∧ ∀ s, Reach Works s → s.acceptor ≠ .returned := by
  refine ⟨fun hdropped => ?_, fun s hreach => hreach.running⟩
  obtain ⟨s, hreach, htop, -, hpings⟩ := silent bound
  have hover := hdropped s hreach hpings.ge
  rw [htop] at hover
  simp at hover

/-- There is no bound on the PINGs that an agent may leave unanswered. -/
theorem silent_session_not_dropped : ¬ ∃ bound, DroppedAfter bound := by
  rintro ⟨bound, hdropped⟩
  obtain ⟨s, hreach, htop, -, hpings⟩ := silent bound
  have hover := hdropped s hreach hpings.ge
  rw [htop] at hover
  simp at hover

end Silence

section Matching

/-- A data connection with this identifier, dialed for this visitor, may still come. -/
def Live (s : Session) (id : UInt16) (n : ℕ) : Prop := (n, id) ∈ s.opens ∨ (n, id) ∈ s.conns

/-- The identifier that a visitor is given is not in use. -/
def Unused (s : Session) (a : Act) : Prop :=
  a = .accept → s.pending.lookup s.streamCounter = none ∧ ∀ n, ¬ Live s s.streamCounter n

theorem Live.of_rest {t : Session} {p : ℕ × UInt16} {id : UInt16} {n : ℕ} (h : Live t id n)
    (hconns : s.conns = p :: t.conns) (hopens : t.opens = s.opens) : Live s id n := by
  rcases h with hopen | hconn
  · exact Or.inl (hopens ▸ hopen)
  · exact Or.inr (hconns ▸ List.mem_cons_of_mem _ hconn)

theorem Live.of_dialed {v : ℕ} {id id' : UInt16} {n : ℕ}
    (h : Live { s with opens := s.opens.erase (v, id), conns := s.conns ++ [(v, id)] } id' n)
    (hopen : (v, id) ∈ s.opens) : Live s id' n := by
  rcases h with hmem | hmem
  · exact Or.inl (List.mem_of_mem_erase hmem)
  · rcases List.mem_append.1 hmem with hmem | hmem
    · exact Or.inr hmem
    · obtain ⟨rfl, rfl⟩ := Prod.mk.inj (List.mem_singleton.1 hmem)
      exact Or.inl hopen

/-- Whoever waits under an identifier is the one that the data connections with it are for. -/
structure Owned (s : Session) : Prop where
  waiting : ∀ id v, s.pending.lookup id = some v → ∀ n, Live s id n → n = v
  inserting : ∀ v id, s.acceptor = .inserting v id →
    s.pending.lookup id = none ∧ ∀ n, ¬ Live s id n
  opening : ∀ v id, s.acceptor = .opening v id →
    (∀ w, s.pending.lookup id = some w → w = v) ∧ ∀ n, ¬ Live s id n
  spliced : ∀ p ∈ s.spliced, p.1 = p.2

theorem Owned.fewer (h : Owned s)
    (hpending : ∀ id v, s'.pending.lookup id = some v → s.pending.lookup id = some v)
    (hlive : ∀ id n, Live s' id n → Live s id n)
    (hinserting : ∀ v id, s'.acceptor = .inserting v id → s.acceptor = .inserting v id)
    (hopening : ∀ v id, s'.acceptor = .opening v id → s.acceptor = .opening v id)
    (hspliced : ∀ p ∈ s'.spliced, p.1 = p.2) : Owned s' where
  waiting id v hv n hn := h.waiting id v (hpending id v hv) n (hlive id n hn)
  inserting v id hat := by
    obtain ⟨hnone, hdead⟩ := h.inserting v id (hinserting v id hat)
    refine ⟨?_, fun n hn => hdead n (hlive id n hn)⟩
    cases hw : s'.pending.lookup id with
    | none => rfl
    | some w =>
        rw [hpending id w hw] at hnone
        simp at hnone
  opening v id hat := by
    obtain ⟨hself, hdead⟩ := h.opening v id (hopening v id hat)
    exact ⟨fun w hw => hself w (hpending id w hw), fun n hn => hdead n (hlive id n hn)⟩
  spliced := hspliced

theorem lookup_of_erase {t : Table UInt16 ℕ} {k id : UInt16} {v : ℕ}
    (h : (t.erase k).lookup id = some v) : t.lookup id = some v := by
  rw [Table.lookup_erase_if] at h
  split_ifs at h
  exact h

theorem Owned.splice {v : ℕ} {id : UInt16} {rest : List (ℕ × UInt16)} (h : Owned s)
    (hconns : s.conns = (v, id) :: rest) : Owned ({ s with conns := rest }.splice v id) := by
  have hlive : ∀ id' n, Live { s with conns := rest } id' n → Live s id' n :=
    fun _ _ hn => hn.of_rest hconns rfl
  rw [Session.splice]
  split
  · exact h.fewer (fun _ _ hv => hv) hlive (fun _ _ hat => hat) (fun _ _ hat => hat) h.spliced
  · rename_i w hw
    refine h.fewer (fun _ _ hv => lookup_of_erase hv) hlive (fun _ _ hat => hat) (fun _ _ hat => hat)
      fun p hp => ?_
    rcases List.mem_cons.1 hp with rfl | hp
    · exact h.waiting id w hw v (Or.inr (hconns ▸ List.mem_cons_self))
    · exact h.spliced p hp

theorem Owned.receive (h : Owned s) (f : Frame) : Owned (s.receive f) := by
  rw [Session.receive]
  split_ifs
  · exact h.fewer (fun _ _ hv => hv) (fun _ _ hn => hn) (fun _ _ hat => hat) (fun _ _ hat => hat)
      h.spliced
  · exact h.fewer (fun _ _ hv => lookup_of_erase hv) (fun _ _ hn => hn) (fun _ _ hat => hat)
      (fun _ _ hat => hat) h.spliced
  · exact h

theorem Owned.step (h : Owned s) (hunused : Unused s a) (step : s.Step a s') : Owned s' := by
  have hnext : ∀ {t : Session}, t.pending = s.pending → t.opens = s.opens → t.conns = s.conns →
      t.spliced = s.spliced → (∀ v id, t.acceptor ≠ .inserting v id) →
      (∀ v id, t.acceptor ≠ .opening v id) → Owned t := by
    intro t hpending hopens hconns hspliced hins hop
    refine h.fewer (fun id v hv => hpending ▸ hv) (fun id n hn => ?_)
      (fun v id hat => absurd hat (hins v id)) (fun v id hat => absurd hat (hop v id))
      (hspliced ▸ h.spliced)
    rw [Live, hopens, hconns] at hn
    exact hn
  cases step with
  | wait ms =>
      exact h.fewer (fun _ _ hv => hv) (fun _ _ hn => hn) (fun _ _ hat => hat) (fun _ _ hat => hat)
        h.spliced
  | ping _ _ => exact hnext rfl rfl rfl rfl (by simp) (by simp)
  | pingFails _ _ => exact hnext rfl rfl rfl rfl (by simp) (by simp)
  | noPing _ _ => exact hnext rfl rfl rfl rfl (by simp) (by simp)
  | wouldBlock _ => exact hnext rfl rfl rfl rfl (by simp) (by simp)
  | acceptFails _ => exact hnext rfl rfl rfl rfl (by simp) (by simp)
  | openFails _ => exact hnext rfl rfl rfl rfl (by simp) (by simp)
  | accept hat =>
      refine ⟨h.waiting, fun v id hins => ?_, fun v id hop => by simp at hop, h.spliced⟩
      obtain ⟨-, rfl⟩ := Acceptor.inserting.inj hins
      exact hunused rfl
  | @insert v id hat =>
      obtain ⟨hnone, hdead⟩ := h.inserting v id hat
      refine ⟨fun id' w hw n hn => ?_, fun v' id' hins => by simp at hins, fun v' id' hop => ?_,
        h.spliced⟩
      · rw [Table.lookup_insert_if] at hw
        split_ifs at hw with hsame
        · subst hsame
          exact absurd hn (hdead n)
        · exact h.waiting id' w hw n hn
      · obtain ⟨rfl, rfl⟩ := Acceptor.opening.inj hop
        refine ⟨fun w hw => ?_, hdead⟩
        rw [Table.lookup_insert_if, if_pos rfl] at hw
        exact (Option.some.inj hw).symm
  | @sendOpen v id hat =>
      obtain ⟨hself, hdead⟩ := h.opening v id hat
      refine ⟨fun id' w hw n hn => ?_, fun v' id' hins => by simp at hins,
        fun v' id' hop => by simp at hop, h.spliced⟩
      rcases hn with hopen | hconn
      · rcases List.mem_cons.1 hopen with heq | hopen
        · obtain ⟨rfl, rfl⟩ := Prod.mk.inj heq
          exact (hself w hw).symm
        · exact h.waiting id' w hw n (Or.inl hopen)
      · exact h.waiting id' w hw n (Or.inr hconn)
  | receive f => exact h.receive f
  | dial hopen =>
      exact h.fewer (fun _ _ hv => hv) (fun _ _ hn => hn.of_dialed hopen) (fun _ _ hat => hat)
        (fun _ _ hat => hat) h.spliced
  | ignoreOpen _ =>
      refine h.fewer (fun _ _ hv => hv) (fun id' n hn => ?_) (fun _ _ hat => hat)
        (fun _ _ hat => hat) h.spliced
      exact hn.imp_left List.mem_of_mem_erase
  | take hconns => exact h.splice hconns
  | dropConn hconns =>
      exact h.fewer (fun _ _ hv => hv) (fun _ _ hn => hn.of_rest hconns rfl)
        (fun _ _ hat => hat) (fun _ _ hat => hat) h.spliced

theorem Reach.owned (hreach : Reach Unused s) : Owned s := by
  induction hreach with
  | initial =>
      refine ⟨fun id v hv => ?_, fun v id hat => ?_, fun v id hat => ?_, fun p hp => ?_⟩
      · simp [Session.initial] at hv
      · simp [Session.initial] at hat
      · simp [Session.initial] at hat
      · simp [Session.initial] at hp
  | step _ hunused step ih => exact ih.step hunused step

def Given (s : Session) (v : ℕ) (id : UInt16) : Prop := v < s.visitors ∧ id = UInt16.ofNat v

/-- The identifiers in use are the low sixteen bits of the visitors' numbers. -/
structure Numbered (s : Session) : Prop where
  counter : s.streamCounter = UInt16.ofNat s.visitors
  waiting : ∀ id v, s.pending.lookup id = some v → Given s v id
  inserting : ∀ v id, s.acceptor = .inserting v id → Given s v id
  opening : ∀ v id, s.acceptor = .opening v id → Given s v id
  live : ∀ id n, Live s id n → Given s n id

theorem Numbered.fewer (h : Numbered s) (hcounter : s'.streamCounter = s.streamCounter)
    (hvisitors : s'.visitors = s.visitors)
    (hpending : ∀ id v, s'.pending.lookup id = some v → s.pending.lookup id = some v)
    (hinserting : ∀ v id, s'.acceptor = .inserting v id → s.acceptor = .inserting v id)
    (hopening : ∀ v id, s'.acceptor = .opening v id → s.acceptor = .opening v id)
    (hlive : ∀ id n, Live s' id n → Live s id n) : Numbered s' := by
  have hgiven : ∀ {v id}, Given s v id → Given s' v id := by
    rintro v id ⟨hlt, hid⟩
    exact ⟨hvisitors ▸ hlt, hid⟩
  exact ⟨by rw [hcounter, hvisitors, h.counter],
    fun id v hv => hgiven (h.waiting id v (hpending id v hv)),
    fun v id hat => hgiven (h.inserting v id (hinserting v id hat)),
    fun v id hat => hgiven (h.opening v id (hopening v id hat)),
    fun id n hn => hgiven (h.live id n (hlive id n hn))⟩

theorem Numbered.step (h : Numbered s) (step : s.Step a s') : Numbered s' := by
  have hnext : ∀ {t : Session}, t.streamCounter = s.streamCounter → t.visitors = s.visitors →
      t.pending = s.pending → t.opens = s.opens → t.conns = s.conns →
      (∀ v id, t.acceptor ≠ .inserting v id) → (∀ v id, t.acceptor ≠ .opening v id) →
      Numbered t := by
    intro t hcounter hvisitors hpending hopens hconns hins hop
    refine h.fewer hcounter hvisitors (fun id v hv => hpending ▸ hv)
      (fun v id hat => absurd hat (hins v id)) (fun v id hat => absurd hat (hop v id))
      fun id n hn => ?_
    rw [Live, hopens, hconns] at hn
    exact hn
  cases step with
  | wait ms => exact ⟨h.counter, h.waiting, h.inserting, h.opening, h.live⟩
  | ping _ _ => exact hnext rfl rfl rfl rfl rfl (by simp) (by simp)
  | pingFails _ _ => exact hnext rfl rfl rfl rfl rfl (by simp) (by simp)
  | noPing _ _ => exact hnext rfl rfl rfl rfl rfl (by simp) (by simp)
  | wouldBlock _ => exact hnext rfl rfl rfl rfl rfl (by simp) (by simp)
  | acceptFails _ => exact hnext rfl rfl rfl rfl rfl (by simp) (by simp)
  | openFails _ => exact hnext rfl rfl rfl rfl rfl (by simp) (by simp)
  | accept hat =>
      have hgiven : ∀ {v id}, Given s v id → v < s.visitors + 1 ∧ id = UInt16.ofNat v := by
        rintro v id ⟨hlt, hid⟩
        exact ⟨hlt.trans (Nat.lt_succ_self _), hid⟩
      refine ⟨?_, fun id v hv => hgiven (h.waiting id v hv), fun v id hins => ?_,
        fun v id hop => by simp at hop, fun id n hn => hgiven (h.live id n hn)⟩
      · rw [h.counter]
        exact (UInt16.ofNat_add s.visitors 1).symm
      · obtain ⟨rfl, rfl⟩ := Acceptor.inserting.inj hins
        exact ⟨Nat.lt_succ_self _, h.counter⟩
  | @insert v id hat =>
      refine ⟨h.counter, fun id' w hw => ?_, fun v' id' hins => by simp at hins,
        fun v' id' hop => ?_, h.live⟩
      · rw [Table.lookup_insert_if] at hw
        split_ifs at hw with hsame
        · obtain rfl : v = w := Option.some.inj hw
          exact hsame ▸ h.inserting v id hat
        · exact h.waiting id' w hw
      · obtain ⟨rfl, rfl⟩ := Acceptor.opening.inj hop
        exact h.inserting v id hat
  | @sendOpen v id hat =>
      refine ⟨h.counter, h.waiting, fun v' id' hins => by simp at hins,
        fun v' id' hop => by simp at hop, fun id' n hn => ?_⟩
      rcases hn with hopen | hconn
      · rcases List.mem_cons.1 hopen with heq | hopen
        · obtain ⟨rfl, rfl⟩ := Prod.mk.inj heq
          exact h.opening n id' hat
        · exact h.live id' n (Or.inl hopen)
      · exact h.live id' n (Or.inr hconn)
  | receive f =>
      rw [Session.receive]
      split_ifs
      · exact ⟨h.counter, h.waiting, h.inserting, h.opening, h.live⟩
      · exact h.fewer rfl rfl (fun _ _ hv => lookup_of_erase hv) (fun _ _ hat => hat)
          (fun _ _ hat => hat) fun _ _ hn => hn
      · exact h
  | dial hopen =>
      exact h.fewer rfl rfl (fun _ _ hv => hv) (fun _ _ hat => hat) (fun _ _ hat => hat)
        fun _ _ hn => hn.of_dialed hopen
  | ignoreOpen _ =>
      exact h.fewer rfl rfl (fun _ _ hv => hv) (fun _ _ hat => hat) (fun _ _ hat => hat)
        fun _ _ hn => hn.imp_left List.mem_of_mem_erase
  | take hconns =>
      rw [Session.splice]
      split
      · exact h.fewer rfl rfl (fun _ _ hv => hv) (fun _ _ hat => hat) (fun _ _ hat => hat)
          fun _ _ hn => hn.of_rest hconns rfl
      · exact h.fewer rfl rfl (fun _ _ hv => lookup_of_erase hv) (fun _ _ hat => hat)
          (fun _ _ hat => hat) fun _ _ hn => hn.of_rest hconns rfl
  | dropConn hconns =>
      exact h.fewer rfl rfl (fun _ _ hv => hv) (fun _ _ hat => hat) (fun _ _ hat => hat)
        fun _ _ hn => hn.of_rest hconns rfl

theorem Reach.numbered (hreach : Reach P s) : Numbered s := by
  induction hreach with
  | initial => exact ⟨rfl, by simp [Session.initial], by simp [Session.initial],
      by simp [Session.initial], by simp [Live, Session.initial]⟩
  | step _ _ step ih => exact ih.step step

theorem Numbered.unused (h : Numbered s) (hfew : s.visitors < 65536) : Unused s a := by
  have hnew : ∀ v, ¬ Given s v s.streamCounter := by
    rintro v ⟨hlt, hid⟩
    have hsame := ofNat_inj (hlt.trans hfew) hfew (hid.symm.trans h.counter)
    omega
  refine fun _ => ⟨?_, fun n hn => hnew n (h.live _ n hn)⟩
  cases hw : s.pending.lookup s.streamCounter with
  | none => rfl
  | some w => exact absurd (h.waiting _ w hw) (hnew w)

def Few (s : Session) (a : Act) : Prop := a = .accept → s.visitors < 65536

/-- In a session of at most 65536 visitors no identifier is given out while it is in use. -/
theorem Reach.unused (hreach : Reach Few s) : Reach Unused s := by
  induction hreach with
  | initial => exact .initial
  | step past hfew step ih =>
      exact ih.step (fun haccept => past.numbered.unused (hfew haccept) haccept) step

def Waiting (s : Session) (v : ℕ) : Prop := ∃ id, s.pending.lookup id = some v

/-- The step is a CLOSE of the visitor's stream, or takes the visitor's own data connection. -/
def LeavesBy (s : Session) (a : Act) (v : ℕ) : Prop :=
  (∃ id, a = .receive (tagClose, id) ∧ s.pending.lookup id = some v) ∨
    (a = .take ∧ ∃ id rest, s.conns = (v, id) :: rest ∧ s.pending.lookup id = some v)

theorem erased_of_left {t : Session} {k : UInt16} {v : ℕ} (hpending : t.pending = s.pending.erase k)
    (hwaits : Waiting s v) (hgone : ¬ Waiting t v) : s.pending.lookup k = some v := by
  obtain ⟨id, hv⟩ := hwaits
  by_cases hsame : id = k
  · exact hsame ▸ hv
  · refine absurd ⟨id, ?_⟩ hgone
    rw [hpending, Table.lookup_erase_if, if_neg hsame, hv]

theorem Step.leaves {v : ℕ} (h : Owned s) (step : s.Step a s') (hwaits : Waiting s v)
    (hgone : ¬ Waiting s' v) : LeavesBy s a v := by
  cases step with
  | wait _ => exact absurd hwaits hgone
  | ping _ _ => exact absurd hwaits hgone
  | pingFails _ _ => exact absurd hwaits hgone
  | noPing _ _ => exact absurd hwaits hgone
  | accept _ => exact absurd hwaits hgone
  | wouldBlock _ => exact absurd hwaits hgone
  | acceptFails _ => exact absurd hwaits hgone
  | sendOpen _ => exact absurd hwaits hgone
  | openFails _ => exact absurd hwaits hgone
  | dial _ => exact absurd hwaits hgone
  | ignoreOpen _ => exact absurd hwaits hgone
  | dropConn _ => exact absurd hwaits hgone
  | @insert w id hat =>
      obtain ⟨id', hv⟩ := hwaits
      have hne : id' ≠ id := by
        rintro rfl
        rw [(h.inserting w id' hat).1] at hv
        simp at hv
      refine absurd ⟨id', ?_⟩ hgone
      rw [Table.lookup_insert_if, if_neg hne, hv]
  | receive f =>
      obtain ⟨tag, id⟩ := f
      rw [Session.receive] at hgone
      split_ifs at hgone with hpong hclose
      · exact absurd hwaits hgone
      · obtain rfl : tag = tagClose := hclose
        exact Or.inl ⟨id, rfl, erased_of_left rfl hwaits hgone⟩
      · exact absurd hwaits hgone
  | @take n id rest hconns =>
      rw [Session.splice] at hgone
      split at hgone
      · exact absurd hwaits hgone
      · rename_i w hw
        have hv := erased_of_left rfl hwaits hgone
        obtain rfl := h.waiting id v hv n (Or.inr (hconns ▸ List.mem_cons_self))
        exact Or.inr ⟨rfl, id, rest, hconns, hv⟩

/-- As long as no visitor is given an identifier that is in use, data connections are spliced with
the visitors they were dialed for, and a visitor leaves by its own connection or a CLOSE only. -/
theorem visitors_matched (hreach : Reach Unused s) :
    (∀ p ∈ s.spliced, p.1 = p.2) ∧
      ∀ a s' v, Unused s a → s.Step a s' → Waiting s v → ¬ Waiting s' v → LeavesBy s a v :=
  ⟨hreach.owned.spliced, fun _ _ _ _ step => step.leaves hreach.owned⟩

/-- A session that has given out so many identifiers, whose first visitor still waits. -/
structure FirstWaits (s : Session) (n : ℕ) : Prop where
  top : s.acceptor = .top
  time : s.now = s.lastPing
  counter : s.streamCounter = UInt16.ofNat n
  count : s.visitors = n
  pending : s.pending = (∅ : Table UInt16 ℕ).insert 0 0
  opened : (0, 0) ∈ s.opens
  conns : s.conns = []

theorem Reach.visited (hP : ∀ t a, (a = .accept → t.visitors = s.visitors) → P t a)
    (hreach : Reach P s) (htop : s.acceptor = .top) (htime : s.now = s.lastPing) :
    Reach P { s with
      streamCounter := s.streamCounter + 1
      visitors := s.visitors + 1
      pending := s.pending.insert s.streamCounter s.visitors
      opens := (s.visitors, s.streamCounter) :: s.opens } := by
  have hdue : s.now - s.lastPing < pingInterval := by
    rw [htime, Nat.sub_self]
    decide
  have haccepting := hreach.step (hP _ _ (by simp)) (.noPing htop hdue)
  have haccepted := haccepting.step (hP _ _ (by simp)) (.accept rfl)
  have hinserted := haccepted.step (hP _ _ (by simp)) (.insert rfl)
  have hopened := hinserted.step (hP _ _ (by simp)) (.sendOpen rfl)
  simpa only [← htop] using hopened

/-- Visitors come whose streams the agent closes at once, until the counter is back at zero. -/
theorem firstWaits {n : ℕ} (hn : n < 65536) :
    ∃ s, Reach (fun _ _ => True) s ∧ FirstWaits s (n + 1) := by
  induction n with
  | zero =>
      have hreach := Reach.visited (fun _ _ _ => trivial)
        (@Reach.initial fun _ _ => True) rfl rfl
      exact ⟨_, hreach, rfl, rfl, rfl, rfl, rfl, List.mem_cons_self, rfl⟩
  | succ n ih =>
      obtain ⟨s, hreach, hs⟩ := ih (by omega)
      have hvisited := Reach.visited (fun _ _ _ => trivial) hreach hs.top hs.time
      have hclosed := hvisited.step trivial (.receive (tagClose, s.streamCounter))
      refine ⟨_, hclosed, hs.top, hs.time, ?_, ?_, ?_, List.mem_cons_of_mem _ hs.opened, hs.conns⟩
      · have hcounter : s.streamCounter + 1 = UInt16.ofNat (n + 1 + 1) := by
          rw [hs.counter]
          exact (UInt16.ofNat_add (n + 1) 1).symm
        exact hcounter
      · exact congrArg (· + 1) hs.count
      · have hfree : s.pending.lookup s.streamCounter = none := by
          have hne : s.streamCounter ≠ 0 := by
            rw [hs.counter, ← UInt16.toNat_inj.ne, UInt16.toNat_ofNat']
            have hsmall : (n + 1) % 2 ^ 16 = n + 1 := Nat.mod_eq_of_lt (by omega)
            rw [hsmall]
            simp
          rw [hs.pending, Table.lookup_insert_if, if_neg hne]
          rfl
        have herased : (s.pending.insert s.streamCounter s.visitors).erase s.streamCounter =
            s.pending := by
          rw [Table.erase_insert, Table.erase_of_lookup_none hfree]
        exact herased.trans hs.pending

/-- The 65537th visitor is given the identifier of the first one, who still waits. -/
theorem visitor_mismatched :
    ¬ ∀ s, Reach (fun _ _ => True) s → (∀ p ∈ s.spliced, p.1 = p.2) ∧
      ∀ a s' v, s.Step a s' → Waiting s v → ¬ Waiting s' v → LeavesBy s a v := by
  intro hclaim
  obtain ⟨s, hreach, hs⟩ := @firstWaits 65535 (by decide)
  have hvisited := Reach.visited (fun _ _ _ => trivial) hreach hs.top hs.time
  have hdialed := hvisited.step trivial (.dial (List.mem_cons_of_mem _ hs.opened))
  have hconns : s.conns ++ [((0 : ℕ), (0 : UInt16))] = (0, 0) :: [] := by rw [hs.conns]; rfl
  have htaken := hdialed.step trivial (.take hconns)
  have hwaiting : (s.pending.insert s.streamCounter s.visitors).lookup 0 = some s.visitors := by
    have hzero : s.streamCounter = 0 := hs.counter
    rw [hzero, AList.lookup_insert]
  have hspliced := (hclaim _ htaken).1 (0, s.visitors) ?_
  · rw [hs.count] at hspliced
    simp at hspliced
  · simp only [Session.splice, hwaiting]
    exact List.mem_cons_self

/-- Two visitors come, and the data connection of the second is the first to be taken. -/
theorem visitor_matched :
    ∃ s, Reach Unused s ∧ s.spliced = [(0, 0), (1, 1)] ∧ ∀ p ∈ s.spliced, p.1 = p.2 := by
  have hfirst := (@Reach.initial Few).visited
    (fun t a hcount haccept => by rw [hcount haccept]; decide) rfl rfl
  have hsecond := hfirst.visited
    (fun t a hcount haccept => by rw [hcount haccept]; decide) rfl rfl
  have hdialed := hsecond.step (fun h => by simp at h) (.dial List.mem_cons_self)
  have hcrossed := hdialed.step (fun h => by simp at h) (@Step.dial _ 0 0 (by decide))
  have htaken := hcrossed.step (fun h => by simp at h) (.take rfl)
  have hboth := htaken.step (fun h => by simp at h) (.take rfl)
  exact ⟨_, hboth.unused, rfl, (visitors_matched hboth.unused).1⟩

end Matching

end Session

end OpenShard.Tunnel
