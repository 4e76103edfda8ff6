import OpenShard.Proto

/-!
# Data connections

`server.rs`: `data_acceptor` looks at the data connections one after the other, and waits for the
identifier of each; `splice` copies what one side of a stream sends to the other, in both directions,
until a read fails or finds the end. Sockets of visitors have a read timeout, which `public_acceptor`
sets for the time until the agent has dialed back and nobody takes off again.
-/

namespace OpenShard.Tunnel

/-- `DATA_ACCEPT_TIMEOUT`, in milliseconds. -/
def dataAcceptTimeout : ℕ := 10000

section Copying

/-- Bytes that arrive after nothing has arrived for a while. -/
structure Burst where
  silence : ℕ
  bytes : List UInt8
  nonempty : bytes ≠ []

/-- A connection, with what its peer sends before it closes its write side. `readTimeout` is an option
of the socket and so of its clones. The last read finds the end of the stream, or times out before. -/
structure Socket where
  readTimeout : Option ℕ
  bursts : List Burst

/-- The socket as `public_acceptor` leaves it. -/
def visitorSocket (bursts : List Burst) : Socket := ⟨some dataAcceptTimeout, bursts⟩

/-- The socket as `data_acceptor` leaves it. -/
def agentSocket (bursts : List Burst) : Socket := ⟨none, bursts⟩

def timesOut (timeout : Option ℕ) (silence : ℕ) : Bool := timeout.any fun t => t ≤ silence

def bufferLen : ℕ := 8192

def Burst.remaining (b : Burst) (bursts : List Burst) : List Burst :=
  if h : b.bytes.drop bufferLen = [] then bursts else ⟨0, b.bytes.drop bufferLen, h⟩ :: bursts

def bytesOf (bursts : List Burst) : List UInt8 := bursts.flatMap (·.bytes)

theorem bytesOf_remaining (b : Burst) (bursts : List Burst) :
    b.bytes.take bufferLen ++ bytesOf (b.remaining bursts) = bytesOf (b :: bursts) := by
  rw [Burst.remaining]
  split_ifs with h
  · have hall := List.take_append_drop bufferLen b.bytes
    rw [h, List.append_nil] at hall
    rw [hall, bytesOf, bytesOf, List.flatMap_cons]
  · rw [bytesOf, bytesOf, List.flatMap_cons, List.flatMap_cons, ← List.append_assoc,
      List.take_append_drop]

theorem remaining_shorter (b : Burst) (bursts : List Burst) :
    (bytesOf (b.remaining bursts)).length < (bytesOf (b :: bursts)).length := by
  have hpos : 0 < (b.bytes.take bufferLen).length := by
    rw [List.length_take]
    have hbytes := List.length_pos_iff.2 b.nonempty
    exact Nat.lt_min.2 ⟨by decide, hbytes⟩
  rw [← bytesOf_remaining, List.length_append]
  omega

/-- The loop of `copy_half`: what is written to the other side. The `k`-th write succeeds if
`write k`. A read that times out ends the loop as the end of the stream does. -/
def copyLoop (timeout : Option ℕ) (write : ℕ → Bool) (k : ℕ) (bursts : List Burst) : List UInt8 :=
  match bursts with
  | [] => []
  | b :: bursts =>
    if timesOut timeout b.silence then []
    else if write k then
      b.bytes.take bufferLen ++ copyLoop timeout write (k + 1) (b.remaining bursts)
    else []
termination_by (bytesOf bursts).length
decreasing_by exact remaining_shorter _ _

structure Copied where
  written : List UInt8
  shutdown : Bool
  deriving DecidableEq

def copyHalf (src : Socket) (write : ℕ → Bool) : Copied :=
  ⟨copyLoop src.readTimeout write 0 src.bursts, true⟩

def splice (agentData visitor : Socket) (toVisitor toAgent : ℕ → Bool) : Copied × Copied :=
  (copyHalf agentData toVisitor, copyHalf visitor toAgent)

variable {timeout : Option ℕ} {k : ℕ} {bursts : List Burst}

theorem copyLoop_cons (write : ℕ → Bool) (b : Burst) :
    copyLoop timeout write k (b :: bursts) =
      if timesOut timeout b.silence then []
      else if write k then
        b.bytes.take bufferLen ++ copyLoop timeout write (k + 1) (b.remaining bursts)
      else [] := by
  rw [copyLoop]

theorem prompt_remaining {b : Burst} (h : ∀ c ∈ b :: bursts, timesOut timeout c.silence = false)
    (hzero : timesOut timeout 0 = false) :
    ∀ c ∈ b.remaining bursts, timesOut timeout c.silence = false := by
  intro c hc
  rw [Burst.remaining] at hc
  split_ifs at hc
  · exact h c (List.mem_cons_of_mem _ hc)
  · rcases List.mem_cons.1 hc with rfl | hc
    · exact hzero
    · exact h c (List.mem_cons_of_mem _ hc)

theorem copyLoop_prompt (hzero : timesOut timeout 0 = false)
    (h : ∀ b ∈ bursts, timesOut timeout b.silence = false) :
    copyLoop timeout (fun _ => true) k bursts = bytesOf bursts := by
  induction hlength : (bytesOf bursts).length using Nat.strong_induction_on generalizing k bursts with
  | _ n ih =>
      cases bursts with
      | nil =>
          rw [copyLoop]
          rfl
      | cons b bursts =>
          have hshorter := remaining_shorter b bursts
          have hrest := @ih _ (hlength ▸ hshorter) (k + 1) (b.remaining bursts)
            (prompt_remaining h hzero) rfl
          rw [copyLoop_cons, if_neg (by simp [h b List.mem_cons_self]), if_pos rfl, hrest,
            bytesOf_remaining]

/-- If a read times out, something that arrives later is missing. -/
theorem copyLoop_late {b : Burst} (hb : b ∈ bursts) (hlate : timesOut timeout b.silence = true) :
    (copyLoop timeout (fun _ => true) k bursts).length < (bytesOf bursts).length := by
  induction hlength : (bytesOf bursts).length using Nat.strong_induction_on generalizing k bursts with
  | _ n ih =>
      cases bursts with
      | nil => simp at hb
      | cons c bursts =>
          have hshorter := remaining_shorter c bursts
          rw [← hlength, copyLoop_cons]
          split_ifs with hout htrue
          · exact Nat.lt_of_le_of_lt (Nat.zero_le _) hshorter
          · have hlater : b ∈ c.remaining bursts := by
              rcases List.mem_cons.1 hb with rfl | hb
              · exact absurd hlate hout
              · rw [Burst.remaining]
                split_ifs
                · exact hb
                · exact List.mem_cons_of_mem _ hb
            have hrest := @ih _ (hlength ▸ hshorter) (k + 1) (c.remaining bursts) hlater rfl
            rw [← bytesOf_remaining c bursts, List.length_append, List.length_append]
            omega
          · exact Nat.lt_of_le_of_lt (Nat.zero_le _) hshorter

/-- The agent is sent everything that the visitor sends, exactly if the visitor is never silent for
the ten seconds that the agent has to dial back; the visitor is sent everything in any case. -/
theorem spliced_bytes_arrive_iff (visitor agent : List Burst) :
    ((splice (agentSocket agent) (visitorSocket visitor) (fun _ => true) fun _ => true).2 =
        ⟨bytesOf visitor, true⟩ ↔ ∀ b ∈ visitor, b.silence < dataAcceptTimeout) ∧
      (splice (agentSocket agent) (visitorSocket visitor) (fun _ => true) fun _ => true).1 =
        ⟨bytesOf agent, true⟩ := by
  refine ⟨⟨fun hall b hb => ?_, fun hprompt => ?_⟩, ?_⟩
  · by_contra hlate
    have hout : timesOut (some dataAcceptTimeout) b.silence = true := by
      simpa [timesOut] using hlate
    have hmissing := @copyLoop_late (some dataAcceptTimeout) 0 visitor b hb hout
    have hwritten : copyLoop (some dataAcceptTimeout) (fun _ => true) 0 visitor = bytesOf visitor :=
      congrArg Copied.written hall
    rw [hwritten] at hmissing
    exact lt_irrefl _ hmissing
  · have hcopied := @copyLoop_prompt (some dataAcceptTimeout) 0 visitor rfl fun b hb => by
      simpa [timesOut] using hprompt b hb
    exact congrArg (Copied.mk · true) hcopied
  · exact congrArg (Copied.mk · true) (@copyLoop_prompt none 0 agent rfl fun _ _ => rfl)

def pausing : List Burst := [⟨0, [1], by decide⟩, ⟨10000, [2], by decide⟩]

/-- The second byte does not arrive. -/
theorem pausing_visitor_cut_off :
    ¬ ∀ visitor agent : List Burst,
      (splice (agentSocket agent) (visitorSocket visitor) (fun _ => true) fun _ => true).2 =
        ⟨bytesOf visitor, true⟩ := by
  intro hclaim
  have hall : copyLoop (some dataAcceptTimeout) (fun _ => true) 0 pausing = bytesOf pausing :=
    congrArg Copied.written (hclaim pausing [])
  have hlate : timesOut (some dataAcceptTimeout) 10000 = true := by decide
  have hmissing := @copyLoop_late (some dataAcceptTimeout) 0 pausing ⟨10000, [2], by decide⟩
    (by simp [pausing]) hlate
  rw [hall] at hmissing
  exact lt_irrefl _ hmissing

end Copying

section Accepting

/-- A data connection in accept order: the bytes that were sent so far, and whether the peer has closed
it after them. -/
structure DataConn where
  sent : List UInt8
  closed : Bool

def DataConn.streamId (c : DataConn) : Option UInt16 :=
  match c.sent with
  | hi :: lo :: _ => some (fromBeBytes hi lo)
  | _ => none

def DataConn.stalled (c : DataConn) : Bool := c.streamId.isNone && !c.closed

/-- The loop of `data_acceptor`: which connections are spliced with which visitors. -/
def dataAcceptor {V : Type} : List DataConn → Table UInt16 V → List (DataConn × V)
  | [], _ => []
  | c :: cs, pending =>
    match c.streamId with
    | some id =>
      match pending.lookup id with
      | some visitor => (c, visitor) :: dataAcceptor cs (pending.erase id)
      | none => dataAcceptor cs pending
    | none => if c.closed then dataAcceptor cs pending else []

variable {V : Type} {conns before after : List DataConn} {pending : Table UInt16 V} {c s : DataConn}
  {visitor : V} {id : UInt16}

/-- Behind a connection that stalls none is looked at. -/
theorem dataAcceptor_stalled (hs : s.stalled = true)
    (h : (c, visitor) ∈ dataAcceptor (before ++ s :: after) pending) : c ∈ before := by
  rw [DataConn.stalled, Bool.and_eq_true, Option.isNone_iff_eq_none, Bool.not_eq_true'] at hs
  induction before generalizing pending with
  | nil =>
      rw [List.nil_append, dataAcceptor, hs.1] at h
      simp [hs.2] at h
  | cons b before ih =>
      rw [List.cons_append, dataAcceptor] at h
      cases hid : b.streamId with
      | none =>
          simp only [hid] at h
          split_ifs at h
          · exact List.mem_cons_of_mem _ (ih h)
          · simp at h
      | some id =>
          simp only [hid] at h
          cases hv : pending.lookup id with
          | none =>
              simp only [hv] at h
              exact List.mem_cons_of_mem _ (ih h)
          | some w =>
              simp only [hv] at h
              rcases List.mem_cons.1 h with heq | h
              · rw [(Prod.mk.inj heq).1]
                exact List.mem_cons_self
              · exact List.mem_cons_of_mem _ (ih h)

theorem dataAcceptor_reached (hfree : ∀ b ∈ before, b.stalled = false)
    (hfirst : ∀ b ∈ before, b.streamId ≠ some id) (hc : c.streamId = some id)
    (hv : pending.lookup id = some visitor) :
    (c, visitor) ∈ dataAcceptor (before ++ c :: after) pending := by
  induction before generalizing pending with
  | nil =>
      rw [List.nil_append, dataAcceptor]
      simp only [hc, hv]
      exact List.mem_cons_self
  | cons b before ih =>
      have hrest : ∀ {pending : Table UInt16 V}, pending.lookup id = some visitor →
          (c, visitor) ∈ dataAcceptor (before ++ c :: after) pending :=
        fun hv => ih (fun b hb => hfree b (List.mem_cons_of_mem _ hb))
          (fun b hb => hfirst b (List.mem_cons_of_mem _ hb)) hv
      rw [List.cons_append, dataAcceptor]
      cases hid : b.streamId with
      | none =>
          have hclosed : b.closed = true := by
            have hnot := hfree b List.mem_cons_self
            simpa [DataConn.stalled, hid] using hnot
          simp only [hclosed, if_true]
          exact hrest hv
      | some other =>
          have hne : id ≠ other := fun heq => hfirst b List.mem_cons_self (heq ▸ hid)
          simp only
          cases hw : pending.lookup other with
          | none => exact hrest hv
          | some w =>
              refine List.mem_cons_of_mem _ (hrest ?_)
              rw [Table.lookup_erase_if, if_neg hne, hv]

theorem first_claim (hc : c ∈ conns) (hid : c.streamId = some id) :
    ∃ before c' after, conns = before ++ c' :: after ∧ c'.streamId = some id ∧
      ∀ b ∈ before, b.streamId ≠ some id := by
  induction conns with
  | nil => simp at hc
  | cons d conns ih =>
      by_cases hd : d.streamId = some id
      · exact ⟨[], d, conns, rfl, hd, by simp⟩
      · rcases List.mem_cons.1 hc with rfl | hc
        · exact absurd hid hd
        · obtain ⟨before, c', after, rfl, hc', hbefore⟩ := ih hc
          refine ⟨d :: before, c', after, rfl, hc', fun b hb => ?_⟩
          rcases List.mem_cons.1 hb with rfl | hb
          · exact hd
          · exact hbefore b hb

/-- Whoever is the first to claim a waiting visitor is spliced with it, exactly if no connection that
stalls stands in front of a first claim. -/
theorem claims_served_iff (conns : List DataConn) (pending : Table UInt16 V) :
    (∀ before c after id visitor, conns = before ++ c :: after → c.streamId = some id →
        pending.lookup id = some visitor → (∀ b ∈ before, b.streamId ≠ some id) →
        (c, visitor) ∈ dataAcceptor conns pending) ↔
      ∀ before s after, conns = before ++ s :: after → s.stalled = true →
        ∀ c ∈ after, ∀ id ∈ c.streamId, (pending.lookup id).isSome →
          ∃ b ∈ before, b.streamId = some id := by
  constructor
  · intro hserved before s after hconns hs c hc id hid hwaits
    by_contra hnone
    have hnone' : ∀ b ∈ before, b.streamId ≠ some id := fun b hb hb' => hnone ⟨b, hb, hb'⟩
    obtain ⟨visitor, hv⟩ := Option.isSome_iff_exists.1 hwaits
    obtain ⟨between, c', rest, rfl, hc', hbetween⟩ := first_claim hc hid
    have hsplit : conns = (before ++ s :: between) ++ c' :: rest := by
      rw [hconns, List.append_assoc, List.cons_append]
    have hmem := hserved _ c' rest id visitor hsplit hc' hv fun b hb => by
      rcases List.mem_append.1 hb with hb | hb
      · exact hnone' b hb
      · rcases List.mem_cons.1 hb with rfl | hb
        · intro hsid
          rw [DataConn.stalled, hsid] at hs
          simp at hs
        · exact hbetween b hb
    rw [hconns] at hmem
    exact hnone ⟨c', dataAcceptor_stalled hs hmem, hc'⟩
  · rintro hclear before c after id visitor rfl hc hv hfirst
    refine dataAcceptor_reached (fun b hb => ?_) hfirst hc hv
    by_contra hstalled
    obtain ⟨front, back, rfl⟩ := List.append_of_mem hb
    have hsplit : front ++ b :: back ++ c :: after = front ++ b :: (back ++ c :: after) := by
      rw [List.append_assoc, List.cons_append]
    obtain ⟨b', hb', hclaims⟩ := hclear front b _ hsplit (by simpa using hstalled) c (by simp) id hc
      (by rw [hv]; rfl)
    exact hfirst b' (List.mem_append_left _ hb') hclaims

def silentFirst : List DataConn := [⟨[], false⟩, ⟨[0, 0], false⟩]

/-- The visitor is not spliced. -/
theorem silent_connection_blocks :
    ¬ ∀ (conns : List DataConn) (pending : Table UInt16 ℕ) (before after : List DataConn)
      (c : DataConn) (id : UInt16) (visitor : ℕ), conns = before ++ c :: after →
      c.streamId = some id → pending.lookup id = some visitor →
      (∀ b ∈ before, b.streamId ≠ some id) → (c, visitor) ∈ dataAcceptor conns pending := by
  intro hclaim
  have hmem := hclaim silentFirst ((∅ : Table UInt16 ℕ).insert 0 7) [⟨[], false⟩] [] ⟨[0, 0], false⟩
    0 7 rfl rfl rfl (by simp [DataConn.streamId])
  simp [silentFirst, dataAcceptor, DataConn.streamId] at hmem

end Accepting

end OpenShard.Tunnel
