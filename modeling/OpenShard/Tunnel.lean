import OpenShard.Interleaving

/-!
# The tunnel server's ports

`server.rs`: every agent that connects gets a thread of its own, which takes a public port and a data
port from one pool under the lock on `used_ports`, tells the agent, serves visitors until the session
ends, and gives both ports back. A port of the pool can be given out if it is not in `used_ports` and
the operating system lets the server bind it. A listener is closed when the function that owns it
returns; the data acceptor owns the data listener and never returns.
-/

namespace OpenShard.Tunnel

open Future

def portRangeStart : UInt16 := 30000

def portRangeEnd : UInt16 := 31000

/-- The range `PORT_RANGE_START..=PORT_RANGE_END`. -/
def pool : List UInt16 :=
  (List.range (portRangeEnd.toNat + 1 - portRangeStart.toNat)).map fun k =>
    portRangeStart + UInt16.ofNat k

/-- The loop of `allocate_port`: the first port that is not used and can be bound. -/
def allocatePort (bind : UInt16 → Bool) (used : Finset UInt16) : Option UInt16 :=
  pool.find? fun port => port ∉ used ∧ bind port

def handshake (publicPort dataPort : UInt16) : List UInt8 :=
  [(publicPort >>> 8).toUInt8, (publicPort &&& 0xff).toUInt8,
    (dataPort >>> 8).toUInt8, (dataPort &&& 0xff).toUInt8]

/-- `listeners` are the ports that a live listener of the process holds, and `held` records what each
session has been given and has not yet given back. -/
structure Server where
  used : Finset UInt16
  listeners : Multiset UInt16
  sessions : ℕ
  held : ℕ → List UInt16

def Server.initial : Server := ⟨∅, 0, 0, fun _ => []⟩

inductive TunnelOp : Type → Type
  | spawn : TunnelOp ℕ
  | allocatePort (session : ℕ) : TunnelOp (Option UInt16)
  | releasePort (session : ℕ) (port : UInt16) : TunnelOp Unit
  | writeAll (bytes : List UInt8) : TunnelOp Bool
  | tryClone : TunnelOp Bool
  | spawnDataAcceptor (port : UInt16) : TunnelOp Unit
  | publicAcceptor (port : UInt16) : TunnelOp Unit
  | dropListener (port : UInt16) : TunnelOp Unit

/-- Which ports can be bound at this step, and whether the control connection works. -/
structure TunnelEnv where
  bind : UInt16 → Bool
  write : Bool
  clone : Bool

namespace Server

variable (s : Server) (session : ℕ) (port : UInt16)

def give : Server where
  used := insert port s.used
  listeners := port ::ₘ s.listeners
  sessions := s.sessions
  held := Function.update s.held session (port :: s.held session)

def takeBack : Server where
  used := s.used.erase port
  listeners := s.listeners
  sessions := s.sessions
  held := Function.update s.held session ((s.held session).erase port)

def close : Server := { s with listeners := s.listeners.erase port }

end Server

instance : Machine TunnelOp TunnelEnv Server where
  exec
    | _, .spawn, s => some (s.sessions, { s with sessions := s.sessions + 1 })
    | e, .allocatePort session, s =>
      match Tunnel.allocatePort e.bind s.used with
      | none => some (none, s)
      | some port => some (some port, s.give session port)
    | _, .releasePort session port, s => some ((), s.takeBack session port)
    | e, .writeAll _, s => some (e.write, s)
    | e, .tryClone, s => some (e.clone, s)
    | _, .spawnDataAcceptor _, s => some ((), s)
    | _, .publicAcceptor port, s => some ((), s.close port)
    | _, .dropListener port, s => some ((), s.close port)

inductive Exit
  | noPublicPort
  | noDataPort
  | handshakeFailed
  | cloneFailed
  | ended
  deriving DecidableEq

/-- Give both ports back and close both listeners. -/
def abandon (me : ℕ) (publicPort dataPort : UInt16) : Future TunnelOp Unit := do
  perform (.releasePort me publicPort)
  perform (.releasePort me dataPort)
  perform (.dropListener dataPort)
  perform (.dropListener publicPort)

def serve (me : ℕ) (publicPort dataPort : UInt16) : Future TunnelOp Exit := do
  if !(← perform (.writeAll (handshake publicPort dataPort))) then
    abandon me publicPort dataPort
    return .handshakeFailed
  if !(← perform .tryClone) then
    abandon me publicPort dataPort
    return .cloneFailed
  perform (.spawnDataAcceptor dataPort)
  perform (.publicAcceptor publicPort)
  perform (.releasePort me publicPort)
  perform (.releasePort me dataPort)
  return .ended

def runSession : Future TunnelOp Exit := do
  let me ← perform .spawn
  match ← perform (.allocatePort me) with
  | none => return .noPublicPort
  | some publicPort =>
    match ← perform (.allocatePort me) with
    | none =>
      perform (.releasePort me publicPort)
      perform (.dropListener publicPort)
      return .noDataPort
    | some dataPort => serve me publicPort dataPort

theorem mem_pool {port : UInt16} : port ∈ pool ↔ portRangeStart ≤ port ∧ port ≤ portRangeEnd := by
  have hstart : portRangeStart.toNat = 30000 := rfl
  have hend : portRangeEnd.toNat = 31000 := rfl
  simp only [pool, List.mem_map, List.mem_range, UInt16.le_iff_toNat_le, hstart, hend]
  constructor
  · rintro ⟨k, hk, rfl⟩
    rw [UInt16.toNat_add, UInt16.toNat_ofNat', hstart]
    omega
  · rintro ⟨hlow, hhigh⟩
    refine ⟨port.toNat - 30000, by omega, UInt16.toNat_inj.1 ?_⟩
    rw [UInt16.toNat_add, UInt16.toNat_ofNat', hstart]
    omega

theorem nodup_pool : pool.Nodup := by
  refine List.Nodup.map_on (fun k hk k' hk' heq => ?_) List.nodup_range
  rw [List.mem_range] at hk hk'
  have hstart : portRangeStart.toNat = 30000 := rfl
  have hend : portRangeEnd.toNat = 31000 := rfl
  have hsame := congrArg UInt16.toNat heq
  simp only [UInt16.toNat_add, UInt16.toNat_ofNat', hstart] at hsame
  omega

theorem allocatePort_eq_some {bind : UInt16 → Bool} {used : Finset UInt16} {port : UInt16}
    (h : allocatePort bind used = some port) : port ∈ pool ∧ port ∉ used ∧ bind port := by
  rw [allocatePort] at h
  have hport := List.find?_some h
  exact ⟨List.mem_of_find?_eq_some h, by simpa using hport⟩

theorem allocatePort_isSome {bind : UInt16 → Bool} {used : Finset UInt16} :
    (allocatePort bind used).isSome ↔ ∃ port ∈ pool, port ∉ used ∧ bind port := by
  rw [allocatePort, List.find?_isSome]
  simp only [decide_eq_true_eq]

section Ownership

/-- How far a session has come: who it is, the ports it holds and those it listens on. -/
structure Token where
  session : Option ℕ
  held : List UInt16
  listening : Multiset UInt16

def Token.ports (γ : Token) : Finset UInt16 := γ.held.toFinset ∪ γ.listening.toFinset

/-- The books are right: `used_ports` is what the sessions hold, no two hold the same port, and each
session knows what it holds and listens on. -/
structure Accounted (s : Server) (γs : Multiset Token) : Prop where
  used : ∀ port, port ∈ s.used ↔ ∃ i, port ∈ s.held i
  exclusive : ∀ i j port, port ∈ s.held i → port ∈ s.held j → i = j
  nodup : ∀ i, (s.held i).Nodup
  known : ∀ γ ∈ γs, ∀ i ∈ γ.session, i < s.sessions ∧ s.held i = γ.held
  unborn : ∀ γ ∈ γs, γ.session = none → γ.held = []
  distinct : (γs.filterMap Token.session).Nodup
  accounted : ∀ i, s.held i ≠ [] → ∃ γ ∈ γs, i ∈ γ.session
  listeners : s.listeners = (γs.map Token.listening).sum
  inPool : ∀ γ ∈ γs, ∀ port ∈ γ.ports, port ∈ pool
  small : ∀ γ ∈ γs, γ.ports.card ≤ 2

variable {s s' : Server} {γ γ' : Token} {γs : Multiset Token} {i : ℕ}

theorem Accounted.held_eq (h : Accounted s (γ ::ₘ γs)) (hi : γ.session = some i) :
    s.held i = γ.held := (h.known γ (Multiset.mem_cons_self γ γs) i hi).2

theorem Accounted.other (h : Accounted s (γ ::ₘ γs)) (hi : γ.session = some i) :
    ∀ δ ∈ γs, δ.session ≠ some i := by
  intro δ hδ hsame
  have hdistinct := h.distinct
  rw [Multiset.filterMap_cons_some _ _ _ hi, Multiset.nodup_cons] at hdistinct
  exact hdistinct.1 ((Multiset.mem_filterMap _ _).2 ⟨δ, hδ, hsame⟩)

theorem Accounted.replace (h : Accounted s (γ ::ₘ γs)) (hi : γ.session = some i)
    (hi' : γ'.session = some i) (hsessions : s'.sessions = s.sessions)
    (hheld : s'.held = Function.update s.held i γ'.held)
    (hused : ∀ port, port ∈ s'.used ↔ port ∈ γ'.held ∨ ∃ j ≠ i, port ∈ s.held j)
    (hexclusive : ∀ port ∈ γ'.held, ∀ j ≠ i, port ∉ s.held j) (hnodup : γ'.held.Nodup)
    (hlisten : s'.listeners = γ'.listening + (γs.map Token.listening).sum)
    (hpool : ∀ port ∈ γ'.ports, port ∈ pool) (hsmall : γ'.ports.card ≤ 2) :
    Accounted s' (γ' ::ₘ γs) := by
  have hself : s'.held i = γ'.held := by rw [hheld, Function.update_self]
  have hothers : ∀ j ≠ i, s'.held j = s.held j := fun j hj => by
    rw [hheld, Function.update_of_ne hj]
  refine ⟨fun port => ?_, fun j k port hj hk => ?_, fun j => ?_, fun δ hδ j hj => ?_,
    fun δ hδ hno => ?_, ?_, fun j hj => ?_, ?_, fun δ hδ => ?_, fun δ hδ => ?_⟩
  · rw [hused]
    constructor
    · rintro (hport | ⟨j, hj, hport⟩)
      · exact ⟨i, hself ▸ hport⟩
      · exact ⟨j, (hothers j hj).symm ▸ hport⟩
    · rintro ⟨j, hport⟩
      by_cases hj : j = i
      · subst hj
        exact Or.inl (hself ▸ hport)
      · exact Or.inr ⟨j, hj, hothers j hj ▸ hport⟩
  · by_cases hji : j = i
    · subst hji
      by_contra hne
      rw [hothers k (Ne.symm hne)] at hk
      rw [hself] at hj
      exact hexclusive port hj k (Ne.symm hne) hk
    · rw [hothers j hji] at hj
      by_cases hki : k = i
      · subst hki
        rw [hself] at hk
        exact absurd hj (hexclusive port hk j hji)
      · rw [hothers k hki] at hk
        exact h.exclusive j k port hj hk
  · by_cases hj : j = i
    · subst hj
      rwa [hself]
    · rw [hothers j hj]
      exact h.nodup j
  · rcases Multiset.mem_cons.1 hδ with rfl | hδ
    · obtain rfl : i = j := Option.some.inj (hi'.symm.trans hj)
      rw [hsessions]
      exact ⟨(h.known γ (Multiset.mem_cons_self γ γs) i hi).1, hself⟩
    · have hne : j ≠ i := fun heq => h.other hi δ hδ (heq ▸ hj)
      rw [hsessions, hothers j hne]
      exact h.known δ (Multiset.mem_cons_of_mem hδ) j hj
  · rcases Multiset.mem_cons.1 hδ with rfl | hδ
    · rw [hi'] at hno
      simp at hno
    · exact h.unborn δ (Multiset.mem_cons_of_mem hδ) hno
  · have hdistinct := h.distinct
    rw [Multiset.filterMap_cons_some _ _ _ hi] at hdistinct
    rwa [Multiset.filterMap_cons_some _ _ _ hi']
  · by_cases hji : j = i
    · exact ⟨γ', Multiset.mem_cons_self γ' γs, hji ▸ hi'⟩
    · rw [hothers j hji] at hj
      obtain ⟨δ, hδ, hδj⟩ := h.accounted j hj
      rcases Multiset.mem_cons.1 hδ with rfl | hδ
      · exact absurd (Option.some.inj (hδj.symm.trans hi)) hji
      · exact ⟨δ, Multiset.mem_cons_of_mem hδ, hδj⟩
  · rw [hlisten, Multiset.map_cons, Multiset.sum_cons]
  · rcases Multiset.mem_cons.1 hδ with rfl | hδ
    · exact hpool
    · exact h.inPool δ (Multiset.mem_cons_of_mem hδ)
  · rcases Multiset.mem_cons.1 hδ with rfl | hδ
    · exact hsmall
    · exact h.small δ (Multiset.mem_cons_of_mem hδ)

theorem Accounted.used_cons (h : Accounted s (γ ::ₘ γs)) (hi : γ.session = some i) (port : UInt16) :
    port ∈ s.used ↔ port ∈ γ.held ∨ ∃ j ≠ i, port ∈ s.held j := by
  rw [h.used]
  constructor
  · rintro ⟨j, hj⟩
    by_cases hji : j = i
    · subst hji
      exact Or.inl (h.held_eq hi ▸ hj)
    · exact Or.inr ⟨j, hji, hj⟩
  · rintro (hport | ⟨j, -, hj⟩)
    · exact ⟨i, (h.held_eq hi).symm ▸ hport⟩
    · exact ⟨j, hj⟩

theorem Accounted.exclusive_cons (h : Accounted s (γ ::ₘ γs)) (hi : γ.session = some i) :
    ∀ port ∈ γ.held, ∀ j ≠ i, port ∉ s.held j :=
  fun port hport j hj hheld => hj (h.exclusive j i port hheld ((h.held_eq hi).symm ▸ hport))

theorem Accounted.nodup_cons (h : Accounted s (γ ::ₘ γs)) (hi : γ.session = some i) :
    γ.held.Nodup := h.held_eq hi ▸ h.nodup i

theorem Accounted.listeners_cons (h : Accounted s (γ ::ₘ γs)) :
    s.listeners = γ.listening + (γs.map Token.listening).sum := by
  rw [h.listeners, Multiset.map_cons, Multiset.sum_cons]

def Token.give (γ : Token) (port : UInt16) : Token :=
  ⟨γ.session, port :: γ.held, port ::ₘ γ.listening⟩

def Token.takeBack (γ : Token) (port : UInt16) : Token :=
  ⟨γ.session, γ.held.erase port, γ.listening⟩

def Token.close (γ : Token) (port : UInt16) : Token :=
  ⟨γ.session, γ.held, γ.listening.erase port⟩

theorem Token.ports_give (γ : Token) (port : UInt16) :
    (γ.give port).ports = insert port γ.ports := by
  ext p
  simp [Token.ports, Token.give]

theorem Token.ports_takeBack (γ : Token) (port : UInt16) : (γ.takeBack port).ports ⊆ γ.ports := by
  intro p
  simp only [Token.ports, Token.takeBack, Finset.mem_union, List.mem_toFinset]
  exact Or.imp_left List.mem_of_mem_erase

theorem Token.ports_close (γ : Token) (port : UInt16) : (γ.close port).ports ⊆ γ.ports := by
  intro p
  simp only [Token.ports, Token.close, Finset.mem_union, Multiset.mem_toFinset]
  exact Or.imp_right Multiset.mem_of_mem_erase

theorem Accounted.give (h : Accounted s (γ ::ₘ γs)) (hi : γ.session = some i) {port : UInt16}
    (hport : port ∈ pool) (hfree : port ∉ s.used) (hroom : γ.ports.card ≤ 1) :
    Accounted (s.give i port) (γ.give port ::ₘ γs) := by
  have hnew : ∀ j, port ∉ s.held j := fun j hj => hfree ((h.used port).2 ⟨j, hj⟩)
  refine h.replace hi hi rfl ?_ (fun p => ?_) (fun p hp j hj => ?_) ?_ ?_ (fun p hp => ?_) ?_
  · rw [Server.give, h.held_eq hi]
    rfl
  · rw [Server.give, Finset.mem_insert, h.used_cons hi, Token.give, List.mem_cons, or_assoc]
  · rcases List.mem_cons.1 hp with rfl | hp
    · exact hnew j
    · exact h.exclusive_cons hi p hp j hj
  · exact List.nodup_cons.2 ⟨h.held_eq hi ▸ hnew i, h.nodup_cons hi⟩
  · rw [Server.give, h.listeners_cons, Token.give, Multiset.cons_add]
  · rw [Token.ports_give, Finset.mem_insert] at hp
    rcases hp with rfl | hp
    · exact hport
    · exact h.inPool γ (Multiset.mem_cons_self γ γs) p hp
  · rw [Token.ports_give]
    exact (Finset.card_insert_le _ _).trans (by omega)

theorem Accounted.takeBack (h : Accounted s (γ ::ₘ γs)) (hi : γ.session = some i) {port : UInt16}
    (hport : port ∈ γ.held) : Accounted (s.takeBack i port) (γ.takeBack port ::ₘ γs) := by
  have hnodup := h.nodup_cons hi
  refine h.replace hi hi rfl ?_ (fun p => ?_) (fun p hp => ?_) (hnodup.erase port) ?_
    (fun p hp => ?_) ?_
  · rw [Server.takeBack, h.held_eq hi]
    rfl
  · rw [Server.takeBack, Finset.mem_erase, h.used_cons hi, Token.takeBack, hnodup.mem_erase_iff]
    constructor
    · rintro ⟨hne, hp | hp⟩
      · exact Or.inl ⟨hne, hp⟩
      · exact Or.inr hp
    · rintro (⟨hne, hp⟩ | ⟨j, hj, hp⟩)
      · exact ⟨hne, Or.inl hp⟩
      · refine ⟨?_, Or.inr ⟨j, hj, hp⟩⟩
        rintro rfl
        exact h.exclusive_cons hi p hport j hj hp
  · exact h.exclusive_cons hi p (List.mem_of_mem_erase hp)
  · exact h.listeners_cons
  · exact h.inPool γ (Multiset.mem_cons_self γ γs) p (Token.ports_takeBack γ port hp)
  · exact (Finset.card_le_card (Token.ports_takeBack γ port)).trans
      (h.small γ (Multiset.mem_cons_self γ γs))

theorem Accounted.close (h : Accounted s (γ ::ₘ γs)) (hi : γ.session = some i) {port : UInt16}
    (hport : port ∈ γ.listening) : Accounted (s.close port) (γ.close port ::ₘ γs) := by
  refine h.replace hi hi rfl ?_ (h.used_cons hi) (h.exclusive_cons hi) (h.nodup_cons hi) ?_
    (fun p hp => ?_) ?_
  · exact (Function.update_eq_self_iff.2 (h.held_eq hi).symm).symm
  · rw [Server.close, h.listeners_cons, Multiset.erase_add_left_pos _ hport]
    rfl
  · exact h.inPool γ (Multiset.mem_cons_self γ γs) p (Token.ports_close γ port hp)
  · exact (Finset.card_le_card (Token.ports_close γ port)).trans
      (h.small γ (Multiset.mem_cons_self γ γs))

theorem Accounted.spawn (h : Accounted s (⟨none, [], 0⟩ ::ₘ γs)) :
    Accounted { s with sessions := s.sessions + 1 } (⟨some s.sessions, [], 0⟩ ::ₘ γs) := by
  have hold : ∀ δ ∈ γs, ∀ j ∈ δ.session, j < s.sessions ∧ s.held j = δ.held :=
    fun δ hδ => h.known δ (Multiset.mem_cons_of_mem hδ)
  have hidle : s.held s.sessions = [] := by
    by_contra hne
    obtain ⟨δ, hδ, hj⟩ := h.accounted _ hne
    exact absurd (h.known δ hδ _ hj).1 (lt_irrefl _)
  refine ⟨h.used, h.exclusive, h.nodup, fun δ hδ j hj => ?_, fun δ hδ hno => ?_, ?_, fun j hj => ?_,
    ?_, fun δ hδ => ?_, fun δ hδ => ?_⟩
  · rcases Multiset.mem_cons.1 hδ with rfl | hδ
    · obtain rfl : s.sessions = j := Option.some.inj hj
      exact ⟨Nat.lt_succ_self _, hidle⟩
    · exact ⟨(hold δ hδ j hj).1.trans (Nat.lt_succ_self _), (hold δ hδ j hj).2⟩
  · rcases Multiset.mem_cons.1 hδ with rfl | hδ
    · simp at hno
    · exact h.unborn δ (Multiset.mem_cons_of_mem hδ) hno
  · have hdistinct := h.distinct
    rw [Multiset.filterMap_cons_none _ _ rfl] at hdistinct
    rw [@Multiset.filterMap_cons_some _ _ Token.session ⟨some s.sessions, [], 0⟩ _ s.sessions rfl,
      Multiset.nodup_cons]
    refine ⟨fun hmem => ?_, hdistinct⟩
    obtain ⟨δ, hδ, hj⟩ := (Multiset.mem_filterMap _ _).1 hmem
    exact absurd (hold δ hδ _ hj).1 (lt_irrefl _)
  · obtain ⟨δ, hδ, hδj⟩ := h.accounted j hj
    rcases Multiset.mem_cons.1 hδ with rfl | hδ
    · simp at hδj
    · exact ⟨δ, Multiset.mem_cons_of_mem hδ, hδj⟩
  · have hlisten := h.listeners
    rwa [Multiset.map_cons] at hlisten ⊢
  · rcases Multiset.mem_cons.1 hδ with rfl | hδ
    · simp [Token.ports]
    · exact h.inPool δ (Multiset.mem_cons_of_mem hδ)
  · rcases Multiset.mem_cons.1 hδ with rfl | hδ
    · simp [Token.ports]
    · exact h.small δ (Multiset.mem_cons_of_mem hδ)

theorem Accounted.arrive (h : Accounted s γs) : Accounted s (⟨none, [], 0⟩ ::ₘ γs) := by
  refine ⟨h.used, h.exclusive, h.nodup, fun δ hδ j hj => ?_, fun δ hδ hno => ?_, ?_, fun j hj => ?_,
    ?_, fun δ hδ => ?_, fun δ hδ => ?_⟩
  · rcases Multiset.mem_cons.1 hδ with rfl | hδ
    · simp at hj
    · exact h.known δ hδ j hj
  · rcases Multiset.mem_cons.1 hδ with rfl | hδ
    · rfl
    · exact h.unborn δ hδ hno
  · rw [Multiset.filterMap_cons_none _ _ rfl]
    exact h.distinct
  · obtain ⟨δ, hδ, hδj⟩ := h.accounted j hj
    exact ⟨δ, Multiset.mem_cons_of_mem hδ, hδj⟩
  · rw [h.listeners, Multiset.map_cons, Multiset.sum_cons, zero_add]
  · rcases Multiset.mem_cons.1 hδ with rfl | hδ
    · simp [Token.ports]
    · exact h.inPool δ hδ
  · rcases Multiset.mem_cons.1 hδ with rfl | hδ
    · simp [Token.ports]
    · exact h.small δ hδ

end Ownership

section Sessions

def anyOutcome : Guard TunnelOp TunnelEnv Server := fun _ _ _ _ => True

instance (β : Type) (e : TunnelEnv) (op : TunnelOp β) (s : Server) :
    Decidable (anyOutcome β e op s) := inferInstanceAs (Decidable True)

def accounting : Discipline TunnelOp TunnelEnv Server Token where
  guard := anyOutcome
  inv := Accounted
  safe := anyOutcome

variable {γ : Token} {i : ℕ} {p d : UInt16}

/-- What a session that ended has left: nothing, or the listener of its data acceptor. -/
def Left (exit : Exit) (γ : Token) : Prop :=
  γ.held = [] ∧ γ.listening.card = if exit = .ended then 1 else 0

theorem carries_releasePort (hi : γ.session = some i) (hp : p ∈ γ.held) :
    Carries accounting (fun _ δ => δ = γ.takeBack p) (perform (.releasePort i p)) γ := by
  refine carries_perform fun e s γs hinv _ => ⟨trivial, fun a s' he => ?_⟩
  obtain ⟨-, rfl⟩ := Prod.mk.inj (Option.some.inj he)
  exact ⟨_, hinv.takeBack hi hp, rfl⟩

theorem carries_dropListener (hi : γ.session = some i) (hp : p ∈ γ.listening) :
    Carries accounting (fun _ δ => δ = γ.close p) (perform (.dropListener p)) γ := by
  refine carries_perform fun e s γs hinv _ => ⟨trivial, fun a s' he => ?_⟩
  obtain ⟨-, rfl⟩ := Prod.mk.inj (Option.some.inj he)
  exact ⟨_, hinv.close hi hp, rfl⟩

theorem carries_publicAcceptor (hi : γ.session = some i) (hp : p ∈ γ.listening) :
    Carries accounting (fun _ δ => δ = γ.close p) (perform (.publicAcceptor p)) γ := by
  refine carries_perform fun e s γs hinv _ => ⟨trivial, fun a s' he => ?_⟩
  obtain ⟨-, rfl⟩ := Prod.mk.inj (Option.some.inj he)
  exact ⟨_, hinv.close hi hp, rfl⟩

/-- An allocation gives the session a port of the pool that it does not hold, or nothing. -/
theorem carries_allocatePort (hi : γ.session = some i) (hroom : γ.ports.card ≤ 1) :
    Carries accounting (fun r δ => match r with
      | none => δ = γ
      | some port => port ∉ γ.held ∧ δ = γ.give port) (perform (.allocatePort i)) γ := by
  refine carries_perform fun e s γs hinv _ => ⟨trivial, fun a s' he => ?_⟩
  simp only [Machine.exec] at he
  split at he
  · obtain ⟨rfl, rfl⟩ := Prod.mk.inj (Option.some.inj he)
    exact ⟨γ, hinv, rfl⟩
  · rename_i port hport
    obtain ⟨rfl, rfl⟩ := Prod.mk.inj (Option.some.inj he)
    obtain ⟨hpool, hfree, -⟩ := allocatePort_eq_some hport
    refine ⟨_, hinv.give hi hpool hfree hroom, fun hheld => hfree ?_, rfl⟩
    exact (hinv.used_cons hi port).2 (Or.inl hheld)

theorem carries_idle {α : Type} {op : TunnelOp α}
    (hop : ∀ e s a s', Machine.exec e op s = some (a, s') → s' = s) :
    Carries accounting (fun _ δ => δ = γ) (perform op) γ := by
  refine carries_perform fun e s γs hinv _ => ⟨trivial, fun a s' he => ⟨γ, ?_, rfl⟩⟩
  rw [hop e s a s' he]
  exact hinv

def both (i : ℕ) (p d : UInt16) : Token := ⟨some i, [d, p], {d, p}⟩

theorem carries_releaseBoth (hpd : d ≠ p) {listening : Multiset UInt16} :
    Carries accounting (fun _ δ => δ = ⟨some i, [], listening⟩)
      (do perform (.releasePort i p); perform (.releasePort i d)) ⟨some i, [d, p], listening⟩ := by
  refine carries_bind ((carries_releasePort rfl (by simp)).mono ?_)
  rintro - _ rfl
  have hfirst : Token.takeBack ⟨some i, [d, p], listening⟩ p = ⟨some i, [d], listening⟩ := by
    simp [Token.takeBack, hpd]
  rw [hfirst]
  refine (carries_releasePort rfl (by simp)).mono ?_
  rintro - _ rfl
  simp [Token.takeBack]

theorem carries_abandon (hpd : d ≠ p) :
    Carries accounting (fun _ δ => δ = ⟨some i, [], 0⟩) (abandon i p d) (both i p d) := by
  have hclosed : Token.close ⟨some i, [], {d, p}⟩ d = ⟨some i, [], {p}⟩ := by
    simp [Token.close, Multiset.insert_eq_cons]
  have hempty : Token.close ⟨some i, [], {p}⟩ p = ⟨some i, [], 0⟩ := by
    simp [Token.close]
  have hrest : Carries accounting (fun _ δ => δ = ⟨some i, [], 0⟩)
      (do perform (.dropListener d); perform (.dropListener p)) ⟨some i, [], {d, p}⟩ := by
    refine carries_bind ((carries_dropListener rfl (by simp)).mono ?_)
    rintro - _ rfl
    rw [hclosed]
    refine (carries_dropListener rfl (by simp)).mono ?_
    rintro - _ rfl
    exact hempty
  have hall : abandon i p d = (do perform (.releasePort i p); perform (.releasePort i d)) >>=
      fun _ => (do perform (.dropListener d); perform (.dropListener p)) := by
    simp only [abandon, LawfulMonad.bind_assoc]
  rw [hall]
  refine carries_bind ((carries_releaseBoth hpd).mono ?_)
  rintro - _ rfl
  exact hrest

theorem carries_serve (hpd : d ≠ p) :
    Carries accounting Left (serve i p d) (both i p d) := by
  have habandon : ∀ exit, exit ≠ .ended → Carries accounting Left
      (do abandon i p d; return exit) (both i p d) := by
    intro exit hexit
    refine carries_bind ((carries_abandon hpd).mono ?_)
    rintro - _ rfl
    exact carries_pure ⟨rfl, by simp [hexit]⟩
  refine carries_bind ((carries_idle ?_).mono ?_)
  · rintro e s a s' he
    exact (Prod.mk.inj (Option.some.inj he)).2.symm
  rintro written _ rfl
  cases written with
  | false => exact habandon .handshakeFailed (by simp)
  | true =>
      refine carries_bind ((carries_idle ?_).mono ?_)
      · rintro e s a s' he
        exact (Prod.mk.inj (Option.some.inj he)).2.symm
      rintro cloned _ rfl
      cases cloned with
      | false => exact habandon .cloneFailed (by simp)
      | true =>
          refine carries_bind ((carries_idle ?_).mono ?_)
          · rintro e s a s' he
            exact (Prod.mk.inj (Option.some.inj he)).2.symm
          rintro - _ rfl
          refine carries_bind ((carries_publicAcceptor rfl (by simp [both])).mono ?_)
          rintro - _ rfl
          have hclosed : Token.close (both i p d) p = ⟨some i, [d, p], {d}⟩ := by
            simp [both, Token.close, Multiset.insert_eq_cons, Multiset.erase_cons_tail _ hpd]
          rw [hclosed]
          have hlast : Carries accounting Left
              ((do perform (.releasePort i p); perform (.releasePort i d)) >>= fun _ =>
                pure Exit.ended) ⟨some i, [d, p], {d}⟩ := by
            refine carries_bind ((carries_releaseBoth hpd).mono ?_)
            rintro - _ rfl
            exact carries_pure ⟨rfl, by simp⟩
          simpa only [LawfulMonad.bind_assoc] using hlast

theorem carries_runSession : Carries accounting Left runSession ⟨none, [], 0⟩ := by
  refine carries_bind (carries_perform fun e s γs hinv _ => ⟨trivial, fun me s' he => ?_⟩)
  obtain ⟨rfl, rfl⟩ := Prod.mk.inj (Option.some.inj he)
  refine ⟨_, hinv.spawn, ?_⟩
  generalize s.sessions = me
  refine carries_bind ((carries_allocatePort rfl (by simp [Token.ports])).mono ?_)
  rintro (_ | p) δ hδ
  · obtain rfl := hδ
    exact carries_pure ⟨rfl, by simp⟩
  · obtain ⟨-, rfl⟩ := hδ
    refine carries_bind ((carries_allocatePort rfl (by simp [Token.ports, Token.give])).mono ?_)
    rintro (_ | d) δ hδ
    · obtain rfl := hδ
      refine carries_bind ((carries_releasePort rfl (by simp [Token.give])).mono ?_)
      rintro - _ rfl
      refine carries_bind ((carries_dropListener rfl
        (by simp [Token.give, Token.takeBack])).mono ?_)
      rintro - _ rfl
      exact carries_pure ⟨by simp [Token.give, Token.takeBack, Token.close],
        by simp [Token.give, Token.takeBack, Token.close]⟩
    · obtain ⟨hfresh, rfl⟩ := hδ
      have hpd : d ≠ p := by
        rintro rfl
        exact hfresh (by simp [Token.give])
      exact carries_serve hpd

theorem accounted_initial : Accounted Server.initial 0 := by
  refine ⟨?_, ?_, ?_, ?_, ?_, ?_, ?_, ?_, ?_, ?_⟩ <;> simp [Server.initial]

/-- Whatever sessions run at once, their books are right. -/
theorem sessions_accounted {tasks : List (Unit × Future TunnelOp Exit)} {s : Server}
    (h : Interleaving anyOutcome (fun _ => runSession) Server.initial tasks s) :
    ∃ γs, Disciplined accounting (fun _ => Left) tasks s γs := by
  have harrive : ∀ (_ : Unit) (s : Server) (γs : Multiset Token), accounting.inv s γs →
      ∃ γ, accounting.inv s (γ ::ₘ γs) ∧ Carries accounting Left runSession γ :=
    fun _ s γs hinv => ⟨_, Accounted.arrive hinv, carries_runSession⟩
  exact Interleaving.disciplined accounted_initial harrive h

/-- `used_ports` is at every moment the disjoint union of what the sessions hold, ports of the pool
only, and empty when every session has ended. -/
theorem ports_owned {tasks : List (Unit × Future TunnelOp Exit)} {s : Server}
    (h : Interleaving anyOutcome (fun _ => runSession) Server.initial tasks s) :
    (∀ port, port ∈ s.used ↔ ∃ i, port ∈ s.held i) ∧
      (∀ i j port, port ∈ s.held i → port ∈ s.held j → i = j) ∧
      (∀ i, (s.held i).Nodup) ∧
      (∀ i, ∀ port ∈ s.held i, portRangeStart ≤ port ∧ port ≤ portRangeEnd) ∧
      (Quiet tasks → s.used = ∅) := by
  obtain ⟨γs, hdisc⟩ := sessions_accounted h
  have hinv : Accounted s γs := hdisc.2
  refine ⟨hinv.used, hinv.exclusive, hinv.nodup, fun i port hport => ?_, fun hquiet => ?_⟩
  · obtain ⟨γ, hγ, hi⟩ := hinv.accounted i (List.ne_nil_of_mem hport)
    rw [(hinv.known γ hγ i hi).2] at hport
    exact mem_pool.1 (hinv.inPool γ hγ port (by simp [Token.ports, hport]))
  · refine Finset.eq_empty_of_forall_notMem fun port hport => ?_
    obtain ⟨i, hi⟩ := (hinv.used port).1 hport
    obtain ⟨γ, hγ, hγi⟩ := hinv.accounted i (List.ne_nil_of_mem hi)
    obtain ⟨-, exit, -, hleft, -⟩ := hdisc.quiet hquiet γ hγ
    rw [(hinv.known γ hγ i hγi).2, hleft] at hi
    simp at hi

end Sessions

section Schedules

def fairEnv : TunnelEnv := ⟨fun _ => true, true, true⟩

/-- The second agent connects while the first session has only its public port. -/
def overlapping : List (Move Unit Server TunnelEnv) :=
  [.arrive (), .advance 0 2 fun _ => fairEnv, .arrive (), .advance 0 3 fun _ => fairEnv,
    .advance 1 1 fun _ => fairEnv]

theorem ports_owned_overlapping :
    ∃ tasks s, Interleaving anyOutcome (fun _ : Unit => runSession) Server.initial tasks s ∧
      s.used = {30000, 30001, 30002, 30003} ∧ s.held 0 = [30003, 30000] ∧
      (∀ port, port ∈ s.used ↔ ∃ i, port ∈ s.held i) := by
  have hrun : Interleaving anyOutcome (fun _ : Unit => runSession) Server.initial _ _ :=
    Interleaving.start.play overlapping
  refine ⟨_, _, hrun, ?_, ?_, (ports_owned hrun).1⟩
  · decide +kernel
  · decide +kernel

end Schedules

end OpenShard.Tunnel
