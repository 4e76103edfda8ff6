import OpenShard.Session
import OpenShard.Text
import OpenShard.Transition

/-!
# The two ends of a session

`client.rs` against `server.rs`: the frames that the server writes arrive in order, the client's
loop answers a PING and starts a handler for every OPEN, and a handler reads the local address,
dials the data port and sends the identifier. Handlers are numbered by the OPENs they were started for,
visitors as they came. In every run the client is an agent of the kind that the session asks for: it
dials a data connection for an OPEN that was written, and at most once.
-/

namespace OpenShard.Tunnel

/-- A thread of `handle_stream`: the address it has read, and whether it could connect there. -/
structure Handler where
  number : ℕ
  streamId : UInt16
  localAddr : Option Text
  joined : Option Bool
  deriving DecidableEq

def Handler.key (h : Handler) : ℕ × UInt16 := (h.number, h.streamId)

def defaultLocalAddr : Text := "127.0.0.1:8080"

def nonBlank (v : Option Text) : Option Text := (v.map Text.trim).filter (· ≠ [])

/-- The environment variable comes first, then the file, each unless it is blank. -/
def localServiceAddr (envAddr : Option Text) (file : Option Text) : Text :=
  ((nonBlank envAddr).or (nonBlank file)).getD defaultLocalAddr

/-- The server, the frames on their way, the client's loop and its handlers. `opened` counts the
OPENs that the client has read, `lost` are the streams given up on the way: the OPEN could not be
written, the data port not be dialed, or the identifier not be read. -/
structure Link where
  server : Session
  toClient : List Frame
  toServer : List Frame
  running : Bool
  opened : ℕ
  handlers : List Handler
  dialed : List Handler
  lost : List (ℕ × UInt16)
  localFile : Option Text

def Link.initial (file : Option Text) : Link := ⟨.initial, [], [], true, 0, [], [], [], file⟩

inductive Event
  | server (a : Act)
  | hear (f : Frame)
  | react (f : Frame)
  | pongFails
  | hangUp
  | readAddr (h : Handler)
  | dial (h : Handler)
  | dialFails (h : Handler)
  | connect (h : Handler) (success : Bool)
  | writeFile (file : Option Text)

/-- The steps of `public_acceptor` and `data_acceptor`, and the passing of time. -/
def Act.own : Act → Prop
  | .receive _ => False
  | .dial _ _ => False
  | .ignoreOpen _ _ => False
  | _ => True

def Session.writes (s : Session) (a : Act) : List Frame :=
  match a, s.acceptor with
  | .ping, _ => [(tagPing, 0)]
  | .sendOpen, .opening _ streamId => [(tagOpen, streamId)]
  | _, _ => []

def Session.drops (s : Session) (a : Act) : List (ℕ × UInt16) :=
  match a, s.acceptor with
  | .openFails, .opening visitor streamId => [(visitor, streamId)]
  | .dropConn, _ => s.conns.take 1
  | _, _ => []

namespace Link

/-- The client's loop on one frame; the PONG can be written. -/
def react (c : Link) (f : Frame) : Link :=
  match reaction f with
  | .pong => { c with toServer := c.toServer ++ [(tagPong, 0)] }
  | .openStream streamId =>
    { c with
      opened := c.opened + 1
      handlers := c.handlers ++ [⟨c.opened, streamId, none, none⟩] }
  | .closeStream _ => c
  | .ignore => c

/-- The server has made a step. It keeps no record of the OPENs it has written. -/
def own (c : Link) (a : Act) (s : Session) : Link :=
  { c with
    server := { s with opens := [] }
    toClient := c.toClient ++ c.server.writes a
    lost := c.server.drops a ++ c.lost }

/-- What either side, an agent that writes the file, or the network can do. -/
inductive Step (envAddr : Option Text) (c : Link) : Event → Link → Prop
  | server {a : Act} {s : Session} (hown : a.own) (hstep : c.server.Step a s) :
      Step envAddr c (.server a) (c.own a s)
  | hear {f : Frame} {rest : List Frame} (hwire : c.toServer = f :: rest) :
      Step envAddr c (.hear f) { c with server := c.server.receive f, toServer := rest }
  | react {f : Frame} {rest : List Frame} (hrunning : c.running) (hwire : c.toClient = f :: rest) :
      Step envAddr c (.react f) ({ c with toClient := rest }.react f)
  | pongFails {f : Frame} {rest : List Frame} (hrunning : c.running)
      (hwire : c.toClient = f :: rest) (hping : reaction f = .pong) :
      Step envAddr c .pongFails { c with toClient := rest, running := false }
  | hangUp : Step envAddr c .hangUp { c with running := false }
  | readAddr {h : Handler} (hh : h ∈ c.handlers) (hnone : h.localAddr = none) :
      Step envAddr c (.readAddr h) { c with
        handlers := { h with localAddr := some (localServiceAddr envAddr c.localFile) } ::
          c.handlers.erase h }
  | dial {h : Handler} (hh : h ∈ c.handlers) (haddr : h.localAddr.isSome) :
      Step envAddr c (.dial h) { c with
        server := { c.server with conns := c.server.conns ++ [h.key] }
        handlers := c.handlers.erase h
        dialed := h :: c.dialed }
  | dialFails {h : Handler} (hh : h ∈ c.handlers) (haddr : h.localAddr.isSome) :
      Step envAddr c (.dialFails h) { c with
        handlers := c.handlers.erase h
        lost := h.key :: c.lost }
  | connect {h : Handler} (hh : h ∈ c.dialed) (hnone : h.joined = none) (success : Bool) :
      Step envAddr c (.connect h success) { c with
        dialed := { h with joined := some success } :: c.dialed.erase h }
  | writeFile (file : Option Text) : Step envAddr c (.writeFile file) { c with localFile := file }

end Link

def linkLts (envAddr : Option Text) : Lts Link Event where
  init c := ∃ file, c = .initial file
  step c e c' := c.Step envAddr e c'

def sessionLts : Lts Session Act := ⟨(· = .initial), Session.Step⟩

theorem session_reach {P : Session → Act → Prop} {s : Session} (h : sessionLts.Reach P s) :
    Session.Reach P s := by
  induction h with
  | init hs =>
      obtain rfl : _ = _ := hs
      exact .initial
  | step _ hP hstep ih => exact ih.step hP hstep

section Wire

def openId (f : Frame) : Option UInt16 := if f.1 = tagOpen then some f.2 else none

/-- The OPENs among the frames, numbered from the next one that the client reads. -/
def numbered (opened : ℕ) (frames : List Frame) : List (ℕ × UInt16) :=
  ((frames.filterMap openId).zipIdx opened).map Prod.swap

/-- The streams that were opened and whose data connection has not been dialed. -/
def Link.undialed (c : Link) : List (ℕ × UInt16) :=
  numbered c.opened c.toClient ++ c.handlers.map Handler.key

def Link.sent (c : Link) : ℕ := c.opened + (c.toClient.filterMap openId).length

theorem reaction_openStream {f : Frame} {streamId : UInt16} :
    reaction f = .openStream streamId ↔ f = (tagOpen, streamId) := by
  obtain ⟨tag, id⟩ := f
  rw [reaction]
  split_ifs with hping hopen hclose
  · refine ⟨by simp, fun h => ?_⟩
    have htag : tag = tagOpen := (Prod.mk.inj h).1
    exact absurd (htag.symm.trans hping) (by decide)
  · obtain rfl : tag = tagOpen := hopen
    simp
  · refine ⟨by simp, fun h => absurd (Prod.mk.inj h).1 hopen⟩
  · refine ⟨by simp, fun h => absurd (Prod.mk.inj h).1 hopen⟩

theorem openId_eq_none {f : Frame} (h : ∀ streamId, reaction f ≠ .openStream streamId) :
    openId f = none := by
  rw [openId, if_neg]
  intro htag
  exact h f.2 (reaction_openStream.2 (Prod.ext htag rfl))

variable {c : Link} {f : Frame} {rest : List Frame}

theorem Link.react_undialed (hwire : c.toClient = f :: rest) :
    ({ c with toClient := rest }.react f).undialed.Perm c.undialed := by
  cases hreact : reaction f with
  | openStream streamId =>
      obtain rfl := reaction_openStream.1 hreact
      simp only [Link.react, hreact, Link.undialed, hwire, numbered, List.filterMap_cons, openId,
        if_true, List.zipIdx_cons, List.map_cons, List.map_append, List.map_nil, Handler.key,
        Prod.swap_prod_mk]
      rw [← List.append_assoc]
      exact List.perm_append_singleton _ _
  | pong =>
      have hnone : openId f = none := openId_eq_none (by simp [hreact])
      simp [Link.react, hreact, Link.undialed, hwire, numbered, hnone]
  | closeStream id =>
      have hnone : openId f = none := openId_eq_none (by simp [hreact])
      simp [Link.react, hreact, Link.undialed, hwire, numbered, hnone]
  | ignore =>
      have hnone : openId f = none := openId_eq_none (by simp [hreact])
      simp [Link.react, hreact, Link.undialed, hwire, numbered, hnone]

theorem Link.react_sent (hwire : c.toClient = f :: rest) :
    ({ c with toClient := rest }.react f).sent = c.sent := by
  cases hreact : reaction f with
  | openStream streamId =>
      obtain rfl := reaction_openStream.1 hreact
      simp only [Link.react, hreact, Link.sent, hwire, List.filterMap_cons, openId, if_true,
        List.length_cons]
      omega
  | pong =>
      have hnone : openId f = none := openId_eq_none (by simp [hreact])
      simp [Link.react, hreact, Link.sent, hwire, hnone]
  | closeStream id =>
      have hnone : openId f = none := openId_eq_none (by simp [hreact])
      simp [Link.react, hreact, Link.sent, hwire, hnone]
  | ignore =>
      have hnone : openId f = none := openId_eq_none (by simp [hreact])
      simp [Link.react, hreact, Link.sent, hwire, hnone]

theorem Link.react_server (c : Link) (f : Frame) : (c.react f).server = c.server := by
  rw [Link.react]
  split <;> rfl

end Wire

section Refinement

variable {c c' : Link} {t t' : Session} {a : Act} {envAddr : Option Text}

/-- The number of the next OPEN belongs to the visitor whose OPEN is written next. -/
def Session.Next (s : Session) (n : ℕ) : Prop :=
  match s.acceptor with
  | .inserting visitor _ => visitor = n ∧ s.visitors = n + 1
  | .opening visitor _ => visitor = n ∧ s.visitors = n + 1
  | .returned => True
  | _ => s.visitors = n

def Session.opened (s : Session) (a : Act) : List (ℕ × UInt16) :=
  match a, s.acceptor with
  | .sendOpen, .opening visitor streamId => [(visitor, streamId)]
  | _, _ => []

theorem Session.Step.reopened (hown : a.own) (hstep : t.Step a t') (l : List (ℕ × UInt16)) :
    Session.Step { t with opens := l } a { t' with opens := t.opened a ++ l } := by
  cases hstep with
  | wait ms => exact .wait ms
  | ping htop hdue => exact .ping htop hdue
  | pingFails htop hdue => exact .pingFails htop hdue
  | noPing htop hdue => exact .noPing htop hdue
  | accept hat => exact .accept hat
  | wouldBlock hat => exact .wouldBlock hat
  | acceptFails hat => exact .acceptFails hat
  | insert hat => exact .insert hat
  | @sendOpen visitor streamId hat =>
      have hopened : t.opened .sendOpen = [(visitor, streamId)] := by
        simp [Session.opened, hat]
      rw [hopened]
      exact .sendOpen hat
  | openFails hat => exact .openFails hat
  | receive f => exact hown.elim
  | dial _ => exact hown.elim
  | ignoreOpen _ => exact hown.elim
  | @take visitor streamId rest hconns =>
      have htake := @Session.Step.take { t with opens := l } visitor streamId rest hconns
      have hsplice : ({ t with opens := l, conns := rest } : Session).splice visitor streamId =
          { ({ t with conns := rest } : Session).splice visitor streamId with opens := l } := by
        rw [Session.splice, Session.splice]
        cases t.pending.lookup streamId <;> rfl
      exact hsplice ▸ htake
  | dropConn hconns => exact .dropConn hconns

theorem Session.writes_openId (hown : a.own) (hstep : t.Step a t') :
    (t.writes a).filterMap openId = (t.opened a).map Prod.snd := by
  cases hstep with
  | @sendOpen visitor streamId hat => simp [Session.writes, Session.opened, hat, openId]
  | ping => simp [Session.writes, Session.opened, openId, tagPing, tagOpen]
  | receive f => exact hown.elim
  | dial _ => exact hown.elim
  | ignoreOpen _ => exact hown.elim
  | _ => simp [Session.writes, Session.opened]

/-- What the server writes is numbered as the visitors are. -/
theorem Session.Next.step {n : ℕ} (hnext : t.Next n) (hown : a.own) (hstep : t.Step a t') :
    t'.Next (n + (t.opened a).length) ∧ ((t.opened a).map Prod.snd).zipIdx n =
      (t.opened a).map Prod.swap := by
  cases hstep with
  | @sendOpen visitor streamId hat =>
      rw [Session.Next, hat] at hnext
      obtain ⟨rfl, hvisitors⟩ := hnext
      simp [Session.Next, Session.opened, hat, hvisitors]
  | ping htop _ => simpa [Session.Next, Session.opened, htop] using hnext
  | pingFails htop _ => simp [Session.Next, Session.opened]
  | noPing htop _ => simpa [Session.Next, Session.opened, htop] using hnext
  | accept hat => simpa [Session.Next, Session.opened, hat] using hnext
  | wouldBlock hat => simpa [Session.Next, Session.opened, hat] using hnext
  | acceptFails hat => simp [Session.Next, Session.opened]
  | insert hat => simpa [Session.Next, Session.opened, hat] using hnext
  | openFails hat => simp [Session.Next, Session.opened]
  | receive f => exact hown.elim
  | dial _ => exact hown.elim
  | ignoreOpen _ => exact hown.elim
  | @take visitor streamId rest hconns =>
      refine ⟨?_, by simp [Session.opened]⟩
      rw [Session.splice]
      cases t.pending.lookup streamId <;> simpa [Session.Next, Session.opened] using hnext
  | wait => simpa [Session.Next, Session.opened] using hnext
  | dropConn => simpa [Session.Next, Session.opened] using hnext

/-- The session that a link stands for: its OPENs are those on the way and those in a handler. -/
structure Matches (c : Link) (t : Session) : Prop where
  server : t = { c.server with opens := t.opens }
  opens : t.opens.Perm c.undialed
  next : c.server.Next c.sent

theorem Link.own_undialed {s : Session} (hnext : c.server.Next c.sent) (hown : a.own)
    (hstep : c.server.Step a s) :
    (c.own a s).undialed.Perm (c.server.opened a ++ c.undialed) := by
  have hids := Session.writes_openId hown hstep
  have hnumbered : numbered c.opened (c.toClient ++ c.server.writes a) =
      numbered c.opened c.toClient ++ c.server.opened a := by
    rw [numbered, List.filterMap_append, hids, List.zipIdx_append, ← Link.sent,
      (hnext.step hown hstep).2, List.map_append, List.map_map, Prod.swap_swap_eq, List.map_id,
      numbered]
  rw [Link.undialed, Link.own, hnumbered, List.append_assoc, Link.undialed, ← List.append_assoc,
    ← List.append_assoc]
  exact List.perm_append_comm.append_right _

theorem Link.own_next {s : Session} (hnext : c.server.Next c.sent) (hown : a.own)
    (hstep : c.server.Step a s) : (c.own a s).server.Next (c.own a s).sent := by
  have hsent : (c.own a s).sent = c.sent + (c.server.opened a).length := by
    rw [Link.sent, Link.own, Link.sent, List.filterMap_append, List.length_append,
      Session.writes_openId hown hstep, List.length_map, Nat.add_assoc]
  rw [hsent]
  exact (hnext.step hown hstep).1

theorem Matches.own (h : Matches c t) {s : Session} (hown : a.own) (hstep : c.server.Step a s) :
    ∃ t', t.Step a t' ∧ Matches (c.own a s) t' := by
  refine ⟨{ s with opens := c.server.opened a ++ t.opens }, ?_, rfl, ?_,
    Link.own_next h.next hown hstep⟩
  · have hmoved := hstep.reopened hown t.opens
    rwa [← h.server] at hmoved
  · exact (h.opens.append_left _).trans (Link.own_undialed h.next hown hstep).symm

theorem Matches.hear (h : Matches c t) {f : Frame} {rest : List Frame} :
    Matches { c with server := c.server.receive f, toServer := rest } (t.receive f) := by
  have hreceive : ∀ l, ({ c.server with opens := l } : Session).receive f =
      { c.server.receive f with opens := l } := by
    intro l
    rw [Session.receive, Session.receive]
    split_ifs <;> rfl
  have hserver : t.receive f = { c.server.receive f with opens := t.opens } := by
    rw [← hreceive, ← h.server]
  have hsame : (c.server.receive f).acceptor = c.server.acceptor ∧
      (c.server.receive f).visitors = c.server.visitors := by
    rw [Session.receive]
    split_ifs <;> exact ⟨rfl, rfl⟩
  refine ⟨by rw [hserver], by rw [hserver]; exact h.opens, ?_⟩
  have hnext := h.next
  rw [Session.Next] at hnext ⊢
  rw [hsame.1, hsame.2]
  exact hnext

theorem Matches.same (h : Matches c t) (hserver : c'.server = c.server)
    (hundialed : c'.undialed.Perm c.undialed) (hsent : c'.sent = c.sent) : Matches c' t :=
  ⟨by rw [hserver]; exact h.server, h.opens.trans hundialed.symm,
    by rw [hserver, hsent]; exact h.next⟩

theorem perm_erase_handler {handlers : List Handler} {h : Handler} (hh : h ∈ handlers) :
    (handlers.map Handler.key).Perm (h.key :: (handlers.erase h).map Handler.key) :=
  (List.perm_cons_erase hh).map Handler.key

theorem Matches.done (h : Matches c t) {n : Handler} (hn : n ∈ c.handlers) :
    n.key ∈ t.opens ∧ (t.opens.erase n.key).Perm
      (numbered c.opened c.toClient ++ (c.handlers.erase n).map Handler.key) := by
  have hperm : t.opens.Perm
      (n.key :: (numbered c.opened c.toClient ++ (c.handlers.erase n).map Handler.key)) :=
    h.opens.trans (((perm_erase_handler hn).append_left _).trans List.perm_middle)
  refine ⟨hperm.mem_iff.2 List.mem_cons_self, ?_⟩
  have herase := hperm.erase n.key
  rwa [List.erase_cons_head] at herase

/-- A step of the link is a step of the session, or changes nothing that the session sees. -/
theorem Matches.step (h : Matches c t) {e : Event} (step : c.Step envAddr e c') :
    Matches c' t ∨ ∃ a t', t.Step a t' ∧ Matches c' t' := by
  cases step with
  | @server a s hown hstep =>
      obtain ⟨t', hstep', hmatch⟩ := h.own hown hstep
      exact Or.inr ⟨a, t', hstep', hmatch⟩
  | @hear f rest hwire => exact Or.inr ⟨_, _, .receive f, h.hear⟩
  | @react f rest hrunning hwire =>
      exact Or.inl (h.same (Link.react_server _ f) (Link.react_undialed hwire)
        (Link.react_sent hwire))
  | @pongFails f rest hrunning hwire hping =>
      have hnone : openId f = none := openId_eq_none (by simp [hping])
      refine Or.inl (h.same rfl ?_ ?_)
      · simp [Link.undialed, hwire, numbered, hnone]
      · simp [Link.sent, hwire, hnone]
  | hangUp => exact Or.inl (h.same rfl (List.Perm.refl _) rfl)
  | readAddr hh hnone =>
      exact Or.inl (h.same rfl ((perm_erase_handler hh).symm.append_left _) rfl)
  | @dial n hh haddr =>
      obtain ⟨hmem, hrest⟩ := h.done hh
      refine Or.inr ⟨_, _, .dial hmem, ⟨?_, hrest, h.next⟩⟩
      rw [h.server]
      rfl
  | @dialFails n hh haddr =>
      obtain ⟨hmem, hrest⟩ := h.done hh
      refine Or.inr ⟨_, _, .ignoreOpen hmem, ⟨?_, hrest, h.next⟩⟩
      rw [h.server]
  | connect hh hnone success => exact Or.inl (h.same rfl (List.Perm.refl _) rfl)
  | writeFile file => exact Or.inl (h.same rfl (List.Perm.refl _) rfl)

theorem matches_initial (file : Option Text) : Matches (.initial file) .initial :=
  ⟨rfl, List.Perm.refl _, rfl⟩

theorem link_matches {P : Link → Event → Prop} (hreach : (linkLts envAddr).Reach P c) :
    ∃ t, Session.Reach (fun _ _ => True) t ∧ Matches c t := by
  have hsim : Lts.Simulates (linkLts envAddr) sessionLts P (fun _ _ => True) Matches := by
    refine ⟨?_, fun c e c' t hmatch _ hstep => ?_⟩
    · rintro c ⟨file, rfl⟩
      exact ⟨.initial, rfl, matches_initial file⟩
    · rcases hmatch.step hstep with hsame | ⟨a, t', hstep', hmatch'⟩
      · exact Or.inl hsame
      · exact Or.inr ⟨a, t', trivial, hstep', hmatch'⟩
  obtain ⟨t, ht, hmatch⟩ := hsim.reach hreach
  exact ⟨t, session_reach ht, hmatch⟩

/-- Every run of the server and the client is a run of the session in which the agent dials a data
connection for an OPEN that was written, and never two for the same: what the server knows is as in
the session, and the OPENs under way there are those on the wire and those in a handler. -/
theorem link_refines_session {P : Link → Event → Prop} (hreach : (linkLts envAddr).Reach P c) :
    ∃ t, Session.Reach (fun _ _ => True) t ∧ t = { c.server with opens := t.opens } ∧
      t.opens.Perm c.undialed := by
  obtain ⟨t, ht, hmatch⟩ := link_matches hreach
  exact ⟨t, ht, hmatch.server, hmatch.opens⟩

end Refinement

section Visit

variable {P : Link → Event → Prop} {c : Link} {envAddr : Option Text}

def Link.visited (c : Link) : Link :=
  { c with
    server := { c.server with
      streamCounter := c.server.streamCounter + 1
      pending := c.server.pending.insert c.server.streamCounter c.server.visitors
      visitors := c.server.visitors + 1
      opens := [] }
    toClient := c.toClient ++ [(tagOpen, c.server.streamCounter)] }

theorem visitor_opened
    (hP : ∀ c e, c.server.visitors < 65536 → (∀ file, e ≠ .writeFile file) → P c e)
    (hreach : (linkLts envAddr).Reach P c) (hfew : c.server.visitors + 1 < 65536)
    (htop : c.server.acceptor = .top) (htime : c.server.now = c.server.lastPing) :
    (linkLts envAddr).Reach P c.visited := by
  have hbefore : c.server.visitors < 65536 := by omega
  have hdue : c.server.now - c.server.lastPing < pingInterval := by
    rw [htime, Nat.sub_self]
    decide
  have haccepting := hreach.step (hP _ _ hbefore (by simp))
    (@Link.Step.server _ _ .noPing _ trivial (.noPing htop hdue))
  have haccepted := haccepting.step (hP _ _ hbefore (by simp))
    (@Link.Step.server _ _ .accept _ trivial (.accept rfl))
  have hinserted := haccepted.step (hP _ _ hfew (by simp))
    (@Link.Step.server _ _ .insert _ trivial (.insert rfl))
  have hopened := hinserted.step (hP _ _ hfew (by simp))
    (@Link.Step.server _ _ .sendOpen _ trivial (.sendOpen rfl))
  rw [Link.visited]
  simpa only [Link.own, Session.writes, Session.drops, List.append_nil, List.nil_append, ← htop]
    using hopened

def bothOpen (file : Option Text) : Link := (Link.initial file).visited.visited

theorem visitors_opened
    (hP : ∀ c e, c.server.visitors < 65536 → (∀ file, e ≠ .writeFile file) → P c e)
    (envAddr file : Option Text) : (linkLts envAddr).Reach P (bothOpen file) := by
  have hstart : (linkLts envAddr).Reach P (.initial file) := .init ⟨file, rfl⟩
  have hone : 0 + 1 < 65536 := by decide
  have htwo : 1 + 1 < 65536 := by decide
  exact visitor_opened hP (visitor_opened hP hstart hone rfl rfl) htwo rfl rfl

theorem visitors_served
    (hP : ∀ c e, c.server.visitors < 65536 → (∀ file, e ≠ .writeFile file) → P c e)
    (envAddr file : Option Text) :
    ∃ c, (linkLts envAddr).Path P (bothOpen file) c ∧ c.server.spliced = [(0, 0), (1, 1)] ∧
      c.dialed = [⟨0, 0, some (localServiceAddr envAddr file), none⟩,
        ⟨1, 1, some (localServiceAddr envAddr file), none⟩] := by
  have htwo : 2 < 65536 := by decide
  have hfirst : (linkLts envAddr).Path P (bothOpen file) _ :=
    Lts.path_step (hP _ _ htwo (by simp)) (.react rfl rfl)
  have hread := hfirst.trans (Lts.path_step (hP _ _ htwo (by simp)) (.react rfl rfl))
  have haddr := hread.trans (Lts.path_step (hP _ _ htwo (by simp))
    (.readAddr (List.mem_cons_of_mem _ List.mem_cons_self) rfl))
  have hdialed := haddr.trans (Lts.path_step (hP _ _ htwo (by simp)) (.dial List.mem_cons_self rfl))
  have hother : (⟨0, 0, none, none⟩ : Handler) ∈
      ([⟨1, 1, some (localServiceAddr envAddr file), none⟩, ⟨0, 0, none, none⟩] : List Handler).erase
        ⟨1, 1, some (localServiceAddr envAddr file), none⟩ := by
    rw [List.erase_cons_head]
    exact List.mem_cons_self
  have haddr' := hdialed.trans (Lts.path_step (hP _ _ htwo (by simp)) (.readAddr hother rfl))
  have hdialed' := haddr'.trans
    (Lts.path_step (hP _ _ htwo (by simp)) (.dial List.mem_cons_self rfl))
  have htaken := hdialed'.trans (Lts.path_step (hP _ _ htwo (by simp))
    (@Link.Step.server _ _ .take _ trivial (.take rfl)))
  have hboth := htaken.trans (Lts.path_step (hP _ _ htwo (by simp))
    (@Link.Step.server _ _ .take _ trivial (.take rfl)))
  exact ⟨_, hboth, rfl, rfl⟩

theorem link_refines_session_served :
    ∃ (c : Link) (t : Session), c.server.spliced = [(0, 0), (1, 1)] ∧
      Session.Reach (fun _ _ => True) t ∧ t = { c.server with opens := t.opens } ∧
      t.opens.Perm c.undialed := by
  obtain ⟨c, hpath, hspliced, -⟩ := visitors_served (fun _ _ _ _ => trivial) none none
  have hreach := (visitors_opened (fun _ _ _ _ => trivial) none none).path hpath
  obtain ⟨t, ht⟩ := @link_refines_session c none (fun _ _ => True) hreach
  exact ⟨c, t, hspliced, ht⟩

end Visit

end OpenShard.Tunnel
