import OpenShard.Streams

/-!
# What becomes of every visitor

As long as the stream counter does not come back to an identifier under which somebody waits, which it
cannot before the 65537th visitor, every visitor is at one place: in the hands of the acceptor, waiting
while its stream is under way, waiting although its stream was lost, or spliced with the data connection
that its own handler dialed. Nobody else waits. What is under way can always be brought to its end, and
a visitor that comes after the local address was written is served there.
-/

namespace OpenShard.Tunnel

section Books

/-- The visitor that `public_acceptor` has accepted and whose OPEN it has not written. -/
def Session.inHand (s : Session) : List (ℕ × UInt16) :=
  match s.acceptor with
  | .inserting visitor streamId => [(visitor, streamId)]
  | .opening visitor streamId => [(visitor, streamId)]
  | _ => []

/-- The one of them that is in the map already. -/
def Session.atOpen (s : Session) : List (ℕ × UInt16) :=
  match s.acceptor with
  | .opening visitor streamId => [(visitor, streamId)]
  | _ => []

/-- The server's books agree with the streams that are out: every visitor is at one place, those out
are those that wait, and identifiers are the low sixteen bits of the numbers. -/
structure Balanced (s : Session) (out : List (ℕ × UInt16)) : Prop where
  once : ((s.inHand ++ out).map Prod.fst ++ s.spliced.map Prod.snd).Perm (List.range s.visitors)
  waiting : ∀ id v, s.pending.lookup id = some v ↔ (v, id) ∈ s.atOpen ++ out
  fresh : ∀ v id, s.acceptor = .inserting v id → s.pending.lookup id = none
  counter : s.streamCounter = UInt16.ofNat s.visitors
  ids : ∀ p ∈ s.inHand ++ out, p.2 = UInt16.ofNat p.1
  matched : ∀ p ∈ s.spliced, p.1 = p.2

variable {s s' : Session} {out out' : List (ℕ × UInt16)} {v : ℕ} {id : UInt16}

theorem Balanced.same (h : Balanced s out) (hout : out'.Perm out) (hinHand : s'.inHand = s.inHand)
    (hatOpen : s'.atOpen = s.atOpen)
    (hinserting : ∀ v id, s'.acceptor = .inserting v id → s.acceptor = .inserting v id)
    (hpending : s'.pending = s.pending) (hspliced : s'.spliced = s.spliced)
    (hvisitors : s'.visitors = s.visitors) (hcounter : s'.streamCounter = s.streamCounter) :
    Balanced s' out' where
  once := by
    rw [hinHand, hspliced, hvisitors]
    exact (((hout.append_left _).map Prod.fst).append_right _).trans h.once
  waiting id v := by
    rw [hpending, hatOpen, h.waiting, List.mem_append, List.mem_append, hout.mem_iff]
  fresh v id hat := by
    rw [hpending]
    exact h.fresh v id (hinserting v id hat)
  counter := by rw [hcounter, hvisitors, h.counter]
  ids p hp := by
    rw [hinHand, List.mem_append, hout.mem_iff, ← List.mem_append] at hp
    exact h.ids p hp
  matched p hp := h.matched p (hspliced ▸ hp)

theorem Balanced.number_lt (h : Balanced s out) (hmem : (v, id) ∈ s.inHand ++ out) :
    v < s.visitors := by
  refine List.mem_range.1 (h.once.mem_iff.1 (List.mem_append_left _ ?_))
  exact List.mem_map_of_mem hmem

/-- Before the 65537th visitor the counter is at an identifier that nobody waits under. -/
theorem Balanced.unused (h : Balanced s out) (hat : s.acceptor = .accepting)
    (hfew : s.visitors < 65536) : s.pending.lookup s.streamCounter = none := by
  cases hw : s.pending.lookup s.streamCounter with
  | none => rfl
  | some w =>
      have hatOpen : s.atOpen = [] := by rw [Session.atOpen, hat]
      have hmem := (h.waiting _ w).1 hw
      rw [hatOpen, List.nil_append] at hmem
      have hmem' : (w, s.streamCounter) ∈ s.inHand ++ out := List.mem_append_right _ hmem
      have hlt := h.number_lt hmem'
      have hid : s.streamCounter = UInt16.ofNat w := h.ids _ hmem'
      have hsame := ofNat_inj (hlt.trans hfew) hfew (hid.symm.trans h.counter)
      omega

theorem Balanced.accept (h : Balanced s out) (hat : s.acceptor = .accepting)
    (hunused : s.pending.lookup s.streamCounter = none) :
    Balanced { s with
      streamCounter := s.streamCounter + 1
      acceptor := .inserting s.visitors s.streamCounter
      visitors := s.visitors + 1 } out := by
  have hinHand : s.inHand = [] := by rw [Session.inHand, hat]
  have hatOpen : s.atOpen = [] := by rw [Session.atOpen, hat]
  have honce := h.once
  have hids := h.ids
  have hwaiting := h.waiting
  rw [hinHand, List.nil_append] at honce hids
  rw [hatOpen] at hwaiting
  refine ⟨?_, hwaiting, ?_, ?_, ?_, h.matched⟩
  · rw [List.range_succ]
    exact (honce.cons s.visitors).trans (List.perm_append_singleton _ _).symm
  · rintro v id hinserting
    obtain ⟨rfl, rfl⟩ := Acceptor.inserting.inj hinserting
    exact hunused
  · rw [h.counter]
    exact (UInt16.ofNat_add s.visitors 1).symm
  · intro p hp
    rcases List.mem_cons.1 hp with rfl | hp
    · exact h.counter
    · exact hids p hp

theorem Balanced.insert (h : Balanced s out) (hat : s.acceptor = .inserting v id) :
    Balanced { s with pending := s.pending.insert id v, acceptor := .opening v id } out := by
  have hinHand : s.inHand = [(v, id)] := by rw [Session.inHand, hat]
  have hatOpen : s.atOpen = [] := by rw [Session.atOpen, hat]
  have honce := h.once
  have hids := h.ids
  rw [hinHand] at honce hids
  refine ⟨honce, fun id' w => ?_, by simp, h.counter, hids, h.matched⟩
  have hwaiting := h.waiting id' w
  rw [hatOpen, List.nil_append] at hwaiting
  rw [Table.lookup_insert_if]
  by_cases hsame : id' = id
  · subst hsame
    rw [h.fresh v id' hat] at hwaiting
    have hnot : (w, id') ∉ out := fun hmem => by simpa using hwaiting.2 hmem
    simp [Session.atOpen, hnot, eq_comm]
  · rw [if_neg hsame, hwaiting]
    simp [Session.atOpen, hsame]

theorem Balanced.leave (h : Balanced s out) (hat : s.acceptor = .opening v id)
    (hacceptor : s'.acceptor = .top ∨ s'.acceptor = .returned) (hpending : s'.pending = s.pending)
    (hspliced : s'.spliced = s.spliced) (hvisitors : s'.visitors = s.visitors)
    (hcounter : s'.streamCounter = s.streamCounter) (hout : out'.Perm ((v, id) :: out)) :
    Balanced s' out' := by
  have hinHand : s.inHand = [(v, id)] := by rw [Session.inHand, hat]
  have hatOpen : s.atOpen = [(v, id)] := by rw [Session.atOpen, hat]
  have hinHand' : s'.inHand = [] := by
    rcases hacceptor with hacceptor | hacceptor <;> rw [Session.inHand, hacceptor]
  have hatOpen' : s'.atOpen = [] := by
    rcases hacceptor with hacceptor | hacceptor <;> rw [Session.atOpen, hacceptor]
  refine ⟨?_, fun id' w => ?_, fun w id' hinserting => ?_, ?_, fun p hp => ?_, fun p hp => ?_⟩
  · have honce := h.once
    rw [hinHand] at honce
    rw [hinHand', hspliced, hvisitors]
    exact ((hout.map Prod.fst).append_right _).trans honce
  · rw [hpending, h.waiting, hatOpen, hatOpen', List.nil_append, hout.mem_iff]
    rfl
  · rcases hacceptor with hacceptor | hacceptor <;> simp [hacceptor] at hinserting
  · rw [hcounter, hvisitors, h.counter]
  · rw [hinHand', List.nil_append, hout.mem_iff] at hp
    exact h.ids p (hinHand ▸ hp)
  · exact h.matched p (hspliced ▸ hp)

/-- A data connection comes to the visitor it was dialed for. -/
theorem Balanced.take (h : Balanced s ((v, id) :: out)) :
    s.pending.lookup id = some v ∧
      Balanced { s with pending := s.pending.erase id, spliced := (v, v) :: s.spliced } out := by
  have hv : s.pending.lookup id = some v := (h.waiting id v).2 (by simp)
  have honly : ∀ id', (v, id') ∉ s.inHand ++ out := by
    intro id' hmem
    have hnodup := h.once.nodup_iff.2 List.nodup_range
    have hperm : (s.inHand ++ (v, id) :: out).Perm ((v, id) :: (s.inHand ++ out)) :=
      List.perm_middle
    have hnumbers := (hperm.map Prod.fst).nodup_iff.1 hnodup.of_append_left
    exact (List.nodup_cons.1 hnumbers).1 (List.mem_map.2 ⟨_, hmem, rfl⟩)
  have hatOpen : ∀ p ∈ s.atOpen, p ∈ s.inHand := by
    intro p hp
    rw [Session.atOpen] at hp
    split at hp
    · rename_i hat
      rwa [Session.inHand, hat]
    · simp at hp
  refine ⟨hv, ?_, fun id' w => ?_, fun w id' hat => ?_, h.counter, fun p hp => ?_, fun p hp => ?_⟩
  · have hperm : ((s.inHand ++ out).map Prod.fst ++ v :: s.spliced.map Prod.snd).Perm
        ((s.inHand ++ (v, id) :: out).map Prod.fst ++ s.spliced.map Prod.snd) := by
      rw [List.map_append, List.map_append, List.map_cons, List.append_assoc, List.append_assoc]
      exact List.perm_middle.append_left _
    exact hperm.trans h.once
  · have hwaiting := h.waiting id' w
    rw [Table.lookup_erase_if]
    by_cases hsame : id' = id
    · subst hsame
      rw [if_pos rfl]
      refine ⟨by simp, fun hmem => ?_⟩
      have hw : s.pending.lookup id' = some w := by
        refine hwaiting.2 ?_
        rcases List.mem_append.1 hmem with hmem | hmem
        · exact List.mem_append_left _ hmem
        · exact List.mem_append_right _ (List.mem_cons_of_mem _ hmem)
      obtain rfl : v = w := Option.some.inj (hv.symm.trans hw)
      refine absurd ?_ (honly id')
      rcases List.mem_append.1 hmem with hmem | hmem
      · exact List.mem_append_left _ (hatOpen _ hmem)
      · exact List.mem_append_right _ hmem
    · rw [if_neg hsame, hwaiting]
      simp [hsame, Session.atOpen]
  · rw [Table.lookup_erase_if, h.fresh w id' hat, ite_self]
  · refine h.ids p ?_
    rcases List.mem_append.1 hp with hp | hp
    · exact List.mem_append_left _ hp
    · exact List.mem_append_right _ (List.mem_cons_of_mem _ hp)
  · rcases List.mem_cons.1 hp with rfl | hp
    · rfl
    · exact h.matched p hp

theorem balanced_initial : Balanced .initial [] where
  once := List.Perm.refl _
  waiting id v := by simp [Session.initial, Session.atOpen]
  fresh v id hat := by simp [Session.initial] at hat
  counter := rfl
  ids p hp := by simp [Session.initial, Session.inHand] at hp
  matched p hp := by simp [Session.initial] at hp

end Books

section Account

variable {envAddr : Option Text} {c c' : Link} {a : Act} {s : Session}

/-- The streams whose data connection has not come to the server's `data_acceptor`. -/
def Link.underWay (c : Link) : List (ℕ × UInt16) := c.undialed ++ c.server.conns

def Link.out (c : Link) : List (ℕ × UInt16) := c.underWay ++ c.lost

/-- The counter is not at an identifier under which somebody waits when a visitor comes. -/
def NewId (c : Link) (e : Event) : Prop :=
  e = .server .accept →
    c.server.visitors < 65536 ∨ c.server.pending.lookup c.server.streamCounter = none

structure Tallied (c : Link) : Prop where
  balanced : Balanced c.server c.out
  pongs : ∀ f ∈ c.toServer, f.1 = tagPong

theorem Link.own_out (hnext : c.server.Next c.sent) (hown : a.own) (hstep : c.server.Step a s) :
    (c.own a s).out.Perm (c.server.opened a ++ c.undialed ++ s.conns ++ (c.server.drops a ++ c.lost)) :=
  ((Link.own_undialed hnext hown hstep).append_right _).append_right _

theorem Balanced.own (h : Balanced c.server c.out) (hnext : c.server.Next c.sent) (hown : a.own)
    (hnew : NewId c (.server a)) (hstep : c.server.Step a s) :
    Balanced (c.own a s).server (c.own a s).out := by
  have hout := Link.own_out hnext hown hstep
  cases hstep with
  | wait ms => exact h.same hout rfl rfl (fun _ _ hat => hat) rfl rfl rfl rfl
  | ping htop _ =>
      exact h.same hout (by simp [Session.inHand, Link.own, htop])
        (by simp [Session.atOpen, Link.own, htop]) (by simp [Link.own]) rfl rfl rfl rfl
  | pingFails htop _ =>
      exact h.same hout (by simp [Session.inHand, Link.own, htop])
        (by simp [Session.atOpen, Link.own, htop]) (by simp [Link.own]) rfl rfl rfl rfl
  | noPing htop _ =>
      exact h.same hout (by simp [Session.inHand, Link.own, htop])
        (by simp [Session.atOpen, Link.own, htop]) (by simp [Link.own]) rfl rfl rfl rfl
  | wouldBlock hat =>
      exact h.same hout (by simp [Session.inHand, Link.own, hat])
        (by simp [Session.atOpen, Link.own, hat]) (by simp [Link.own]) rfl rfl rfl rfl
  | acceptFails hat =>
      exact h.same hout (by simp [Session.inHand, Link.own, hat])
        (by simp [Session.atOpen, Link.own, hat]) (by simp [Link.own]) rfl rfl rfl rfl
  | accept hat =>
      have hunused : c.server.pending.lookup c.server.streamCounter = none := by
        rcases hnew rfl with hfew | hunused
        · exact h.unused hat hfew
        · exact hunused
      exact (h.accept hat hunused).same hout rfl rfl (fun _ _ hat => hat) rfl rfl rfl rfl
  | insert hat => exact (h.insert hat).same hout rfl rfl (fun _ _ hat => hat) rfl rfl rfl rfl
  | @sendOpen v id hat =>
      have hopened : c.server.opened .sendOpen = [(v, id)] := by simp [Session.opened, hat]
      rw [hopened] at hout
      exact h.leave hat (Or.inl rfl) rfl rfl rfl rfl hout
  | @openFails v id hat =>
      have hdrops : c.server.drops .openFails = [(v, id)] := by simp [Session.drops, hat]
      rw [hdrops] at hout
      exact h.leave hat (Or.inr rfl) rfl rfl rfl rfl (hout.trans List.perm_middle)
  | receive f => exact hown.elim
  | dial _ => exact hown.elim
  | ignoreOpen _ => exact hown.elim
  | @take v id rest hconns =>
      have hbefore : c.out.Perm ((v, id) :: (c.undialed ++ rest ++ c.lost)) := by
        rw [Link.out, Link.underWay, hconns, List.append_assoc, List.append_assoc, List.cons_append]
        exact List.perm_middle
      obtain ⟨hv, htaken⟩ := (h.same hbefore.symm rfl rfl (fun _ _ hat => hat) rfl rfl rfl rfl).take
      have hsplice : ({ c.server with conns := rest } : Session).splice v id =
          { c.server with
            conns := rest
            pending := c.server.pending.erase id
            spliced := (v, v) :: c.server.spliced } := by
        simp only [Session.splice, hv]
      rw [hsplice] at hout ⊢
      exact htaken.same hout rfl rfl (fun _ _ hat => hat) rfl rfl rfl rfl
  | @dropConn v id rest hconns =>
      have hdrops : c.server.drops .dropConn = [(v, id)] := by simp [Session.drops, hconns]
      have hsame : (c.undialed ++ rest ++ ((v, id) :: c.lost)).Perm c.out := by
        rw [Link.out, Link.underWay, hconns]
        simp only [List.append_assoc, List.cons_append]
        exact List.perm_middle.append_left _
      rw [hdrops] at hout
      exact h.same (hout.trans hsame) rfl rfl (fun _ _ hat => hat) rfl rfl rfl rfl

theorem Link.react_conns (c : Link) (f : Frame) : (c.react f).lost = c.lost := by
  rw [Link.react]
  split <;> rfl

theorem Tallied.step (h : Tallied c) (hnext : c.server.Next c.sent) {e : Event}
    (hnew : NewId c e) (step : c.Step envAddr e c') : Tallied c' := by
  have hsame : ∀ {d : Link}, d.server = c.server → d.out.Perm c.out → Balanced d.server d.out := by
    intro d hserver hout
    exact h.balanced.same hout (by rw [hserver]) (by rw [hserver]) (by simp [hserver])
      (by rw [hserver]) (by rw [hserver]) (by rw [hserver]) (by rw [hserver])
  cases step with
  | server hown hstep => exact ⟨h.balanced.own hnext hown hnew hstep, h.pongs⟩
  | @hear f rest hwire =>
      have hpong : f.1 = tagPong := h.pongs f (by rw [hwire]; exact List.mem_cons_self)
      have hreceive : c.server.receive f = { c.server with pings := 0 } := by
        rw [Session.receive, if_pos hpong]
      refine ⟨?_, fun f' hf' => h.pongs f' (by rw [hwire]; exact List.mem_cons_of_mem _ hf')⟩
      simp only [hreceive]
      exact h.balanced.same (List.Perm.refl _) rfl rfl (fun _ _ hat => hat) rfl rfl rfl rfl
  | @react f rest hrunning hwire =>
      refine ⟨hsame (Link.react_server _ f) ?_, fun f' hf' => ?_⟩
      · rw [Link.out, Link.underWay, Link.react_server, Link.react_conns]
        exact ((Link.react_undialed hwire).append_right _).append_right _
      · rw [Link.react] at hf'
        split at hf'
        · rcases List.mem_append.1 hf' with hf' | hf'
          · exact h.pongs f' hf'
          · rw [List.mem_singleton.1 hf']
        · exact h.pongs f' hf'
        · exact h.pongs f' hf'
        · exact h.pongs f' hf'
  | @pongFails f rest hrunning hwire hping =>
      have hnone : openId f = none := openId_eq_none (by simp [hping])
      refine ⟨hsame rfl ?_, h.pongs⟩
      simp [Link.out, Link.underWay, Link.undialed, hwire, numbered, hnone]
  | hangUp => exact ⟨hsame rfl (List.Perm.refl _), h.pongs⟩
  | readAddr hh hnone =>
      refine ⟨hsame rfl ?_, h.pongs⟩
      exact (((perm_erase_handler hh).symm.append_left _).append_right _).append_right _
  | @dial n hh haddr =>
      refine ⟨h.balanced.same ?_ rfl rfl (fun _ _ hat => hat) rfl rfl rfl rfl, h.pongs⟩
      have hmoved : (c.handlers.erase n).map Handler.key ++ (c.server.conns ++ [n.key]) ++ c.lost
          |>.Perm (c.handlers.map Handler.key ++ c.server.conns ++ c.lost) := by
        refine List.Perm.append_right _ ?_
        rw [← List.append_assoc]
        refine (List.perm_append_singleton _ _).trans ?_
        exact (perm_erase_handler hh).symm.append_right _
      rw [Link.out, Link.out, Link.underWay, Link.underWay, Link.undialed, Link.undialed]
      simp only [List.append_assoc] at hmoved ⊢
      exact hmoved.append_left _
  | @dialFails n hh haddr =>
      refine ⟨hsame rfl ?_, h.pongs⟩
      have hmoved : ((c.handlers.erase n).map Handler.key ++ c.server.conns ++ n.key :: c.lost).Perm
          (c.handlers.map Handler.key ++ c.server.conns ++ c.lost) := by
        refine List.perm_middle.trans ?_
        rw [← List.cons_append, ← List.cons_append]
        exact ((perm_erase_handler hh).symm.append_right _).append_right _
      rw [Link.out, Link.out, Link.underWay, Link.underWay, Link.undialed, Link.undialed]
      simp only [List.append_assoc] at hmoved ⊢
      exact hmoved.append_left _
  | connect hh hnone success => exact ⟨hsame rfl (List.Perm.refl _), h.pongs⟩
  | writeFile file => exact ⟨hsame rfl (List.Perm.refl _), h.pongs⟩

theorem link_tallied (hreach : (linkLts envAddr).Reach NewId c) : Tallied c := by
  refine hreach.invariant ?_ fun c e c' past h hnew hstep => ?_
  · rintro c ⟨file, rfl⟩
    exact ⟨balanced_initial, by simp [Link.initial]⟩
  · obtain ⟨t, -, hmatch⟩ := link_matches past
    exact h.step hmatch.next hnew hstep

/-- Every visitor is at exactly one place: in the hands of the acceptor, out with its stream under way
or lost, or spliced, and then with the data connection of its own handler. Those who wait in the map
are the one whose OPEN is being written and those who are out. -/
theorem visitors_accounted (hreach : (linkLts envAddr).Reach NewId c) :
    ((c.server.inHand ++ c.underWay ++ c.lost).map Prod.fst ++ c.server.spliced.map Prod.snd).Perm
        (List.range c.server.visitors) ∧
      (∀ id v, c.server.pending.lookup id = some v ↔
        (v, id) ∈ c.server.atOpen ++ c.underWay ++ c.lost) ∧
      ∀ p ∈ c.server.spliced, p.1 = p.2 := by
  have h := (link_tallied hreach).balanced
  refine ⟨?_, fun id v => ?_, h.matched⟩
  · rw [List.append_assoc]
    exact h.once
  · rw [List.append_assoc]
    exact h.waiting id v

/-- Two visitors that were served are where they should be. -/
theorem visitors_accounted_served :
    ∃ c, (linkLts none).Reach NewId c ∧ c.server.spliced = [(0, 0), (1, 1)] ∧
      (∀ id v, c.server.pending.lookup id = some v ↔
        (v, id) ∈ c.server.atOpen ++ c.underWay ++ c.lost) := by
  obtain ⟨c, hpath, hspliced, -⟩ := @visitors_served NewId (fun _ _ hfew _ _ => Or.inl hfew) none none
  have hreach := (@visitors_opened NewId (fun _ _ hfew _ _ => Or.inl hfew) none none).path hpath
  exact ⟨c, hreach, hspliced, (visitors_accounted hreach).2.1⟩

end Account

section Draining

variable {envAddr : Option Text} {c c' : Link}

def Link.load (c : Link) : ℕ :=
  4 * c.toClient.length + (c.handlers.map fun h => if h.localAddr.isSome then 2 else 3).sum +
    c.server.conns.length

theorem load_erase {handlers : List Handler} {h : Handler} (hh : h ∈ handlers) :
    (handlers.map fun h => if h.localAddr.isSome then 2 else 3).sum =
      (if h.localAddr.isSome then 2 else 3) +
        ((handlers.erase h).map fun h => if h.localAddr.isSome then 2 else 3).sum := by
  rw [((List.perm_cons_erase hh).map _).sum_eq, List.map_cons, List.sum_cons]

structure Draining (c c' : Link) : Prop where
  running : c'.running
  lost : c'.lost = c.lost
  visitors : c'.server.visitors = c.server.visitors
  acceptor : c'.server.acceptor = c.server.acceptor

theorem Link.react_load (f : Frame) : (c.react f).load ≤ c.load + 3 := by
  rw [Link.react]
  split
  · exact Nat.le_add_right _ _
  · simp only [Link.load, List.map_append, List.sum_append, List.map_cons, List.map_nil,
      List.sum_cons, List.sum_nil]
    simp only [Option.isSome_none, Bool.false_eq_true, if_false]
    omega
  · exact Nat.le_add_right _ _
  · exact Nat.le_add_right _ _

theorem Draining.react (h : Draining c c') (f : Frame) : Draining c (c'.react f) := by
  rw [Link.react]
  split
  · exact ⟨h.running, h.lost, h.visitors, h.acceptor⟩
  · exact ⟨h.running, h.lost, h.visitors, h.acceptor⟩
  · exact h
  · exact h

/-- Whatever is under way can be brought on by one step, with no visitor coming. -/
theorem Draining.lower (h : Draining c c') (hload : 0 < c'.load) :
    ∃ e c'', NewId c' e ∧ c'.Step envAddr e c'' ∧ Draining c c'' ∧ c''.load < c'.load := by
  cases hwire : c'.toClient with
  | cons f rest =>
      refine ⟨.react f, _, by simp [NewId], .react h.running hwire, ?_, ?_⟩
      · exact @Draining.react c { c' with toClient := rest }
          ⟨h.running, h.lost, h.visitors, h.acceptor⟩ f
      · refine (Link.react_load f).trans_lt ?_
        simp only [Link.load, hwire, List.length_cons]
        omega
  | nil =>
      cases hhandlers : c'.handlers with
      | cons n handlers =>
          have hn : n ∈ c'.handlers := by rw [hhandlers]; exact List.mem_cons_self
          cases haddr : n.localAddr with
          | none =>
              refine ⟨.readAddr n, _, by simp [NewId], .readAddr hn haddr,
                ⟨h.running, h.lost, h.visitors, h.acceptor⟩, ?_⟩
              simp only [Link.load, load_erase hn, haddr, List.map_cons, List.sum_cons]
              simp only [Option.isSome_none, Option.isSome_some, Bool.false_eq_true, if_false, if_true]
              omega
          | some addr =>
              refine ⟨.dial n, _, by simp [NewId], .dial hn (by rw [haddr]; rfl),
                ⟨h.running, h.lost, h.visitors, h.acceptor⟩, ?_⟩
              simp only [Link.load, load_erase hn, haddr, List.length_append]
              simp only [Option.isSome_some, if_true, List.length_cons, List.length_nil]
              omega
      | nil =>
          cases hconns : c'.server.conns with
          | nil => simp [Link.load, hwire, hhandlers, hconns] at hload
          | cons p rest =>
              obtain ⟨v, id⟩ := p
              have hsplice : ∃ pending spliced,
                  ({ c'.server with conns := rest } : Session).splice v id =
                    { c'.server with conns := rest, pending := pending, spliced := spliced } := by
                rw [Session.splice]
                split
                · exact ⟨_, _, rfl⟩
                · exact ⟨_, _, rfl⟩
              obtain ⟨pending, spliced, hsplice⟩ := hsplice
              refine ⟨.server .take, _, by simp [NewId], .server trivial (.take hconns), ?_, ?_⟩
              · rw [hsplice]
                exact ⟨h.running, h.lost, h.visitors, h.acceptor⟩
              · rw [hsplice]
                simp [Link.load, Link.own, Session.writes, hwire, hhandlers, hconns]

theorem load_eq_zero (h : c.load = 0) : c.underWay = [] := by
  simp only [Link.load, Nat.add_eq_zero_iff, Nat.mul_eq_zero, List.length_eq_zero_iff] at h
  obtain ⟨⟨hwire, hhandlers⟩, hconns⟩ := h
  have hwire' : c.toClient = [] := by simpa using hwire
  have hhandlers' : c.handlers = [] := by
    cases hcases : c.handlers with
    | nil => rfl
    | cons n handlers =>
        rw [hcases, List.map_cons, List.sum_cons] at hhandlers
        split_ifs at hhandlers <;> omega
  rw [Link.underWay, Link.undialed, hwire', hhandlers', hconns]
  rfl

/-- While the client runs, everything under way can be brought to its end without another visitor
coming or a stream being lost, and then every visitor whose stream was under way is spliced with the
data connection of its own handler. -/
theorem streams_drain (hreach : (linkLts envAddr).Reach NewId c) (hrunning : c.running) :
    ∃ c', (linkLts envAddr).Path NewId c c' ∧ c'.underWay = [] ∧ c'.lost = c.lost ∧
      c'.server.visitors = c.server.visitors ∧
      ∀ v id, (v, id) ∈ c.underWay → (v, v) ∈ c'.server.spliced := by
  obtain ⟨c', hpath, hdrained, hload⟩ := @Lts.drains _ _ (linkLts envAddr) NewId c (Draining c)
    Link.load ⟨hrunning, rfl, rfl, rfl⟩ fun c' h hload => by
      obtain ⟨e, c'', hnew, hstep, hrest⟩ := h.lower hload
      exact ⟨e, c'', hnew, hstep, hrest⟩
  have hunder := load_eq_zero hload
  refine ⟨c', hpath, hunder, hdrained.lost, hdrained.visitors, fun v id hmem => ?_⟩
  have hbefore := (link_tallied hreach).balanced
  have hafter := (link_tallied (hreach.path hpath)).balanced
  have hinHand : c'.server.inHand = c.server.inHand := by
    rw [Session.inHand, Session.inHand, hdrained.acceptor]
  have hrange : v ∈ List.range c'.server.visitors := by
    rw [List.mem_range, hdrained.visitors]
    exact hbefore.number_lt (List.mem_append_right _ (List.mem_append_left _ hmem))
  have hsomewhere := hafter.once.mem_iff.2 hrange
  rw [Link.out, hunder, List.nil_append, hinHand, hdrained.lost, List.mem_append] at hsomewhere
  rcases hsomewhere with helse | hspliced
  · have hperm : ((c.server.inHand ++ c.lost) ++ c.underWay).Perm (c.server.inHand ++ c.out) := by
      rw [Link.out, List.append_assoc]
      exact List.perm_append_comm.append_left _
    have hnodup := (((hperm.map Prod.fst).append_right _).trans hbefore.once).nodup_iff.2
      List.nodup_range
    rw [List.map_append] at hnodup
    exact absurd (List.mem_map.2 ⟨_, hmem, rfl⟩)
      (hnodup.of_append_left.disjoint helse)
  · obtain ⟨⟨n, w⟩, hp, rfl⟩ := List.mem_map.1 hspliced
    obtain rfl : n = w := hafter.matched _ hp
    exact hp

/-- Once the OPENs of two visitors are written, both are led to their splices. -/
theorem streams_drain_opened :
    ∃ c', (linkLts none).Path NewId (bothOpen none) c' ∧ c'.underWay = [] ∧
      (0, 0) ∈ c'.server.spliced ∧ (1, 1) ∈ c'.server.spliced := by
  have hreach := @visitors_opened NewId (fun _ _ hfew _ _ => Or.inl hfew) none none
  obtain ⟨c', hpath, hdrained, -, -, hall⟩ := streams_drain hreach rfl
  exact ⟨c', hpath, hdrained, hall 0 0 (by decide), hall 1 1 (by decide)⟩

end Draining

section Addresses

variable {envAddr : Option Text} {c c' : Link} {e : Event} {addr : Text} {k : ℕ}

/-- Handlers carry the numbers of OPENs that were read, and a data connection has its handler. -/
structure Backed (c : Link) : Prop where
  handlers : ∀ h ∈ c.handlers, h.number < c.opened
  dialed : ∀ h ∈ c.dialed, h.number < c.opened
  conns : ∀ p ∈ c.server.conns, ∃ h ∈ c.dialed, h.number = p.1
  spliced : ∀ p ∈ c.server.spliced, ∃ h ∈ c.dialed, h.number = p.1

theorem Session.Step.backed {s s' : Session} {a : Act} (hown : a.own) (hstep : s.Step a s') :
    (∀ p ∈ s'.conns, p ∈ s.conns) ∧
      ∀ p ∈ s'.spliced, p ∈ s.spliced ∨ ∃ q ∈ s.conns, q.1 = p.1 := by
  cases hstep with
  | receive f => exact hown.elim
  | dial _ => exact hown.elim
  | ignoreOpen _ => exact hown.elim
  | @take v id rest hconns =>
      have hrest : ∀ p ∈ rest, p ∈ s.conns := fun p hp => by
        rw [hconns]
        exact List.mem_cons_of_mem _ hp
      rw [Session.splice]
      split
      · exact ⟨hrest, fun p hp => Or.inl hp⟩
      · refine ⟨hrest, fun p hp => ?_⟩
        rcases List.mem_cons.1 hp with rfl | hp
        · exact Or.inr ⟨(v, id), by rw [hconns]; exact List.mem_cons_self, rfl⟩
        · exact Or.inl hp
  | @dropConn v id rest hconns =>
      refine ⟨fun p hp => ?_, fun p hp => Or.inl hp⟩
      rw [hconns]
      exact List.mem_cons_of_mem _ hp
  | _ => exact ⟨fun p hp => hp, fun p hp => Or.inl hp⟩

theorem Session.receive_conns (s : Session) (f : Frame) :
    (s.receive f).conns = s.conns ∧ (s.receive f).spliced = s.spliced := by
  rw [Session.receive]
  split_ifs <;> exact ⟨rfl, rfl⟩

theorem Backed.step (h : Backed c) (step : c.Step envAddr e c') : Backed c' := by
  cases step with
  | server hown hstep =>
      obtain ⟨hconns, hspliced⟩ := hstep.backed hown
      refine ⟨h.handlers, h.dialed, fun p hp => h.conns p (hconns p hp), fun p hp => ?_⟩
      rcases hspliced p hp with hp | ⟨q, hq, hsame⟩
      · exact h.spliced p hp
      · exact hsame ▸ h.conns q hq
  | @hear f rest hwire =>
      obtain ⟨hconns, hspliced⟩ := Session.receive_conns c.server f
      exact ⟨h.handlers, h.dialed, fun p hp => h.conns p (hconns ▸ hp),
        fun p hp => h.spliced p (hspliced ▸ hp)⟩
  | @react f rest hrunning hwire =>
      rw [Link.react]
      split
      · exact ⟨h.handlers, h.dialed, h.conns, h.spliced⟩
      · refine ⟨fun n hn => ?_, fun n hn => (h.dialed n hn).trans (Nat.lt_succ_self _), h.conns,
          h.spliced⟩
        rcases List.mem_append.1 hn with hn | hn
        · exact (h.handlers n hn).trans (Nat.lt_succ_self _)
        · rw [List.mem_singleton.1 hn]
          exact Nat.lt_succ_self _
      · exact ⟨h.handlers, h.dialed, h.conns, h.spliced⟩
      · exact ⟨h.handlers, h.dialed, h.conns, h.spliced⟩
  | pongFails _ _ _ => exact ⟨h.handlers, h.dialed, h.conns, h.spliced⟩
  | hangUp => exact ⟨h.handlers, h.dialed, h.conns, h.spliced⟩
  | @readAddr n hn hnone =>
      refine ⟨fun m hm => ?_, h.dialed, h.conns, h.spliced⟩
      rcases List.mem_cons.1 hm with rfl | hm
      · exact h.handlers n hn
      · exact h.handlers m (List.mem_of_mem_erase hm)
  | @dial n hn haddr =>
      have hmore : ∀ p : ℕ, (∃ m ∈ c.dialed, m.number = p) →
          ∃ m ∈ n :: c.dialed, m.number = p := by
        rintro p ⟨m, hm, hsame⟩
        exact ⟨m, List.mem_cons_of_mem _ hm, hsame⟩
      refine ⟨fun m hm => h.handlers m (List.mem_of_mem_erase hm), fun m hm => ?_, fun p hp => ?_,
        fun p hp => hmore _ (h.spliced p hp)⟩
      · rcases List.mem_cons.1 hm with rfl | hm
        · exact h.handlers m hn
        · exact h.dialed m hm
      · rcases List.mem_append.1 hp with hp | hp
        · exact hmore _ (h.conns p hp)
        · rw [List.mem_singleton.1 hp]
          exact ⟨n, List.mem_cons_self, rfl⟩
  | dialFails hn haddr =>
      exact ⟨fun m hm => h.handlers m (List.mem_of_mem_erase hm), h.dialed, h.conns, h.spliced⟩
  | @connect n hn hnone success =>
      have hmoved : ∀ p : ℕ, (∃ m ∈ c.dialed, m.number = p) →
          ∃ m ∈ { n with joined := some success } :: c.dialed.erase n, m.number = p := by
        rintro p ⟨m, hm, hsame⟩
        by_cases heq : m = n
        · exact ⟨_, List.mem_cons_self, heq ▸ hsame⟩
        · exact ⟨m, List.mem_cons_of_mem _ ((List.mem_erase_of_ne heq).2 hm), hsame⟩
      refine ⟨h.handlers, fun m hm => ?_, fun p hp => hmoved _ (h.conns p hp),
        fun p hp => hmoved _ (h.spliced p hp)⟩
      rcases List.mem_cons.1 hm with rfl | hm
      · exact h.dialed n hn
      · exact h.dialed m (List.mem_of_mem_erase hm)
  | writeFile file => exact ⟨h.handlers, h.dialed, h.conns, h.spliced⟩

theorem link_backed {P : Link → Event → Prop} (hreach : (linkLts envAddr).Reach P c) : Backed c := by
  refine hreach.invariant ?_ fun c e c' _ h _ hstep => h.step hstep
  rintro c ⟨file, rfl⟩
  exact ⟨by simp [Link.initial], by simp [Link.initial], by simp [Link.initial, Session.initial],
    by simp [Link.initial, Session.initial]⟩

/-- The handlers from some number on have read this address or none. -/
structure Pointed (k : ℕ) (envAddr : Option Text) (addr : Text) (c : Link) : Prop where
  file : localServiceAddr envAddr c.localFile = addr
  handlers : ∀ h ∈ c.handlers, k ≤ h.number → h.localAddr = none ∨ h.localAddr = some addr
  dialed : ∀ h ∈ c.dialed, k ≤ h.number → h.localAddr = some addr

theorem Pointed.step (h : Pointed k envAddr addr c) (hfile : ∀ file, e ≠ .writeFile file)
    (step : c.Step envAddr e c') : Pointed k envAddr addr c' := by
  cases step with
  | server hown hstep => exact ⟨h.file, h.handlers, h.dialed⟩
  | hear hwire => exact ⟨h.file, h.handlers, h.dialed⟩
  | @react f rest hrunning hwire =>
      rw [Link.react]
      split
      · exact ⟨h.file, h.handlers, h.dialed⟩
      · refine ⟨h.file, fun n hn => ?_, h.dialed⟩
        rcases List.mem_append.1 hn with hn | hn
        · exact h.handlers n hn
        · rw [List.mem_singleton.1 hn]
          exact fun _ => Or.inl rfl
      · exact ⟨h.file, h.handlers, h.dialed⟩
      · exact ⟨h.file, h.handlers, h.dialed⟩
  | pongFails _ _ _ => exact ⟨h.file, h.handlers, h.dialed⟩
  | hangUp => exact ⟨h.file, h.handlers, h.dialed⟩
  | readAddr hn hnone =>
      refine ⟨h.file, fun m hm => ?_, h.dialed⟩
      rcases List.mem_cons.1 hm with rfl | hm
      · exact fun _ => Or.inr (congrArg some h.file)
      · exact h.handlers m (List.mem_of_mem_erase hm)
  | @dial n hn haddr =>
      refine ⟨h.file, fun m hm => h.handlers m (List.mem_of_mem_erase hm), fun m hm hk => ?_⟩
      rcases List.mem_cons.1 hm with rfl | hm
      · rcases h.handlers m hn hk with hnone | hsome
        · simp [hnone] at haddr
        · exact hsome
      · exact h.dialed m hm hk
  | dialFails hn haddr =>
      exact ⟨h.file, fun m hm => h.handlers m (List.mem_of_mem_erase hm), h.dialed⟩
  | @connect n hn hnone success =>
      refine ⟨h.file, h.handlers, fun m hm => ?_⟩
      rcases List.mem_cons.1 hm with rfl | hm
      · exact h.dialed n hn
      · exact h.dialed m (List.mem_of_mem_erase hm)
  | writeFile file => exact absurd rfl (hfile file)

/-- Once the local address is written and as long as it stays, every visitor whose OPEN the client has
not read yet is spliced with a handler that connects to that address, without a new session. -/
theorem visitors_reach_address (hreach : (linkLts envAddr).Reach NewId c)
    (hpath : (linkLts envAddr).Path (fun c e => NewId c e ∧ ∀ file, e ≠ .writeFile file) c c')
    {n v : ℕ} (hspliced : (n, v) ∈ c'.server.spliced) (hlater : c.opened ≤ v) :
    (∃ h ∈ c'.dialed, h.number = v) ∧
      ∀ h ∈ c'.dialed, h.number = v → h.localAddr = some (localServiceAddr envAddr c.localFile) := by
  have hreach' : (linkLts envAddr).Reach NewId c' :=
    hreach.path (hpath.mono fun c e hP => hP.1)
  have hbacked := link_backed hreach
  have hpointed : Pointed c.opened envAddr (localServiceAddr envAddr c.localFile) c' := by
    refine hpath.invariant ⟨rfl, fun h hh hk => ?_, fun h hh hk => ?_⟩ fun c₁ e c₂ h hP hstep =>
      h.step hP.2 hstep
    · exact absurd (hbacked.handlers h hh) (Nat.not_lt.2 hk)
    · exact absurd (hbacked.dialed h hh) (Nat.not_lt.2 hk)
  obtain rfl : n = v := (link_tallied hreach').balanced.matched _ hspliced
  refine ⟨(link_backed hreach').spliced _ hspliced, ?_⟩
  rintro h hh rfl
  exact hpointed.dialed h hh hlater

/-- The visitors whose OPENs were written are served at the address in the file. -/
theorem visitors_reach_address_served :
    ∃ c' : Link, ∀ v ∈ [0, 1], (v, v) ∈ c'.server.spliced ∧ (∃ h ∈ c'.dialed, h.number = v) ∧
      ∀ h ∈ c'.dialed, h.number = v → h.localAddr = some ("172.17.0.2:80" : Text) := by
  have hreach := @visitors_opened NewId (fun _ _ hfew _ _ => Or.inl hfew) none (some "172.17.0.2:80\n")
  obtain ⟨c', hpath, hspliced, -⟩ := @visitors_served
    (fun c e => (NewId c e ∧ ∀ file, e ≠ .writeFile file))
    (fun _ _ hfew hwrite => ⟨fun _ => Or.inl hfew, hwrite⟩) none (some "172.17.0.2:80\n")
  have haddr : localServiceAddr none (bothOpen (some "172.17.0.2:80\n")).localFile =
      "172.17.0.2:80" := by decide
  have hserved : ∀ v, (v, v) ∈ c'.server.spliced → (∃ h ∈ c'.dialed, h.number = v) ∧
      ∀ h ∈ c'.dialed, h.number = v → h.localAddr = some ("172.17.0.2:80" : Text) := by
    intro v hmem
    have hserved := visitors_reach_address hreach hpath hmem (Nat.zero_le v)
    exact ⟨hserved.1, haddr ▸ hserved.2⟩
  have hboth : ∀ v ∈ [0, 1], (v, v) ∈ c'.server.spliced := by
    rw [hspliced]
    decide
  exact ⟨c', fun v hv => ⟨hboth v hv, hserved v (hboth v hv)⟩⟩

end Addresses

end OpenShard.Tunnel
