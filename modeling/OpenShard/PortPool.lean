import OpenShard.Tunnel

/-!
# The port pool over many sessions

Sessions that end leave nothing in `used_ports`, but the data acceptor of each of them keeps its
listener, and the operating system does not let the server bind that port again. So a session gets
both its ports exactly if two ports of the pool are neither used nor bound, and each session that has
run to its end takes one port out of the pool for good.
-/

namespace OpenShard.Tunnel

open Future

/-- The operating system refuses a port exactly if a live listener of the server holds it. -/
def osBinds : Guard TunnelOp TunnelEnv Server :=
  fun _ e _ s => e.bind = fun port => decide (port ∉ s.listeners)

/-- The ports of the pool that cannot be given out. -/
def taken (s : Server) : Finset UInt16 :=
  pool.toFinset.filter fun port => port ∈ s.used ∨ port ∈ s.listeners

def poolSize : ℕ := 1001

theorem card_pool : pool.toFinset.card = poolSize := by
  rw [List.toFinset_card_of_nodup nodup_pool, pool, List.length_map, List.length_range]
  rfl

variable {s s' : Server} {port : UInt16} {i : ℕ}

theorem mem_taken : port ∈ taken s ↔ port ∈ pool ∧ (port ∈ s.used ∨ port ∈ s.listeners) := by
  rw [taken, Finset.mem_filter, List.mem_toFinset]

theorem card_taken_lt : (taken s).card < poolSize ↔ ∃ port ∈ pool, port ∉ taken s := by
  rw [← card_pool]
  constructor
  · intro hlt
    by_contra hall
    push Not at hall
    refine absurd hlt (not_lt.2 (Finset.card_le_card fun port hport => ?_))
    exact hall port (List.mem_toFinset.1 hport)
  · rintro ⟨port, hpool, hfree⟩
    refine Finset.card_lt_card ((Finset.ssubset_iff_of_subset (Finset.filter_subset _ _)).2 ?_)
    exact ⟨port, List.mem_toFinset.2 hpool, hfree⟩

theorem allocatePort_isSome_iff {e : TunnelEnv} {op : TunnelOp (Option UInt16)}
    (hbind : osBinds _ e op s) :
    (allocatePort e.bind s.used).isSome ↔ (taken s).card + 1 ≤ poolSize := by
  have hbind : e.bind = fun port => decide (port ∉ s.listeners) := hbind
  rw [allocatePort_isSome, Nat.succ_le_iff, card_taken_lt]
  refine exists_congr fun port => and_congr_right fun hpool => ?_
  rw [mem_taken, and_iff_right hpool, not_or, hbind, decide_eq_true_iff]

theorem taken_give (hport : port ∈ pool) : taken (s.give i port) = insert port (taken s) := by
  ext p
  rw [Finset.mem_insert, mem_taken, mem_taken, Server.give, Finset.mem_insert, Multiset.mem_cons]
  constructor
  · rintro ⟨hp, (rfl | hused) | (rfl | hlisten)⟩
    · exact Or.inl rfl
    · exact Or.inr ⟨hp, Or.inl hused⟩
    · exact Or.inl rfl
    · exact Or.inr ⟨hp, Or.inr hlisten⟩
  · rintro (rfl | ⟨hp, hused | hlisten⟩)
    · exact ⟨hport, Or.inl (Or.inl rfl)⟩
    · exact ⟨hp, Or.inl (Or.inr hused)⟩
    · exact ⟨hp, Or.inr (Or.inr hlisten)⟩

section Allocation

variable {g : Guard TunnelOp TunnelEnv Server} {r : Option UInt16}

theorem allocatePort_run (hg : ∀ β e (op : TunnelOp β) s, g β e op s → osBinds β e op s)
    (run : Runs g (perform (.allocatePort i)) s r s') :
    (r = none ∧ s' = s ∧ ¬ (taken s).card + 1 ≤ poolSize) ∨
      ∃ port, r = some port ∧ (taken s).card + 1 ≤ poolSize ∧
        (taken s').card = (taken s).card + 1 := by
  obtain ⟨e, hge, he⟩ := (runs_perform _ _ _ _).1 run
  have hiff := allocatePort_isSome_iff (hg _ _ _ _ hge)
  simp only [Machine.exec] at he
  cases hport : allocatePort e.bind s.used with
  | none =>
      rw [hport] at he hiff
      obtain ⟨rfl, rfl⟩ := Prod.mk.inj (Option.some.inj he)
      exact Or.inl ⟨rfl, rfl, by simpa using hiff⟩
  | some port =>
      rw [hport] at he hiff
      obtain ⟨rfl, rfl⟩ := Prod.mk.inj (Option.some.inj he)
      obtain ⟨hpool, hfree, hbound⟩ := allocatePort_eq_some hport
      have hbind : e.bind = fun port => decide (port ∉ s.listeners) := hg _ _ _ _ hge
      rw [hbind, decide_eq_true_iff] at hbound
      have hnot : port ∉ taken s := fun hmem => by
        rcases (mem_taken.1 hmem).2 with hused | hlisten
        · exact hfree hused
        · exact hbound hlisten
      refine Or.inr ⟨port, rfl, hiff.1 rfl, ?_⟩
      rw [taken_give hpool, Finset.card_insert_of_notMem hnot]

def Exit.rejected : Exit → Prop
  | .noPublicPort => True
  | .noDataPort => True
  | _ => False

theorem serve_run {publicPort dataPort : UInt16} {exit : Exit}
    (run : Runs g (serve i publicPort dataPort) s exit s') : ¬ exit.rejected := by
  rw [serve, runs_bind] at run
  obtain ⟨written, s₁, -, run⟩ := run
  cases written with
  | false =>
      obtain ⟨u, s₂, -, run⟩ := (runs_bind _ _ _ _ _).1 run
      obtain ⟨rfl, -⟩ := (runs_pure _ _ _ _).1 run
      exact id
  | true =>
      obtain ⟨cloned, s₂, -, run⟩ := (runs_bind _ _ _ _ _).1 run
      cases cloned with
      | false =>
          obtain ⟨u, s₃, -, run⟩ := (runs_bind _ _ _ _ _).1 run
          obtain ⟨rfl, -⟩ := (runs_pure _ _ _ _).1 run
          exact id
      | true =>
          obtain ⟨-, s₃, -, run⟩ := (runs_bind _ _ _ _ _).1 run
          obtain ⟨-, s₄, -, run⟩ := (runs_bind _ _ _ _ _).1 run
          obtain ⟨-, s₅, -, run⟩ := (runs_bind _ _ _ _ _).1 run
          obtain ⟨-, s₆, -, run⟩ := (runs_bind _ _ _ _ _).1 run
          obtain ⟨rfl, -⟩ := (runs_pure _ _ _ _).1 run
          exact id

/-- A new session gets both ports exactly if two of them can be given out. -/
theorem runSession_run (hg : ∀ β e (op : TunnelOp β) s, g β e op s → osBinds β e op s) {exit : Exit}
    (run : Runs g runSession s exit s') : ¬ exit.rejected ↔ (taken s).card + 2 ≤ poolSize := by
  rw [runSession, runs_bind] at run
  obtain ⟨me, s₁, hspawn, run⟩ := run
  obtain ⟨e, -, he⟩ := (runs_perform _ _ _ _).1 hspawn
  obtain ⟨rfl, rfl⟩ := Prod.mk.inj (Option.some.inj he)
  have hsame : taken { s with sessions := s.sessions + 1 } = taken s := rfl
  obtain ⟨r, s₂, hpublic, run⟩ := (runs_bind _ _ _ _ _).1 run
  rcases allocatePort_run hg hpublic with ⟨rfl, rfl, hfull⟩ | ⟨publicPort, rfl, hroom, hcard⟩
  · obtain ⟨rfl, -⟩ := (runs_pure _ _ _ _).1 run
    rw [hsame] at hfull
    exact iff_of_false (not_not.2 trivial) (by omega)
  · rw [hsame] at hroom hcard
    obtain ⟨r, s₃, hdata, hrest⟩ := (runs_bind _ _ _ _ _).1 run
    rcases allocatePort_run hg hdata with ⟨rfl, -, hfull⟩ | ⟨dataPort, rfl, hroom', -⟩
    · obtain ⟨-, s₄, -, hrest⟩ := (runs_bind _ _ _ _ _).1 hrest
      obtain ⟨-, s₅, -, hrest⟩ := (runs_bind _ _ _ _ _).1 hrest
      obtain ⟨rfl, -⟩ := (runs_pure _ _ _ _).1 hrest
      exact iff_of_false (not_not.2 trivial) (by omega)
    · exact iff_of_true (serve_run hrest) (by omega)

end Allocation

section Leak

def running (tasks : List (Unit × Future TunnelOp Exit)) : ℕ :=
  tasks.countP fun t => (answer t.2).isNone

def ended (tasks : List (Unit × Future TunnelOp Exit)) : ℕ :=
  tasks.countP fun t => answer t.2 = some .ended

variable {tasks : List (Unit × Future TunnelOp Exit)} {γs : List Token}

theorem Left.card_ports {exit : Exit} {γ : Token} (h : Left exit γ) :
    γ.ports.card ≤ if exit = .ended then 1 else 0 := by
  rw [Token.ports, h.1, List.toFinset_nil, Finset.empty_union, ← h.2]
  exact Multiset.toFinset_card_le _

theorem card_tokens (hcarry : List.Forall₂ (fun t γ => Carries accounting Left t.2 γ) tasks γs)
    (hsmall : ∀ γ ∈ γs, γ.ports.card ≤ 2) :
    (γs.map fun γ => γ.ports.card).sum ≤ 2 * running tasks + ended tasks := by
  induction hcarry with
  | nil => simp
  | @cons t γ tasks γs hγ _ ih =>
      have hrest := ih fun δ hδ => hsmall δ (List.mem_cons_of_mem _ hδ)
      have hfirst := hsmall γ List.mem_cons_self
      obtain ⟨u, t⟩ := t
      simp only [running, ended, List.map_cons, List.sum_cons, List.countP_cons] at hrest ⊢
      cases t with
      | await op next =>
          simp only [answer_await, Option.isNone_none, if_true, reduceCtorEq, decide_false,
            Bool.false_eq_true, if_false]
          omega
      | ready exit =>
          have hleft : Left exit γ := hγ
          have hcard := hleft.card_ports
          simp only [answer_ready, Option.isNone_some, Bool.false_eq_true, if_false,
            Option.some.injEq, decide_eq_true_eq]
          omega

theorem taken_subset (hinv : Accounted s γs) :
    taken s ⊆ (γs.map Token.ports).foldr (· ∪ ·) ∅ := by
  have hmem : ∀ {port γ}, γ ∈ γs → port ∈ γ.ports →
      port ∈ (γs.map Token.ports).foldr (· ∪ ·) ∅ := by
    intro port γ hγ hport
    clear hinv
    induction γs with
    | nil => simp at hγ
    | cons δ γs ih =>
        rw [List.map_cons, List.foldr_cons, Finset.mem_union]
        rcases List.mem_cons.1 hγ with rfl | hγ
        · exact Or.inl hport
        · exact Or.inr (ih hγ)
  intro port hport
  rcases (mem_taken.1 hport).2 with hused | hlisten
  · obtain ⟨i, hi⟩ := (hinv.used port).1 hused
    obtain ⟨γ, hγ, hγi⟩ := hinv.accounted i (List.ne_nil_of_mem hi)
    rw [(hinv.known γ hγ i hγi).2] at hi
    exact hmem hγ (by simp [Token.ports, hi])
  · rw [hinv.listeners] at hlisten
    obtain ⟨listening, hmap, hport⟩ := Multiset.mem_join.1 hlisten
    obtain ⟨γ, hγ, rfl⟩ := Multiset.mem_map.1 hmap
    exact hmem hγ (by simp [Token.ports, hport])

theorem card_foldr_union (sets : List (Finset UInt16)) :
    (sets.foldr (· ∪ ·) ∅).card ≤ (sets.map Finset.card).sum := by
  induction sets with
  | nil => simp
  | cons A sets ih =>
      rw [List.foldr_cons, List.map_cons, List.sum_cons]
      exact (Finset.card_union_le _ _).trans (by omega)

theorem card_taken_le (h : Interleaving anyOutcome (fun _ => runSession) Server.initial tasks s) :
    (taken s).card ≤ 2 * running tasks + ended tasks := by
  obtain ⟨γs, hcarry, hinv⟩ := sessions_accounted h
  have hinv : Accounted s γs := hinv
  calc (taken s).card ≤ ((γs.map Token.ports).foldr (· ∪ ·) ∅).card :=
        Finset.card_le_card (taken_subset hinv)
    _ ≤ ((γs.map Token.ports).map Finset.card).sum := card_foldr_union _
    _ = (γs.map fun γ => γ.ports.card).sum := by rw [List.map_map]; rfl
    _ ≤ 2 * running tasks + ended tasks :=
        card_tokens hcarry fun γ hγ => hinv.small γ (Multiset.mem_coe.2 hγ)

theorem nodup_listeners (h : Interleaving osBinds (fun _ => runSession) Server.initial tasks s) :
    s.listeners.Nodup := by
  have hinit : Server.initial.listeners.Nodup := Multiset.nodup_zero
  refine @Interleaving.invariant _ _ _ _ _ _ osBinds _ _ _ (·.listeners.Nodup) hinit
    (fun β e op s b s' hg he hnodup => ?_) tasks h
  have hbind : e.bind = fun port => decide (port ∉ s.listeners) := hg
  cases op with
  | allocatePort session =>
      simp only [Machine.exec] at he
      split at he
      · obtain ⟨-, rfl⟩ := Prod.mk.inj (Option.some.inj he)
        exact hnodup
      · rename_i port hport
        obtain ⟨-, rfl⟩ := Prod.mk.inj (Option.some.inj he)
        obtain ⟨-, -, hbound⟩ := allocatePort_eq_some hport
        rw [hbind, decide_eq_true_iff] at hbound
        exact Multiset.nodup_cons.2 ⟨hbound, hnodup⟩
  | publicAcceptor port =>
      obtain ⟨-, rfl⟩ := Prod.mk.inj (Option.some.inj he)
      exact hnodup.erase port
  | dropListener port =>
      obtain ⟨-, rfl⟩ := Prod.mk.inj (Option.some.inj he)
      exact hnodup.erase port
  | _ =>
      obtain ⟨-, rfl⟩ := Prod.mk.inj (Option.some.inj he)
      exact hnodup

theorem card_listening (hcarry : List.Forall₂ (fun t γ => Carries accounting Left t.2 γ) tasks γs)
    (hquiet : Quiet tasks) : (γs.map fun γ => γ.listening.card).sum = ended tasks := by
  induction hcarry with
  | nil => rfl
  | @cons t γ tasks γs hγ _ ih =>
      have hrest := ih fun t ht => hquiet t (List.mem_cons_of_mem _ ht)
      obtain ⟨u, t⟩ := t
      simp only [ended, List.map_cons, List.sum_cons, List.countP_cons] at hrest ⊢
      cases t with
      | await op next => exact absurd (hquiet _ List.mem_cons_self) (by simp)
      | ready exit =>
          have hleft : Left exit γ := hγ
          simp only [answer_ready, Option.some.injEq, decide_eq_true_eq, hrest, hleft.2]
          omega

/-- When no session runs, each one that ran to its end still keeps a port. -/
theorem card_taken_quiet (h : Interleaving osBinds (fun _ => runSession) Server.initial tasks s)
    (hquiet : Quiet tasks) : (taken s).card = ended tasks := by
  have hany : Interleaving anyOutcome (fun _ => runSession) Server.initial tasks s :=
    h.mono fun _ _ _ _ _ => trivial
  obtain ⟨γs, hcarry, hinv⟩ := sessions_accounted hany
  have hinv : Accounted s γs := hinv
  have hused : s.used = ∅ := (ports_owned hany).2.2.2.2 hquiet
  have htaken : taken s = s.listeners.toFinset := by
    ext port
    rw [mem_taken, Multiset.mem_toFinset, hused]
    constructor
    · rintro ⟨-, hno | hlisten⟩
      · simp at hno
      · exact hlisten
    · intro hlisten
      refine ⟨?_, Or.inr hlisten⟩
      rw [hinv.listeners] at hlisten
      obtain ⟨listening, hmap, hport⟩ := Multiset.mem_join.1 hlisten
      obtain ⟨γ, hγ, rfl⟩ := Multiset.mem_map.1 hmap
      exact hinv.inPool γ hγ port (by simp [Token.ports, hport])
  have hcard : s.listeners.card = (γs.map fun γ => γ.listening.card).sum := by
    have hjoin := Multiset.card_join (Multiset.map Token.listening γs)
    rw [Multiset.map_map] at hjoin
    rw [hinv.listeners]
    exact hjoin
  rw [htaken, Multiset.toFinset_card_of_nodup (nodup_listeners h), hcard,
    card_listening hcarry hquiet]

end Leak

section Runs

def fairBinds (s : Server) : TunnelEnv := ⟨fun port => decide (port ∉ s.listeners), true, true⟩

/-- Ports are bound as the operating system allows, and the control connection works. -/
def fair : Guard TunnelOp TunnelEnv Server := fun _ e _ s => e = fairBinds s

theorem fair_osBinds : ∀ β e (op : TunnelOp β) s, fair β e op s → osBinds β e op s := by
  rintro β e op s rfl
  rfl

/-- No step of a session waits for another session. -/
theorem exists_run {α : Type} (t : Future TunnelOp α) (s : Server) :
    ∃ a s', Runs fair t s a s' := by
  induction t generalizing s with
  | ready a => exact ⟨a, s, .ready a s⟩
  | await op next ih =>
      have hexec : ∃ c s₁, Machine.exec (fairBinds s) op s = some (c, s₁) := by
        cases op with
        | allocatePort session =>
            simp only [Machine.exec]
            split <;> exact ⟨_, _, rfl⟩
        | _ => exact ⟨_, _, rfl⟩
      obtain ⟨c, s₁, he⟩ := hexec
      obtain ⟨a, s', hrest⟩ := ih c s₁
      exact ⟨a, s', .await rfl he hrest⟩

theorem serve_ends {i : ℕ} {publicPort dataPort : UInt16} {s s' : Server} {exit : Exit}
    (run : Runs fair (serve i publicPort dataPort) s exit s') : exit = .ended := by
  rw [serve, runs_bind] at run
  obtain ⟨written, s₁, hwrite, run⟩ := run
  obtain ⟨e, rfl, he⟩ := (runs_perform _ _ _ _).1 hwrite
  obtain ⟨rfl, -⟩ := Prod.mk.inj (Option.some.inj he)
  obtain ⟨cloned, s₂, hclone, run⟩ := (runs_bind _ _ _ _ _).1 run
  obtain ⟨e, rfl, he⟩ := (runs_perform _ _ _ _).1 hclone
  obtain ⟨rfl, -⟩ := Prod.mk.inj (Option.some.inj he)
  obtain ⟨-, s₃, -, run⟩ := (runs_bind _ _ _ _ _).1 run
  obtain ⟨-, s₄, -, run⟩ := (runs_bind _ _ _ _ _).1 run
  obtain ⟨-, s₅, -, run⟩ := (runs_bind _ _ _ _ _).1 run
  obtain ⟨-, s₆, -, run⟩ := (runs_bind _ _ _ _ _).1 run
  exact ((runs_pure _ _ _ _).1 run).1

theorem runSession_ends {s s' : Server} {exit : Exit} (run : Runs fair runSession s exit s') :
    exit = .ended ∨ exit.rejected := by
  rw [runSession, runs_bind] at run
  obtain ⟨me, s₁, -, run⟩ := run
  obtain ⟨r, s₂, -, run⟩ := (runs_bind _ _ _ _ _).1 run
  cases r with
  | none =>
      obtain ⟨rfl, -⟩ := (runs_pure _ _ _ _).1 run
      exact Or.inr trivial
  | some publicPort =>
      obtain ⟨r, s₃, -, run⟩ := (runs_bind _ _ _ _ _).1 run
      cases r with
      | none =>
          obtain ⟨-, s₄, -, run⟩ := (runs_bind _ _ _ _ _).1 run
          obtain ⟨-, s₅, -, run⟩ := (runs_bind _ _ _ _ _).1 run
          obtain ⟨rfl, -⟩ := (runs_pure _ _ _ _).1 run
          exact Or.inr trivial
      | some dataPort => exact Or.inl (serve_ends run)

theorem exists_ended {n : ℕ} (hn : n + 1 ≤ poolSize) :
    ∃ tasks s, Interleaving osBinds (fun _ : Unit => runSession) Server.initial tasks s ∧
      Quiet tasks ∧ (taken s).card = n := by
  induction n with
  | zero =>
      refine ⟨[], Server.initial, .start, by simp [Quiet], ?_⟩
      simp [taken, Server.initial]
  | succ n ih =>
      obtain ⟨tasks, s, hrun, hquiet, hcard⟩ := ih (by omega)
      obtain ⟨exit, s', hsession⟩ := exists_run runSession s
      have hos := hsession.mono fair_osBinds
      have hroom := (runSession_run (fun _ _ _ _ => id) hos).2 (by omega)
      obtain rfl := (runSession_ends hsession).resolve_right hroom
      have hnext : Interleaving osBinds (fun _ : Unit => runSession) Server.initial
          (((), .ready .ended) :: tasks) s' :=
        @Interleaving.run _ _ _ _ _ _ _ _ _ _ _ [] _ _ _ _ (hrun.arrive ()) hos
      have hquiet' : Quiet (((), (.ready .ended : Future TunnelOp Exit)) :: tasks) := by
        intro t ht
        rcases List.mem_cons.1 ht with rfl | ht
        · rfl
        · exact hquiet t ht
      refine ⟨_, s', hnext, hquiet', ?_⟩
      rw [card_taken_quiet hnext hquiet', ← hcard, card_taken_quiet hrun hquiet, ended, ended,
        List.countP_cons]
      simp

end Runs

/-- A session gets both its ports exactly if two of the pool are neither used nor bound. Running
sessions account for two each, and a session that ran to its end for one, which it keeps for good. -/
theorem session_gets_ports_iff {tasks : List (Unit × Future TunnelOp Exit)} {s : Server}
    (h : Interleaving osBinds (fun _ => runSession) Server.initial tasks s) :
    (∃ exit s', Runs osBinds runSession s exit s') ∧
      (∀ exit s', Runs osBinds runSession s exit s' →
        (¬ exit.rejected ↔ (taken s).card + 2 ≤ poolSize)) ∧
      (∀ e session port s', osBinds _ e (.allocatePort session) s →
        Machine.exec e (TunnelOp.allocatePort session) s = some (port, s') →
        (port.isSome ↔ (taken s).card + 1 ≤ poolSize)) ∧
      (taken s).card ≤ 2 * running tasks + ended tasks ∧
      (Quiet tasks → (taken s).card = ended tasks) := by
  refine ⟨?_, fun exit s' run => runSession_run (fun _ _ _ _ => id) run,
    fun e session port s' hg he => ?_, card_taken_le (h.mono fun _ _ _ _ _ => trivial),
    card_taken_quiet h⟩
  · obtain ⟨exit, s', run⟩ := exists_run runSession s
    exact ⟨exit, s', run.mono fair_osBinds⟩
  · rw [← allocatePort_isSome_iff hg]
    simp only [Machine.exec] at he
    split at he
    · rename_i hport
      obtain ⟨rfl, -⟩ := Prod.mk.inj (Option.some.inj he)
      rw [hport]
    · rename_i port hport
      obtain ⟨rfl, -⟩ := Prod.mk.inj (Option.some.inj he)
      rw [hport]

/-- After a thousand sessions that came and went, nobody runs and the next agent is rejected. -/
theorem pool_wears_out :
    ¬ ∀ (tasks : List (Unit × Future TunnelOp Exit)) (s : Server),
      Interleaving osBinds (fun _ => runSession) Server.initial tasks s →
      2 * running tasks + 2 ≤ poolSize →
      ∀ exit s', Runs osBinds runSession s exit s' → ¬ exit.rejected := by
  intro hclaim
  obtain ⟨tasks, s, hrun, hquiet, hcard⟩ := @exists_ended 1000 (by simp [poolSize])
  have hidle : running tasks = 0 := by
    rw [running, List.countP_eq_zero]
    intro t ht
    simpa [Option.isSome_iff_ne_none] using hquiet t ht
  obtain ⟨exit, s', hsession⟩ := exists_run runSession s
  have hos := hsession.mono fair_osBinds
  have hgets := hclaim tasks s hrun (by simp [hidle, poolSize]) exit s' hos
  have hroom := (runSession_run (fun _ _ _ _ => id) hos).1 hgets
  rw [hcard, poolSize] at hroom
  omega

/-- Two sessions came and went, and one is running. -/
theorem session_gets_ports_iff_leaked :
    ∃ tasks s, Interleaving osBinds (fun _ : Unit => runSession) Server.initial tasks s ∧
      (taken s).card = 3 ∧
      ∀ exit s', Runs osBinds runSession s exit s' →
        (¬ exit.rejected ↔ (taken s).card + 2 ≤ poolSize) := by
  obtain ⟨tasks, s, hrun, -, hcard⟩ := @exists_ended 3 (by simp [poolSize])
  exact ⟨tasks, s, hrun, hcard, (session_gets_ports_iff hrun).2.1⟩

end OpenShard.Tunnel
