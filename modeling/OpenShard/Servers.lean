import OpenShard.CommandLine
import OpenShard.Handlers
import OpenShard.Interleaving

/-!
# The servers in HAProxy

A volunteer has one server, under its identifier, and a service one, under a fixed name, so that
servers do not accumulate when volunteers come back under other addresses. HAProxy is sent lines of
text; as long as the names in them are plain, and whatever is answered and however requests, passes and
recoveries are interleaved, the registrar changes no other server. A reload may drop them.
-/

namespace OpenShard

open Machine (exec)

section Tasks

open Future

variable {F : Type → Type} {E σ ι ρ : Type} [Machine F E σ] {g : Guard F E σ}
  {spawn : ι → Future F ρ} {s₀ s : σ}

/-- Tasks that are made of certain operations take no other steps. -/
theorem Interleaving.restrict {P : ∀ β : Type, F β → Prop} (hspawn : ∀ i, Uses P (spawn i))
    {tasks : List (ι × Future F ρ)} (h : Interleaving g spawn s₀ tasks s) :
    Interleaving (fun β e op s => g β e op s ∧ P β op) spawn s₀ tasks s ∧
      ∀ t ∈ tasks, Uses P t.2 := by
  induction h with
  | start => exact ⟨.start, fun t ht => by cases ht⟩
  | arrive i _ ih =>
      refine ⟨ih.1.arrive i, fun t ht => ?_⟩
      rcases List.mem_cons.1 ht with rfl | ht
      · exact hspawn i
      · exact ih.2 t ht
  | @advance before after i β op next e s s' c _ hg he ih =>
      have huses : Uses P (.await op next) :=
        ih.2 (i, .await op next) (List.mem_append_right _ List.mem_cons_self)
      refine ⟨ih.1.advance ⟨hg, huses.1⟩ he, fun t ht => ?_⟩
      rcases List.mem_append.1 ht with hbefore | hrest
      · exact ih.2 t (List.mem_append_left _ hbefore)
      · rcases List.mem_cons.1 hrest with rfl | hafter
        · exact huses.2 c
        · exact ih.2 t (List.mem_append_right _ (List.mem_cons_of_mem _ hafter))

end Tasks

namespace Haproxy

variable (h : Haproxy)

theorem lookup_alter {k k' : ServerKey} (hk : k' ≠ k) (f : Server → Server) :
    (h.alter k f).2.servers.lookup k' = h.servers.lookup k' := by
  rw [alter]
  split_ifs
  · cases h.servers.lookup k with
    | none => rfl
    | some sv => exact (lookup_setServer h k k' (f sv)).trans (if_neg hk)
  · rfl

theorem lookup_command {cmd : Command} {k : ServerKey} (hk : k ≠ cmd.key) :
    (h.command cmd).2.servers.lookup k = h.servers.lookup k := by
  cases cmd with
  | addServer backend server addr =>
      rw [command]
      split_ifs
      · cases h.servers.lookup (backend, server) with
        | none => exact (lookup_setServer h _ k _).trans (if_neg hk)
        | some sv => rfl
      · rfl
  | delServer backend server =>
      rw [command]
      split_ifs
      · cases h.servers.lookup (backend, server) with
        | none => rfl
        | some sv =>
            dsimp only
            split_ifs
            · exact AList.lookup_erase_ne hk
            · rfl
      · rfl
  | setWeight backend server weight => exact lookup_alter h hk _
  | setState backend server state => exact lookup_alter h hk _
  | setAddr backend server ip port => exact lookup_alter h hk _

end Haproxy

namespace Registrar

open Future HaproxyManager

section Servers

variable {Uuid : Type} [UuidFormat Uuid]

def ownServersOnly : (β : Type) → RegistrarOp Uuid β → Prop
  | _, .haproxy (.command cmd) => OwnServer Uuid cmd.key
  | _, _ => True

theorem uses_lifted {α : Type} {t : Future HaproxyOp α}
    (ht : Uses (fun β op => ownServersOnly β (.haproxy op : RegistrarOp Uuid β)) t) :
    Uses ownServersOnly (lifted Uuid t) := by
  induction t with
  | ready a => trivial
  | await op next ih => exact ⟨ht.1, fun c => ih c (ht.2 c)⟩

theorem closed_ownServers : Closed fun {α} (t : Async Uuid α) => Uses ownServersOnly t where
  pure a := uses_pure a
  bind ht hf := Uses.bind ht hf
  own op := uses_perform trivial
  query op := uses_perform trivial
  commands ht := uses_lifted (ht.mono fun β op hop => by
    cases op with
    | command cmd => exact hop
    | _ => exact hop.elim)
  sleep ms := uses_lifted (uses_perform trivial)
  addService name domain := uses_lifted ((uses_addService name domain).mono fun β op hop => by
    cases op with
    | command cmd => exact absurd trivial hop
    | _ => trivial)

variable [DecidableEq Uuid] [Rfc3339] {s s' : World Uuid}

/-- A step leaves the other servers as they were, or drops them all with a reload. -/
theorem lookup_step {β : Type} {e : RegistrarEnv Uuid} {op : RegistrarOp Uuid β} {c : β}
    (hop : ownServersOnly β op) (he : exec e op s = some (c, s')) {k : ServerKey}
    (hk : ¬ OwnServer Uuid k) :
    s'.haproxy.servers.lookup k = s.haproxy.servers.lookup k ∨
      s'.haproxy.servers.lookup k = none := by
  cases op with
  | own op =>
      have hsame := answered_haproxy e op s
      rw [Option.some.inj he] at hsame
      exact .inl (congrArg (fun h : Haproxy => h.servers.lookup k) hsame)
  | db op =>
      obtain ⟨⟨b, db⟩, -, heq⟩ := Option.map_eq_some_iff.1 he
      obtain ⟨-, rfl⟩ := Prod.mk.inj heq
      exact .inl rfl
  | haproxy op =>
      obtain ⟨⟨b, h⟩, hexec, heq⟩ := Option.map_eq_some_iff.1 he
      obtain ⟨rfl, rfl⟩ := Prod.mk.inj heq
      cases op with
      | command cmd =>
          simp only [Machine.exec] at hexec
          split at hexec
          · obtain ⟨-, rfl⟩ := Prod.mk.inj (Option.some.inj hexec)
            exact .inl (Haproxy.lookup_command _ fun heq => hk (heq ▸ hop))
          · obtain ⟨-, rfl⟩ := Prod.mk.inj (Option.some.inj hexec)
            exact .inl rfl
      | lockConfig =>
          simp only [Machine.exec] at hexec
          split_ifs at hexec
          obtain ⟨-, rfl⟩ := Prod.mk.inj (Option.some.inj hexec)
          exact .inl rfl
      | unlockConfig | validateConfig | sleep =>
          obtain ⟨-, rfl⟩ := Prod.mk.inj (Option.some.inj hexec)
          exact .inl rfl
      | reloadHaproxy =>
          simp only [Machine.exec] at hexec
          split at hexec
          · obtain ⟨-, rfl⟩ := Prod.mk.inj (Option.some.inj hexec)
            exact .inr (by simp [Haproxy.reload])
          · obtain ⟨-, rfl⟩ := Prod.mk.inj (Option.some.inj hexec)
            exact .inl rfl
      | readConfig | writeConfig =>
          simp only [Machine.exec] at hexec
          split at hexec
          · obtain ⟨-, rfl⟩ := Prod.mk.inj (Option.some.inj hexec)
            exact .inl rfl
          · obtain ⟨-, rfl⟩ := Prod.mk.inj (Option.some.inj hexec)
            exact .inl rfl

/-- A HAProxy that is sent lines of text. -/
def execLines : {β : Type} → HaproxyEnv → HaproxyOp β → Haproxy → Option (β × Haproxy)
  | _, e, .command cmd, h =>
    match e.socket with
    | none => some (.ok (h.execute (cmd.line ++ ['\n'])).1, (h.execute (cmd.line ++ ['\n'])).2)
    | some answer => some (answer, h)
  | _, e, op, h => exec e op h

/-- The registrar with that HAProxy. -/
@[reducible] def onLines : Machine (RegistrarOp Uuid) (RegistrarEnv Uuid) (World Uuid) where
  exec
    | e, .haproxy op, s => (execLines e.haproxy op s.haproxy).map fun r =>
      (r.1, { s with haproxy := r.2 })
    | e, op, s => exec e op s

def namesPlain : (β : Type) → RegistrarOp Uuid β → Prop
  | _, .haproxy (.command cmd) => cmd.Plain
  | _, _ => True

def plainNames : Guard (RegistrarOp Uuid) (RegistrarEnv Uuid) (World Uuid) :=
  fun β _ op _ => namesPlain β op

/-- Where names are plain a line does what the command it was made of does. -/
theorem exec_onLines {β : Type} {e : RegistrarEnv Uuid} {op : RegistrarOp Uuid β}
    (hplain : namesPlain β op) (s : World Uuid) : onLines.exec e op s = exec e op s := by
  cases op with
  | own op => rfl
  | db op => rfl
  | haproxy op =>
      cases op with
      | command cmd =>
          have hsame : execLines e.haproxy (.command cmd) s.haproxy =
              exec e.haproxy (HaproxyOp.command cmd) s.haproxy := by
            cases hsocket : e.haproxy.socket <;>
              simp only [execLines, Machine.exec, hsocket, Haproxy.execute_line _ hplain]
          exact congrArg (Option.map _) hsame
      | _ => rfl

theorem Interleaving.ofLines {tasks : List (Request Uuid × Async Uuid (Reply Uuid))} {s₀ s : World Uuid}
    (h : @Interleaving _ _ _ _ _ onLines plainNames handle s₀ tasks s) :
    Interleaving plainNames handle s₀ tasks s := by
  induction h with
  | start => exact .start
  | arrive i _ ih => exact ih.arrive i
  | advance _ hg he ih => exact ih.advance hg ((exec_onLines hg _).symm.trans he)

/-- A server that is not the registrar's is as it was, or gone. -/
def OthersKept (s₀ s : World Uuid) : Prop := ∀ k, ¬ OwnServer Uuid k →
  s.haproxy.servers.lookup k = s₀.haproxy.servers.lookup k ∨ s.haproxy.servers.lookup k = none

end Servers

instance : (β : Type) → (op : RegistrarOp Node β) → Decidable (namesPlain β op)
  | _, .haproxy (.command cmd) => inferInstanceAs (Decidable cmd.Plain)
  | _, .haproxy .lockConfig => .isTrue trivial
  | _, .haproxy .unlockConfig => .isTrue trivial
  | _, .haproxy .readConfig => .isTrue trivial
  | _, .haproxy (.writeConfig _) => .isTrue trivial
  | _, .haproxy .validateConfig => .isTrue trivial
  | _, .haproxy .reloadHaproxy => .isTrue trivial
  | _, .haproxy (.sleep _) => .isTrue trivial
  | _, .own _ => .isTrue trivial
  | _, .db _ => .isTrue trivial

instance (β : Type) (e : RegistrarEnv Node) (op : RegistrarOp Node β) (s : World Node) :
    Decidable (plainNames β e op s) := inferInstanceAs (Decidable (namesPlain β op))

def takesUp : List (Move (Request Node) (World Node) (RegistrarEnv Node)) :=
  [.arrive (.registerService blog), .advance 0 9 (calmEnv 0 0),
    .arrive (.enroll (joins "volunteer-101" 7001)), .advance 0 60 (calmEnv 0 0)]

@[reducible] def nodeLines : Machine (RegistrarOp Node) (RegistrarEnv Node) (World Node) := onLines

end Registrar

end OpenShard
