import OpenShard.Handlers
import OpenShard.Locking

/-!
# Every request is answered

The one thing a handler may have to wait for is the lock on the configuration. Every handler gives it
back on every path, errors included, so however requests, passes of the churn monitor and recoveries are
interleaved, and whatever fails, each of them comes to its end.
-/

namespace OpenShard.Registrar

open Future HaproxyManager

section Locks

variable {Uuid α : Type}

def lockUse : {β : Type} → RegistrarOp Uuid β → LockUse
  | _, .haproxy .lockConfig => .takes
  | _, .haproxy .unlockConfig => .frees
  | _, _ => .neither

/-- Between taking the lock and giving it back, whatever fails, no other use is made of it. -/
theorem neither_install (content newContent : Text) :
    Uses (fun β op => lockUse (.haproxy op : RegistrarOp Uuid β) = .neither)
      (Config.install content newContent).run := by
  have hwrite : ∀ content, Uses (fun β op => lockUse (.haproxy op : RegistrarOp Uuid β) = .neither)
      (Config.writeConfig content).run :=
    fun content => Uses.bind (uses_perform rfl) fun _ => uses_pure _
  refine (hwrite newContent).runBind fun _ => ?_
  refine Uses.runBind (Uses.map (uses_perform rfl) _) fun r => ?_
  cases r with
  | error e => exact (hwrite content).runBind fun _ => uses_pure _
  | ok u =>
      refine Uses.runBind (Uses.bind (uses_perform rfl) fun _ => uses_pure _) fun _ => ?_
      exact Uses.bind (uses_perform rfl) fun _ => uses_pure _

variable [DecidableEq Uuid] [UuidFormat Uuid] [Rfc3339]

theorem locked_of_neither {β : Type} {e : RegistrarEnv Uuid} {op : RegistrarOp Uuid β}
    {s s' : World Uuid} {c : β} (hop : lockUse op = .neither)
    (he : Machine.exec e op s = some (c, s')) :
    s'.haproxy.configLocked = s.haproxy.configLocked := by
  cases op with
  | own op =>
      have hsame := answered_haproxy e op s
      rw [Option.some.inj he] at hsame
      exact congrArg Haproxy.configLocked hsame
  | db op =>
      obtain ⟨⟨b, db⟩, -, heq⟩ := Option.map_eq_some_iff.1 he
      obtain ⟨-, rfl⟩ := Prod.mk.inj heq
      rfl
  | haproxy op =>
      obtain ⟨⟨b, h⟩, hexec, heq⟩ := Option.map_eq_some_iff.1 he
      obtain ⟨rfl, rfl⟩ := Prod.mk.inj heq
      cases op with
      | lockConfig => cases hop
      | unlockConfig => cases hop
      | command cmd =>
          simp only [Machine.exec] at hexec
          split at hexec
          · obtain ⟨-, rfl⟩ := Prod.mk.inj (Option.some.inj hexec)
            exact command_configLocked _ _
          · obtain ⟨-, rfl⟩ := Prod.mk.inj (Option.some.inj hexec)
            rfl
      | validateConfig | sleep =>
          obtain ⟨-, rfl⟩ := Prod.mk.inj (Option.some.inj hexec)
          rfl
      | readConfig | writeConfig | reloadHaproxy =>
          simp only [Machine.exec] at hexec
          split at hexec
          · obtain ⟨-, rfl⟩ := Prod.mk.inj (Option.some.inj hexec)
            rfl
          · obtain ⟨-, rfl⟩ := Prod.mk.inj (Option.some.inj hexec)
            rfl

def configLock : Lock (RegistrarOp Uuid) (RegistrarEnv Uuid) (World Uuid) where
  use := lockUse
  held s := s.haproxy.configLocked
  takes {β e op s s' c} hop he := by
    cases op with
    | own op => cases hop
    | db op => cases hop
    | haproxy op =>
        cases op with
        | lockConfig =>
            obtain ⟨⟨b, h⟩, hexec, heq⟩ := Option.map_eq_some_iff.1 he
            obtain ⟨rfl, rfl⟩ := Prod.mk.inj heq
            simp only [Machine.exec] at hexec
            split_ifs at hexec with hheld
            obtain ⟨-, rfl⟩ := Prod.mk.inj (Option.some.inj hexec)
            exact ⟨by simpa using hheld, rfl⟩
        | _ => cases hop
  frees {β e op s s' c} hop he := by
    cases op with
    | own op => cases hop
    | db op => cases hop
    | haproxy op =>
        cases op with
        | unlockConfig =>
            obtain ⟨⟨b, h⟩, hexec, heq⟩ := Option.map_eq_some_iff.1 he
            obtain ⟨rfl, rfl⟩ := Prod.mk.inj heq
            obtain ⟨-, rfl⟩ := Prod.mk.inj (Option.some.inj hexec)
            rfl
        | _ => cases hop
  neither := locked_of_neither
  waits {β e op s} he := by
    cases op with
    | own op => cases he
    | db op =>
        have hexec := Option.map_eq_none_iff.1 he
        simp only [Machine.exec] at hexec
        split_ifs at hexec
    | haproxy op =>
        have hexec := Option.map_eq_none_iff.1 he
        cases op with
        | lockConfig =>
            simp only [Machine.exec] at hexec
            split_ifs at hexec with hheld
            exact ⟨rfl, hheld⟩
        | unlockConfig | validateConfig | sleep => cases hexec
        | command | readConfig | writeConfig | reloadHaproxy =>
            simp only [Machine.exec] at hexec
            split at hexec <;> cases hexec

/-- The lock is free before and after, and taken and given back in between. -/
def Bracketed (t : Async Uuid α) : Prop := Brackets configLock false false t

theorem brackets_lifted {t : Future HaproxyOp α}
    (ht : Uses (fun β op => lockUse (.haproxy op : RegistrarOp Uuid β) = .neither) t) (b : Bool) :
    Brackets configLock b b (lifted Uuid t) := by
  refine brackets_of_uses ?_ b
  induction t with
  | ready a => trivial
  | await op next ih => exact ⟨ht.1, fun c => ih c (ht.2 c)⟩

theorem bracketed_withConfigLock {body : Config.Manager α}
    (hbody : Uses (fun β op => lockUse (.haproxy op : RegistrarOp Uuid β) = .neither) body.run) :
    Bracketed (lifted Uuid (Config.withConfigLock body).run) := by
  rw [Config.withConfigLock, ExceptT.run_mk, lifted, hoist_bind]
  refine Brackets.bind (brackets_takes rfl) fun _ => ?_
  rw [hoist_bind]
  refine (brackets_lifted hbody true).bind fun r => ?_
  rw [hoist_bind]
  exact Brackets.bind (brackets_frees rfl) fun _ => brackets_pure false _

theorem bracketed_addService (serviceName domain : Text) :
    Bracketed (lifted Uuid (Config.addService serviceName domain).run) := by
  refine bracketed_withConfigLock ?_
  refine Uses.runBind (Uses.bind (uses_perform rfl) fun _ => uses_pure _) fun content => ?_
  split_ifs
  · exact uses_pure _
  · cases Config.addedContent content serviceName domain with
    | none => exact uses_pure _
    | some newContent => exact neither_install content newContent

theorem closed_bracketed : Closed fun {α} (t : Async Uuid α) => Bracketed t where
  pure a := brackets_pure false a
  bind ht hf := Brackets.bind ht hf
  own op := brackets_of_uses (uses_perform rfl) false
  query op := brackets_of_uses (uses_perform rfl) false
  commands ht := brackets_lifted (ht.mono fun β op hop => by
    cases op with
    | command cmd => rfl
    | _ => exact hop.elim) false
  sleep ms := brackets_lifted (uses_perform rfl) false
  addService := bracketed_addService

/-- However requests, passes and recoveries are interleaved, and whatever is answered, those that have
arrived all come to their end. -/
theorem requests_answered {g : Guard (RegistrarOp Uuid) (RegistrarEnv Uuid) (World Uuid)}
    (hlive : ∀ β (op : RegistrarOp Uuid β) s, ∃ e, g β e op s) {h : Haproxy}
    {tasks : List (Request Uuid × Async Uuid (Reply Uuid))} {s : World Uuid}
    (hrun : Interleaving g handle (World.initial h) tasks s) :
    Inevitable (Advance g) (fun p => Quiet p.1) (tasks, s) :=
  @Interleaving.inevitable _ _ _ _ _ _ configLock _ _ _ _ _ hlive (closed_bracketed.handle) rfl hrun

end Locks

def both : List (Request Node × Async Node (Reply Node)) :=
  [.enroll (joins "volunteer-101" 7001), .registerService blog].map fun q => (q, handle q)

theorem requests_answered_both : Inevitable (Advance fun _ _ _ _ => True) (fun p => Quiet p.1)
    (both, World.initial smallHaproxy) := by
  have hrun : Interleaving (fun _ _ _ _ => True) handle (World.initial smallHaproxy) both
      (World.initial smallHaproxy) :=
    (Interleaving.start.arrive (Request.registerService blog)).arrive
      (Request.enroll (joins "volunteer-101" 7001))
  exact @requests_answered _ _ _ _ _ (fun _ _ s => ⟨calmEnv 0 0 s, trivial⟩) smallHaproxy _ _ hrun

end OpenShard.Registrar
