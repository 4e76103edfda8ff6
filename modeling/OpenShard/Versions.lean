import OpenShard.Handlers
import OpenShard.Journal

/-!
# The versions of the configuration

Requests that run at the same time edit one file. The lock makes every edit a step from one version of
the file to the next, whatever the interleaving and whichever reads, validations, reloads, commands and
queries fail: the file is always a version that further edits have made out of the one HAProxy runs, and
that one a version that edits have made out of the first. A text that is put back is the version before.
-/

namespace OpenShard.Registrar

open Future Config HaproxyManager

def Edit (content newContent : Text) : Prop :=
  ∃ name domain, ¬ serviceExists content name ∧ addedContent content name domain = some newContent

def Later : Text → Text → Prop := Relation.ReflTransGen Edit

theorem Later.backend {content newContent backend : Text} (h : Later content newContent)
    (hb : hasBackend content backend) : hasBackend newContent backend := by
  induction h with
  | refl => exact hb
  | tail _ hedit ih =>
      obtain ⟨name, domain, -, hadd⟩ := hedit
      exact hasBackend_addedContent hadd ih

theorem Later.line {content newContent l : Text} (h : Later content newContent)
    (hl : l ∈ (Text.lines content).map Text.trim) : l ∈ (Text.lines newContent).map Text.trim := by
  induction h with
  | refl => exact hl
  | tail _ hedit ih =>
      obtain ⟨name, domain, -, hadd⟩ := hedit
      obtain ⟨l', hl', rfl⟩ := List.mem_map.1 ih
      exact trim_mem_addedContent hadd hl'

/-- How far a task is with an edit: it has not got the lock, or got it, has read the file, or written a
text over the one it read. -/
inductive Holder
  | outside
  | entered
  | read (content : Text)
  | written (content : Text)

def Holder.key : Holder → Option Unit
  | .outside => none
  | _ => some ()

/-- At most one task is inside, the one that has the lock, and what it has read or replaced is a version
like the file. -/
structure Serial (c₀ : Text) (h : Haproxy) (γs : Multiset Holder) : Prop where
  lock : Exclusive Holder.key (if h.configLocked then {()} else 0) γs
  loaded : Later c₀ h.loaded
  file : Later h.loaded h.file
  read : ∀ content, .read content ∈ γs → h.file = content
  written : ∀ content, .written content ∈ γs → Later h.loaded content

section Holders

variable {c₀ : Text} {γ γ' : Holder} {γs : Multiset Holder} {h h' : Haproxy}

theorem Serial.alone (hs : Serial c₀ h (γ ::ₘ γs)) (hγ : γ.key = some ()) :
    ∀ δ ∈ γs, δ = .outside := by
  intro δ hδ
  have hne : ∀ u, δ.key = some u → False := fun u hu => hs.lock.ne hγ hδ hu rfl
  cases δ with
  | outside => rfl
  | _ => exact (hne () rfl).elim

theorem Serial.inside (hs : Serial c₀ h (γ ::ₘ γs)) (hγ : γ.key = some ()) (hγ' : γ'.key = some ())
    (hlock : h'.configLocked = h.configLocked) (hloaded : Later c₀ h'.loaded)
    (hfile : Later h'.loaded h'.file) (hread : ∀ content, γ' = .read content → h'.file = content)
    (hwritten : ∀ content, γ' = .written content → Later h'.loaded content) :
    Serial c₀ h' (γ' ::ₘ γs) where
  lock := by
    rw [hlock]
    exact hs.lock.keep (hγ'.trans hγ.symm)
  loaded := hloaded
  file := hfile
  read content hmem := by
    rcases Multiset.mem_cons.1 hmem with heq | hmem
    · exact hread content heq.symm
    · exact absurd (hs.alone hγ _ hmem) (by simp)
  written content hmem := by
    rcases Multiset.mem_cons.1 hmem with heq | hmem
    · exact hwritten content heq.symm
    · exact absurd (hs.alone hγ _ hmem) (by simp)

theorem Serial.same (hs : Serial c₀ h γs) (hlock : h'.configLocked = h.configLocked)
    (hloaded : h'.loaded = h.loaded) (hfile : h'.file = h.file) : Serial c₀ h' γs where
  lock := by
    rw [hlock]
    exact hs.lock
  loaded := hloaded ▸ hs.loaded
  file := by
    rw [hloaded, hfile]
    exact hs.file
  read content hmem := by rw [hfile, hs.read content hmem]
  written content hmem := by
    rw [hloaded]
    exact hs.written content hmem

theorem Serial.arrive (hs : Serial c₀ h γs) : Serial c₀ h (.outside ::ₘ γs) where
  lock := hs.lock.arrive rfl
  loaded := hs.loaded
  file := hs.file
  read content hmem := hs.read content (by simpa using hmem)
  written content hmem := hs.written content (by simpa using hmem)

theorem Serial.enter (hs : Serial c₀ h (.outside ::ₘ γs)) (hfree : h.configLocked = false) :
    Serial c₀ { h with configLocked := true } (.entered ::ₘ γs) where
  lock := by
    have hlock := hs.lock
    rw [hfree] at hlock
    exact hlock.take rfl rfl (by simp)
  loaded := hs.loaded
  file := hs.file
  read content hmem := hs.read content (by simpa using hmem)
  written content hmem := hs.written content (by simpa using hmem)

theorem Serial.exit (hs : Serial c₀ h (γ ::ₘ γs)) (hγ : γ.key = some ()) :
    Serial c₀ { h with configLocked := false } (.outside ::ₘ γs) where
  lock := by
    have hlock := hs.lock
    have hlocked : h.configLocked = true := by
      by_contra hfree
      have hmem := hlock.mem (Multiset.mem_cons_self _ _) hγ
      simp [hfree] at hmem
    rw [hlocked] at hlock
    exact hlock.release hγ rfl
  loaded := hs.loaded
  file := hs.file
  read content hmem := hs.read content
    (Multiset.mem_cons_of_mem ((Multiset.mem_cons.1 hmem).resolve_left (by simp)))
  written content hmem := hs.written content
    (Multiset.mem_cons_of_mem ((Multiset.mem_cons.1 hmem).resolve_left (by simp)))

end Holders

section Tasks

variable {Uuid : Type} [DecidableEq Uuid] [UuidFormat Uuid] [Rfc3339] {α β ε : Type} {c₀ : Text}
  {γ : Holder}

def fileWritable : Guard (RegistrarOp Uuid) (RegistrarEnv Uuid) (World Uuid) :=
  fun _ e _ _ => e.haproxy.writeFault = none

def serial (c₀ : Text) :
    Discipline (RegistrarOp Uuid) (RegistrarEnv Uuid) (World Uuid) Holder where
  guard := fileWritable
  inv s γs := Serial c₀ s.haproxy γs
  safe _ _ _ _ := True

theorem serial_op {op : HaproxyOp α} {Q : α → Holder → Prop}
    (hstep : ∀ e h γs, Serial c₀ h (γ ::ₘ γs) → e.writeFault = none → ∀ a h',
      Machine.exec e op h = some (a, h') → ∃ γ', Serial c₀ h' (γ' ::ₘ γs) ∧ Q a γ') :
    Carries (serial c₀) Q (lifted Uuid (perform op)) γ := by
  refine carries_perform fun e s γs hinv hg => ⟨trivial, fun a s' he => ?_⟩
  obtain ⟨⟨b, h'⟩, hexec, heq⟩ := Option.map_eq_some_iff.1 he
  obtain ⟨rfl, rfl⟩ := Prod.mk.inj heq
  exact hstep e.haproxy s.haproxy γs hinv hg _ _ hexec

theorem serial_lifted_bind {R : β → Holder → Prop} {t : Future HaproxyOp α}
    {f : α → Future HaproxyOp β}
    (h : Carries (serial c₀) (fun a γ => Carries (serial c₀) R (lifted Uuid (f a)) γ)
      (lifted Uuid t) γ) :
    Carries (serial c₀) R (lifted Uuid (t >>= f)) γ := by
  rw [lifted, hoist_bind]
  exact carries_bind h

theorem serial_lifted_runBind {R : Except ε β → Holder → Prop} {t : ExceptT ε (Future HaproxyOp) α}
    {f : α → ExceptT ε (Future HaproxyOp) β}
    (h : Carries (serial c₀) (fun r γ =>
      (∀ a, r = .ok a → Carries (serial c₀) R (lifted Uuid (f a).run) γ) ∧
        ∀ e, r = .error e → R (.error e) γ) (lifted Uuid t.run) γ) :
    Carries (serial c₀) R (lifted Uuid (t >>= f).run) γ := by
  rw [ExceptT.run_bind]
  refine serial_lifted_bind (h.mono fun r γ hr => ?_)
  cases r with
  | ok a => exact hr.1 a rfl
  | error e => exact hr.2 e rfl

theorem serial_lock : Carries (serial c₀) (fun _ γ => γ = .entered)
    (lifted Uuid (perform .lockConfig)) .outside := by
  refine serial_op fun e h γs hs _ a h' he => ⟨.entered, ?_, rfl⟩
  simp only [Machine.exec] at he
  split_ifs at he with hlocked
  obtain ⟨-, rfl⟩ := Prod.mk.inj (Option.some.inj he)
  exact hs.enter (by simpa using hlocked)

theorem serial_unlock (hγ : γ.key = some ()) : Carries (serial c₀) (fun _ γ => γ = .outside)
    (lifted Uuid (perform .unlockConfig)) γ := by
  refine serial_op fun e h γs hs _ a h' he => ⟨.outside, ?_, rfl⟩
  obtain ⟨-, rfl⟩ := Prod.mk.inj (Option.some.inj he)
  exact hs.exit hγ

theorem serial_readConfig : Carries (serial c₀) (fun r γ => γ.key = some () ∧
    ∀ content, r = .ok content → γ = .read content) (lifted Uuid readConfig.run) .entered := by
  refine serial_lifted_bind (serial_op fun e h γs hs _ a h' he => ?_)
  simp only [Machine.exec] at he
  split at he
  · obtain ⟨rfl, rfl⟩ := Prod.mk.inj (Option.some.inj he)
    refine ⟨.read h.file, hs.inside rfl rfl rfl hs.loaded hs.file ?_ (by simp), rfl, ?_⟩
    · rintro content heq
      exact Holder.read.inj heq
    · rintro content heq
      obtain rfl := Except.ok.inj heq
      rfl
  · obtain ⟨rfl, rfl⟩ := Prod.mk.inj (Option.some.inj he)
    exact ⟨.entered, hs, rfl, by simp [Except.mapError]⟩

/-- A text made out of the one that was read is written over it. -/
theorem serial_write {content newContent : Text} (hedit : Edit content newContent) :
    Carries (serial c₀) (fun r γ => r = .ok () ∧ γ = .written content)
      (lifted Uuid (writeConfig newContent).run) (.read content) := by
  refine serial_lifted_bind (serial_op fun e h γs hs hwrite a h' he => ?_)
  simp only [Machine.exec, hwrite] at he
  obtain ⟨rfl, rfl⟩ := Prod.mk.inj (Option.some.inj he)
  have hcontent := hs.read content (Multiset.mem_cons_self _ _)
  have hlater : Later h.loaded content := hcontent ▸ hs.file
  refine ⟨.written content, hs.inside rfl rfl rfl hs.loaded (hlater.tail hedit) (by simp) ?_, rfl,
    rfl⟩
  rintro content' heq
  exact Holder.written.inj heq ▸ hlater

theorem serial_restore {content : Text} :
    Carries (serial c₀) (fun _ γ => γ = .entered) (lifted Uuid (writeConfig content).run)
      (.written content) := by
  refine serial_lifted_bind (serial_op fun e h γs hs hwrite a h' he => ?_)
  simp only [Machine.exec, hwrite] at he
  obtain ⟨rfl, rfl⟩ := Prod.mk.inj (Option.some.inj he)
  refine ⟨.entered, hs.inside rfl rfl rfl hs.loaded ?_ (by simp) (by simp), rfl⟩
  exact hs.written content (Multiset.mem_cons_self _ _)

theorem serial_validate {content : Text} :
    Carries (serial c₀) (fun _ γ => γ = .written content) (lifted Uuid validateConfig.run)
      (.written content) := by
  refine serial_op fun e h γs hs _ a h' he => ⟨.written content, ?_, rfl⟩
  obtain ⟨-, rfl⟩ := Prod.mk.inj (Option.some.inj he)
  exact hs

theorem serial_reload (hγ : γ.key = some ()) : Carries (serial c₀) (fun _ γ => γ = .entered)
    (lifted Uuid reloadHaproxy.run) γ := by
  refine serial_lifted_bind (serial_op fun e h γs hs _ a h' he => ⟨.entered, ?_, rfl⟩)
  simp only [Machine.exec] at he
  split at he
  · obtain ⟨-, rfl⟩ := Prod.mk.inj (Option.some.inj he)
    exact hs.inside hγ rfl rfl (hs.loaded.trans hs.file) .refl (by simp) (by simp)
  · obtain ⟨-, rfl⟩ := Prod.mk.inj (Option.some.inj he)
    exact hs.inside hγ rfl rfl hs.loaded hs.file (by simp) (by simp)

theorem serial_sleep (ms : ℕ) : Carries (serial c₀) (fun r γ' => r = .ok () ∧ γ' = γ)
    (lifted Uuid (Config.sleep ms).run) γ := by
  refine serial_lifted_bind (serial_op fun e h γs hs _ a h' he => ⟨γ, ?_, rfl, rfl⟩)
  obtain ⟨-, rfl⟩ := Prod.mk.inj (Option.some.inj he)
  exact hs

theorem serial_install {content newContent : Text} (hedit : Edit content newContent) :
    Carries (serial c₀) (fun _ γ => γ.key = some ())
      (lifted Uuid (install content newContent).run) (.read content) := by
  refine serial_lifted_runBind ((serial_write hedit).mono fun r γ hr => ?_)
  obtain ⟨rfl, rfl⟩ := hr
  refine ⟨fun u _ => ?_, by simp⟩
  have hvalidated : Carries (serial c₀) (fun r γ => (∃ v, r = .ok v) ∧ γ = .written content)
      (lifted Uuid (Except.ok <$> validateConfig.run : Future HaproxyOp
        (Except ConfigError (Except ConfigError Unit)))) (.written content) := by
    rw [map_eq_pure_bind]
    exact serial_lifted_bind (serial_validate.mono fun v γ hγ => ⟨⟨v, rfl⟩, hγ⟩)
  refine serial_lifted_runBind (hvalidated.mono fun r γ hr => ?_)
  obtain ⟨⟨v, rfl⟩, rfl⟩ := hr
  refine ⟨fun v' heq => ?_, by simp⟩
  obtain rfl := Except.ok.inj heq
  cases v with
  | error e =>
      refine serial_lifted_runBind (serial_restore.mono fun r γ hr => ?_)
      subst hr
      exact ⟨fun _ _ => rfl, fun _ _ => rfl⟩
  | ok u =>
      refine serial_lifted_runBind ((serial_reload rfl).mono fun r γ hr => ?_)
      subst hr
      exact ⟨fun _ _ => (serial_sleep reloadSettleMs).mono fun r γ hr => by rw [hr.2]; rfl,
        fun _ _ => rfl⟩

theorem serial_withConfigLock {body : Manager α}
    (hbody : Carries (serial c₀) (fun _ γ => γ.key = some ()) (lifted Uuid body.run) .entered) :
    Carries (serial c₀) (fun _ γ => γ = .outside) (lifted Uuid (withConfigLock body).run)
      .outside := by
  refine serial_lifted_bind (serial_lock.mono fun u γ hγ => ?_)
  subst hγ
  refine serial_lifted_bind (hbody.mono fun r γ hγ => ?_)
  exact serial_lifted_bind ((serial_unlock hγ).mono fun u γ hγ => hγ)

theorem serial_addService (serviceName domain : Text) :
    Carries (serial c₀) (fun _ γ => γ = .outside) (lifted Uuid (addService serviceName domain).run)
      .outside := by
  refine serial_withConfigLock (serial_lifted_runBind (serial_readConfig.mono fun r γ hr => ?_))
  refine ⟨fun content hok => ?_, fun e _ => hr.1⟩
  obtain rfl := hr.2 content hok
  split_ifs with hex
  · rfl
  · cases hadd : addedContent content serviceName domain with
    | none => rfl
    | some newContent => exact serial_install ⟨serviceName, domain, hex, hadd⟩

def Tame (c₀ : Text) (t : Async Uuid α) : Prop :=
  Carries (serial c₀) (fun _ γ => γ = .outside) t .outside

theorem Tame.bind {t : Async Uuid α} {f : α → Async Uuid β} (ht : Tame c₀ t)
    (hf : ∀ a, Tame c₀ (f a)) : Tame c₀ (t >>= f) := by
  refine carries_bind (ht.mono fun a γ hγ => ?_)
  subst hγ
  exact hf a

theorem tame_own (op : LocalOp Uuid α) : Tame c₀ (own op) := by
  refine carries_perform fun e s γs hinv _ => ⟨trivial, fun a s' he => ⟨.outside, ?_, rfl⟩⟩
  have hsame := answered_haproxy e op s
  rw [Option.some.inj he] at hsame
  exact hinv.same (by rw [hsame]) (by rw [hsame]) (by rw [hsame])

theorem tame_query (op : DbOp Uuid α) : Tame c₀ (query op) := by
  refine carries_perform fun e s γs hinv _ => ⟨trivial, fun a s' he => ⟨.outside, ?_, rfl⟩⟩
  obtain ⟨⟨b, db⟩, -, heq⟩ := Option.map_eq_some_iff.1 he
  obtain ⟨-, rfl⟩ := Prod.mk.inj heq
  exact hinv

theorem tame_commands {t : Future HaproxyOp α} (ht : Uses isCommand t) :
    Tame c₀ (lifted Uuid t) := by
  induction t with
  | ready a => rfl
  | await op next ih =>
      cases op with
      | command cmd =>
          change Carries (serial c₀) _ (lifted Uuid (perform (.command cmd) >>= next)) .outside
          refine serial_lifted_bind
            (serial_op fun e h γs hs _ a h' he => ⟨.outside, ?_, ih a (ht.2 a)⟩)
          simp only [Machine.exec] at he
          split at he
          · obtain ⟨-, rfl⟩ := Prod.mk.inj (Option.some.inj he)
            obtain ⟨servers, hservers⟩ := command_servers h cmd
            rw [hservers]
            exact hs.same rfl rfl rfl
          · obtain ⟨-, rfl⟩ := Prod.mk.inj (Option.some.inj he)
            exact hs
      | _ => exact ht.1.elim

/-- Every handler is outside before and after. -/
theorem closed_tame : Closed fun {α} (t : Async Uuid α) => Tame c₀ t where
  pure _ := carries_pure rfl
  bind := Tame.bind
  own := tame_own
  query := tame_query
  commands ht := tame_commands (ht.mono isCommand_of_commandOn)
  sleep _ := serial_op fun e h γs hs _ a h' he => by
    obtain ⟨-, rfl⟩ := Prod.mk.inj (Option.some.inj he)
    exact ⟨.outside, hs, rfl⟩
  addService := serial_addService

/-- In every interleaving of requests and passes of the churn monitor, whatever fails but a write, and
from any state in which HAProxy runs the file and nobody has the lock, the file is a later version of
the configuration that HAProxy runs, and that one of the first; so no line of the first configuration,
and no backend of any version, is ever lost. -/
theorem configuration_versions {s₀ s : World Uuid} (hfree : s₀.haproxy.configLocked = false)
    (hforce : s₀.haproxy.loaded = s₀.haproxy.file) {tasks : List (Served Uuid × Async Uuid (Reply Uuid))}
    (hrun : Interleaving fileWritable (fun q : Served Uuid => handle q.1) s₀ tasks s) :
    Later s₀.haproxy.file s.haproxy.loaded ∧ Later s.haproxy.loaded s.haproxy.file ∧
      (∀ l ∈ (Text.lines s₀.haproxy.file).map Text.trim,
        l ∈ (Text.lines s.haproxy.loaded).map Text.trim) ∧
      ∀ backend, hasBackend s.haproxy.loaded backend → hasBackend s.haproxy.file backend := by
  have hinit : (serial s₀.haproxy.file).inv s₀ 0 := by
    refine ⟨?_, ?_, ?_, by simp, by simp⟩
    · rw [hfree]
      exact exclusive_zero
    · exact hforce ▸ Relation.ReflTransGen.refl
    · exact hforce ▸ Relation.ReflTransGen.refl
  obtain ⟨γs, -, hinv⟩ := @Interleaving.disciplined _ _ _ _ _ _ _ (serial s₀.haproxy.file)
    (fun q : Served Uuid => handle q.1) s₀ s (fun _ _ γ => γ = .outside) hinit
    (fun q s γs hs => ⟨.outside, hs.arrive, closed_tame.handle q.1⟩) tasks hrun
  exact ⟨hinv.loaded, hinv.file, fun l hl => hinv.loaded.line hl, fun backend hb =>
    hinv.file.backend hb⟩

end Tasks

instance (β : Type) (e : RegistrarEnv Node) (op : RegistrarOp Node β) (s : World Node) :
    Decidable (fileWritable β e op s) :=
  inferInstanceAs (Decidable (e.haproxy.writeFault = none))

/-- Two services wait, and two nodes enroll at the same time; the second one gets the lock after the
first. -/
def twoAtOnce : List (Move (Served Node) (World Node) (RegistrarEnv Node)) :=
  [.arrive ⟨.registerService blog, by simp⟩, .advance 0 9 (calmEnv 0 0),
    .arrive ⟨.registerService wiki, by simp⟩, .advance 0 9 (calmEnv 0 0),
    .arrive (enrolls "volunteer-101" 7001), .arrive (enrolls "volunteer-102" 7002),
    .advance 1 8 (calmEnv 0 0), .advance 0 40 (calmEnv 0 0), .advance 1 40 (calmEnv 0 0),
    .advance 0 40 (calmEnv 0 0)]

theorem configuration_versions_two :
    ∃ tasks s, Interleaving fileWritable (fun q : Served Node => handle q.1)
        (World.initial smallHaproxy) tasks s ∧
      hasBackend s.haproxy.file "svc_blog" ∧ hasBackend s.haproxy.file "svc_wiki" ∧
      Later smallHaproxy.file s.haproxy.loaded ∧ Later s.haproxy.loaded s.haproxy.file := by
  have hrun := (@Interleaving.start _ _ _ _ _ _ fileWritable (fun q : Served Node => handle q.1)
    (World.initial smallHaproxy)).play twoAtOnce
  have hboth : hasBackend (play fileWritable (fun q : Served Node => handle q.1) twoAtOnce []
      (World.initial smallHaproxy)).2.haproxy.file "svc_blog" ∧
      hasBackend (play fileWritable (fun q : Served Node => handle q.1) twoAtOnce []
        (World.initial smallHaproxy)).2.haproxy.file "svc_wiki" := by
    decide +kernel
  have hversions := configuration_versions rfl rfl hrun
  exact ⟨_, _, hrun, hboth.1, hboth.2, hversions.1, hversions.2.1⟩

end OpenShard.Registrar
