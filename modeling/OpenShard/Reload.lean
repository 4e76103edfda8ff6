import OpenShard.Registry

/-!
# Reloads that fail

A call that edits the configuration answers `Ok` either because it has reloaded HAProxy or because
the file already is as the call wants it. In the second case nothing is reloaded, so the answer says
that HAProxy runs the file only if it ran it before: a file that an earlier call wrote and could not
load stays unloaded under an `Ok`.
-/

namespace OpenShard.Config

open Text Registry

/-- No write to the file fails; validations, reloads and reads may. -/
def writesSucceed : Guard HaproxyOp HaproxyEnv Haproxy := fun _ e _ _ => e.writeFault = none

instance (β : Type) (e : HaproxyEnv) (op : HaproxyOp β) (h : Haproxy) :
    Decidable (writesSucceed β e op h) := inferInstanceAs (Decidable (e.writeFault = none))

/-- HAProxy runs the file. -/
def InForce (h : Haproxy) : Prop := h.loaded = h.file

instance (h : Haproxy) : Decidable (InForce h) := inferInstanceAs (Decidable (h.loaded = h.file))

def nothingToDo (file : Text) : Call → Prop
  | .addService name _ => serviceExists file name
  | .removeService name => ¬ serviceExists file name

section Steps

variable {g : Guard HaproxyOp HaproxyEnv Haproxy} {h h' : Haproxy}

theorem readConfig_steps {r : Except ConfigError Text} (run : Runs g readConfig.run h r h') :
    h' = h ∧ ∃ e, g _ e .readConfig h ∧ ((e.readFault = none ∧ r = .ok h.file) ∨
      ∃ message, e.readFault = some message ∧ r = .error (.io message)) := by
  obtain ⟨r₁, h₁, hop, hr⟩ := (runs_bind _ _ _ _ _).1 run
  obtain ⟨rfl, rfl⟩ := (runs_pure _ _ _ _).1 hr
  obtain ⟨e, hg, he⟩ := (runs_perform _ _ _ _).1 hop
  simp only [Machine.exec] at he
  split at he
  · rename_i hnone
    obtain ⟨rfl, rfl⟩ := Prod.mk.inj (Option.some.inj he)
    exact ⟨rfl, e, hg, Or.inl ⟨hnone, rfl⟩⟩
  · rename_i message hsome
    obtain ⟨rfl, rfl⟩ := Prod.mk.inj (Option.some.inj he)
    exact ⟨rfl, e, hg, Or.inr ⟨message, hsome, rfl⟩⟩

theorem writeConfig_steps {content : Text} {r : Except ConfigError Unit}
    (run : Runs g (writeConfig content).run h r h') :
    ∃ e, g _ e (.writeConfig content) h ∧
      ((e.writeFault = none ∧ r = .ok () ∧ h' = { h with file := content }) ∨
        ∃ message left, e.writeFault = some (message, left) ∧ r = .error (.io message) ∧
          h' = { h with file := left }) := by
  obtain ⟨r₁, h₁, hop, hr⟩ := (runs_bind _ _ _ _ _).1 run
  obtain ⟨rfl, rfl⟩ := (runs_pure _ _ _ _).1 hr
  obtain ⟨e, hg, he⟩ := (runs_perform _ _ _ _).1 hop
  simp only [Machine.exec] at he
  split at he
  · rename_i hnone
    obtain ⟨rfl, rfl⟩ := Prod.mk.inj (Option.some.inj he)
    exact ⟨e, hg, Or.inl ⟨hnone, rfl, rfl⟩⟩
  · rename_i message left hsome
    obtain ⟨rfl, rfl⟩ := Prod.mk.inj (Option.some.inj he)
    exact ⟨e, hg, Or.inr ⟨message, left, hsome, rfl, rfl⟩⟩

theorem reloadHaproxy_steps {r : Except ConfigError Unit} (run : Runs g reloadHaproxy.run h r h') :
    ∃ e, g _ e .reloadHaproxy h ∧ ((e.reload = .ok () ∧ r = .ok () ∧ h' = h.reload) ∨
      ∃ reason, e.reload = .error reason ∧ r = .error (.reloadFailed reason) ∧ h' = h) := by
  obtain ⟨r₁, h₁, hop, hr⟩ := (runs_bind _ _ _ _ _).1 run
  obtain ⟨rfl, rfl⟩ := (runs_pure _ _ _ _).1 hr
  obtain ⟨e, hg, he⟩ := (runs_perform _ _ _ _).1 hop
  simp only [Machine.exec] at he
  split at he
  · rename_i hok
    obtain ⟨rfl, rfl⟩ := Prod.mk.inj (Option.some.inj he)
    exact ⟨e, hg, Or.inl ⟨hok, rfl, rfl⟩⟩
  · rename_i reason hfails
    obtain ⟨rfl, rfl⟩ := Prod.mk.inj (Option.some.inj he)
    exact ⟨e, hg, Or.inr ⟨reason, hfails, rfl, rfl⟩⟩

def Writes (g : Guard HaproxyOp HaproxyEnv Haproxy) (h : Haproxy) (content : Text) : Prop :=
  ∃ e, g _ e (.writeConfig content) h ∧ e.writeFault = none

def Garbles (g : Guard HaproxyOp HaproxyEnv Haproxy) (h : Haproxy) (content message left : Text) :
    Prop :=
  ∃ e, g _ e (.writeConfig content) h ∧ e.writeFault = some (message, left)

/-- Everything that installing a text can come to, with the answers of the steps that decide it. -/
inductive Installed (g : Guard HaproxyOp HaproxyEnv Haproxy) (h : Haproxy)
    (content newContent : Text) : Except ConfigError Unit → Haproxy → Prop
  | unwritten {message left : Text} (hwrite : Garbles g h newContent message left) :
      Installed g h content newContent (.error (.io message)) { h with file := left }
  | garbled {message left : Text} {err : ConfigError} {e : HaproxyEnv}
      (hwrite : Writes g h newContent) (hg : g _ e .validateConfig { h with file := newContent })
      (hrefused : e.validation = .error err)
      (hrestore : Garbles g { h with file := newContent } content message left) :
      Installed g h content newContent (.error (.io message)) { h with file := left }
  | restored {err : ConfigError} {e : HaproxyEnv} (hwrite : Writes g h newContent)
      (hg : g _ e .validateConfig { h with file := newContent }) (hrefused : e.validation = .error err)
      (hrestore : Writes g { h with file := newContent } content) :
      Installed g h content newContent (.error err) { h with file := content }
  | unloaded {reason : Text} {e e' : HaproxyEnv} (hwrite : Writes g h newContent)
      (hg : g _ e .validateConfig { h with file := newContent }) (hvalid : e.validation = .ok ())
      (hg' : g _ e' .reloadHaproxy { h with file := newContent }) (hfails : e'.reload = .error reason) :
      Installed g h content newContent (.error (.reloadFailed reason)) { h with file := newContent }
  | loaded {e e' : HaproxyEnv} (hwrite : Writes g h newContent)
      (hg : g _ e .validateConfig { h with file := newContent }) (hvalid : e.validation = .ok ())
      (hg' : g _ e' .reloadHaproxy { h with file := newContent }) (hreload : e'.reload = .ok ()) :
      Installed g h content newContent (.ok ()) { h with file := newContent }.reload

theorem install_steps {content newContent : Text} {r : Except ConfigError Unit}
    (run : Runs g (install content newContent).run h r h') :
    Installed g h content newContent r h' := by
  rw [install, runs_run_bind] at run
  rcases run with ⟨u, h₁, hwrite, run⟩ | ⟨err, hwrite, rfl⟩
  swap
  · obtain ⟨e, hg, ⟨-, hr, -⟩ | ⟨message, left, hfault, hr, rfl⟩⟩ := writeConfig_steps hwrite
    · simp at hr
    · obtain rfl := Except.error.inj hr
      exact .unwritten ⟨e, hg, hfault⟩
  obtain ⟨e, hg, ⟨hnone, -, rfl⟩ | ⟨message, left, -, hr, -⟩⟩ := writeConfig_steps hwrite
  swap
  · simp at hr
  have hwrites : Writes g h newContent := ⟨e, hg, hnone⟩
  rw [runs_run_bind] at run
  rcases run with ⟨v, h₂, hvalidate, run⟩ | ⟨err, hvalidate, -⟩
  swap
  · obtain ⟨v, -, hv⟩ := (runs_map _ _ _ _ _).1 hvalidate
    simp at hv
  obtain ⟨v', hrun, hv⟩ := (runs_map _ _ _ _ _).1 hvalidate
  obtain rfl := Except.ok.inj hv
  obtain ⟨e₁, hg₁, he₁⟩ := (runs_perform _ _ _ _).1 hrun
  obtain ⟨hvalidation, rfl⟩ := Prod.mk.inj (Option.some.inj he₁)
  cases v with
  | error err =>
      simp only at run
      rw [runs_run_bind] at run
      rcases run with ⟨u', h₃, hrestore, run⟩ | ⟨err', hrestore, rfl⟩
      · obtain ⟨e₂, hg₂, ⟨hnone₂, -, rfl⟩ | ⟨message, left, -, hr, -⟩⟩ := writeConfig_steps hrestore
        · obtain ⟨rfl, rfl⟩ := (runs_pure _ _ _ _).1 run
          exact .restored hwrites hg₁ hvalidation ⟨e₂, hg₂, hnone₂⟩
        · simp at hr
      · obtain ⟨e₂, hg₂, ⟨-, hr, -⟩ | ⟨message, left, hfault, hr, rfl⟩⟩ := writeConfig_steps hrestore
        · simp at hr
        · obtain rfl := Except.error.inj hr
          exact .garbled hwrites hg₁ hvalidation ⟨e₂, hg₂, hfault⟩
  | ok u' =>
      simp only at run
      rw [runs_run_bind] at run
      rcases run with ⟨u'', h₃, hreload, run⟩ | ⟨err, hreload, rfl⟩
      · obtain ⟨e₂, hg₂, ⟨hok, -, rfl⟩ | ⟨reason, -, hr, -⟩⟩ := reloadHaproxy_steps hreload
        · obtain ⟨a, h₄, hsleep, hret⟩ := (runs_bind _ _ _ _ _).1 run
          obtain ⟨rfl, rfl⟩ := (runs_pure _ _ _ _).1 hret
          obtain ⟨e₃, -, he₃⟩ := (runs_perform _ _ _ _).1 hsleep
          obtain ⟨-, rfl⟩ := Prod.mk.inj (Option.some.inj he₃)
          exact .loaded hwrites hg₁ hvalidation hg₂ hok
        · simp at hr
      · obtain ⟨e₂, hg₂, ⟨-, hr, -⟩ | ⟨reason, hfails, hr, rfl⟩⟩ := reloadHaproxy_steps hreload
        · simp at hr
        · obtain rfl := Except.error.inj hr
          exact .unloaded hwrites hg₁ hvalidation hg₂ hfails

theorem withConfigLock_run {α : Type} {body : Manager α} {r : Except ConfigError α}
    (run : Runs g (withConfigLock body).run h r h') :
    ∃ k, Runs g body.run { h with configLocked := true } r k ∧
      h' = { k with configLocked := false } := by
  rw [withConfigLock, ExceptT.run_mk, runs_bind] at run
  obtain ⟨u, h₁, hlock, run⟩ := run
  obtain ⟨e, -, he⟩ := (runs_perform _ _ _ _).1 hlock
  simp only [Machine.exec] at he
  split_ifs at he
  obtain ⟨-, rfl⟩ := Prod.mk.inj (Option.some.inj he)
  obtain ⟨r₁, k, hbody, run⟩ := (runs_bind _ _ _ _ _).1 run
  obtain ⟨u', h₂, hunlock, hret⟩ := (runs_bind _ _ _ _ _).1 run
  obtain ⟨e', -, he'⟩ := (runs_perform _ _ _ _).1 hunlock
  obtain ⟨-, rfl⟩ := Prod.mk.inj (Option.some.inj he')
  obtain ⟨rfl, rfl⟩ := (runs_pure _ _ _ _).1 hret
  exact ⟨k, hbody, rfl⟩

theorem locked_steps {f : Text → Manager Unit} {r : Except ConfigError Unit}
    (run : Runs g (withConfigLock (readConfig >>= f)).run h r h') :
    ∃ e, g _ e .readConfig { h with configLocked := true } ∧
      ((∃ message, e.readFault = some message ∧ r = .error (.io message) ∧
          h' = { h with configLocked := false }) ∨
        e.readFault = none ∧ ∃ k, Runs g (f h.file).run { h with configLocked := true } r k ∧
          h' = { k with configLocked := false }) := by
  obtain ⟨k, hbody, rfl⟩ := withConfigLock_run run
  rw [runs_run_bind] at hbody
  rcases hbody with ⟨content, k', hread, hrest⟩ | ⟨err, hread, rfl⟩
  · obtain ⟨rfl, e, hg, ⟨hnone, hr⟩ | ⟨message, -, hr⟩⟩ := readConfig_steps hread
    · obtain rfl := Except.ok.inj hr
      exact ⟨e, hg, Or.inr ⟨hnone, k, hrest, rfl⟩⟩
    · simp at hr
  · obtain ⟨rfl, e, hg, ⟨-, hr⟩ | ⟨message, hfault, hr⟩⟩ := readConfig_steps hread
    · simp at hr
    · obtain rfl := Except.error.inj hr
      exact ⟨e, hg, Or.inl ⟨message, hfault, rfl, rfl⟩⟩

end Steps

section Runs

variable {h h' : Haproxy}

/-- Installing a text loads it, or puts the old text back, or leaves the new text unloaded. -/
theorem install_run {content newContent : Text} {r : Except ConfigError Unit}
    (run : Runs writesSucceed (install content newContent).run h r h') :
    (r = .ok () ∧ h' = { h with file := newContent }.reload) ∨
      (∃ e, r = .error e ∧ h' = { h with file := content }) ∨
        ∃ reason, r = .error (.reloadFailed reason) ∧ h' = { h with file := newContent } := by
  have hnever : ∀ {k : Haproxy} {text message left : Text},
      ¬ Garbles writesSucceed k text message left := by
    rintro k text message left ⟨e, hnone, hfault⟩
    simp [show e.writeFault = none from hnone] at hfault
  cases install_steps run with
  | unwritten hwrite => exact absurd hwrite hnever
  | garbled _ _ _ hrestore => exact absurd hrestore hnever
  | restored => exact Or.inr (Or.inl ⟨_, rfl, rfl⟩)
  | unloaded => exact Or.inr (Or.inr ⟨_, rfl, rfl⟩)
  | loaded => exact Or.inl ⟨rfl, rfl⟩

def edited (file : Text) : Call → Option Text
  | .addService name domain => addedContent file name domain
  | .removeService name => some (removedContent file name)

/-- Everything a call can answer, and what it leaves in the file and in the running process. -/
inductive Outcome (call : Call) (h : Haproxy) : Except ConfigError Unit → Haproxy → Prop
  | nothing {h' : Haproxy} (hno : nothingToDo h.file call) (hfile : h'.file = h.file)
      (hloaded : h'.loaded = h.loaded) : Outcome call h (.ok ()) h'
  | kept {e : ConfigError} {h' : Haproxy} (hfile : h'.file = h.file)
      (hloaded : h'.loaded = h.loaded) : Outcome call h (.error e) h'
  | loaded {newContent : Text} {h' : Haproxy} (hdo : ¬ nothingToDo h.file call)
      (hedit : edited h.file call = some newContent) (hfile : h'.file = newContent)
      (hloaded : h'.loaded = newContent) : Outcome call h (.ok ()) h'
  | unloaded {newContent reason : Text} {h' : Haproxy} (hdo : ¬ nothingToDo h.file call)
      (hedit : edited h.file call = some newContent) (hfile : h'.file = newContent)
      (hloaded : h'.loaded = h.loaded) : Outcome call h (.error (.reloadFailed reason)) h'

theorem install_outcome {call : Call} {newContent : Text} {r : Except ConfigError Unit}
    {k : Haproxy} (hdo : ¬ nothingToDo h.file call) (hedit : edited h.file call = some newContent)
    (run : Runs writesSucceed (install h.file newContent).run { h with configLocked := true } r k) :
    Outcome call h r { k with configLocked := false } := by
  rcases install_run run with ⟨rfl, rfl⟩ | ⟨e, rfl, rfl⟩ | ⟨reason, rfl, rfl⟩
  · exact .loaded hdo hedit rfl rfl
  · exact .kept rfl rfl
  · exact .unloaded hdo hedit rfl rfl

theorem locked_run {f : Text → Manager Unit} {r : Except ConfigError Unit}
    (run : Runs writesSucceed (withConfigLock (readConfig >>= f)).run h r h') :
    (∃ e, r = .error e ∧ h'.file = h.file ∧ h'.loaded = h.loaded) ∨
      ∃ k, Runs writesSucceed (f h.file).run { h with configLocked := true } r k ∧
        h' = { k with configLocked := false } := by
  obtain ⟨e, -, ⟨message, -, rfl, rfl⟩ | ⟨-, hrest⟩⟩ := locked_steps run
  · exact Or.inl ⟨_, rfl, rfl, rfl⟩
  · exact Or.inr hrest

theorem call_run {call : Call} {r : Except ConfigError Unit}
    (run : Runs writesSucceed call.manager.run h r h') : Outcome call h r h' := by
  cases call with
  | addService name domain =>
      rcases locked_run run with ⟨e, rfl, hfile, hloaded⟩ | ⟨k, hrest, rfl⟩
      · exact .kept hfile hloaded
      · split_ifs at hrest with hex
        · obtain ⟨rfl, rfl⟩ := (runs_pure _ _ _ _).1 hrest
          exact .nothing hex rfl rfl
        · cases hadd : addedContent h.file name domain with
          | none =>
              simp only [hadd] at hrest
              obtain ⟨rfl, rfl⟩ := (runs_pure _ _ _ _).1 hrest
              exact .kept rfl rfl
          | some newContent =>
              simp only [hadd] at hrest
              exact install_outcome hex hadd hrest
  | removeService name =>
      rcases locked_run run with ⟨e, rfl, hfile, hloaded⟩ | ⟨k, hrest, rfl⟩
      · exact .kept hfile hloaded
      · split_ifs at hrest with hex
        · exact install_outcome (not_not.2 hex) rfl hrest
        · obtain ⟨rfl, rfl⟩ := (runs_pure _ _ _ _).1 hrest
          exact .nothing hex rfl rfl

structure Attempt where
  call : Call
  result : Except ConfigError Unit
  before : Haproxy
  after : Haproxy

/-- Calls one after the other, the latest first, and the state they lead to. -/
inductive Attempts (h : Haproxy) : List Attempt → Haproxy → Prop
  | nil : Attempts h [] h
  | step {attempts : List Attempt} {call : Call} {r : Except ConfigError Unit} {h₁ h₂ : Haproxy}
      (past : Attempts h attempts h₁) (run : Runs writesSucceed call.manager.run h₁ r h₂) :
      Attempts h (⟨call, r, h₁, h₂⟩ :: attempts) h₂

/-- The call answers from a file that HAProxy does not run. -/
def Attempt.cutsShort (a : Attempt) : Prop := nothingToDo a.before.file a.call ∧ ¬ InForce a.before

def Attempt.failsReload (a : Attempt) : Prop := ∃ reason, a.result = .error (.reloadFailed reason)

/-- What the caller wanted holds of the configuration that HAProxy runs. -/
def Attempt.done (a : Attempt) : Prop := nothingToDo a.after.loaded a.call

theorem Outcome.inForce_iff {call : Call} (hout : Outcome call h (.ok ()) h') :
    InForce h' ↔ ¬ (nothingToDo h.file call ∧ ¬ InForce h) := by
  cases hout with
  | nothing hno hfile hloaded =>
      rw [InForce, hfile, hloaded, ← InForce, and_iff_right hno, not_not]
  | loaded hdo hedit hfile hloaded =>
      exact iff_of_true (hloaded.trans hfile.symm) fun hcut => hdo hcut.1

theorem Outcome.inForce {call : Call} {r : Except ConfigError Unit} (hout : Outcome call h r h')
    (hbefore : InForce h) (hreload : ¬ ∃ reason, r = .error (.reloadFailed reason)) :
    InForce h' := by
  cases hout with
  | nothing hno hfile hloaded => rw [InForce, hfile, hloaded, hbefore]
  | kept hfile hloaded => rw [InForce, hfile, hloaded, hbefore]
  | loaded hdo hedit hfile hloaded => exact hloaded.trans hfile.symm
  | @unloaded newContent reason => exact absurd ⟨reason, rfl⟩ hreload

/-- Where the file and the running configuration part, an earlier reload has failed. -/
theorem Attempts.inForce {attempts : List Attempt} (hrun : Attempts h attempts h')
    (hagree : InForce h) (hreloads : ∀ a ∈ attempts, ¬ a.failsReload) : InForce h' := by
  induction hrun with
  | nil => exact hagree
  | step past run ih =>
      have hpast := ih fun a ha => hreloads a (List.mem_cons_of_mem _ ha)
      exact (call_run run).inForce hpast (hreloads _ List.mem_cons_self)

theorem Attempts.inForce_before {attempts : List Attempt} (hrun : Attempts h attempts h')
    (hagree : InForce h) (hreloads : ∀ a ∈ attempts, ¬ a.failsReload) :
    ∀ a ∈ attempts, InForce a.before := by
  induction hrun with
  | nil => simp
  | step past run ih =>
      intro a ha
      have hpast := fun b hb => hreloads b (List.mem_cons_of_mem _ hb)
      rcases List.mem_cons.1 ha with rfl | ha
      · exact past.inForce hagree hpast
      · exact ih hpast a ha

theorem Attempts.inForce_iff {attempts : List Attempt} (hrun : Attempts h attempts h') :
    ∀ a ∈ attempts, a.result = .ok () → (InForce a.after ↔ ¬ a.cutsShort) := by
  induction hrun with
  | nil => simp
  | @step attempts call r h₁ h₂ past run ih =>
      intro a ha hok
      rcases List.mem_cons.1 ha with rfl | ha
      · obtain rfl : r = .ok () := hok
        exact (call_run run).inForce_iff
      · exact ih a ha hok

def Managed (c₀ file : Text) : Prop :=
  ∃ R, lines file = fileLines c₀ R ∧ Valid R ∧ (R.map Prod.fst).Nodup

theorem managed_base (c₀ : Text) : Managed c₀ c₀ := by
  refine ⟨[], ?_, by simp [Valid], by simp⟩
  rw [fileLines]
  simp

theorem Managed.edited {c₀ file newContent : Text} {call : Call} (hb : Base c₀)
    (hfile : Managed c₀ file) (hcall : call.Admissible) (hdo : ¬ nothingToDo file call)
    (hedit : edited file call = some newContent) :
    Managed c₀ newContent ∧ nothingToDo newContent call := by
  obtain ⟨R, hR, hvalid, hnodup⟩ := hfile
  cases call with
  | addService name domain =>
      obtain ⟨hn, hd⟩ := hcall
      obtain ⟨c', hc', hlines⟩ := lines_addedContent hb hvalid hR hn hd
      obtain rfl : c' = newContent := Option.some.inj (hc'.symm.trans hedit)
      have hmem : name ∉ R.map Prod.fst := mt (serviceExists_iff hb hvalid hR hn).2 hdo
      have hvalid' : Valid (R ++ [(name, domain)]) := by
        intro r hr
        rcases List.mem_append.1 hr with hr | hr
        · exact hvalid r hr
        · rw [List.mem_singleton.1 hr]
          exact ⟨hn, hd⟩
      refine ⟨⟨_, hlines, hvalid', ?_⟩, (serviceExists_iff hb hvalid' hlines hn).2 (by simp)⟩
      rw [List.map_append, List.map_singleton]
      exact hnodup.append (List.nodup_singleton name) (by simpa using hmem)
  | removeService name =>
      have hmem : name ∈ R.map Prod.fst := by
        by_contra hno
        exact hdo fun hex => hno ((serviceExists_iff hb hvalid hR hcall).1 hex)
      obtain rfl : removedContent file name = newContent := Option.some.inj hedit
      have hlines := lines_removedContent hb hvalid hR hcall hnodup hmem
      have hvalid' : Valid (remove R name) := hvalid.remove
      refine ⟨⟨_, hlines, hvalid', hnodup.sublist (List.filter_sublist.map _)⟩, ?_⟩
      rw [nothingToDo, serviceExists_iff hb hvalid' hlines hcall]
      simp [remove]

theorem Outcome.managed {c₀ : Text} {call : Call} {r : Except ConfigError Unit} (hb : Base c₀)
    (hout : Outcome call h r h') (hfile : Managed c₀ h.file) (hcall : call.Admissible) :
    Managed c₀ h'.file ∧ (r = .ok () → nothingToDo h'.file call) := by
  cases hout with
  | nothing hno hsame _ => exact ⟨hsame ▸ hfile, fun _ => hsame ▸ hno⟩
  | kept hsame _ => exact ⟨hsame ▸ hfile, by simp⟩
  | loaded hdo hedit hnew _ =>
      have hedited := hfile.edited hb hcall hdo hedit
      exact ⟨hnew ▸ hedited.1, fun _ => hnew ▸ hedited.2⟩
  | unloaded hdo hedit hnew _ => exact ⟨hnew ▸ (hfile.edited hb hcall hdo hedit).1, by simp⟩

theorem Attempts.managed {c₀ : Text} (hb : Base c₀) {attempts : List Attempt}
    (hrun : Attempts h attempts h') (hfile : h.file = c₀)
    (hcalls : ∀ a ∈ attempts, a.call.Admissible) :
    Managed c₀ h'.file ∧ ∀ a ∈ attempts, a.result = .ok () → nothingToDo a.after.file a.call := by
  induction hrun with
  | nil =>
      rw [hfile]
      exact ⟨managed_base c₀, by simp⟩
  | step past run ih =>
      obtain ⟨hmanaged, hpast⟩ := ih fun a ha => hcalls a (List.mem_cons_of_mem _ ha)
      obtain ⟨hnow, hok⟩ := (call_run run).managed hb hmanaged (hcalls _ List.mem_cons_self)
      refine ⟨hnow, fun a ha => ?_⟩
      rcases List.mem_cons.1 ha with rfl | ha
      · exact hok
      · exact hpast a ha

/-- A call of a run that answers `Ok` leaves HAProxy on the file exactly if it does not cut its work
short in a state where HAProxy runs another one, and such a state goes back to a failed reload. Where
HAProxy is on the file, it has the service just added, and not the one just removed. -/
theorem ok_runs_file_iff {h₀ : Haproxy} {attempts : List Attempt} {h : Haproxy}
    (hagree : InForce h₀) (hrun : Attempts h₀ attempts h) :
    (∀ a ∈ attempts, a.result = .ok () → (InForce a.after ↔ ¬ a.cutsShort)) ∧
      ((∃ a ∈ attempts, a.cutsShort) → ∃ a ∈ attempts, a.failsReload) ∧
      (Base h₀.file → (∀ a ∈ attempts, a.call.Admissible) →
        ∀ a ∈ attempts, a.result = .ok () → ¬ a.cutsShort → a.done) := by
  have hiff := hrun.inForce_iff
  refine ⟨hiff, ?_, ?_⟩
  · rintro ⟨a, ha, -, hnot⟩
    by_contra hreloads
    exact hnot (hrun.inForce_before hagree (fun b hb hfails => hreloads ⟨b, hb, hfails⟩) a ha)
  · intro hb hcalls a ha hok hcut
    have hnothing := (hrun.managed hb rfl hcalls).2 a ha hok
    have hforce : a.after.loaded = a.after.file := (hiff a ha hok).2 hcut
    rwa [Attempt.done, hforce]

end Runs

section Replay

/-- Calls made one after the other, the last one first, each with what it meets outside. -/
def attemptAll : List (Call × HaproxyEnv) → Haproxy → Option (List Attempt × Haproxy)
  | [], h => some ([], h)
  | (call, e) :: calls, h =>
    match attemptAll calls h with
    | none => none
    | some (attempts, h₁) =>
      match runBy writesSucceed (fun _ => e) call.manager.run h₁ with
      | none => none
      | some (r, h₂) => some (⟨call, r, h₁, h₂⟩ :: attempts, h₂)

theorem attempts_of_attemptAll {calls : List (Call × HaproxyEnv)} {h h' : Haproxy}
    {attempts : List Attempt} (hall : attemptAll calls h = some (attempts, h')) :
    Attempts h attempts h' := by
  induction calls generalizing attempts h' with
  | nil =>
      simp only [attemptAll, Option.some.injEq, Prod.mk.injEq] at hall
      obtain ⟨rfl, rfl⟩ := hall
      exact .nil
  | cons c calls ih =>
      simp only [attemptAll] at hall
      cases hpast : attemptAll calls h with
      | none => simp [hpast] at hall
      | some past =>
          cases hrun : runBy writesSucceed (fun _ => c.2) c.1.manager.run past.2 with
          | none => simp [hpast, hrun] at hall
          | some res =>
              simp only [hpast, hrun, Option.some.injEq, Prod.mk.injEq] at hall
              obtain ⟨rfl, rfl⟩ := hall
              exact .step (ih hpast) (runs_of_runBy _ _ _ _ _ hrun)

def reloadFails : HaproxyEnv := { HaproxyEnv.calm with reload := .error "haproxy is gone" }

def shippedHaproxy : Haproxy := ⟨shipped, shipped, ∅, 0, false⟩

/-- A service is added, which fails to reload, and added again, which succeeds. -/
def retried : List (Call × HaproxyEnv) :=
  [(.addService "svc_blog" "blog.org", .calm), (.addService "svc_blog" "blog.org", reloadFails)]

/-- The second call answers `Ok` although HAProxy does not have the service. -/
theorem ok_without_file :
    ¬ ∀ (h₀ : Haproxy) (attempts : List Attempt) (h : Haproxy), InForce h₀ →
      Attempts h₀ attempts h → ∀ a ∈ attempts, a.result = .ok () → InForce a.after := by
  intro hclaim
  have hrun : (attemptAll retried shippedHaproxy).any fun r =>
      r.1.any fun a => decide (a.result = .ok ()) && !decide (InForce a.after) := by
    decide +kernel
  obtain ⟨⟨attempts, h⟩, hall, hbad⟩ := (Option.any_eq_true _ _).1 hrun
  obtain ⟨a, ha, hbad⟩ := List.any_eq_true.1 hbad
  simp only [Bool.and_eq_true, decide_eq_true_eq, Bool.not_eq_true', decide_eq_false_iff_not] at hbad
  exact hbad.2 (hclaim shippedHaproxy attempts h rfl (attempts_of_attemptAll hall) a ha hbad.1)

/-- After the same two calls another service is added, and HAProxy is on the file again. -/
theorem ok_runs_file_iff_retried :
    ∃ attempts h, Attempts shippedHaproxy attempts h ∧ attempts.length = 3 ∧
      ∀ a ∈ attempts, a.result = .ok () → (InForce a.after ↔ ¬ a.cutsShort) := by
  have hsome : (attemptAll ((.addService "svc_wiki" "wiki.org", .calm) :: retried)
      shippedHaproxy).any fun r => r.1.length = 3 := by
    decide +kernel
  obtain ⟨⟨attempts, h⟩, hall, hlength⟩ := (Option.any_eq_true _ _).1 hsome
  have hrun := attempts_of_attemptAll hall
  exact ⟨attempts, h, hrun, of_decide_eq_true hlength, (@ok_runs_file_iff shippedHaproxy _ _ rfl hrun).1⟩

end Replay

end OpenShard.Config
