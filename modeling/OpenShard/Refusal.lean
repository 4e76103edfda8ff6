import OpenShard.Assignment
import OpenShard.Consistency

/-!
# What a refused registration leaves

A registration that is refused changes neither the volunteers nor the queue nor the database: they are
written only after HAProxy has taken the service. The configuration is another matter. An edit that
validation refuses is taken back, but one that was loaded stays when a command on the new server fails
afterwards, and the next assignment of the service finds it there.
-/

namespace OpenShard

namespace Config

open Future

/-- How the steps of an edit come out; what a write comes to depends on the text. -/
structure EditSteps where
  read : Option Text
  write : Text → Option (Text × Text)
  validation : Except ConfigError Unit
  reload : Except Text Unit

/-- The steps of an edit come out as given, the commands anyhow. -/
def editsAs (p : EditSteps) : Guard HaproxyOp HaproxyEnv Haproxy :=
  fun _ e op _ =>
    match op with
    | .readConfig => e.readFault = p.read
    | .writeConfig content => e.writeFault = p.write content
    | .validateConfig => e.validation = p.validation
    | .reloadHaproxy => e.reload = p.reload
    | _ => True

instance (p : EditSteps) : ∀ (β : Type) (e : HaproxyEnv) (op : HaproxyOp β) (h : Haproxy),
    Decidable (editsAs p β e op h)
  | _, e, .readConfig, _ => inferInstanceAs (Decidable (e.readFault = p.read))
  | _, e, .writeConfig content, _ => inferInstanceAs (Decidable (e.writeFault = p.write content))
  | _, e, .validateConfig, _ => inferInstanceAs (Decidable (e.validation = p.validation))
  | _, e, .reloadHaproxy, _ => inferInstanceAs (Decidable (e.reload = p.reload))
  | _, _, .lockConfig, _ => isTrue trivial
  | _, _, .unlockConfig, _ => isTrue trivial
  | _, _, .sleep _, _ => isTrue trivial
  | _, _, .command _, _ => isTrue trivial

def EditSteps.written (p : EditSteps) (content : Text) : Text :=
  match p.write content with
  | none => content
  | some (_, left) => left

def EditSteps.installed (p : EditSteps) (content newContent : Text) : Text :=
  match p.write newContent, p.validation with
  | none, .error _ => p.written content
  | _, _ => p.written newContent

def EditSteps.fileAfter (p : EditSteps) (file name domain : Text) : Text :=
  if p.read ≠ none ∨ serviceExists file name then file
  else match addedContent file name domain with
    | none => file
    | some newContent => p.installed file newContent

section Edits

variable {p : EditSteps} {h h' : Haproxy}

theorem written_of_writes {content : Text} (hwrite : Writes (editsAs p) h content) :
    p.write content = none := by
  obtain ⟨e, hg, hnone⟩ := hwrite
  exact (show e.writeFault = p.write content from hg).symm.trans hnone

theorem written_of_garbles {content message left : Text}
    (hwrite : Garbles (editsAs p) h content message left) :
    p.write content = some (message, left) := by
  obtain ⟨e, hg, hfault⟩ := hwrite
  exact (show e.writeFault = p.write content from hg).symm.trans hfault

theorem install_editsAs {content newContent : Text} {r : Except ConfigError Unit}
    (run : Runs (editsAs p) (install content newContent).run h r h') :
    h'.file = p.installed content newContent := by
  rw [EditSteps.installed]
  cases install_steps run with
  | unwritten hwrite => simp [EditSteps.written, written_of_garbles hwrite]
  | @garbled message left err e hwrite hg hrefused hrestore =>
      have hvalidation : p.validation = .error err :=
        (show e.validation = p.validation from hg).symm.trans hrefused
      simp [EditSteps.written, written_of_writes hwrite, hvalidation, written_of_garbles hrestore]
  | @restored err e hwrite hg hrefused hrestore =>
      have hvalidation : p.validation = .error err :=
        (show e.validation = p.validation from hg).symm.trans hrefused
      simp [EditSteps.written, written_of_writes hwrite, hvalidation, written_of_writes hrestore]
  | @unloaded reason e e' hwrite hg hvalid hg' hfails =>
      have hvalidation : p.validation = .ok () :=
        (show e.validation = p.validation from hg).symm.trans hvalid
      simp [EditSteps.written, written_of_writes hwrite, hvalidation]
  | @loaded e e' hwrite hg hvalid hg' hreload =>
      have hvalidation : p.validation = .ok () :=
        (show e.validation = p.validation from hg).symm.trans hvalid
      simp [EditSteps.written, written_of_writes hwrite, hvalidation, Haproxy.reload]

/-- What adding a service leaves in the file, whatever it answers. -/
theorem addService_editsAs {name domain : Text} {r : Except ConfigError Unit}
    (run : Runs (editsAs p) (addService name domain).run h r h') :
    h'.file = p.fileAfter h.file name domain := by
  rw [EditSteps.fileAfter]
  obtain ⟨e, hg, ⟨message, hfault, -, rfl⟩ | ⟨hnone, k, hrest, rfl⟩⟩ := locked_steps run
  · have hread : p.read ≠ none := by
      rw [← show e.readFault = p.read from hg, hfault]
      simp
    rw [if_pos (Or.inl hread)]
  have hread : p.read = none := (show e.readFault = p.read from hg).symm.trans hnone
  split_ifs at hrest with hex
  · obtain ⟨-, rfl⟩ := (runs_pure _ _ _ _).1 hrest
    rw [if_pos (Or.inr hex)]
  · rw [if_neg (not_or.2 ⟨not_not.2 hread, hex⟩)]
    cases hadd : addedContent h.file name domain with
    | none =>
        simp only [hadd] at hrest
        obtain ⟨-, rfl⟩ := (runs_pure _ _ _ _).1 hrest
        rfl
    | some newContent =>
        simp only [hadd] at hrest
        have hfile : k.file = p.installed h.file newContent := install_editsAs hrest
        exact hfile

end Edits

end Config

namespace HaproxyManager

open Future Config

theorem assignService_editsAs {p : EditSteps} {h h' : Haproxy} {name domain addr : Text}
    {r : Except Error Unit} (run : Runs (editsAs p) (assignService name domain addr).run h r h') :
    h'.file = p.fileAfter h.file (serviceBackend name) domain := by
  obtain ⟨r₁, h₁, hadd, ⟨-, run⟩ | ⟨-, rfl⟩⟩ := Registrar.assignService_steps run
  · rw [← addService_editsAs hadd]
    exact file_of_commands ((uses_upsertServer _ _ _ _).mono isCommand_of_commandTo) run
  · exact addService_editsAs hadd

end HaproxyManager

namespace Registrar

open HaproxyManager Future Config

section Refused

variable {Uuid : Type} [DecidableEq Uuid] [UuidFormat Uuid] [Rfc3339] {s s' : World Uuid}

/-- The steps of an edit come out as given; commands, queries and the clock are free. -/
def editing (p : EditSteps) : Guard (RegistrarOp Uuid) (RegistrarEnv Uuid) (World Uuid) :=
  fun _ e op s =>
    match op with
    | .haproxy op => editsAs p _ e.haproxy op s.haproxy
    | _ => True

theorem refused_leaves {p : EditSteps} {body : Service} {message : Text}
    (run : Runs (editing p) (registerService body) s (.failed message) s') :
    ∃ h, s' = { s with haproxy := h } ∧
      h.file = p.fileAfter s.haproxy.file (serviceBackend body.name) body.domain := by
  cases registerService_run run with
  | refused hv hfree hh =>
      refine ⟨_, rfl, assignService_editsAs (hh.mono fun β e op k hpart => ?_)⟩
      obtain ⟨e', rfl, hg⟩ := hpart
      exact hg

/-- A refused registration leaves the volunteers, the queue and the database as they were. It leaves
the file as it was if nothing was to be written or validation refuses the text that was; a text that
was loaded stays. -/
theorem refused_registration_keeps {p : EditSteps} {body : Service} {message : Text}
    (run : Runs (editing p) (registerService body) s (.failed message) s') :
    s'.volunteers = s.volunteers ∧ s'.pendingServices = s.pendingServices ∧ s'.db = s.db ∧
    (p.read ≠ none ∨ serviceExists s.haproxy.file (serviceBackend body.name) ∨
        addedContent s.haproxy.file (serviceBackend body.name) body.domain = none →
      s'.haproxy.file = s.haproxy.file) ∧
    ∀ newContent, addedContent s.haproxy.file (serviceBackend body.name) body.domain =
        some newContent →
      (∀ e, p.write newContent = none → p.validation = .error e → p.write s.haproxy.file = none →
        s'.haproxy.file = s.haproxy.file) ∧
      (p.read = none → ¬ serviceExists s.haproxy.file (serviceBackend body.name) →
        (∀ m left, p.write newContent = some (m, left) → s'.haproxy.file = left) ∧
        (p.write newContent = none → p.validation = .ok () → p.reload = .ok () →
          s'.haproxy.file = newContent)) := by
  obtain ⟨h, rfl, hfile⟩ := refused_leaves run
  rw [EditSteps.fileAfter] at hfile
  refine ⟨rfl, rfl, rfl, ?_, fun newContent hadd => ⟨fun e hw hv hback => ?_, fun hread hex => ?_⟩⟩
  · rintro (hread | hex | hnone)
    · rw [if_pos (Or.inl hread)] at hfile
      exact hfile
    · rw [if_pos (Or.inr hex)] at hfile
      exact hfile
    · rw [hnone] at hfile
      split_ifs at hfile
      · exact hfile
      · exact hfile
  · rw [hadd] at hfile
    split_ifs at hfile
    · exact hfile
    · simp only [EditSteps.installed, hw, hv, EditSteps.written, hback] at hfile
      exact hfile
  · rw [hadd, if_neg (not_or.2 ⟨not_not.2 hread, hex⟩)] at hfile
    constructor
    · intro m left hw
      simp only [EditSteps.installed, EditSteps.written, hw] at hfile
      exact hfile
    · intro hw hv _
      simp only [EditSteps.installed, EditSteps.written, hw, hv] at hfile
      exact hfile

end Refused

instance (p : EditSteps) : ∀ (β : Type) (e : RegistrarEnv Node) (op : RegistrarOp Node β)
    (s : World Node), Decidable (editing p β e op s)
  | β, e, .haproxy op, s => inferInstanceAs (Decidable (editsAs p β e.haproxy op s.haproxy))
  | _, _, .own _, _ => isTrue trivial
  | _, _, .db _, _ => isTrue trivial

def goesWell : EditSteps := ⟨none, fun _ => none, .ok (), .ok ()⟩

/-- A volunteer joins, and a service is registered whose steps at HAProxy come out as `e` says. -/
def registersBlog (p : EditSteps) (e : HaproxyEnv) :
    Option (List (Event Node) × World Node × RegisterReply × World Node) :=
  match replay sound (calmEnv 0 0) [.enroll (joins "volunteer-101" 7001)] (.initial smallHaproxy) with
  | none => none
  | some (events, s) =>
    (runBy (editing p) (fun s => { calmEnv 0 0 s with haproxy := e }) (registerService blog) s).map
      fun r => (events, s, r)

theorem registersBlog_runs {p : EditSteps} {e : HaproxyEnv} {events : List (Event Node)}
    {s s' : World Node} {r : RegisterReply} (h : registersBlog p e = some (events, s, r, s')) :
    History sound (World.initial smallHaproxy) events s ∧
      Runs (editing p) (registerService blog) s r s' := by
  rw [registersBlog] at h
  split at h
  · simp at h
  · rename_i hreplay
    obtain ⟨⟨r₁, s₁⟩, hrun, heq⟩ := Option.map_eq_some_iff.1 h
    obtain ⟨rfl, rfl, rfl, rfl⟩ := heq
    exact ⟨history_of_replay sound hreplay, runs_of_runBy _ _ _ _ _ hrun⟩

/-- The new server cannot be set up, and its service stays in the file. -/
theorem refused_registration_changes_file :
    ¬ ∀ (p : EditSteps) (events : List (Event Node)) (s s' : World Node) (body : Service)
      (message : Text), History sound (World.initial smallHaproxy) events s →
      Runs (editing p) (registerService body) s (.failed message) s' →
      s'.volunteers = s.volunteers ∧ s'.pendingServices = s.pendingServices ∧ s'.db = s.db ∧
        s'.haproxy.file = s.haproxy.file := by
  intro hclaim
  have hrun : (registersBlog goesWell
      { HaproxyEnv.calm with socket := some (.error "broken pipe") }).any fun r =>
        (match r.2.2.1 with
          | .failed _ => true
          | .created _ => false) && decide (r.2.2.2.haproxy.file ≠ r.2.1.haproxy.file) := by
    decide +kernel
  obtain ⟨⟨events, s, r, s'⟩, hregisters, hbad⟩ := (Option.any_eq_true _ _).1 hrun
  obtain ⟨hhistory, run⟩ := registersBlog_runs hregisters
  cases r with
  | failed message =>
      obtain ⟨-, -, -, hfile⟩ := hclaim _ _ _ _ _ _ hhistory run
      simp [hfile] at hbad
  | created reply => simp at hbad

/-- Validation refuses the service, and the file is as it was. -/
theorem refused_registration_restores :
    ∃ (s s' : World Node) (message : Text),
      Runs (editing { goesWell with validation := .error (.validationFailed "bad") })
        (registerService blog) s (.failed message) s' ∧
      s'.haproxy.file = s.haproxy.file ∧ s'.pendingServices = s.pendingServices := by
  have hrun : (registersBlog { goesWell with validation := .error (.validationFailed "bad") }
      { HaproxyEnv.calm with validation := .error (.validationFailed "bad") }).any fun r =>
        match r.2.2.1 with
          | .failed _ => (addedContent r.2.1.haproxy.file (serviceBackend blog.name)
              blog.domain).isSome
          | .created _ => false := by
    decide +kernel
  obtain ⟨⟨events, s, r, s'⟩, hregisters, hgood⟩ := (Option.any_eq_true _ _).1 hrun
  obtain ⟨-, run⟩ := registersBlog_runs hregisters
  cases r with
  | failed message =>
      obtain ⟨newContent, hadd⟩ := Option.isSome_iff_exists.1 hgood
      obtain ⟨-, hqueue, -, -, hfile⟩ := refused_registration_keeps run
      exact ⟨s, s', message, run, (hfile newContent hadd).1 _ rfl rfl rfl, hqueue⟩
  | created reply => simp at hgood

end Registrar

end OpenShard
