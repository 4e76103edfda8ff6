import OpenShard.Reload

/-!
# What a failed edit leaves in the file

An edit that validation refuses is taken back. An edit that is valid but cannot be loaded is not: the
call fails, and the file has the new text.
-/

namespace OpenShard.Config

open Text Registry

/-- Files can be read and written, and validation and the reload come out as given. -/
def comesOut (validation : Except ConfigError Unit) (reload : Except Text Unit) :
    Guard HaproxyOp HaproxyEnv Haproxy :=
  fun _ e _ _ => e.readFault = none ∧ e.writeFault = none ∧ e.validation = validation ∧
    e.reload = reload

instance (validation : Except ConfigError Unit) (reload : Except Text Unit) (β : Type)
    (e : HaproxyEnv) (op : HaproxyOp β) (h : Haproxy) :
    Decidable (comesOut validation reload β e op h) := inferInstanceAs (Decidable (_ ∧ _ ∧ _ ∧ _))

section Outcomes

variable {validation : Except ConfigError Unit} {reload : Except Text Unit} {h h' : Haproxy}

theorem not_garbles_comesOut {k : Haproxy} {text message left : Text} :
    ¬ Garbles (comesOut validation reload) k text message left := by
  rintro ⟨e, hg, hfault⟩
  simp [hg.2.1] at hfault

theorem install_comesOut {content newContent : Text} {r : Except ConfigError Unit}
    (run : Runs (comesOut validation reload) (install content newContent).run h r h') :
    (∃ e, validation = .error e ∧ h'.file = content) ∨
      (validation = .ok () ∧ reload = .ok () ∧ r = .ok ()) ∨
        ∃ reason, validation = .ok () ∧ reload = .error reason ∧
          r = .error (.reloadFailed reason) ∧ h'.file = newContent := by
  cases install_steps run with
  | unwritten hwrite => exact absurd hwrite not_garbles_comesOut
  | garbled _ _ _ hrestore => exact absurd hrestore not_garbles_comesOut
  | restored _ hg hrefused _ => exact Or.inl ⟨_, hg.2.2.1.symm.trans hrefused, rfl⟩
  | unloaded _ hg hvalid hg' hfails =>
      exact Or.inr (Or.inr ⟨_, hg.2.2.1.symm.trans hvalid, hg'.2.2.2.symm.trans hfails, rfl, rfl⟩)
  | loaded _ hg hvalid hg' hreload =>
      exact Or.inr (Or.inl ⟨hg.2.2.1.symm.trans hvalid, hg'.2.2.2.symm.trans hreload, rfl⟩)

theorem locked_comesOut {f : Text → Manager Unit} {r : Except ConfigError Unit}
    (run : Runs (comesOut validation reload) (withConfigLock (readConfig >>= f)).run h r h') :
    ∃ k, Runs (comesOut validation reload) (f h.file).run { h with configLocked := true } r k ∧
      h' = { k with configLocked := false } := by
  obtain ⟨e, hg, ⟨message, hfault, -⟩ | ⟨-, hrest⟩⟩ := locked_steps run
  · simp [hg.1] at hfault
  · exact hrest

/-- The call writes the text and cannot load it. -/
def Stuck (validation : Except ConfigError Unit) (reload : Except Text Unit) (file : Text)
    (call : Call) (newContent : Text) : Prop :=
  ¬ nothingToDo file call ∧ edited file call = some newContent ∧ validation = .ok () ∧
    ∃ reason, reload = .error reason

/-- A call that fails keeps the file, unless it is stuck. -/
theorem call_comesOut {call : Call} {r : Except ConfigError Unit}
    (run : Runs (comesOut validation reload) call.manager.run h r h') :
    ((∀ e, r = .error e → h'.file = h.file) ∧
        ∀ newContent, ¬ Stuck validation reload h.file call newContent) ∨
      ∃ newContent e, Stuck validation reload h.file call newContent ∧ r = .error e ∧
        h'.file = newContent := by
  have hinstall : ∀ {newContent : Text} {k : Haproxy}, ¬ nothingToDo h.file call →
      edited h.file call = some newContent →
      Runs (comesOut validation reload) (install h.file newContent).run
        { h with configLocked := true } r k →
      ((∀ e, r = .error e → k.file = h.file) ∧
          ∀ newContent, ¬ Stuck validation reload h.file call newContent) ∨
        ∃ newContent e, Stuck validation reload h.file call newContent ∧ r = .error e ∧
          k.file = newContent := by
    intro newContent k hdo hedit hrest
    rcases install_comesOut hrest with ⟨e, rfl, hfile⟩ | ⟨rfl, rfl, rfl⟩ | ⟨reason, rfl, rfl, rfl, hfile⟩
    · exact Or.inl ⟨fun _ _ => hfile, fun _ hstuck => by simp [Stuck] at hstuck⟩
    · exact Or.inl ⟨fun _ hr => by simp at hr, fun _ hstuck => by simp [Stuck] at hstuck⟩
    · exact Or.inr ⟨newContent, _, ⟨hdo, hedit, rfl, reason, rfl⟩, rfl, hfile⟩
  cases call with
  | addService name domain =>
      obtain ⟨k, hrest, rfl⟩ := locked_comesOut run
      split_ifs at hrest with hex
      · obtain ⟨rfl, rfl⟩ := (runs_pure _ _ _ _).1 hrest
        exact Or.inl ⟨fun _ _ => rfl, fun _ hstuck => hstuck.1 hex⟩
      · cases hadd : addedContent h.file name domain with
        | none =>
            simp only [hadd] at hrest
            obtain ⟨rfl, rfl⟩ := (runs_pure _ _ _ _).1 hrest
            refine Or.inl ⟨fun _ _ => rfl, fun newContent hstuck => ?_⟩
            have hedit : addedContent h.file name domain = some newContent := hstuck.2.1
            rw [hadd] at hedit
            simp at hedit
        | some newContent =>
            simp only [hadd] at hrest
            exact @hinstall newContent k hex hadd hrest
  | removeService name =>
      obtain ⟨k, hrest, rfl⟩ := locked_comesOut run
      split_ifs at hrest with hex
      · exact @hinstall (removedContent h.file name) k (not_not.2 hex) rfl hrest
      · obtain ⟨rfl, rfl⟩ := (runs_pure _ _ _ _).1 hrest
        exact Or.inl ⟨fun _ _ => rfl, fun _ hstuck => hstuck.1 hex⟩

/-- A call that fails leaves the file as it was, exactly if it is not stuck with a new text. -/
theorem failed_call_keeps_file_iff {call : Call} {r : Except ConfigError Unit}
    (run : Runs (comesOut validation reload) call.manager.run h r h') :
    (∀ e, r = .error e → h'.file = h.file) ↔
      ∀ newContent, Stuck validation reload h.file call newContent → newContent = h.file := by
  rcases call_comesOut run with ⟨hkept, hnot⟩ | ⟨newContent, e, hstuck, hr, hfile⟩
  · exact iff_of_true hkept fun newContent hstuck => absurd hstuck (hnot newContent)
  · constructor
    · intro hkept other hother
      obtain rfl : newContent = other := Option.some.inj (hstuck.2.1.symm.trans hother.2.1)
      exact hfile.symm.trans (hkept e hr)
    · intro hsame _ _
      rw [hfile, hsame newContent hstuck]

end Outcomes

section Stuck

/-- A service is added to the shipped configuration, and HAProxy does not come up. -/
def addedStuck : Option (Except ConfigError Unit × Haproxy) :=
  runBy (comesOut (.ok ()) (.error "haproxy is gone")) (fun _ => reloadFails)
    (Call.addService "svc_blog" "blog.org").manager.run shippedHaproxy

/-- The call fails, and the file has the service. -/
theorem failed_add_changes_file :
    ¬ ∀ (validation : Except ConfigError Unit) (reload : Except Text Unit) (call : Call)
      (r : Except ConfigError Unit) (h h' : Haproxy),
      Runs (comesOut validation reload) call.manager.run h r h' → ∀ e, r = .error e →
      h'.file = h.file := by
  intro hclaim
  have hrun : addedStuck.any fun r =>
      decide (r.1 = .error (.reloadFailed "haproxy is gone")) && decide (r.2.file ≠ shipped) := by
    decide +kernel
  obtain ⟨⟨r, h'⟩, hadd, hbad⟩ := (Option.any_eq_true _ _).1 hrun
  rw [Bool.and_eq_true, decide_eq_true_eq, decide_eq_true_eq] at hbad
  exact hbad.2 (hclaim _ _ _ _ _ _ (runs_of_runBy _ _ _ _ _ hadd) _ hbad.1)

/-- Validation refuses the service, and the file is as it was. -/
theorem refused_add_keeps_file :
    ∃ r h', Runs (comesOut (.error (.validationFailed "bad")) (.ok ()))
      (Call.addService "svc_blog" "blog.org").manager.run shippedHaproxy r h' ∧
      r = .error (.validationFailed "bad") ∧ h'.file = shipped := by
  have hrun : (runBy (comesOut (.error (.validationFailed "bad")) (.ok ()))
      (fun _ => { HaproxyEnv.calm with validation := .error (.validationFailed "bad") })
      (Call.addService "svc_blog" "blog.org").manager.run shippedHaproxy).any fun r =>
        decide (r.1 = .error (.validationFailed "bad")) := by
    decide +kernel
  obtain ⟨⟨r, h'⟩, hadd, hfails⟩ := (Option.any_eq_true _ _).1 hrun
  have run := runs_of_runBy _ _ _ _ _ hadd
  have hr := of_decide_eq_true hfails
  refine ⟨r, h', run, hr, (failed_call_keeps_file_iff run).2 (fun newContent hstuck => ?_) _ hr⟩
  obtain ⟨-, -, hvalid, -⟩ := hstuck
  simp at hvalid

end Stuck

end OpenShard.Config
