import OpenShard.Reload

/-!
# Whether the configuration file ends with a line feed

An edit that adds a service ends the file with its backend, which has a line feed behind each of its
lines. An edit that removes one joins the lines it keeps, and the text ends with a line feed only if
the last of them is blank: in a file that was edited by the manager alone, if the removed backend
was the last one in it.
-/

namespace OpenShard

namespace Text

def Terminated (t : Text) : Prop := ['\n'] <:+ t

instance (t : Text) : Decidable (Terminated t) := inferInstanceAs (Decidable (_ <:+ _))

theorem terminated_iff (t : Text) : Terminated t ↔ t.getLast? = some '\n' :=
  List.singleton_suffix_iff_getLast?_eq_some

theorem terminated_append_newline (t : Text) : Terminated (t ++ ['\n']) := List.suffix_append _ _

/-- Joined lines end with a line feed exactly if the last is blank and not the first. -/
theorem terminated_join_iff {ls : List Text} (h : ∀ l ∈ ls, '\n' ∉ l) :
    Terminated (join ls) ↔ ∃ front, front ≠ [] ∧ ls = front ++ [[]] := by
  obtain rfl | ⟨front, l, rfl⟩ := List.eq_nil_or_concat ls
  · simp [Terminated, join]
  rw [List.concat_eq_append] at h ⊢
  have hl : '\n' ∉ l := h l (by simp)
  rw [terminated_iff, join_append_singleton, List.getLast?_append]
  constructor
  · intro hlast
    cases hend : l.getLast? with
    | some c =>
        rw [hend, Option.some_or, Option.some.injEq] at hlast
        subst hlast
        exact absurd (List.mem_of_getLast? hend) hl
    | none =>
        rw [hend, Option.none_or] at hlast
        obtain rfl := List.getLast?_eq_none_iff.1 hend
        refine ⟨front, ?_, rfl⟩
        rintro rfl
        simp at hlast
  · rintro ⟨front', hne, heq⟩
    obtain ⟨rfl, hlast⟩ := List.append_inj' heq rfl
    obtain rfl := List.singleton_inj.1 hlast
    obtain ⟨init, l', rfl⟩ := (List.eq_nil_or_concat front).resolve_left hne
    simp [List.getLast?_append]

end Text

namespace Config

open Text Registry

section Owned

variable (name : Text)

/-- The section that is open behind these lines is the service's backend. -/
def inSection (before : List Text) : Bool :=
  (before.reverse.find? opensSection).any fun l => trim l == backendHeader name

/-- The line that stands behind these lines is the service's: a line of its backend, or one of its
two rules. -/
def Owned (before : List Text) (l : Text) : Prop :=
  inSection name (before ++ [l]) ∨ aclPrefix name <+: l ∨ usePrefix name <+: l

instance (before : List Text) (l : Text) : Decidable (Owned name before l) :=
  inferInstanceAs (Decidable (_ ∨ _ ∨ _))

def AllOwned (before ls : List Text) : Prop :=
  ∀ front l back, ls = front ++ l :: back → Owned name (before ++ front) l

/-- Of the lines that are not the service's the last is blank, and it is not the only one. -/
def BlankStays (ls : List Text) : Prop :=
  ∃ front back, ls = front ++ [] :: back ∧ ¬ AllOwned name [] front ∧ ¬ Owned name front [] ∧
    AllOwned name (front ++ [[]]) back

variable {name}

theorem inSection_snoc (before : List Text) (l : Text) :
    inSection name (before ++ [l]) =
      if opensSection l then trim l == backendHeader name else inSection name before := by
  rw [inSection, List.reverse_append, List.reverse_singleton, List.singleton_append,
    List.find?_cons]
  cases opensSection l <;> rfl

theorem removeLoop_cons (before : List Text) (l : Text) (ls : List Text) :
    removeLoop name (inSection name before) (l :: ls) =
      if Owned name before l then removeLoop name (inSection name (before ++ [l])) ls
      else l :: removeLoop name (inSection name (before ++ [l])) ls := by
  rw [removeLoop, ← inSection_snoc]
  by_cases hsection : inSection name (before ++ [l])
  · simp [Owned, hsection]
  · simp [Owned, hsection]

theorem removeLoop_append (before xs ys : List Text) :
    removeLoop name (inSection name before) (xs ++ ys) =
      removeLoop name (inSection name before) xs ++
        removeLoop name (inSection name (before ++ xs)) ys := by
  induction xs generalizing before with
  | nil => simp [removeLoop]
  | cons l xs ih =>
      have hassoc : before ++ l :: xs = before ++ [l] ++ xs := by simp
      rw [List.cons_append, removeLoop_cons, removeLoop_cons, ih, hassoc]
      split_ifs
      · rfl
      · rfl

theorem allOwned_cons (before : List Text) (l : Text) (ls : List Text) :
    AllOwned name before (l :: ls) ↔ Owned name before l ∧ AllOwned name (before ++ [l]) ls := by
  constructor
  · intro h
    refine ⟨by simpa using h [] l ls rfl, fun front l' back heq => ?_⟩
    have hl' := h (l :: front) l' back (by rw [heq, List.cons_append])
    simpa using hl'
  · rintro ⟨hl, hls⟩ front l' back heq
    cases front with
    | nil =>
        obtain ⟨rfl, rfl⟩ := List.cons.inj heq
        simpa using hl
    | cons l₀ front =>
        obtain ⟨rfl, rfl⟩ := List.cons.inj heq
        have hl' := hls front l' back rfl
        simpa using hl'

theorem removeLoop_eq_nil_iff (before ls : List Text) :
    removeLoop name (inSection name before) ls = [] ↔ AllOwned name before ls := by
  induction ls generalizing before with
  | nil => simp [removeLoop, AllOwned]
  | cons l ls ih =>
      rw [removeLoop_cons, allOwned_cons, ← ih]
      split_ifs with hl
      · simp [hl]
      · simp [hl]

theorem removeLoop_eq_append_cons {before ls kept rest : List Text} {l : Text}
    (h : removeLoop name (inSection name before) ls = kept ++ l :: rest) :
    ∃ front back, ls = front ++ l :: back ∧ ¬ Owned name (before ++ front) l ∧
      removeLoop name (inSection name before) front = kept ∧
      removeLoop name (inSection name (before ++ front ++ [l])) back = rest := by
  induction ls generalizing before kept with
  | nil => simp [removeLoop] at h
  | cons l₀ ls ih =>
      rw [removeLoop_cons] at h
      split_ifs at h with hl₀
      · obtain ⟨front, back, rfl, hl, hkept, hrest⟩ := ih h
        refine ⟨l₀ :: front, back, rfl, by simpa using hl, ?_, by simpa using hrest⟩
        rw [removeLoop_cons, if_pos hl₀, hkept]
      · cases kept with
        | nil =>
            obtain ⟨rfl, hrest⟩ := List.cons.inj h
            exact ⟨[], ls, rfl, by simpa using hl₀, by simp [removeLoop], by simpa using hrest⟩
        | cons k kept =>
            obtain ⟨rfl, htail⟩ := List.cons.inj h
            obtain ⟨front, back, rfl, hl, hkept, hrest⟩ := ih htail
            refine ⟨l₀ :: front, back, rfl, by simpa using hl, ?_, by simpa using hrest⟩
            rw [removeLoop_cons, if_neg hl₀, hkept]

theorem removeLoop_blank_iff (ls : List Text) :
    (∃ front, front ≠ [] ∧ removeLoop name false ls = front ++ [[]]) ↔ BlankStays name ls := by
  have hstart : inSection name [] = false := rfl
  constructor
  · rintro ⟨kept, hne, hloop⟩
    obtain ⟨front, back, rfl, hblank, rfl, hback⟩ := @removeLoop_eq_append_cons name [] _ _ _ _ hloop
    refine ⟨front, back, rfl, ?_, hblank, ?_⟩
    · rwa [← removeLoop_eq_nil_iff]
    · exact (removeLoop_eq_nil_iff _ _).1 hback
  · rintro ⟨front, back, rfl, hfront, hblank, hback⟩
    refine ⟨removeLoop name false front, ?_, ?_⟩
    · rwa [← hstart, Ne, removeLoop_eq_nil_iff]
    · rw [← hstart, removeLoop_append, removeLoop_cons, List.nil_append, if_neg hblank,
        (removeLoop_eq_nil_iff _ _).2 hback]

end Owned

section Ends

variable {content newContent name domain : Text}

theorem terminated_addedContent (h : addedContent content name domain = some newContent) :
    Terminated newContent := by
  rw [addedContent] at h
  split_ifs at h
  obtain rfl := Option.some.inj h
  rw [join_append_singleton, backendBlock]
  simp only [← List.append_assoc]
  exact terminated_append_newline _

theorem removeLoop_sublist (name : Text) (flag : Bool) (ls : List Text) :
    (removeLoop name flag ls).Sublist ls := by
  induction ls generalizing flag with
  | nil => exact List.Sublist.refl []
  | cons l ls ih =>
      rw [removeLoop]
      generalize (if opensSection l then trim l == backendHeader name else flag) = inTarget
      split_ifs
      · exact (ih _).cons l
      · exact (ih _).cons l
      · exact (ih _).cons_cons l

theorem terminated_removedContent_iff (content name : Text) :
    Terminated (removedContent content name) ↔ BlankStays name (lines content) := by
  rw [removedContent, terminated_join_iff, removeLoop_blank_iff]
  exact fun l hl => newline_notMem_lines l ((removeLoop_sublist name false _).mem hl)

/-- What is asked of the file before a call, for the call to leave it with a line feed at its end. -/
def KeepsEnd (file : Text) : Call → Prop
  | .addService _ _ => True
  | .removeService name => serviceExists file name → BlankStays name (lines file)

theorem call_terminated_iff {call : Call} {h h' : Haproxy}
    (run : Runs writesSucceed call.manager.run h (.ok ()) h') (hbefore : Terminated h.file) :
    Terminated h'.file ↔ KeepsEnd h.file call := by
  cases call with
  | addService name domain =>
      refine iff_of_true ?_ trivial
      cases call_run run with
      | nothing hno hfile => rwa [hfile]
      | loaded hdo hedit hfile =>
          rw [hfile]
          exact terminated_addedContent hedit
  | removeService name =>
      cases call_run run with
      | nothing hno hfile =>
          rw [hfile]
          exact iff_of_true hbefore fun hex => absurd hex hno
      | loaded hdo hedit hfile =>
          have hex : serviceExists h.file name := not_not.1 hdo
          rw [hfile, ← Option.some.inj hedit, terminated_removedContent_iff]
          exact ⟨fun hblank _ => hblank, fun hkeeps => hkeeps hex⟩

theorem Attempts.terminated {h h' : Haproxy} {attempts : List Attempt}
    (run : Attempts h attempts h') (hbase : Terminated h.file)
    (hafter : ∀ a ∈ attempts, Terminated a.after.file) : Terminated h'.file := by
  cases run with
  | nil => exact hbase
  | step past run => exact hafter _ List.mem_cons_self

/-- In a run of calls that succeed every text that is left in the file ends with a line feed, exactly
if each removal finds a file in which, the service's lines left out, the last line is blank. -/
theorem file_terminated_iff {h h' : Haproxy} {attempts : List Attempt}
    (run : Attempts h attempts h') (hbase : Terminated h.file)
    (hok : ∀ a ∈ attempts, a.result = .ok ()) :
    (∀ a ∈ attempts, Terminated a.after.file) ↔
      ∀ a ∈ attempts, KeepsEnd a.before.file a.call := by
  induction run with
  | nil => simp
  | step past run ih =>
      simp only [List.forall_mem_cons] at hok ⊢
      obtain ⟨rfl, hok⟩ := hok
      rw [← ih hok]
      constructor
      · rintro ⟨hafter, hpast⟩
        exact ⟨(call_terminated_iff run (past.terminated hbase hpast)).1 hafter, hpast⟩
      · rintro ⟨hkeeps, hpast⟩
        exact ⟨(call_terminated_iff run (past.terminated hbase hpast)).2 hkeeps, hpast⟩

end Ends

section Replay

def Plain : Call → Prop
  | .addService name domain => NoWhitespace name ∧ NoWhitespace domain
  | .removeService name => NoWhitespace name

instance : DecidablePred Plain
  | .addService _ _ => inferInstanceAs (Decidable (_ ∧ _))
  | .removeService name => inferInstanceAs (Decidable (NoWhitespace name))

theorem terminated_shipped : Terminated shipped := ⟨join shippedLines, rfl⟩

def firstRemoved : List (Call × HaproxyEnv) :=
  [(.removeService "svc_blog", .calm), (.addService "svc_wiki" "wiki.org", .calm),
    (.addService "svc_blog" "blog.org", .calm)]

/-- The text that the removal writes ends with the last directive of the other backend. -/
theorem removal_leaves_open_line :
    ¬ ∀ (h h' : Haproxy) (attempts : List Attempt), Terminated h.file → '\r' ∉ h.file →
      (lines h.file).any routing → Attempts h attempts h' →
      (∀ a ∈ attempts, Plain a.call ∧ a.result = .ok ()) →
      ∀ a ∈ attempts, Terminated a.after.file := by
  intro hclaim
  have hrun : (attemptAll firstRemoved shippedHaproxy).any fun r =>
      r.1.all (fun a => decide (Plain a.call ∧ a.result = .ok ())) &&
        r.1.any fun a => !decide (Terminated a.after.file) := by
    decide +kernel
  obtain ⟨⟨attempts, h⟩, hall, hbad⟩ := (Option.any_eq_true _ _).1 hrun
  rw [Bool.and_eq_true, List.all_eq_true, List.any_eq_true] at hbad
  obtain ⟨hok, a, ha, hopen⟩ := hbad
  rw [Bool.not_eq_true', decide_eq_false_iff_not] at hopen
  have hrouted : (lines shippedHaproxy.file).any routing := by
    rw [shippedHaproxy, lines_shipped]
    decide +kernel
  exact hopen (hclaim _ _ _ terminated_shipped shipped_noCarriageReturn hrouted (attempts_of_attemptAll hall)
    (fun b hb => of_decide_eq_true (hok b hb)) a ha)

/-- Of two services the one that was added last is removed, and then the other. -/
theorem last_removed_terminated :
    ∃ attempts h, Attempts shippedHaproxy attempts h ∧ attempts.length = 4 ∧
      ∀ a ∈ attempts, KeepsEnd a.before.file a.call := by
  have hsome : (attemptAll [(.removeService "svc_blog", .calm), (.removeService "svc_wiki", .calm),
      (.addService "svc_wiki" "wiki.org", .calm), (.addService "svc_blog" "blog.org", .calm)]
      shippedHaproxy).any fun r => decide (r.1.length = 4) &&
        r.1.all fun a => decide (a.result = .ok ()) && decide (Terminated a.after.file) := by
    decide +kernel
  obtain ⟨⟨attempts, h⟩, hall, hgood⟩ := (Option.any_eq_true _ _).1 hsome
  rw [Bool.and_eq_true, decide_eq_true_eq, List.all_eq_true] at hgood
  simp only [Bool.and_eq_true, decide_eq_true_eq] at hgood
  have hrun := attempts_of_attemptAll hall
  exact ⟨attempts, h, hrun, hgood.1, (file_terminated_iff hrun terminated_shipped
    fun a ha => (hgood.2 a ha).1).1 fun a ha => (hgood.2 a ha).2⟩

end Replay

end Config

end OpenShard
