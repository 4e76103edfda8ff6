import OpenShard.HaproxyManager
import OpenShard.Reload

/-!
# What a registration writes into the file

The name and the domain of a registration are put into a language of lines. A text that is written
line by line is read back as those lines exactly if none of them has a line feed in it or a carriage
return at its end, and so much has to be asked of the name, the domain and the old file.
-/

namespace OpenShard

namespace Text

/-- The text has no line feed, and reading it as a line leaves it whole. -/
def OneLine (t : Text) : Prop := '\n' ∉ t ∧ ¬ ['\r'] <:+ t

instance (t : Text) : Decidable (OneLine t) := inferInstanceAs (Decidable (_ ∧ _))

def written (ls : List Text) : Text := ls.flatMap fun l => l ++ ['\n']

@[simp] theorem written_nil : written [] = [] := rfl

theorem written_cons (l : Text) (ls : List Text) : written (l :: ls) = l ++ '\n' :: written ls := by
  simp [written]

theorem written_append (ls ls' : List Text) : written (ls ++ ls') = written ls ++ written ls' :=
  List.flatMap_append

theorem join_append_last (ls : List Text) (l : Text) : join (ls ++ [l]) = written ls ++ l :=
  join_append_singleton ls l

theorem join_newline {ls : List Text} (h : ls ≠ []) : join ls ++ ['\n'] = written ls := by
  obtain rfl | ⟨front, l, rfl⟩ := List.eq_nil_or_concat ls
  · exact absurd rfl h
  · rw [List.concat_eq_append, join_append_last, written_append, written_cons]
    simp

theorem lines_written_cons (l : Text) (ls : List Text) :
    lines (written (l :: ls)) = lines (l ++ ['\n']) ++ lines (written ls) := by
  rw [written_cons, (lines_append_newline l _).1]

theorem length_lines_newline_pos (l : Text) : 0 < (lines (l ++ ['\n'])).length :=
  List.length_pos_of_ne_nil (lines_append_newline l []).2

theorem two_le_length_lines {l : Text} (hl : '\n' ∈ l) : 2 ≤ (lines (l ++ ['\n'])).length := by
  obtain ⟨a, b, rfl⟩ := List.append_of_mem hl
  have hsplit : a ++ '\n' :: b ++ ['\n'] = a ++ '\n' :: (b ++ ['\n']) := by simp
  rw [hsplit, (lines_append_newline a _).1, List.length_append]
  have ha := length_lines_newline_pos a
  have hb := length_lines_newline_pos b
  omega

theorem length_le_length_lines_written (ls : List Text) :
    ls.length ≤ (lines (written ls)).length := by
  induction ls with
  | nil => simp
  | cons l ls ih =>
      have hl := length_lines_newline_pos l
      rw [lines_written_cons, List.length_append, List.length_cons]
      omega

/-- Only line feeds make more lines of the lines that were written. -/
theorem newline_notMem_of_length_eq {ls : List Text} (h : (lines (written ls)).length = ls.length) :
    ∀ l ∈ ls, '\n' ∉ l := by
  induction ls with
  | nil => simp
  | cons l ls ih =>
      have hpos := length_lines_newline_pos l
      have hle := length_le_length_lines_written ls
      rw [lines_written_cons, List.length_append, List.length_cons] at h
      intro l' hl' hmem
      rcases List.mem_cons.1 hl' with rfl | hl'
      · have htwo := two_le_length_lines hmem
        omega
      · exact ih (by omega) l' hl' hmem

theorem lines_newline_of_notMem {l : Text} (hl : '\n' ∉ l) :
    ∃ l', lines (l ++ ['\n']) = [l'] ∧ l'.length ≤ l.length ∧
      (['\r'] <:+ l → l'.length < l.length) ∧ (¬ ['\r'] <:+ l → l' = l) := by
  by_cases hr : ['\r'] <:+ l
  · obtain ⟨front, rfl⟩ := hr
    have hfront : '\n' ∉ front := fun hmem => hl (List.mem_append_left _ hmem)
    refine ⟨front, ?_, by simp, by simp, fun hno => absurd (List.suffix_append _ _) hno⟩
    clear hl
    induction front with
    | nil => simp [lines]
    | cons c front ih =>
        simp only [List.mem_cons, not_or] at hfront
        rw [List.cons_append, List.cons_append, lines_cons_of_not_newline (Ne.symm hfront.1),
          ih hfront.2]
        rintro rfl t' heq
        cases front with
        | nil => simp at heq
        | cons d front =>
            obtain ⟨rfl, -⟩ := List.cons.inj heq
            exact hfront.2 List.mem_cons_self
  · obtain ⟨l', hlines, rfl | rfl⟩ := lines_written hl
    · exact ⟨l', hlines, le_rfl, fun h => absurd h hr, fun _ => rfl⟩
    · exact absurd (List.suffix_append _ _) hr

theorem OneLine.of_append {a t : Text} (h : OneLine (a ++ t)) : OneLine t :=
  ⟨fun hmem => h.1 (List.mem_append_right a hmem),
    fun hr => h.2 (hr.trans (List.suffix_append a t))⟩

theorem OneLine.append {a t : Text} (ha : OneLine a) (ht : OneLine t) : OneLine (a ++ t) := by
  refine ⟨fun hmem => (List.mem_append.1 hmem).elim ha.1 ht.1, fun hr => ?_⟩
  rw [List.singleton_suffix_iff_getLast?_eq_some, List.getLast?_append] at hr
  cases hlast : t.getLast? with
  | none =>
      rw [hlast, Option.none_or] at hr
      exact ha.2 (List.singleton_suffix_iff_getLast?_eq_some.2 hr)
  | some c =>
      rw [hlast, Option.some_or] at hr
      exact ht.2 (List.singleton_suffix_iff_getLast?_eq_some.2 (hlast.trans hr))

theorem lines_newline_of_oneLine {l : Text} (hl : OneLine l) : lines (l ++ ['\n']) = [l] := by
  obtain ⟨l', hlines, -, -, hkept⟩ := lines_newline_of_notMem hl.1
  rw [hlines, hkept hl.2]

theorem lines_written_of_oneLine {ls : List Text} (h : ∀ l ∈ ls, OneLine l) :
    lines (written ls) = ls := by
  induction ls with
  | nil => rfl
  | cons l ls ih =>
      rw [lines_written_cons, lines_newline_of_oneLine (h l (by simp)),
        ih fun l' hl' => h l' (by simp [hl'])]
      rfl

theorem length_flatten_lines_written {ls : List Text} (h : ∀ l ∈ ls, '\n' ∉ l) :
    (lines (written ls)).flatten.length ≤ ls.flatten.length := by
  induction ls with
  | nil => simp
  | cons l ls ih =>
      obtain ⟨l', hlines, hle, -, -⟩ := lines_newline_of_notMem (h l (by simp))
      have ih := ih fun l' hl' => h l' (by simp [hl'])
      rw [lines_written_cons, hlines]
      simp only [List.flatten_append, List.flatten_cons, List.flatten_nil, List.length_append,
        List.append_nil]
      omega

/-- Only carriage returns are lost of lines that have no line feeds. -/
theorem return_not_suffix_of_length_eq {ls : List Text} (h : ∀ l ∈ ls, '\n' ∉ l)
    (hlen : (lines (written ls)).flatten.length = ls.flatten.length) :
    ∀ l ∈ ls, ¬ ['\r'] <:+ l := by
  induction ls with
  | nil => simp
  | cons l ls ih =>
      have htail : ∀ l' ∈ ls, '\n' ∉ l' := fun l' hl' => h l' (by simp [hl'])
      obtain ⟨l', hlines, hle, hlt, -⟩ := lines_newline_of_notMem (h l (by simp))
      have hrest := length_flatten_lines_written htail
      rw [lines_written_cons, hlines] at hlen
      simp only [List.flatten_append, List.flatten_cons, List.flatten_nil, List.length_append,
        List.append_nil] at hlen
      intro l₁ hl₁ hsuffix
      rcases List.mem_cons.1 hl₁ with rfl | hl₁
      · have hshort := hlt hsuffix
        omega
      · exact ih htail (by omega) l₁ hl₁ hsuffix

/-- As many lines as were written, and as many characters in them, only if each was one line. -/
theorem oneLine_of_perm {ls : List Text} (h : (lines (written ls)).Perm ls) : ∀ l ∈ ls, OneLine l := by
  have hnl := newline_notMem_of_length_eq h.length_eq
  have hcr := return_not_suffix_of_length_eq hnl h.flatten.length_eq
  exact fun l hl => ⟨hnl l hl, hcr l hl⟩

end Text

namespace Config

open Text Registry HaproxyManager

/-- The old lines are there in their order, with the rules put in and the block behind them. -/
def Extends (old new rules block : List Text) : Prop :=
  ∃ before after, old = before ++ after ∧ new = before ++ rules ++ after ++ block

def rules (serviceName domain : Text) : List Text := [aclLine serviceName domain, useLine serviceName]

theorem Extends.perm {old new rules block : List Text} (h : Extends old new rules block) :
    new.Perm (old ++ rules ++ block) := by
  obtain ⟨before, after, rfl, rfl⟩ := h
  refine List.Perm.append_right block ?_
  rw [List.append_assoc, List.append_assoc]
  exact List.Perm.append_left before List.perm_append_comm

section Edit

variable {content newContent name domain : Text}

theorem backendBlock_written (name : Text) : backendBlock name = written (blockLines name) := by
  have hdir : join backendDirectives ++ ['\n'] = written backendDirectives :=
    join_newline (by decide)
  rw [blockLines, written_cons, written_cons, ← hdir, backendBlock]
  simp

theorem addedContent_written (h : addedContent content name domain = some newContent) :
    ∃ ls, newContent = written ls ∧ Extends (lines content) ls (rules name domain) (blockLines name) := by
  rw [addedContent] at h
  split_ifs at h
  obtain rfl := Option.some.inj h
  rw [join_append_last, backendBlock_written, ← written_append]
  exact ⟨_, rfl, _, _, List.takeWhile_append_dropWhile.symm, rfl⟩

theorem oneLine_registration_iff :
    (∀ l ∈ rules (serviceBackend name) domain ++ blockLines (serviceBackend name), OneLine l) ↔
      OneLine name ∧ OneLine domain := by
  constructor
  · intro h
    have hacl : OneLine (aclLine (serviceBackend name) domain) := h _ (by simp [rules])
    have huse : OneLine (useLine (serviceBackend name)) := h _ (by simp [rules])
    have hsvc : OneLine (serviceBackend name) := huse.of_append
    exact ⟨hsvc.of_append, hacl.of_append⟩
  · rintro ⟨hn, hd⟩
    have hsvc : OneLine (serviceBackend name) := OneLine.append (by decide) hn
    have hacl : OneLine (aclLine (serviceBackend name) domain) :=
      (((OneLine.append (by decide) hsvc).append (by decide)).append hd)
    have huse : OneLine (useLine (serviceBackend name)) :=
      ((OneLine.append (by decide) hsvc).append (by decide)).append hsvc
    have hheader : OneLine (backendHeader (serviceBackend name)) := OneLine.append (by decide) hsvc
    have hdir : ∀ l ∈ backendDirectives, OneLine l := by decide
    simp only [rules, blockLines, List.mem_append, List.mem_cons, List.not_mem_nil, or_false]
    rintro l ((rfl | rfl) | rfl | rfl | hl)
    · exact hacl
    · exact huse
    · decide
    · exact hheader
    · exact hdir l hl

theorem file_of_edit {r : Except ConfigError Unit} {h h' : Haproxy}
    (run : Runs writesSucceed (addService name domain).run h r h') (hedit : h'.file ≠ h.file) :
    addedContent h.file name domain = some h'.file := by
  cases @call_run h h' (.addService name domain) r run with
  | nothing hno hfile => exact absurd hfile hedit
  | kept hfile => exact absurd hfile hedit
  | loaded hdo hadd hfile => exact hadd.trans (congrArg some hfile.symm)
  | unloaded hdo hadd hfile => exact hadd.trans (congrArg some hfile.symm)

/-- A registration puts in its two rules and its backend and nothing else, exactly if its name and
its domain and every line of the old file are lines that are read back whole. -/
theorem registration_extends_iff {r : Except ConfigError Unit} {h h' : Haproxy}
    (run : Runs writesSucceed (addService (serviceBackend name) domain).run h r h')
    (hedit : h'.file ≠ h.file) :
    Extends (lines h.file) (lines h'.file) (rules (serviceBackend name) domain)
        (blockLines (serviceBackend name)) ↔
      OneLine name ∧ OneLine domain ∧ ∀ l ∈ lines h.file, OneLine l := by
  obtain ⟨ls, hfile, hls⟩ := addedContent_written (file_of_edit run hedit)
  have hmem : (∀ l ∈ ls, OneLine l) ↔
      OneLine name ∧ OneLine domain ∧ ∀ l ∈ lines h.file, OneLine l := by
    rw [← and_assoc, ← @oneLine_registration_iff name domain]
    simp only [hls.perm.mem_iff, List.append_assoc, List.mem_append]
    constructor
    · exact fun hall => ⟨fun l hl => hall l (Or.inr hl), fun l hl => hall l (Or.inl hl)⟩
    · rintro ⟨hnew, hold⟩ l (hl | hl)
      · exact hold l hl
      · exact hnew l hl
  rw [hfile, ← hmem]
  constructor
  · exact fun hext => oneLine_of_perm (hext.perm.trans hls.perm.symm)
  · intro hall
    rwa [lines_written_of_oneLine hall]

end Edit

section Injected

/-- A service whose domain ends its line and goes on with a rule of its own. -/
def injecting : Text := "blog.org
    http-request deny"

/-- The rule gets into the file, and the call succeeds. -/
theorem domain_injects_rule :
    ¬ ∀ (name domain : Text) (r : Except ConfigError Unit) (h h' : Haproxy),
      Runs writesSucceed (addService (serviceBackend name) domain).run h r h' → h'.file ≠ h.file →
      Extends (lines h.file) (lines h'.file) (rules (serviceBackend name) domain)
        (blockLines (serviceBackend name)) := by
  intro hclaim
  have hrun : (runBy writesSucceed (fun _ => HaproxyEnv.calm)
      (addService (serviceBackend "blog") injecting).run shippedHaproxy).any fun r =>
        decide (r.1 = .ok ()) && decide ("    http-request deny".toList ∈ lines r.2.file) &&
          decide ((lines r.2.file).length = (lines shipped).length + 10) := by
    decide +kernel
  obtain ⟨⟨r, h'⟩, hadd, hbad⟩ := (Option.any_eq_true _ _).1 hrun
  simp only [Bool.and_eq_true, decide_eq_true_eq] at hbad
  have hlength := hbad.2
  have hedit : h'.file ≠ shippedHaproxy.file := by
    intro hsame
    have hshipped : shippedHaproxy.file = shipped := rfl
    rw [hsame, hshipped] at hlength
    omega
  have hext := (hclaim _ _ _ _ _ (runs_of_runBy _ _ _ _ _ hadd) hedit).perm.length_eq
  have hold : (lines shippedHaproxy.file).length = (lines shipped).length := rfl
  rw [hlength, List.length_append, List.length_append, hold] at hext
  simp [rules, blockLines, backendDirectives] at hext

/-- A service with a plain name and a plain domain. -/
theorem plain_domain_extends :
    ∃ r h', Runs writesSucceed (addService (serviceBackend "blog") "blog.org").run shippedHaproxy r h' ∧
      Extends (lines shipped) (lines h'.file) (rules "svc_blog" "blog.org") (blockLines "svc_blog") := by
  have hrun : (runBy writesSucceed (fun _ => HaproxyEnv.calm)
      (addService (serviceBackend "blog") "blog.org").run shippedHaproxy).any fun r =>
        decide (r.2.file ≠ shipped) := by
    decide +kernel
  obtain ⟨⟨r, h'⟩, hadd, hedit⟩ := (Option.any_eq_true _ _).1 hrun
  have run := runs_of_runBy _ _ _ _ _ hadd
  have hshipped : ∀ l ∈ lines shipped, OneLine l := by
    rw [lines_shipped]
    intro l hl
    obtain ⟨hnl, hcr⟩ := inline_shipped l hl
    exact ⟨hnl, fun hr => hcr (hr.mem List.mem_cons_self)⟩
  exact ⟨r, h', run, (registration_extends_iff run (of_decide_eq_true hedit)).2
    ⟨by decide, by decide, hshipped⟩⟩

end Injected

end Config

end OpenShard
