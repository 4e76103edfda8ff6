import OpenShard.Ending
import OpenShard.Injection

/-!
# Taking an edit back

Adding a service and removing it again gives the old file back, character by character: the blank
line of the removed backend stays behind and stands for the last line feed. The two edits do not look
for the service in the same way. The test whether it is there trims the lines, and the removal wants
its rules indented by four spaces, so a rule that the one finds may be none for the other.
-/

namespace OpenShard

namespace Text

theorem written_lines_newline {t : Text} (h : '\r' ∉ t) :
    written (lines (t ++ ['\n'])) = t ++ ['\n'] := by
  induction t with
  | nil => simp [written]
  | cons c t ih =>
      simp only [List.mem_cons, not_or] at h
      have ih := ih h.2
      by_cases hn : c = '\n'
      · subst hn
        rw [List.cons_append, lines_newline, written_cons, ih]
        rfl
      · rw [List.cons_append, lines_cons hn (Ne.symm h.1)]
        cases hls : lines (t ++ ['\n']) with
        | nil =>
            rw [hls] at ih
            simp at ih
        | cons l ls =>
            rw [hls, written_cons] at ih
            rw [written_cons, List.cons_append, ih]

theorem written_lines {t : Text} (h : '\r' ∉ t) (hend : Terminated t) : written (lines t) = t := by
  obtain ⟨front, rfl⟩ := hend
  exact written_lines_newline fun hmem => h (List.mem_append_left _ hmem)

end Text

namespace Config

open Text Registry

section Undo

variable {content newContent name domain : Text}

/-- Where no header opens the service's section, the loop looks at the prefixes of its rules only. -/
theorem removeLoop_acls {xs : List Text}
    (hheader : ∀ l ∈ xs, opensSection l → trim l ≠ backendHeader name)
    (huse : ∀ l ∈ xs, ¬ usePrefix name <+: l) (ys : List Text) :
    removeLoop name false (xs ++ ys) =
      xs.filter (fun l => ¬ aclPrefix name <+: l) ++ removeLoop name false ys := by
  induction xs with
  | nil => rfl
  | cons l xs ih =>
      have ih := ih (fun l' hl' => hheader l' (by simp [hl'])) fun l' hl' => huse l' (by simp [hl'])
      have hflag : (if opensSection l then trim l == backendHeader name else false) = false := by
        split_ifs with ho
        · exact beq_false_of_ne (hheader l (by simp) ho)
        · rfl
      rw [List.cons_append, removeLoop, hflag]
      simp only [Bool.false_eq_true, if_false, huse l (by simp), or_false, ih]
      by_cases hacl : aclPrefix name <+: l
      · simp [hacl]
      · simp [hacl]

theorem opensSection_of_indent {l : Text} (h : "    ".toList <+: l) : opensSection l = false := by
  obtain ⟨rest, rfl⟩ := h
  rfl

theorem opensSection_aclLine (name domain : Text) : opensSection (aclLine name domain) = false :=
  opensSection_of_indent ⟨_, rfl⟩

theorem opensSection_useLine (name : Text) : opensSection (useLine name) = false :=
  opensSection_of_indent ⟨_, rfl⟩

theorem removeLoop_own_rules (hn : NoWhitespace name) (ys : List Text) :
    removeLoop name false (rules name domain ++ ys) = removeLoop name false ys := by
  have hacl : aclPrefix name <+: aclLine name domain := (aclPrefix_aclLine hn hn domain).2 rfl
  have huse : usePrefix name <+: useLine name := (usePrefix_useLine hn hn).2 rfl
  rw [rules, List.cons_append, List.cons_append, List.nil_append, removeLoop, removeLoop]
  simp [opensSection_aclLine, opensSection_useLine, hacl, huse]

theorem lines_of_added (hreturn : '\r' ∉ content) (hn : NoWhitespace name)
    (hd : NoWhitespace domain) (h : addedContent content name domain = some newContent) :
    ∃ before after, lines content = before ++ after ∧
      lines newContent = before ++ (rules name domain ++ (after ++ blockLines name)) := by
  have hinl := inline_of_mem_lines hreturn
  rw [addedContent] at h
  split_ifs at h
  obtain rfl := Option.some.inj h
  have hsplit := @List.takeWhile_append_dropWhile _ (fun l => !routing l) (lines content)
  refine ⟨_, _, hsplit.symm, ?_⟩
  rw [lines_join_append, lines_backendBlock hn]
  · simp [rules]
  · intro l hl
    simp only [List.mem_append, List.mem_cons, List.not_mem_nil, or_false] at hl
    rcases hl with (hl | rfl | rfl) | hl
    · exact hinl l ((List.takeWhile_sublist _).mem hl)
    · exact inline_aclLine hn hd
    · exact inline_useLine hn
    · exact hinl l ((List.dropWhile_sublist _).mem hl)

/-- What is left of a file to which the service was added: its lines, but those the removal takes
for a rule, and a blank one. -/
theorem removedContent_added (hreturn : '\r' ∉ content) (hn : NoWhitespace name) (hne : name ≠ [])
    (hd : NoWhitespace domain) (huse : ∀ l ∈ lines content, ¬ usePrefix name <+: l)
    (hheader : ∀ l ∈ lines content, opensSection l → trim l ≠ backendHeader name)
    (h : addedContent content name domain = some newContent) :
    removedContent newContent name =
      written ((lines content).filter fun l => ¬ aclPrefix name <+: l) := by
  obtain ⟨before, after, hold, hnew⟩ := lines_of_added hreturn hn hd h
  rw [hold] at huse hheader
  simp only [List.mem_append] at huse hheader
  have hblock : removeLoop name false (blockLines name) = [[]] := by
    have hown := removeLoop_own_block (trim_header hn hne) []
    rwa [List.append_nil] at hown
  rw [removedContent, hnew,
    removeLoop_acls (fun l hl => hheader l (Or.inl hl)) fun l hl => huse l (Or.inl hl),
    removeLoop_own_rules hn,
    removeLoop_acls (fun l hl => hheader l (Or.inr hl)) fun l hl => huse l (Or.inr hl),
    hblock, ← List.append_assoc, join_append_last, List.append_nil, hold, List.filter_append]

theorem serviceExists_added (hreturn : '\r' ∉ content) (hn : NoWhitespace name)
    (hd : NoWhitespace domain) (h : addedContent content name domain = some newContent) :
    serviceExists newContent name := by
  obtain ⟨before, after, -, hnew⟩ := lines_of_added hreturn hn hd h
  refine ⟨aclLine name domain, by rw [hnew]; simp [rules], ?_⟩
  exact (marker_aclLine hn hn domain).2 rfl

/-- Adding a service and removing it gives the file back, exactly if the removal takes none of its
old lines for a rule of the service. -/
theorem remove_undoes_add_iff {h : Haproxy} (hend : Terminated h.file) (hreturn : '\r' ∉ h.file)
    (hrouted : ∃ l ∈ lines h.file, routing l) (hl : h.configLocked = false)
    (hn : NoWhitespace name) (hne : name ≠ []) (hd : NoWhitespace domain)
    (hex : ¬ serviceExists h.file name) (huse : ∀ l ∈ lines h.file, ¬ usePrefix name <+: l)
    (hheader : ∀ l ∈ lines h.file, opensSection l → trim l ≠ backendHeader name) :
    ∃ h₁ h₂, calm (addService name domain).run h = some (.ok (), h₁) ∧
      calm (removeService name).run h₁ = some (.ok (), h₂) ∧
      (h₂.file = h.file ↔ ∀ l ∈ lines h.file, ¬ aclPrefix name <+: l) := by
  obtain ⟨newContent, hadd⟩ : ∃ newContent, addedContent h.file name domain = some newContent := by
    obtain ⟨l, hl, hr⟩ := hrouted
    exact ⟨_, if_pos (List.any_eq_true.2 ⟨l, hl, hr⟩)⟩
  have hfound := serviceExists_added hreturn hn hd hadd
  have hback := removedContent_added hreturn hn hne hd huse hheader hadd
  refine ⟨{ h with file := newContent }.reload,
    { h with file := removedContent newContent name }.reload.reload, ?_, ?_, ?_⟩
  · rw [calm_addService h name domain hl, added, if_neg hex, hadd]
  · rw [calm_removeService _ name (by exact hl)]
    exact congrArg some (if_pos hfound)
  · have hfile : ({ h with file := removedContent newContent name }.reload.reload).file =
        written ((lines h.file).filter fun l => ¬ aclPrefix name <+: l) := hback
    rw [hfile]
    constructor
    · intro hsame l hl
      have hinl := inline_of_mem_lines hreturn
      have hlines := congrArg lines hsame
      rw [lines_written_of_oneLine] at hlines
      · rw [← hlines] at hl
        simpa using List.of_mem_filter hl
      · intro l' hl'
        obtain ⟨hnl, hcr⟩ := hinl l' (List.filter_sublist.mem hl')
        exact ⟨hnl, fun hr => hcr (hr.mem List.mem_cons_self)⟩
    · intro hno
      rw [List.filter_eq_self.2 fun l hl => by simpa using hno l hl, written_lines hreturn hend]

/-- A frontend with an unfinished rule, nothing but a space behind the service's name. -/
def unfinished : Text := written
  ["frontend web", "    acl host_svc_blog ", "    default_backend volunteers"]

/-- The unfinished rule is no service, and the removal deletes it with the rules that were added. -/
theorem undo_deletes_unfinished :
    ¬ ∀ (h : Haproxy) (name domain : Text), Terminated h.file → '\r' ∉ h.file →
      (∃ l ∈ lines h.file, routing l) → h.configLocked = false → NoWhitespace name → name ≠ [] →
      NoWhitespace domain → ¬ serviceExists h.file name →
      (∀ l ∈ lines h.file, ¬ usePrefix name <+: l) →
      (∀ l ∈ lines h.file, opensSection l → trim l ≠ backendHeader name) →
      ∃ h₁ h₂, calm (addService name domain).run h = some (.ok (), h₁) ∧
        calm (removeService name).run h₁ = some (.ok (), h₂) ∧ h₂.file = h.file := by
  intro hclaim
  obtain ⟨h₁, h₂, hadd, hremove, hsame⟩ := hclaim ⟨unfinished, unfinished, ∅, 0, false⟩ "svc_blog"
    "blog.org" (by decide) (by decide) (by decide) rfl (by decide) (by decide) (by decide)
    (by decide) (by decide) (by decide)
  have hrun : (calm (addService "svc_blog" "blog.org").run
      ⟨unfinished, unfinished, ∅, 0, false⟩).any fun r =>
        (calm (removeService "svc_blog").run r.2).any fun r' =>
          decide ("    acl host_svc_blog ".toList ∉ lines r'.2.file) := by
    decide +kernel
  rw [hadd, Option.any_some, hremove, Option.any_some, hsame] at hrun
  exact absurd hrun (by decide)

/-- The shipped file comes back. -/
theorem shipped_comes_back :
    ∃ h₁ h₂, calm (addService "svc_blog" "blog.org").run shippedHaproxy = some (.ok (), h₁) ∧
      calm (removeService "svc_blog").run h₁ = some (.ok (), h₂) ∧ h₂.file = shipped := by
  have hlines : lines shippedHaproxy.file = shippedLines := lines_shipped
  obtain ⟨h₁, h₂, hadd, hremove, hsame⟩ := @remove_undoes_add_iff "svc_blog" "blog.org"
    shippedHaproxy terminated_shipped shipped_noCarriageReturn (by rw [hlines]; decide +kernel) rfl
    (by decide) (by decide) (by decide) (by rw [serviceExists, hlines]; decide +kernel)
    (by rw [hlines]; decide +kernel) (by rw [hlines]; decide +kernel)
  exact ⟨h₁, h₂, hadd, hremove, hsame.2 (by rw [hlines]; decide +kernel)⟩

end Undo

end Config

end OpenShard
