import OpenShard.Undo

/-!
# Whether a removed service is still found

A line that a removal keeps is read back with the same words, so a service is found in the new text
exactly if a line was kept that the test takes for its rule. The test trims the lines. The removal
keeps a rule that is indented in its own way, and then the service is found again, its backend is
gone, and adding it does nothing.
-/

namespace OpenShard

namespace Text

def chomp (l : Text) : Text := l.rdropWhile (· == '\r')

@[simp] theorem chomp_append_return (l : Text) : chomp (l ++ ['\r']) = chomp l :=
  List.rdropWhile_concat_pos _ _ _ rfl

theorem apply_chomp {β : Type} {f : Text → β} (hf : ∀ l, f (l ++ ['\r']) = f l) (l : Text) :
    f (chomp l) = f l := by
  induction l using List.reverseRecOn with
  | nil => rfl
  | append_singleton l c ih =>
      by_cases hc : c = '\r'
      · rw [hc, chomp_append_return, ih, hf]
      · rw [chomp, List.rdropWhile_concat_neg _ _ _ (by simpa using hc)]

theorem words_append_return (l : Text) : words (l ++ ['\r']) = words l := by
  rw [words_append_space (by decide)]
  exact List.append_nil _

theorem prefix_append_return {p : Text} (hp : p.getLast? ≠ some '\r') (l : Text) :
    p <+: l ++ ['\r'] ↔ p <+: l := by
  rw [List.prefix_concat_iff]
  refine or_iff_right ?_
  rintro rfl
  simp at hp

theorem lines_of_notMem {l : Text} (hl : '\n' ∉ l) : lines l = if l = [] then [] else [l] := by
  induction l with
  | nil => rfl
  | cons c l ih =>
      simp only [List.mem_cons, not_or] at hl
      rw [lines_cons_of_not_newline (Ne.symm hl.1), ih hl.2]
      · by_cases h : l = [] <;> simp [h]
      · rintro - t' rfl
        exact hl.2 List.mem_cons_self

section Kept

variable {keep : Text → Bool}

theorem filter_lines_written (hkeep : ∀ l, keep (l ++ ['\r']) = keep l) {ls : List Text}
    (hls : ∀ l ∈ ls, '\n' ∉ l) (t : Text) :
    ((lines (written ls ++ t)).filter keep).map chomp =
      (ls.filter keep).map chomp ++ ((lines t).filter keep).map chomp := by
  induction ls with
  | nil => rfl
  | cons l ls ih =>
      have ih := ih fun l' hl' => hls l' (by simp [hl'])
      have hsplit : written (l :: ls) ++ t = l ++ '\n' :: (written ls ++ t) := by
        rw [written_cons]
        simp
      obtain ⟨l', hlines, hl'⟩ := lines_written (hls l (by simp))
      have hsame : keep l' = keep l ∧ chomp l' = chomp l := by
        rcases hl' with rfl | rfl
        · exact ⟨rfl, rfl⟩
        · exact ⟨(hkeep l').symm, (chomp_append_return l').symm⟩
      rw [hsplit, (lines_append_newline l _).1, hlines, List.singleton_append, List.filter_cons,
        List.filter_cons, hsame.1]
      by_cases hl : keep l
      · simp [hl, hsame.2, ih]
      · simp [hl, ih]

theorem filter_lines_join (hnil : keep [] = false) (hkeep : ∀ l, keep (l ++ ['\r']) = keep l)
    {ls : List Text} (hls : ∀ l ∈ ls, '\n' ∉ l) :
    ((lines (join ls)).filter keep).map chomp = (ls.filter keep).map chomp := by
  obtain rfl | ⟨front, l, rfl⟩ := List.eq_nil_or_concat ls
  · rfl
  · rw [List.concat_eq_append] at hls ⊢
    rw [join_append_last, filter_lines_written hkeep (fun l' hl' => hls l' (by simp [hl'])),
      lines_of_notMem (hls l (by simp)), List.filter_append, List.map_append]
    by_cases h : l = []
    · simp [h, hnil]
    · simp [h]

theorem any_lines_join (hnil : keep [] = false) (hkeep : ∀ l, keep (l ++ ['\r']) = keep l)
    {ls : List Text} (hls : ∀ l ∈ ls, '\n' ∉ l) :
    (∃ l ∈ lines (join ls), keep l) ↔ ∃ l ∈ ls, keep l := by
  have hsome : ∀ xs : List Text, (∃ l ∈ xs, keep l) ↔ (xs.filter keep).map chomp ≠ [] := by
    intro xs
    rw [Ne, List.map_eq_nil_iff, List.filter_eq_nil_iff]
    simp
  rw [hsome, hsome, filter_lines_join hnil hkeep hls]

end Kept

end Text

namespace Config

open Text Registry

section Answered

variable {g : Guard HaproxyOp HaproxyEnv Haproxy} {h h' : Haproxy}

/-- Whatever fails on the way, a text that was installed with success is loaded. -/
theorem install_ok_run {content newContent : Text} {u : Unit}
    (run : Runs g (install content newContent).run h (.ok u) h') :
    h' = { h with file := newContent }.reload := by
  cases install_steps run with
  | loaded => rfl

theorem locked_ok_run {f : Text → Manager Unit}
    (run : Runs g (withConfigLock (readConfig >>= f)).run h (.ok ()) h') :
    ∃ k, Runs g (f h.file).run { h with configLocked := true } (.ok ()) k ∧
      h' = { k with configLocked := false } := by
  obtain ⟨e, -, ⟨message, -, hr, -⟩ | ⟨-, hrest⟩⟩ := locked_steps run
  · simp at hr
  · exact hrest

theorem call_ok_run {call : Call} (run : Runs g call.manager.run h (.ok ()) h')
    (hdo : ¬ nothingToDo h.file call) : edited h.file call = some h'.file := by
  cases call with
  | addService name domain =>
      obtain ⟨k, hrest, rfl⟩ := locked_ok_run run
      have hex : ¬ serviceExists h.file name := hdo
      rw [if_neg hex] at hrest
      cases hadd : addedContent h.file name domain with
      | none =>
          simp only [hadd] at hrest
          simpa using ((runs_pure _ _ _ _).1 hrest).1
      | some newContent =>
          simp only [hadd] at hrest
          obtain rfl := install_ok_run hrest
          exact hadd
  | removeService name =>
      obtain ⟨k, hrest, rfl⟩ := locked_ok_run run
      have hex : serviceExists h.file name := not_not.1 hdo
      rw [if_neg (not_not.2 hex)] at hrest
      obtain rfl := install_ok_run hrest
      rfl

end Answered

section Detected

variable {name : Text}

theorem mem_removeLoop {ls : List Text} {l : Text} :
    l ∈ removeLoop name false ls ↔
      ∃ front back, ls = front ++ l :: back ∧ ¬ Owned name front l := by
  have hstart : inSection name [] = false := rfl
  constructor
  · intro hl
    obtain ⟨kept, rest, hloop⟩ := List.append_of_mem hl
    obtain ⟨front, back, rfl, hown, -, -⟩ := @removeLoop_eq_append_cons name [] _ _ _ _ hloop
    exact ⟨front, back, rfl, hown⟩
  · rintro ⟨front, back, rfl, hown⟩
    rw [← hstart, removeLoop_append, removeLoop_cons, List.nil_append, if_neg hown]
    simp

theorem newline_notMem_removeLoop (content : Text) :
    ∀ l ∈ removeLoop name false (lines content), '\n' ∉ l :=
  fun l hl => newline_notMem_lines l ((removeLoop_sublist name false _).mem hl)

theorem not_marker_of_usePrefix {l : Text} (h : usePrefix name <+: l) :
    ¬ aclMarker name <+: trim l := by
  obtain ⟨rest, rfl⟩ := h
  have heq : usePrefix name ++ rest =
      "    ".toList ++ "use_backend".toList ++ (" " ++ name ++ " " ++ rest) := by
    unfold usePrefix
    simp
  rw [heq]
  exact not_prefix_of_head (prefix_trim white_indent (by decide) _) (by decide)

theorem serviceExists_removedContent (content : Text) :
    serviceExists (removedContent content name) name ↔
      ∃ front l back, lines content = front ++ l :: back ∧ aclMarker name <+: trim l ∧
        ¬ Owned name front l := by
  have hnil : ¬ aclMarker name <+: trim [] := by
    have htrim : trim [] = [] := rfl
    have hne : aclMarker name ≠ [] := List.append_ne_nil_of_right_ne_nil _ (by decide)
    rw [htrim, List.prefix_nil]
    exact hne
  have hreturn : ∀ l, decide (aclMarker name <+: trim (l ++ ['\r'])) =
      decide (aclMarker name <+: trim l) := by
    intro l
    rw [trim_append_return]
  have hkept := @any_lines_join (fun l => decide (aclMarker name <+: trim l))
    (decide_eq_false hnil) hreturn _ (@newline_notMem_removeLoop name content)
  simp only [decide_eq_true_eq] at hkept
  rw [serviceExists, removedContent, hkept]
  constructor
  · rintro ⟨l, hl, hmark⟩
    obtain ⟨front, back, hsplit, hown⟩ := mem_removeLoop.1 hl
    exact ⟨front, l, back, hsplit, hmark, hown⟩
  · rintro ⟨front, l, back, hsplit, hmark, hown⟩
    exact ⟨l, mem_removeLoop.2 ⟨front, back, hsplit, hown⟩, hmark⟩

/-- Every line that the test takes for a rule of the service stands in its backend section or is
indented as the rules are that the manager writes. -/
def RulesReached (name : Text) (ls : List Text) : Prop :=
  ∀ front l back, ls = front ++ l :: back → aclMarker name <+: trim l →
    inSection name (front ++ [l]) ∨ aclPrefix name <+: l

theorem not_serviceExists_removedContent_iff (content : Text) :
    ¬ serviceExists (removedContent content name) name ↔ RulesReached name (lines content) := by
  rw [serviceExists_removedContent]
  constructor
  · intro hno front l back hsplit hmark
    by_contra hnot
    refine hno ⟨front, l, back, hsplit, hmark, ?_⟩
    rintro (hin | hacl | huse)
    · exact hnot (Or.inl hin)
    · exact hnot (Or.inr hacl)
    · exact not_marker_of_usePrefix huse hmark
  · rintro hall ⟨front, l, back, hsplit, hmark, hown⟩
    exact hown ((hall front l back hsplit hmark).imp id Or.inl)

/-- After a removal that succeeds the service is not found, so that adding it writes its rules and
its backend, exactly if the removal reaches every line that the test takes for its rule. -/
theorem removed_not_found_iff {g : Guard HaproxyOp HaproxyEnv Haproxy} {h h' : Haproxy}
    (hex : serviceExists h.file name) (run : Runs g (removeService name).run h (.ok ()) h') :
    (¬ serviceExists h'.file name ∧
      ∀ (g' : Guard HaproxyOp HaproxyEnv Haproxy) (domain : Text) (h'' : Haproxy),
        Runs g' (addService name domain).run h' (.ok ()) h'' →
          addedContent h'.file name domain = some h''.file) ↔
      RulesReached name (lines h.file) := by
  have hfile := @call_ok_run g h h' (.removeService name) run (not_not.2 hex)
  rw [← not_serviceExists_removedContent_iff, Option.some.inj hfile]
  refine and_iff_left_of_imp fun hno g' domain h'' run' => ?_
  exact @call_ok_run g' h' h'' (.addService name domain) run' hno

/-- A frontend whose rules are indented by a tab. -/
def tabbed : Text := written
  ["frontend web", "\tacl host_svc_blog hdr(host) -i blog.org",
    "\tuse_backend svc_blog if host_svc_blog", "\tdefault_backend volunteers", "",
    "backend svc_blog", "\tbalance leastconn"]

/-- The backend goes, the rules stay. -/
theorem removed_still_found :
    ¬ ∀ (g : Guard HaproxyOp HaproxyEnv Haproxy) (name : Text) (h h' : Haproxy),
      serviceExists h.file name → Runs g (removeService name).run h (.ok ()) h' →
      ¬ serviceExists h'.file name := by
  intro hclaim
  have hrun : (calm (removeService "svc_blog").run ⟨tabbed, tabbed, ∅, 0, false⟩).any fun r =>
      decide (r.1 = .ok ()) && decide (serviceExists r.2.file "svc_blog") := by
    decide +kernel
  obtain ⟨⟨r, h'⟩, hremove, hbad⟩ := (Option.any_eq_true _ _).1 hrun
  simp only [Bool.and_eq_true, decide_eq_true_eq] at hbad
  obtain ⟨rfl, hfound⟩ := hbad
  exact hclaim _ _ _ _ (by decide) ((runs_calm _ _ _ _).2 hremove) hfound

/-- A service that the manager added itself. -/
theorem added_not_found :
    ∃ h h', serviceExists h.file "svc_blog" ∧
      Runs haproxySucceeds (removeService "svc_blog").run h (.ok ()) h' ∧
      RulesReached "svc_blog" (lines h.file) := by
  have hrun : (calm (addService "svc_blog" "blog.org").run shippedHaproxy).any fun r =>
      decide (serviceExists r.2.file "svc_blog") &&
        (calm (removeService "svc_blog").run r.2).any fun r' =>
          decide (r'.1 = .ok ()) && decide (¬ serviceExists r'.2.file "svc_blog") := by
    decide +kernel
  obtain ⟨⟨r, h⟩, -, hadded⟩ := (Option.any_eq_true _ _).1 hrun
  simp only [Bool.and_eq_true, decide_eq_true_eq] at hadded
  obtain ⟨⟨r', h'⟩, hremove, hgone⟩ := (Option.any_eq_true _ _).1 hadded.2
  simp only [Bool.and_eq_true, decide_eq_true_eq] at hgone
  obtain ⟨rfl, hno⟩ := hgone
  have run := (runs_calm _ _ _ _).2 hremove
  exact ⟨h, h', hadded.1, run, (removed_not_found_iff hadded.1 run).1
    ⟨hno, fun g' domain h'' run' => @call_ok_run g' h' h'' (.addService _ domain) run' hno⟩⟩

end Detected

end Config

end OpenShard
