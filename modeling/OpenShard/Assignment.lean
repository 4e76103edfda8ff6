import OpenShard.Completion
import OpenShard.Healing
import OpenShard.Sections

/-!
# What an assignment leaves in the frontend

The file after any calls that succeeded, whatever the names: above the first `default_backend` of a
frontend stand the patterns of the registered services, oldest first, and their rules, newest first.
A name that is registered is found there, and then its domain stays the one it was added with. A
request for that domain goes to the service if no other service's domain is the same.
-/

namespace OpenShard

namespace Config

open Text Registry Routing HaproxyManager Future

/-- No rule of any service. -/
def Unclaimed (l : Text) : Prop := ¬ ("acl host_" : Text) <+: trim l

/-- The lines above the services' patterns: they choose nothing, they name no service's condition,
and the section that is open behind them is a frontend. -/
structure Front (top : List Text) : Prop where
  quiet : ∀ l ∈ top, routing l = false
  noCondition : ∀ l ∈ top, ¬ ("host_" : Text) <:+: l
  header : ∃ header ∈ top.reverse.find? opensSection, (words header).head? = some "frontend"

/-- The lines of a file in which the services of the registry have their patterns and rules. -/
structure Serves (R : Entries) (ls : List Text) : Prop where
  layout : ∃ top line rest, ls = top ++ R.map (fun r => aclLine r.1 r.2) ++
      (R.reverse.map fun r => useLine r.1) ++ line :: rest ∧ Front top ∧
    ("default_backend" : Text) <+: trim line ∧ ∀ l ∈ line :: rest, Unclaimed l
  inline : ∀ l ∈ ls, Inline l
  plain : ∀ r ∈ R, NoWhitespace r.1 ∧ NoWhitespace r.2
  nodup : (R.map Prod.fst).Nodup

section Lines

variable {name domain : Text} {R : Entries} {ls top rest : List Text} {line : Text}

theorem Unclaimed.not_marker {l : Text} (hl : Unclaimed l) : ¬ aclMarker name <+: trim l := by
  intro hmark
  refine hl (List.IsPrefix.trans ?_ hmark)
  unfold aclMarker
  rw [List.append_assoc]
  exact List.prefix_append _ _

theorem unclaimed_of_noCondition {l : Text} (hl : ¬ ("host_" : Text) <:+: l) : Unclaimed l := by
  intro hacl
  have hhost : ("host_" : Text) <:+: "acl host_" := by decide
  exact hl (hhost.trans (hacl.isInfix.trans (trim_infix_self l)))

theorem unclaimed_useLine (name : Text) : Unclaimed (useLine name) :=
  not_prefix_of_head (use_prefix_trim name) (by decide)

theorem unclaimed_blockLines (name : Text) : ∀ l ∈ blockLines name, Unclaimed l := by
  have hblank : Unclaimed [] := by
    unfold Unclaimed
    decide
  have hheader : Unclaimed (backendHeader name) := by
    have heq : backendHeader name = [] ++ "backend".toList ++ ' ' :: name := by
      unfold backendHeader
      simp
    have hpre : ("backend" : Text) <+: trim (backendHeader name) := by
      rw [heq]
      exact prefix_trim (by simp) (by decide) _
    exact not_prefix_of_head hpre (by decide)
  have hdir : ∀ l ∈ backendDirectives, ¬ ("acl host_" : Text) <+: trim l := by decide
  intro l hl
  rcases List.mem_cons.1 hl with rfl | hl
  · exact hblank
  · rcases List.mem_cons.1 hl with rfl | hl
    · exact hheader
    · exact hdir l hl

theorem routing_of_default (h : ("default_backend" : Text) <+: trim line) : routing line := by
  unfold routing
  rw [decide_eq_true h, Bool.true_or]

theorem split_at_routing (R : Entries) (htop : ∀ l ∈ top, routing l = false)
    (hline : ("default_backend" : Text) <+: trim line)
    (hls : ls = top ++ R.map (fun r => aclLine r.1 r.2) ++ (R.reverse.map fun r => useLine r.1) ++
      line :: rest) :
    ls.any routing ∧
      ls.takeWhile (fun l => !routing l) = top ++ R.map (fun r => aclLine r.1 r.2) ∧
      ls.dropWhile (fun l => !routing l) =
        (R.reverse.map fun r => useLine r.1) ++ line :: rest := by
  have hbefore : ∀ l ∈ top ++ R.map (fun r => aclLine r.1 r.2), !routing l := by
    intro l hl
    rcases List.mem_append.1 hl with hl | hl
    · rw [htop l hl]
      rfl
    · obtain ⟨r, -, rfl⟩ := List.mem_map.1 hl
      rw [routing_aclLine]
      rfl
  obtain ⟨l, ls', hafter, hl⟩ : ∃ l ls', (R.reverse.map fun r => useLine r.1) ++ line :: rest =
      l :: ls' ∧ routing l := by
    cases R.reverse with
    | nil => exact ⟨line, rest, rfl, routing_of_default hline⟩
    | cons r rs => exact ⟨useLine r.1, _, rfl, routing_useLine r.1⟩
  rw [hls, List.append_assoc, List.takeWhile_append_of_pos hbefore,
    List.dropWhile_append_of_pos hbefore, hafter]
  refine ⟨?_, ?_, ?_⟩
  · simp [hl]
  · simp [hl]
  · simp [hl]

theorem Serves.found_iff (h : Serves R ls) (hn : NoWhitespace name) :
    (∃ l ∈ ls, aclMarker name <+: trim l) ↔ name ∈ R.map Prod.fst := by
  obtain ⟨top, line, rest, hls, hfront, -, hrest⟩ := h.layout
  rw [hls]
  constructor
  · rintro ⟨l, hl, hmark⟩
    simp only [List.mem_append] at hl
    rcases hl with ((hl | hl) | hl) | hl
    · exact absurd hmark (unclaimed_of_noCondition (hfront.noCondition l hl)).not_marker
    · obtain ⟨r, hr, rfl⟩ := List.mem_map.1 hl
      rw [(marker_aclLine hn (h.plain r hr).1 r.2).1 hmark]
      exact List.mem_map_of_mem hr
    · obtain ⟨r, -, rfl⟩ := List.mem_map.1 hl
      exact absurd hmark (unclaimed_useLine r.1).not_marker
    · exact absurd hmark (hrest l hl).not_marker
  · intro hmem
    obtain ⟨r, hr, rfl⟩ := List.mem_map.1 hmem
    refine ⟨aclLine r.1 r.2, ?_, (marker_aclLine hn hn r.2).2 rfl⟩
    simp only [List.mem_append]
    exact Or.inl (Or.inl (Or.inr (List.mem_map_of_mem hr)))

/-- An unregistered service is put behind the others' patterns and before their rules. -/
theorem Serves.added {content : Text} (h : Serves R (lines content)) (hn : NoWhitespace name)
    (hd : NoWhitespace domain) (hno : name ∉ R.map Prod.fst) :
    ∃ newContent, addedContent content name domain = some newContent ∧
      Serves (R ++ [(name, domain)]) (lines newContent) := by
  obtain ⟨top, line, rest, hls, hfront, hline, hrest⟩ := h.layout
  obtain ⟨hany, htake, hdrop⟩ := split_at_routing R hfront.quiet hline hls
  have hinline : ∀ l ∈ top ++ R.map (fun r => aclLine r.1 r.2) ++
      [aclLine name domain, useLine name] ++ ((R.reverse.map fun r => useLine r.1) ++ line :: rest),
      Inline l := by
    have hold := h.inline
    rw [hls] at hold
    intro l hl
    simp only [List.mem_append, List.mem_cons, List.not_mem_nil, or_false] at hl hold
    rcases hl with ((hl | hl) | rfl | rfl) | hl | hl
    · exact hold l (Or.inl (Or.inl (Or.inl hl)))
    · exact hold l (Or.inl (Or.inl (Or.inr hl)))
    · exact inline_aclLine hn hd
    · exact inline_useLine hn
    · exact hold l (Or.inl (Or.inr hl))
    · exact hold l (Or.inr hl)
  refine ⟨_, by simp only [addedContent, if_pos hany, htake, hdrop]; rfl, ?_⟩
  rw [lines_join_append hinline, lines_backendBlock hn]
  refine ⟨⟨top, line, rest ++ blockLines name, by simp, hfront, hline, ?_⟩, ?_, ?_, ?_⟩
  · intro l hl
    rw [← List.cons_append, List.mem_append] at hl
    rcases hl with hl | hl
    · exact hrest l hl
    · exact unclaimed_blockLines name l hl
  · intro l hl
    rcases List.mem_append.1 hl with hl | hl
    · exact hinline l hl
    · exact inline_blockLines hn l hl
  · intro r hr
    rcases List.mem_append.1 hr with hr | hr
    · exact h.plain r hr
    · rw [List.mem_singleton.1 hr]
      exact ⟨hn, hd⟩
  · rw [List.map_append, List.map_singleton]
    exact h.nodup.append (List.nodup_singleton name) (by simpa using hno)

theorem not_ownHeader_of_frontend {header : Text} (h : (words header).head? = some "frontend") :
    (trim header == backendHeader name) = false := by
  refine beq_false_of_ne fun heq => ?_
  have hsplit : backendHeader name = "backend".toList ++ ' ' :: name := by
    unfold backendHeader
    simp
  have hwords : words header = "backend".toList :: words name := by
    rw [← words_trim, heq, hsplit, words_append_space (by decide)]
    rfl
  rw [hwords] at h
  exact absurd (Option.some.inj h) (by decide)

theorem not_rule_of_opensSection {l : Text} (h : opensSection l) :
    ¬ (aclPrefix name <+: l ∨ usePrefix name <+: l) := by
  have hacl : "    ".toList <+: aclPrefix name := ⟨_, rfl⟩
  have huse : "    ".toList <+: usePrefix name := ⟨_, rfl⟩
  rintro (hrule | hrule)
  · rw [opensSection_of_indent (hacl.trans hrule)] at h
    simp at h
  · rw [opensSection_of_indent (huse.trans hrule)] at h
    simp at h

theorem find_opensSection {header : Text} (h : top.reverse.find? opensSection = some header) :
    opensSection header ∧ ∃ above below, top = above ++ header :: below ∧
      ∀ l ∈ below, opensSection l = false := by
  obtain ⟨hopens, xs, ys, hsplit, hnone⟩ := List.find?_eq_some_iff_append.1 h
  refine ⟨hopens, ys.reverse, xs.reverse, ?_, fun l hl => ?_⟩
  · rw [← List.reverse_reverse top, hsplit]
    simp
  · simpa using hnone l (List.mem_reverse.1 hl)

theorem Front.not_inSection (h : Front top) : inSection name top = false := by
  obtain ⟨header, hfind, hword⟩ := h.header
  rw [inSection, hfind]
  exact not_ownHeader_of_frontend hword

theorem Front.removed (h : Front top) : Front (removeLoop name false top) := by
  have hmem : ∀ l ∈ removeLoop name false top, l ∈ top :=
    fun l hl => (removeLoop_sublist name false top).mem hl
  refine ⟨fun l hl => h.quiet l (hmem l hl), fun l hl => h.noCondition l (hmem l hl), ?_⟩
  obtain ⟨header, hfind, hword⟩ := h.header
  obtain ⟨hopens, above, below, rfl, hbelow⟩ := find_opensSection hfind
  have hstart : inSection name [] = false := rfl
  have hkept : ¬ Owned name above header := by
    rintro (hin | hrule)
    · rw [inSection_snoc, if_pos hopens, not_ownHeader_of_frontend hword] at hin
      simp at hin
    · exact not_rule_of_opensSection hopens hrule
  refine ⟨header, ?_, hword⟩
  rw [← hstart, removeLoop_append, removeLoop_cons, List.nil_append, if_neg hkept,
    List.reverse_append, List.reverse_cons, List.append_assoc, List.find?_append]
  have hnone : ∀ flag, (removeLoop name flag below).reverse.find? opensSection = none := by
    intro flag
    refine List.find?_eq_none.2 fun l hl => ?_
    rw [hbelow l ((removeLoop_sublist name flag below).mem (List.mem_reverse.1 hl))]
    exact Bool.false_ne_true
  rw [hnone, Option.none_or, List.singleton_append, List.find?_cons_of_pos hopens]
  rfl

theorem removeLoop_default (h : ("default_backend" : Text) <+: trim line) (ys : List Text) :
    removeLoop name false (line :: ys) = line :: removeLoop name false ys := by
  have hkept : Kept name line := by
    refine ⟨fun _ heq => ?_, ?_, ?_⟩
    · rw [heq] at h
      have hheader : backendHeader name = 'b' :: ("ackend ".toList ++ name) := by
        unfold backendHeader
        simp
      rw [hheader] at h
      exact not_prefix_of_head h (by decide) (List.prefix_refl _)
    · rintro ⟨tail, rfl⟩
      have heq : aclPrefix name ++ tail = "    ".toList ++ "acl".toList ++
          (" host_".toList ++ name ++ " " ++ tail) := by
        unfold aclPrefix
        simp
      rw [heq] at h
      exact not_prefix_of_head h (by decide) (prefix_trim white_indent (by decide) _)
    · rintro ⟨tail, rfl⟩
      have heq : usePrefix name ++ tail = "    ".toList ++ "use_backend".toList ++
          (" ".toList ++ name ++ " " ++ tail) := by
        unfold usePrefix
        simp
      rw [heq] at h
      exact not_prefix_of_head h (by decide) (prefix_trim white_indent (by decide) _)
  exact @removeLoop_kept name [line] (by simpa using hkept) ys

/-- Joined and read back, lines behind one that is not blank lose at most a blank line. -/
theorem lines_join_tail {xs ys : List Text} (hxs : ∀ l ∈ xs, Inline l) (hline : Inline line)
    (hne : line ≠ []) (hys : ∀ l ∈ ys, Inline l) :
    ∃ ys', lines (join (xs ++ line :: ys)) = xs ++ line :: ys' ∧ ys'.Sublist ys := by
  obtain rfl | ⟨front, l, rfl⟩ := List.eq_nil_or_concat ys
  · refine ⟨[], ?_, List.Sublist.refl []⟩
    rw [lines_join_append hxs, lines_inline hline, if_neg hne]
  · rw [List.concat_eq_append] at hys ⊢
    have hfront : ∀ l' ∈ xs ++ line :: front, Inline l' := by
      intro l' hl'
      simp only [List.mem_append, List.mem_cons] at hl'
      rcases hl' with hl' | rfl | hl'
      · exact hxs l' hl'
      · exact hline
      · exact hys l' (by simp [hl'])
    have hassoc : xs ++ line :: (front ++ [l]) = xs ++ line :: front ++ [l] := by simp
    refine ⟨front ++ lines l, ?_, ?_⟩
    · rw [hassoc, lines_join_append hfront]
      simp
    · rw [lines_inline (hys l (by simp))]
      refine List.Sublist.append (List.Sublist.refl front) ?_
      split_ifs
      · exact List.nil_sublist _
      · exact List.Sublist.refl _

/-- A removal takes the service out of the registry, and a blank line at most. -/
theorem Serves.removed {content : Text} (h : Serves R (lines content)) (hn : NoWhitespace name) :
    Serves (remove R name) (lines (removedContent content name)) := by
  obtain ⟨top, line, rest, hls, hfront, hline, hrest⟩ := h.layout
  have hstart : inSection name [] = false := rfl
  have hacl : ∀ ys, removeLoop name false (R.map (fun r => aclLine r.1 r.2) ++ ys) =
      (remove R name).map (fun r => aclLine r.1 r.2) ++ removeLoop name false ys := by
    refine removeLoop_rules (fun r hr hname => ?_) (fun r hr hname => ?_)
    · exact ⟨opensSection_aclLine r.1 r.2,
        Or.inl ((aclPrefix_aclLine hn (h.plain r hr).1 r.2).2 hname.symm)⟩
    · refine ⟨fun hopens => ?_, ?_, not_usePrefix_aclLine name r.1 r.2⟩
      · rw [opensSection_aclLine] at hopens
        simp at hopens
      · exact fun hpre => hname ((aclPrefix_aclLine hn (h.plain r hr).1 r.2).1 hpre).symm
  have huse : ∀ ys, removeLoop name false (R.reverse.map (fun r => useLine r.1) ++ ys) =
      ((remove R name).reverse.map fun r => useLine r.1) ++ removeLoop name false ys := by
    have hrev : remove R.reverse name = (remove R name).reverse := List.filter_reverse
    rw [← hrev]
    refine removeLoop_rules (fun r hr hname => ?_) (fun r hr hname => ?_)
    · exact ⟨opensSection_useLine r.1,
        Or.inr ((usePrefix_useLine hn (h.plain r (List.mem_reverse.1 hr)).1).2 hname.symm)⟩
    · refine ⟨fun hopens => ?_, not_aclPrefix_useLine name r.1, ?_⟩
      · rw [opensSection_useLine] at hopens
        simp at hopens
      · exact fun hpre =>
          hname ((usePrefix_useLine hn (h.plain r (List.mem_reverse.1 hr)).1).1 hpre).symm
  have hloop : removeLoop name false (lines content) =
      removeLoop name false top ++ (remove R name).map (fun r => aclLine r.1 r.2) ++
        ((remove R name).reverse.map fun r => useLine r.1) ++ line :: removeLoop name false rest := by
    rw [hls, List.append_assoc, List.append_assoc, ← hstart, removeLoop_append, List.nil_append,
      hfront.not_inSection, hstart, hacl, huse, removeLoop_default hline]
    simp only [List.append_assoc]
  have hinline : ∀ l ∈ removeLoop name false (lines content), Inline l :=
    fun l hl => h.inline l ((removeLoop_sublist name false _).mem hl)
  rw [hloop] at hinline
  have hne : line ≠ [] := by
    rintro rfl
    exact absurd hline (by decide)
  obtain ⟨rest', hlines, hsub⟩ := lines_join_tail
    (fun l hl => hinline l (List.mem_append_left _ hl))
    (hinline line (List.mem_append_right _ List.mem_cons_self)) hne
    (fun l hl => hinline l (List.mem_append_right _ (List.mem_cons_of_mem _ hl)))
  rw [← hloop] at hlines
  have hkept : ∀ r ∈ remove R name, r ∈ R := fun r hr => List.mem_of_mem_filter hr
  refine ⟨⟨_, line, rest', hlines, hfront.removed, hline, ?_⟩, ?_,
    fun r hr => h.plain r (hkept r hr), h.nodup.sublist (List.filter_sublist.map _)⟩
  · intro l hl
    rcases List.mem_cons.1 hl with rfl | hl
    · exact hrest l List.mem_cons_self
    · exact hrest l (List.mem_cons_of_mem _ ((removeLoop_sublist name false rest).mem (hsub.mem hl)))
  · rw [removedContent, hlines]
    intro l hl
    rw [List.mem_append, List.mem_cons] at hl
    rcases hl with hl | rfl | hl
    · exact hinline l (List.mem_append_left _ hl)
    · exact hinline l (List.mem_append_right _ List.mem_cons_self)
    · exact hinline l (List.mem_append_right _ (List.mem_cons_of_mem _ (hsub.mem hl)))

end Lines

section Files

variable {g : Guard HaproxyOp HaproxyEnv Haproxy} {h h' : Haproxy} {name domain addr : Text}
  {R : Entries} {calls : List Call} {c c' : Text}

inductive Edited : List Call → Text → Text → Prop
  | nil (c : Text) : Edited [] c c
  | cons {call : Call} {calls : List Call} {g : Guard HaproxyOp HaproxyEnv Haproxy}
      {h h' : Haproxy} {c : Text} (run : Runs g call.manager.run h (.ok ()) h')
      (rest : Edited calls h'.file c) : Edited (call :: calls) h.file c

theorem call_nothing_run {call : Call} (run : Runs g call.manager.run h (.ok ()) h')
    (hno : nothingToDo h.file call) : h'.file = h.file := by
  cases call with
  | addService name domain =>
      obtain ⟨k, hrest, rfl⟩ := locked_ok_run run
      have hex : serviceExists h.file name := hno
      rw [if_pos hex] at hrest
      obtain ⟨-, rfl⟩ := (runs_pure _ _ _ _).1 hrest
      rfl
  | removeService name =>
      obtain ⟨k, hrest, rfl⟩ := locked_ok_run run
      have hex : ¬ serviceExists h.file name := hno
      rw [if_pos hex] at hrest
      obtain ⟨-, rfl⟩ := (runs_pure _ _ _ _).1 hrest
      rfl

theorem Serves.call (hs : Serves R (lines h.file)) {call : Call} (hcall : Plain call)
    (run : Runs g call.manager.run h (.ok ()) h') : Serves (call.register R) (lines h'.file) := by
  cases call with
  | addService name domain =>
      obtain ⟨hn, hd⟩ := hcall
      have hfound := hs.found_iff hn
      by_cases hmem : name ∈ R.map Prod.fst
      · have hadd : Call.register R (.addService name domain) = R := if_pos hmem
        rw [hadd, @call_nothing_run _ _ _ (.addService name domain) run (hfound.2 hmem)]
        exact hs
      · have hadd : Call.register R (.addService name domain) = R ++ [(name, domain)] := if_neg hmem
        obtain ⟨newContent, hedit, hserves⟩ := hs.added hn hd hmem
        have hfile := @call_ok_run _ _ _ (.addService name domain) run (mt hfound.1 hmem)
        rw [hadd, ← Option.some.inj (hedit.symm.trans hfile)]
        exact hserves
  | removeService name =>
      have hfound := @Serves.found_iff name _ _ hs hcall
      by_cases hmem : name ∈ R.map Prod.fst
      · have hfile := @call_ok_run _ _ _ (.removeService name) run (not_not.2 (hfound.2 hmem))
        rw [← Option.some.inj hfile]
        exact hs.removed hcall
      · have hsame : Call.register R (.removeService name) = R := remove_eq_self hmem
        rw [hsame, @call_nothing_run _ _ _ (.removeService name) run (mt hfound.1 hmem)]
        exact hs

theorem Edited.serves (he : Edited calls c c') (hs : Serves R (lines c))
    (hcalls : ∀ call ∈ calls, Plain call) :
    Serves (calls.foldl Call.register R) (lines c') := by
  induction he generalizing R with
  | nil c => exact hs
  | cons run rest ih =>
      exact ih (hs.call (hcalls _ List.mem_cons_self) run)
        fun call hcall => hcalls call (List.mem_cons_of_mem _ hcall)

theorem file_of_commands {α : Type} {t : Future HaproxyOp α} (ht : t.Uses isCommand) {a : α}
    (run : Runs g t h a h') : h'.file = h.file := by
  induction run with
  | ready a s => rfl
  | @await γ op next e k k' k'' c a hg he _ ih =>
      rw [ih (ht.2 _)]
      cases op with
      | command cmd =>
          simp only [Machine.exec] at he
          split at he
          · obtain ⟨-, rfl⟩ := Prod.mk.inj (Option.some.inj he)
            obtain ⟨servers, heq⟩ := command_servers k cmd
            rw [heq]
          · obtain ⟨-, rfl⟩ := Prod.mk.inj (Option.some.inj he)
            rfl
      | _ => exact ht.1.elim

theorem assignService_ok_run (run : Runs g (assignService name domain addr).run h (.ok ()) h') :
    ∃ h₁, Runs g (addService (serviceBackend name) domain).run h (.ok ()) h₁ ∧
      h'.file = h₁.file := by
  obtain ⟨r₁, h₁, hadd, ⟨rfl, run⟩ | ⟨⟨e, he⟩, -⟩⟩ := Registrar.assignService_steps run
  · exact ⟨h₁, hadd, file_of_commands ((uses_upsertServer _ _ _ _).mono isCommand_of_commandTo) run⟩
  · simp at he

end Files

section Routed

variable {g : Guard HaproxyOp HaproxyEnv Haproxy} {h h' : Haproxy}
  {name domain addr host c₀ : Text} {R : Entries} {A : Entries} {ls : List Text}

theorem directive_useLine_or (hn : NoWhitespace name) :
    directive (useLine name) = if name = [] then .other else .useBackend name (condition name) := by
  by_cases hempty : name = []
  · subst hempty
    decide
  · rw [if_neg hempty, directive, words_useLine hn hempty]
    simp

theorem choose_only {rs : Entries} {r : Text × Text} (hrs : ∀ r' ∈ rs, NoWhitespace r'.1)
    (hr : r ∈ rs) (hne : r.1 ≠ []) (hfires : fires A (condition r.1) host)
    (hothers : ∀ r' ∈ rs, r'.1 ≠ r.1 → fires A (condition r'.1) host = false)
    (dflt : Option Text) (rest : List Directive) :
    choose host A dflt (rs.map (fun r' => directive (useLine r'.1)) ++ rest) = some r.1 := by
  induction rs with
  | nil => simp at hr
  | cons r' rs ih =>
      have ih := ih (fun r₁ hr₁ => hrs r₁ (by simp [hr₁]))
      rw [List.map_cons, List.cons_append, directive_useLine_or (hrs r' (by simp))]
      by_cases hsame : r'.1 = r.1
      · rw [hsame, if_neg hne, choose, if_pos hfires]
      · have hmem : r ∈ rs := by
          rcases List.mem_cons.1 hr with rfl | hr
          · exact absurd rfl hsame
          · exact hr
        have ih := ih hmem fun r₁ hr₁ => hothers r₁ (by simp [hr₁])
        split_ifs
        · rw [choose]
          exact ih
        · rw [choose, hothers r' (by simp) hsame]
          exact ih

theorem declared_front {top : List Text} (htop : ∀ l ∈ top, ¬ ("host_" : Text) <:+: l) :
    fires (declared (top.map directive)) (condition name) host = false := by
  refine fires_eq_false fun a ha heq => ?_
  obtain ⟨l, hl, hacl⟩ := List.mem_map.1 (mem_declared.1 ha)
  have hin := infix_of_directive_acl hacl
  rw [heq] at hin
  exact htop l hl ((List.prefix_append _ _).isInfix.trans hin)

theorem fires_plain {base : Entries} (hbase : fires base (condition name) host = false) :
    fires (patterns R ++ base) (condition name) host ↔
      ∃ r ∈ R, r.1 = name ∧ eqIgnoreAsciiCase r.2 host := by
  rw [fires_append, hbase, Bool.or_false, fires, List.any_eq_true]
  constructor
  · rintro ⟨a, ha, hfire⟩
    obtain ⟨r, hr, rfl⟩ := mem_patterns.1 ha
    simp only [Bool.and_eq_true, beq_iff_eq, condition, List.append_cancel_left_eq] at hfire
    exact ⟨r, hr, hfire.1, hfire.2⟩
  · rintro ⟨r, hr, rfl, hdomain⟩
    exact ⟨_, mem_patterns.2 ⟨r, hr, rfl⟩, by simp [hdomain]⟩

theorem Serves.routedSection (hs : Serves R ls) :
    ∃ top rest, (∀ l ∈ top, routing l = false ∧ ¬ ("host_" : Text) <:+: l) ∧
      (Routing.routedSection ls).2 = top ++ R.map (fun r => aclLine r.1 r.2) ++
        ((R.reverse.map fun r => useLine r.1) ++ rest) := by
  obtain ⟨top, line, rest, hls, hfront, hline, -⟩ := hs.layout
  obtain ⟨-, htake, hdrop⟩ := split_at_routing R hfront.quiet hline hls
  have hacl : ∀ l ∈ (R.map fun r => aclLine r.1 r.2).reverse, !isHeader l := by
    intro l hl
    obtain ⟨r, hr, rfl⟩ := List.mem_map.1 (List.mem_reverse.1 hl)
    rw [isHeader_aclLine (hs.plain r hr).1]
    rfl
  have huse : ∀ l ∈ R.reverse.map fun r => useLine r.1, !isHeader l := by
    intro l hl
    obtain ⟨r, -, rfl⟩ := List.mem_map.1 hl
    rw [isHeader_useLine]
    rfl
  refine ⟨(top.reverse.takeWhile fun l => !isHeader l).reverse,
    (line :: rest).takeWhile fun l => !isHeader l, ?_, ?_⟩
  · intro l hl
    have hmem := List.mem_reverse.1 ((List.takeWhile_sublist _).mem (List.mem_reverse.1 hl))
    exact ⟨hfront.quiet l hmem, hfront.noCondition l hmem⟩
  · rw [Routing.routedSection, htake, hdrop]
    simp only [List.reverse_append, List.takeWhile_append_of_pos hacl,
      List.takeWhile_append_of_pos huse, List.reverse_reverse]

/-- A request for the domain of a registered service goes to it, unless another service has it. -/
theorem Serves.route (hs : Serves R ls) {r : Text × Text} (hr : r ∈ R) (hne : r.1 ≠ [])
    (hhost : eqIgnoreAsciiCase r.2 host)
    (hothers : ∀ r' ∈ R, r'.1 ≠ r.1 → eqIgnoreAsciiCase r'.2 host = false) :
    Routing.route (Routing.routedSection ls).2 host = some r.1 := by
  obtain ⟨top, rest, htop, hsection⟩ := hs.routedSection
  have hacls : (R.map fun r => aclLine r.1 r.2).map directive =
      R.map fun r => .acl (condition r.1) r.2 := by
    rw [List.map_map]
    exact List.map_congr_left fun r hr => directive_aclLine (hs.plain r hr).1 (hs.plain r hr).2
  have hbase : ∀ n, fires (declared (top.map directive)) (condition n) host = false :=
    fun n => declared_front fun l hl => (htop l hl).2
  have hdecl := (declares_of_not_routing fun l hl => (htop l hl).1).append (declares_acl R)
  rw [hsection, Routing.route, List.map_append, List.map_append, hacls,
    choose_declared hdecl, List.append_nil, declared_append, declared_acl, List.map_append,
    List.map_map]
  refine choose_only (fun r' hr' => (hs.plain r' (List.mem_reverse.1 hr')).1)
    (List.mem_reverse.2 hr) hne ((fires_plain (hbase r.1)).2 ⟨r, hr, rfl, hhost⟩) ?_ none _
  intro r' hr' hdiffers
  rw [← Bool.not_eq_true, fires_plain (hbase r'.1)]
  rintro ⟨r₁, hr₁, hname, hdomain⟩
  rw [hothers r₁ hr₁ (by rw [hname]; exact hdiffers)] at hdomain
  simp at hdomain

/-- A configuration that no service was added to: it names no condition of a service, and its first
routing line is the `default_backend` line of a frontend whose header is not indented. -/
structure QuietBase (c₀ : Text) : Prop where
  noCarriageReturn : '\r' ∉ c₀
  noCondition : ∀ l ∈ lines c₀, ¬ ("host_" : Text) <:+: l
  frontend : ∃ top line rest, lines c₀ = top ++ line :: rest ∧ (∀ l ∈ top, routing l = false) ∧
    ("default_backend" : Text) <+: trim line ∧
      ∃ header ∈ top.reverse.find? opensSection, (words header).head? = some "frontend"

theorem QuietBase.serves (hb : QuietBase c₀) : Serves [] (lines c₀) := by
  obtain ⟨top, line, rest, hls, hquiet, hline, hheader⟩ := hb.frontend
  have hmem : ∀ l ∈ top ++ line :: rest, ¬ ("host_" : Text) <:+: l := by
    rw [← hls]
    exact hb.noCondition
  refine ⟨⟨top, line, rest, by simpa using hls, ⟨hquiet, ?_, hheader⟩, hline, ?_⟩,
    inline_of_mem_lines hb.noCarriageReturn, by simp, by simp⟩
  · exact fun l hl => hmem l (List.mem_append_left _ hl)
  · exact fun l hl => unclaimed_of_noCondition (hmem l (List.mem_append_right _ hl))

/-- An assignment that succeeds leaves the service's pattern in the file with the domain that the
service is registered with, which is the given one unless the name was registered with another; and
a request for that domain that matches no other service's goes to the service. -/
theorem assigned_domain_routed (hb : QuietBase c₀) {calls : List Call}
    (hcalls : ∀ call ∈ calls, Plain call) (hfile : Edited calls c₀ h.file)
    (hn : NoWhitespace name) (hd : NoWhitespace domain)
    (run : Runs g (assignService name domain addr).run h (.ok ()) h') :
    ∃ recorded,
      (serviceBackend name, recorded) ∈ add (registered calls) (serviceBackend name) domain ∧
      (∀ d, (serviceBackend name, d) ∈ registered calls → d = recorded) ∧
      ((∀ d, (serviceBackend name, d) ∈ registered calls → d = domain) → recorded = domain) ∧
      aclLine (serviceBackend name) recorded ∈ lines h'.file ∧
      ∀ host, eqIgnoreAsciiCase recorded host →
        (∀ r ∈ registered calls, r.1 ≠ serviceBackend name → eqIgnoreAsciiCase r.2 host = false) →
        Routing.route (Routing.routedSection (lines h'.file)).2 host =
          some (serviceBackend name) := by
  obtain ⟨h₁, hadd, hsame⟩ := assignService_ok_run run
  have hbackend : NoWhitespace (serviceBackend name) := NoWhitespace.append (by decide) hn
  have hne : serviceBackend name ≠ [] := by simp [serviceBackend]
  have hbefore : Serves (registered calls) (lines h.file) := hfile.serves hb.serves hcalls
  have hserves : Serves (add (registered calls) (serviceBackend name) domain) (lines h'.file) := by
    rw [hsame]
    exact @Serves.call _ _ _ _ hbefore (.addService (serviceBackend name) domain) ⟨hbackend, hd⟩ hadd
  obtain ⟨r, hr, hname⟩ := List.mem_map.1 (mem_add_self (registered calls) (serviceBackend name) domain)
  obtain ⟨n, recorded⟩ := r
  obtain rfl : n = serviceBackend name := hname
  have hentry : ∀ d, (serviceBackend name, d) ∈ registered calls → d = recorded := by
    intro d hold
    have hboth := List.inj_on_of_nodup_map hserves.nodup (mem_add_entry hold) hr rfl
    exact (Prod.mk.inj hboth).2
  refine ⟨recorded, hr, hentry, ?_, ?_, ?_⟩
  · intro hgiven
    rw [add] at hr
    split_ifs at hr with hmem
    · exact hgiven recorded hr
    · rcases List.mem_append.1 hr with hr | hr
      · exact hgiven recorded hr
      · exact (Prod.mk.inj (List.mem_singleton.1 hr)).2
  · obtain ⟨top, line, rest, hls, -⟩ := hserves.layout
    rw [hls]
    simp only [List.mem_append]
    exact Or.inl (Or.inl (Or.inr (List.mem_map.2 ⟨_, hr, rfl⟩)))
  · intro host hhost hothers
    refine hserves.route hr hne hhost fun r' hr' hdiffers => ?_
    rw [add] at hr'
    split_ifs at hr' with hmem
    · exact hothers r' hr' hdiffers
    · rcases List.mem_append.1 hr' with hr' | hr'
      · exact hothers r' hr' hdiffers
      · rw [List.mem_singleton.1 hr'] at hdiffers
        exact absurd rfl hdiffers

theorem quietBase_shipped : QuietBase shipped where
  noCarriageReturn := shipped_noCarriageReturn
  noCondition := by
    rw [lines_shipped]
    decide +kernel
  frontend := ⟨shippedLines.take 20, "    default_backend volunteers", shippedLines.drop 21,
    lines_shipped, by decide, by decide, "frontend openshrd", by decide, by decide⟩

/-- A service that is registered with one domain is assigned with another, and the assignment
succeeds without it. -/
theorem assigned_domain_missing :
    ¬ ∀ (c₀ : Text) (calls : List Call) (g : Guard HaproxyOp HaproxyEnv Haproxy) (h h' : Haproxy)
      (name domain addr : Text), QuietBase c₀ → (∀ call ∈ calls, Plain call) →
      Edited calls c₀ h.file → NoWhitespace name → NoWhitespace domain →
      Runs g (assignService name domain addr).run h (.ok ()) h' →
      aclLine (serviceBackend name) domain ∈ lines h'.file := by
  intro hclaim
  have hrun : (calm (addService "svc_blog" "blog.org").run shippedHaproxy).any fun r =>
      decide (r.1 = .ok ()) &&
        (calm (assignService "blog" "wiki.org" "10.0.0.2:9000").run r.2).any fun r' =>
          decide (r'.1 = .ok ()) &&
            decide (aclLine (serviceBackend "blog") "wiki.org" ∉ lines r'.2.file) := by
    decide +kernel
  obtain ⟨⟨r, h⟩, hadd, hrest⟩ := (Option.any_eq_true _ _).1 hrun
  simp only [Bool.and_eq_true, decide_eq_true_eq] at hrest
  obtain ⟨rfl, hrest⟩ := hrest
  obtain ⟨⟨r', h'⟩, hassign, hbad⟩ := (Option.any_eq_true _ _).1 hrest
  simp only [Bool.and_eq_true, decide_eq_true_eq] at hbad
  obtain ⟨rfl, hmissing⟩ := hbad
  have hplain : ∀ call ∈ [Call.addService "svc_blog" "blog.org"], Plain call := by decide
  have hfile : Edited [.addService "svc_blog" "blog.org"] shippedHaproxy.file h.file :=
    .cons ((runs_calm _ _ _ _).2 hadd) (.nil _)
  exact hmissing (hclaim _ _ _ _ _ _ _ _ quietBase_shipped hplain hfile (by decide) (by decide)
    ((runs_calm _ _ _ _).2 hassign))

/-- A service that was not registered. -/
theorem assigned_domain_found :
    ∃ h' recorded, Runs haproxySucceeds (assignService "blog" "blog.org" "10.0.0.2:9000").run
        shippedHaproxy (.ok ()) h' ∧
      aclLine (serviceBackend "blog") recorded ∈ lines h'.file := by
  have hrun : (calm (assignService "blog" "blog.org" "10.0.0.2:9000").run shippedHaproxy).any
      fun r => decide (r.1 = .ok ()) := by
    decide +kernel
  obtain ⟨⟨r, h'⟩, hassign, hok⟩ := (Option.any_eq_true _ _).1 hrun
  obtain rfl : r = .ok () := of_decide_eq_true hok
  have run := (runs_calm _ _ _ _).2 hassign
  obtain ⟨recorded, -, -, -, hacl, -⟩ := assigned_domain_routed quietBase_shipped
    (by simp) (.nil shipped) (by decide) (by decide) run
  exact ⟨h', recorded, run, hacl⟩

end Routed

end Config

end OpenShard
