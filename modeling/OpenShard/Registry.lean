import OpenShard.Config

/-!
# The configuration file as an ordered registry of services

A registry lists the services in the order they were added. `fileLines` is the text that stands for
it: the base configuration up to its first routing line, the registry's `acl` lines in order, its
`use_backend` lines newest first, the rest of the base, and the backend sections in order. One edit
of the file is one step of the registry, and every run of edits stays in this form.
-/

namespace OpenShard.Registry

open Text Config

/-- The registered services, each with its name and domain, oldest first. -/
abbrev Entries := List (Text × Text)

def add (R : Entries) (name domain : Text) : Entries :=
  if name ∈ R.map Prod.fst then R else R ++ [(name, domain)]

theorem mem_add_entry {R : Entries} {r : Text × Text} {name domain : Text} (h : r ∈ R) :
    r ∈ add R name domain := by
  rw [add]
  split_ifs
  · exact h
  · exact List.mem_append_left _ h

theorem mem_add {R : Entries} {name other domain : Text} (h : other ∈ R.map Prod.fst) :
    other ∈ (add R name domain).map Prod.fst := by
  obtain ⟨r, hr, rfl⟩ := List.mem_map.1 h
  exact List.mem_map_of_mem (mem_add_entry hr)

theorem mem_add_self (R : Entries) (name domain : Text) :
    name ∈ (add R name domain).map Prod.fst := by
  rw [add]
  split_ifs with h
  · exact h
  · simp

def remove (R : Entries) (name : Text) : Entries := R.filter fun r => r.1 ≠ name

def blockLines (name : Text) : List Text := [] :: backendHeader name :: backendDirectives

def fileLines (c₀ : Text) (R : Entries) : List Text :=
  ((lines c₀).takeWhile fun l => !routing l) ++ R.map (fun r => aclLine r.1 r.2) ++
    (R.reverse.map fun r => useLine r.1) ++ ((lines c₀).dropWhile fun l => !routing l) ++
      R.flatMap fun r => blockLines r.1

theorem mem_fileLines {c₀ l : Text} {R : Entries} (hl : l ∈ lines c₀) : l ∈ fileLines c₀ R := by
  rw [← @List.takeWhile_append_dropWhile _ (fun l => !routing l) (lines c₀),
    List.mem_append] at hl
  simp only [fileLines, List.mem_append]
  tauto

structure ServiceName (name : Text) : Prop where
  svc : ("svc_" : Text) <+: name
  noWhitespace : NoWhitespace name

structure Foreign (l : Text) : Prop where
  acl : ¬ ("acl host_svc_" : Text) <+: trim l
  use : ¬ ("use_backend svc_" : Text) <+: trim l
  backend : ¬ ("backend svc_" : Text) <+: trim l

/-- A configuration before any service was added to it. -/
structure Base (c₀ : Text) : Prop where
  noCarriageReturn : '\r' ∉ c₀
  routed : ∃ l ∈ lines c₀, routing l
  foreign : ∀ l ∈ lines c₀, Foreign l

section Words

variable {name name' : Text}

theorem ServiceName.ne_nil (h : ServiceName name) : name ≠ [] := by
  rintro rfl
  exact absurd h.svc (by decide)

theorem trim_header (hn : NoWhitespace name) (hne : name ≠ []) :
    trim (backendHeader name) = backendHeader name := by
  obtain ⟨d, front, rfl⟩ : ∃ d front, name = front ++ [d] :=
    ⟨_, _, (List.dropLast_append_getLast hne).symm⟩
  have hd : framed [d] := by simp [framed, hn d (by simp)]
  have heq : backendHeader (front ++ [d]) = "backend".toList ++ (" " ++ front) ++ [d] := by
    unfold backendHeader
    simp
  rw [heq]
  exact trim_of_framed (framed_append (by decide) hd _)

theorem trim_backendHeader (h : ServiceName name) :
    trim (backendHeader name) = backendHeader name :=
  trim_header h.noWhitespace h.ne_nil

theorem acl_prefix_trim (name domain : Text) :
    ("acl host_" ++ (name ++ " ") : Text) <+: trim (aclLine name domain) := by
  have heq : aclLine name domain =
      "    ".toList ++ ("acl host_" ++ (name ++ " ") ++ "hdr(host) -i") ++ (" " ++ domain) := by
    unfold aclLine
    simp
  rw [heq]
  exact (List.prefix_append _ _).trans
    (prefix_trim white_indent (framed_append (by decide) (by decide) _) _)

theorem use_prefix_trim (name : Text) : ("use_backend" : Text) <+: trim (useLine name) := by
  have heq : useLine name =
      "    ".toList ++ "use_backend".toList ++ (" " ++ name ++ " if host_" ++ name) := by
    unfold useLine
    simp
  rw [heq]
  exact prefix_trim white_indent (by decide) _

theorem marker_aclLine (h : NoWhitespace name) (h' : NoWhitespace name') (domain : Text) :
    aclMarker name <+: trim (aclLine name' domain) ↔ name = name' := by
  have hpre := acl_prefix_trim name' domain
  have hmark : aclMarker name = "acl host_" ++ (name ++ " ") := by
    unfold aclMarker
    simp
  rw [hmark]
  constructor
  · intro hm
    rcases List.prefix_or_prefix_of_prefix hm hpre with hle | hle
    · exact (word_prefix_iff h h').1 ((List.prefix_append_right_inj _).1 hle)
    · exact ((word_prefix_iff h' h).1 ((List.prefix_append_right_inj _).1 hle)).symm
  · rintro rfl
    exact hpre

theorem aclPrefix_aclLine (h : NoWhitespace name) (h' : NoWhitespace name') (domain : Text) :
    aclPrefix name <+: aclLine name' domain ↔ name = name' := by
  have hline : aclLine name' domain =
      "    acl host_" ++ (name' ++ ' ' :: ("hdr(host) -i " ++ domain)) := by
    unfold aclLine
    simp
  have hpre : aclPrefix name = "    acl host_" ++ (name ++ [' ']) := by
    unfold aclPrefix
    simp
  rw [hline, hpre, List.prefix_append_right_inj, word_prefix_iff h h']

theorem usePrefix_useLine (h : NoWhitespace name) (h' : NoWhitespace name') :
    usePrefix name <+: useLine name' ↔ name = name' := by
  have hline : useLine name' =
      "    use_backend " ++ (name' ++ ' ' :: ("if host_" ++ name')) := by
    unfold useLine
    simp
  have hpre : usePrefix name = "    use_backend " ++ (name ++ [' ']) := by
    unfold usePrefix
    simp
  rw [hline, hpre, List.prefix_append_right_inj, word_prefix_iff h h']

theorem not_usePrefix_aclLine (name name' domain : Text) :
    ¬ usePrefix name <+: aclLine name' domain := by
  unfold usePrefix aclLine
  simp

theorem not_aclPrefix_useLine (name name' : Text) : ¬ aclPrefix name <+: useLine name' := by
  unfold aclPrefix useLine
  simp

end Words

section Foreign

variable {name l : Text}

theorem Foreign.not_marker (hl : Foreign l) (h : ServiceName name) :
    ¬ aclMarker name <+: trim l := by
  intro hm
  obtain ⟨rest, rfl⟩ := h.svc
  refine hl.acl (List.IsPrefix.trans ?_ hm)
  unfold aclMarker
  simp

theorem Foreign.not_aclPrefix (hl : Foreign l) (h : ServiceName name) :
    ¬ aclPrefix name <+: l := by
  rintro ⟨r, rfl⟩
  obtain ⟨rest, rfl⟩ := h.svc
  have heq : aclPrefix ("svc_".toList ++ rest) ++ r =
      "    ".toList ++ "acl host_svc_".toList ++ (rest ++ " " ++ r) := by
    unfold aclPrefix
    simp
  rw [heq] at hl
  exact hl.acl (prefix_trim white_indent (by decide) _)

theorem Foreign.not_usePrefix (hl : Foreign l) (h : ServiceName name) :
    ¬ usePrefix name <+: l := by
  rintro ⟨r, rfl⟩
  obtain ⟨rest, rfl⟩ := h.svc
  have heq : usePrefix ("svc_".toList ++ rest) ++ r =
      "    ".toList ++ "use_backend svc_".toList ++ (rest ++ " " ++ r) := by
    unfold usePrefix
    simp
  rw [heq] at hl
  exact hl.use (prefix_trim white_indent (by decide) _)

theorem Foreign.not_header (hl : Foreign l) (h : ServiceName name) :
    trim l ≠ backendHeader name := by
  intro heq
  obtain ⟨rest, rfl⟩ := h.svc
  apply hl.backend
  rw [heq]
  unfold backendHeader
  simp

theorem foreign_directive {l : Text} (hl : l ∈ backendDirectives) : Foreign l := by
  have hall : ∀ l ∈ backendDirectives, ¬ ("acl host_svc_" : Text) <+: trim l ∧
      ¬ ("use_backend svc_" : Text) <+: trim l ∧ ¬ ("backend svc_" : Text) <+: trim l := by decide
  exact ⟨(hall l hl).1, (hall l hl).2.1, (hall l hl).2.2⟩

theorem not_opensSection_directive {l : Text} (hl : l ∈ backendDirectives) :
    opensSection l = false := by
  revert l
  decide

end Foreign

section Loop

variable {name : Text}

structure Kept (name l : Text) : Prop where
  section_ : opensSection l → trim l ≠ backendHeader name
  acl : ¬ aclPrefix name <+: l
  use : ¬ usePrefix name <+: l

theorem Foreign.kept {l : Text} (hl : Foreign l) (h : ServiceName name) : Kept name l :=
  ⟨fun _ => hl.not_header h, hl.not_aclPrefix h, hl.not_usePrefix h⟩

theorem removeLoop_kept {xs : List Text} (hxs : ∀ l ∈ xs, Kept name l) (ys : List Text) :
    removeLoop name false (xs ++ ys) = xs ++ removeLoop name false ys := by
  induction xs with
  | nil => rfl
  | cons l xs ih =>
      have hl := hxs l (by simp)
      have hflag : (if opensSection l then trim l == backendHeader name else false) = false := by
        split_ifs with ho
        · exact beq_false_of_ne (hl.section_ ho)
        · rfl
      have hrule : ¬ (aclPrefix name <+: l ∨ usePrefix name <+: l) := not_or.2 ⟨hl.acl, hl.use⟩
      rw [List.cons_append, removeLoop, hflag]
      simp only [Bool.false_eq_true, if_false, if_neg hrule, List.cons_append,
        ih fun l' hl' => hxs l' (by simp [hl'])]

theorem removeLoop_rules {R : Entries} {rule : Text × Text → Text}
    (hdrop : ∀ r ∈ R, r.1 = name → opensSection (rule r) = false ∧
      (aclPrefix name <+: rule r ∨ usePrefix name <+: rule r))
    (hkeep : ∀ r ∈ R, r.1 ≠ name → Kept name (rule r)) (ys : List Text) :
    removeLoop name false (R.map rule ++ ys) =
      (remove R name).map rule ++ removeLoop name false ys := by
  induction R with
  | nil => rfl
  | cons r R ih =>
      have ih := ih (fun r' hr' => hdrop r' (by simp [hr'])) fun r' hr' => hkeep r' (by simp [hr'])
      by_cases hr : r.1 = name
      · obtain ⟨ho, hrule⟩ := hdrop r (by simp) hr
        have hrem : remove (r :: R) name = remove R name := by simp [remove, hr]
        rw [List.map_cons, List.cons_append, removeLoop, hrem]
        simp only [ho, Bool.false_eq_true, if_false, if_pos hrule, ih]
      · have hrem : remove (r :: R) name = r :: remove R name := by simp [remove, hr]
        have hone := @removeLoop_kept name [rule r] (by simpa using hkeep r (by simp) hr)
          (R.map rule ++ ys)
        rw [hrem, List.map_cons, List.map_cons, List.cons_append, List.cons_append, ← ih]
        exact hone

variable {other : Text}

theorem kept_header (h : ServiceName other) (hne : other ≠ name) : Kept name (backendHeader other) := by
  refine ⟨fun _ => ?_, ?_, ?_⟩
  · rw [trim_backendHeader h]
    unfold backendHeader
    exact fun heq => hne (List.append_cancel_left heq)
  · unfold aclPrefix backendHeader
    simp
  · unfold usePrefix backendHeader
    simp

theorem kept_blockLines (hname : ServiceName name) (h : ServiceName other) (hne : other ≠ name) :
    ∀ l ∈ blockLines other, Kept name l := by
  intro l hl
  rcases List.mem_cons.1 hl with rfl | hl
  · refine ⟨by simp [opensSection], ?_, ?_⟩
    · unfold aclPrefix
      simp
    · unfold usePrefix
      simp
  · rcases List.mem_cons.1 hl with rfl | hl
    · exact kept_header h hne
    · exact (foreign_directive hl).kept hname

theorem removeLoop_inside {xs : List Text} (hxs : ∀ l ∈ xs, opensSection l = false)
    (ys : List Text) : removeLoop name true (xs ++ ys) = removeLoop name true ys := by
  induction xs with
  | nil => rfl
  | cons l xs ih =>
      rw [List.cons_append, removeLoop]
      simp only [hxs l (by simp), Bool.false_eq_true, if_false, if_true,
        ih fun l' hl' => hxs l' (by simp [hl'])]

theorem opensSection_header (name : Text) : opensSection (backendHeader name) := by
  unfold backendHeader
  simp [opensSection]

theorem removeLoop_own_block (h : trim (backendHeader name) = backendHeader name) (ys : List Text) :
    removeLoop name false (blockLines name ++ ys) = [] :: removeLoop name true ys := by
  have hblank : Kept name [] :=
    ⟨by simp [opensSection], by unfold aclPrefix; simp, by unfold usePrefix; simp⟩
  have hone := @removeLoop_kept name [[]] (by simpa using hblank)
    (backendHeader name :: backendDirectives ++ ys)
  have hin : removeLoop name true (backendDirectives ++ ys) = removeLoop name true ys :=
    removeLoop_inside (fun l hl => not_opensSection_directive hl) ys
  rw [blockLines, List.cons_append]
  refine hone.trans ?_
  rw [List.singleton_append, List.cons_append, removeLoop]
  simp only [opensSection_header, if_true, h, beq_self_eq_true, hin]

/-- The blank line of the next block goes with the removed section, whose own stays. -/
theorem removeLoop_next_block (hname : ServiceName name) (h : ServiceName other)
    (hne : other ≠ name) (ys : List Text) :
    [] :: removeLoop name true (blockLines other ++ ys) =
      blockLines other ++ removeLoop name false ys := by
  have hheader := kept_header h hne
  have hflag : (trim (backendHeader other) == backendHeader name) = false :=
    beq_false_of_ne (hheader.section_ (opensSection_header other))
  have hrule : ¬ (aclPrefix name <+: backendHeader other ∨ usePrefix name <+: backendHeader other) :=
    not_or.2 ⟨hheader.acl, hheader.use⟩
  have hrest := removeLoop_kept (fun l hl => (foreign_directive hl).kept hname) ys
  rw [blockLines, List.cons_append, removeLoop]
  simp only [opensSection, Bool.false_eq_true, if_false, if_true, List.cons_append]
  rw [removeLoop]
  simp only [opensSection_header, if_true, hflag, Bool.false_eq_true, if_false, if_neg hrule, hrest]

end Loop

section Blocks

variable {name : Text} {R : Entries}

theorem remove_eq_self (h : name ∉ R.map Prod.fst) : remove R name = R := by
  refine List.filter_eq_self.2 fun r hr => ?_
  have hne : r.1 ≠ name := by
    rintro rfl
    exact h (List.mem_map_of_mem hr)
  simpa using hne

theorem removeLoop_other_blocks (hname : ServiceName name) (hR : ∀ r ∈ R, ServiceName r.1)
    (hfree : name ∉ R.map Prod.fst) :
    removeLoop name false (R.flatMap fun r => blockLines r.1) = R.flatMap fun r => blockLines r.1 := by
  have hall : ∀ l ∈ R.flatMap fun r => blockLines r.1, Kept name l := by
    intro l hl
    obtain ⟨r, hr, hl⟩ := List.mem_flatMap.1 hl
    exact kept_blockLines hname (hR r hr) (fun heq => hfree (heq ▸ List.mem_map_of_mem hr)) l hl
  have h := removeLoop_kept hall []
  simpa [removeLoop] using h

theorem removeLoop_blocks (hname : ServiceName name) (hR : ∀ r ∈ R, ServiceName r.1)
    (hnodup : (R.map Prod.fst).Nodup) (hmem : name ∈ R.map Prod.fst) :
    ∃ tail, removeLoop name false (R.flatMap fun r => blockLines r.1) =
        ((remove R name).flatMap fun r => blockLines r.1) ++ tail ∧
      (tail = [[]] ∨ tail = [] ∧ remove R name ≠ []) := by
  induction R with
  | nil => simp at hmem
  | cons r R ih =>
      have hR' : ∀ r' ∈ R, ServiceName r'.1 := fun r' hr' => hR r' (by simp [hr'])
      rw [List.map_cons, List.nodup_cons] at hnodup
      rw [List.flatMap_cons]
      by_cases hr : r.1 = name
      · have hfree : name ∉ R.map Prod.fst := hr ▸ hnodup.1
        have hrem : remove (r :: R) name = R := by
          rw [← remove_eq_self hfree]
          simp [remove, hr]
        rw [hr, removeLoop_own_block (trim_backendHeader hname), hrem]
        cases R with
        | nil => exact ⟨[[]], by simp [removeLoop], Or.inl rfl⟩
        | cons r' R =>
            have hne : r'.1 ≠ name := fun heq => hfree (by simp [heq])
            refine ⟨[], ?_, Or.inr ⟨rfl, by simp⟩⟩
            rw [List.flatMap_cons, removeLoop_next_block hname (hR' r' (by simp)) hne,
              removeLoop_other_blocks hname (fun r hr => hR' r (by simp [hr]))
                (fun h => hfree (by simp [h])), List.append_nil]
      · have hmem' : name ∈ R.map Prod.fst := by
          simpa [Ne.symm hr] using hmem
        obtain ⟨tail, heq, htail⟩ := ih hR' hnodup.2 hmem'
        have hrem : remove (r :: R) name = r :: remove R name := by simp [remove, hr]
        refine ⟨tail, ?_, ?_⟩
        · rw [removeLoop_kept (kept_blockLines hname (hR r (by simp)) hr), heq, hrem,
            List.flatMap_cons, List.append_assoc]
        · rw [hrem]
          rcases htail with h | h
          · exact Or.inl h
          · exact Or.inr ⟨h.1, by simp⟩

end Blocks

section Edits

variable {c₀ c name domain : Text} {R : Entries}

/-- What may be registered: names of the registrar's form and domains without white space. -/
def Valid (R : Entries) : Prop := ∀ r ∈ R, ServiceName r.1 ∧ NoWhitespace r.2

theorem Valid.remove (hR : Valid R) : Valid (remove R name) :=
  fun r hr => hR r (List.mem_of_mem_filter hr)

theorem routing_aclLine (name domain : Text) : routing (aclLine name domain) = false := by
  have hacl := acl_prefix_trim name domain
  simp only [routing, Bool.or_eq_false_iff, decide_eq_false_iff_not]
  exact ⟨not_prefix_of_head hacl (by decide), not_prefix_of_head hacl (by decide)⟩

theorem routing_useLine (name : Text) : routing (useLine name) = true := by
  unfold routing
  rw [Bool.or_eq_true]
  exact Or.inr (decide_eq_true (use_prefix_trim name))

theorem inline_aclLine (hn : NoWhitespace name) (hd : NoWhitespace domain) :
    Inline (aclLine name domain) := by
  have hn := hn.inline
  have hd := hd.inline
  unfold aclLine
  simp [hn, hd]

theorem inline_useLine (hn : NoWhitespace name) : Inline (useLine name) := by
  have hn := hn.inline
  unfold useLine
  simp [hn]

theorem inline_blockLines (hn : NoWhitespace name) : ∀ l ∈ blockLines name, Inline l := by
  have hn := hn.inline
  have hdir : ∀ l ∈ backendDirectives, Inline l := by decide
  intro l hl
  rcases List.mem_cons.1 hl with rfl | hl
  · exact inline_nil
  · rcases List.mem_cons.1 hl with rfl | hl
    · unfold backendHeader
      simp [hn]
    · exact hdir l hl

theorem inline_fileLines (hc : '\r' ∉ c₀) (hR : Valid R) : ∀ l ∈ fileLines c₀ R, Inline l := by
  intro l hl
  have hbase : ∀ l ∈ lines c₀, Inline l := inline_of_mem_lines hc
  simp only [fileLines, List.mem_append] at hl
  rcases hl with (((hl | hl) | hl) | hl) | hl
  · exact hbase l ((List.takeWhile_sublist _).mem hl)
  · obtain ⟨r, hr, rfl⟩ := List.mem_map.1 hl
    exact inline_aclLine (hR r hr).1.noWhitespace (hR r hr).2
  · obtain ⟨r, hr, rfl⟩ := List.mem_map.1 hl
    exact inline_useLine (hR r (List.mem_reverse.1 hr)).1.noWhitespace
  · exact hbase l ((List.dropWhile_sublist _).mem hl)
  · obtain ⟨r, hr, hl⟩ := List.mem_flatMap.1 hl
    exact inline_blockLines (hR r hr).1.noWhitespace l hl

theorem lines_backendBlock (hn : NoWhitespace name) :
    lines (backendBlock name) = blockLines name := by
  have hheader : Inline (backendHeader name) := by
    have hn := hn.inline
    unfold backendHeader
    simp [hn]
  have hdir : lines (join backendDirectives ++ "\n") = backendDirectives := by decide
  have heq : backendBlock name =
      '\n' :: (backendHeader name ++ '\n' :: (join backendDirectives ++ "\n")) := by
    unfold backendBlock
    simp
  rw [heq, lines_newline, lines_inline_newline hheader, hdir, blockLines]

/-- Where the file's routing lines begin: behind the `acl` lines, before the newest rule. -/
theorem fileLines_split (hb : Base c₀) (R : Entries) :
    (fileLines c₀ R).any routing ∧
    (fileLines c₀ R).takeWhile (fun l => !routing l) =
      ((lines c₀).takeWhile fun l => !routing l) ++ R.map (fun r => aclLine r.1 r.2) ∧
    (fileLines c₀ R).dropWhile (fun l => !routing l) =
      (R.reverse.map fun r => useLine r.1) ++ ((lines c₀).dropWhile fun l => !routing l) ++
        R.flatMap fun r => blockLines r.1 := by
  have hbefore : ∀ l ∈ ((lines c₀).takeWhile fun l => !routing l) ++
      R.map (fun r => aclLine r.1 r.2), !routing l := by
    intro l hl
    rcases List.mem_append.1 hl with hl | hl
    · have hnot := List.mem_takeWhile_imp hl
      exact hnot
    · obtain ⟨r, _, rfl⟩ := List.mem_map.1 hl
      rw [routing_aclLine]
      rfl
  have hrest : ∃ l ls, (lines c₀).dropWhile (fun l => !routing l) = l :: ls ∧ routing l := by
    obtain ⟨l, hl, hr⟩ := hb.routed
    cases hd : (lines c₀).dropWhile fun l => !routing l with
    | nil =>
        have hall := List.dropWhile_eq_nil_iff.1 hd l hl
        simp [hr] at hall
    | cons l' ls =>
        have hnot := List.head?_dropWhile_not (fun l => !routing l) (lines c₀)
        rw [hd] at hnot
        exact ⟨l', ls, rfl, by simpa using hnot⟩
  obtain ⟨l₁, ls, hdrop, hl₁⟩ := hrest
  have hafter : ∃ l ls', (R.reverse.map fun r => useLine r.1) ++
      ((lines c₀).dropWhile fun l => !routing l) ++ (R.flatMap fun r => blockLines r.1) =
        l :: ls' ∧ routing l := by
    rw [hdrop]
    cases R.reverse with
    | nil => exact ⟨l₁, _, rfl, hl₁⟩
    | cons r rs => exact ⟨useLine r.1, _, rfl, routing_useLine r.1⟩
  obtain ⟨l₂, ls₂, hafter, hl₂⟩ := hafter
  have hwhole : fileLines c₀ R = ((lines c₀).takeWhile fun l => !routing l) ++
      R.map (fun r => aclLine r.1 r.2) ++ (l₂ :: ls₂) := by
    rw [← hafter, fileLines]
    simp only [List.append_assoc]
  rw [hwhole, List.takeWhile_append_of_pos hbefore, List.dropWhile_append_of_pos hbefore, hafter]
  refine ⟨?_, ?_, ?_⟩
  · simp [hl₂]
  · simp [hl₂]
  · simp [hl₂]

/-- Adding an unregistered service appends it to the registry. -/
theorem lines_addedContent (hb : Base c₀) (hR : Valid R) (hc : lines c = fileLines c₀ R)
    (hn : ServiceName name) (hd : NoWhitespace domain) :
    ∃ c', addedContent c name domain = some c' ∧
      lines c' = fileLines c₀ (R ++ [(name, domain)]) := by
  obtain ⟨hany, htake, hdrop⟩ := fileLines_split hb R
  have hinl := inline_fileLines hb.noCarriageReturn hR
  refine ⟨_, by simp only [addedContent, hc, if_pos hany, htake, hdrop]; rfl, ?_⟩
  have hpieces : ∀ l ∈ ((lines c₀).takeWhile fun l => !routing l) ++
      R.map (fun r => aclLine r.1 r.2) ++ [aclLine name domain, useLine name] ++
        ((R.reverse.map fun r => useLine r.1) ++ ((lines c₀).dropWhile fun l => !routing l) ++
          R.flatMap fun r => blockLines r.1), Inline l := by
    intro l hl
    simp only [List.mem_append, List.mem_cons, List.not_mem_nil, or_false] at hl
    simp only [fileLines, List.mem_append] at hinl
    rcases hl with ((hl | hl) | rfl | rfl) | (hl | hl) | hl
    · exact hinl l (Or.inl (Or.inl (Or.inl (Or.inl hl))))
    · exact hinl l (Or.inl (Or.inl (Or.inl (Or.inr hl))))
    · exact inline_aclLine hn.noWhitespace hd
    · exact inline_useLine hn.noWhitespace
    · exact hinl l (Or.inl (Or.inl (Or.inr hl)))
    · exact hinl l (Or.inl (Or.inr hl))
    · exact hinl l (Or.inr hl)
  rw [lines_join_append hpieces, lines_backendBlock hn.noWhitespace]
  simp [fileLines]

theorem getLast_blocks {R : Entries} (hR : R ≠ []) (xs : List Text) :
    (xs ++ R.flatMap fun r => blockLines r.1).getLast? ≠ some [] := by
  obtain ⟨front, r, rfl⟩ : ∃ front r, R = front ++ [r] :=
    ⟨_, _, (List.dropLast_append_getLast hR).symm⟩
  have hlast : (blockLines r.1).getLast? =
      some "    http-response set-header X-Served-By %[srv_name]" := rfl
  rw [List.flatMap_append, List.flatMap_singleton, ← List.append_assoc, List.getLast?_append, hlast]
  simp

theorem lines_removedContent (hb : Base c₀) (hR : Valid R) (hc : lines c = fileLines c₀ R)
    (hn : ServiceName name) (hnodup : (R.map Prod.fst).Nodup) (hmem : name ∈ R.map Prod.fst) :
    lines (removedContent c name) = fileLines c₀ (remove R name) := by
  have hbase : ∀ l ∈ lines c₀, Kept name l := fun l hl => (hb.foreign l hl).kept hn
  have hacl := fun ys => @removeLoop_rules name R (fun r => aclLine r.1 r.2)
    (fun r hr heq => ⟨by unfold aclLine; simp [opensSection],
      Or.inl ((aclPrefix_aclLine hn.noWhitespace (hR r hr).1.noWhitespace r.2).2 heq.symm)⟩)
    (fun r hr hne => ⟨by unfold aclLine; simp [opensSection],
      fun h => hne ((aclPrefix_aclLine hn.noWhitespace (hR r hr).1.noWhitespace r.2).1 h).symm,
      not_usePrefix_aclLine name r.1 r.2⟩) ys
  have huse := fun ys => @removeLoop_rules name R.reverse (fun r => useLine r.1)
    (fun r hr heq => ⟨by unfold useLine; simp [opensSection],
      Or.inr ((usePrefix_useLine hn.noWhitespace
        (hR r (List.mem_reverse.1 hr)).1.noWhitespace).2 heq.symm)⟩)
    (fun r hr hne => ⟨by unfold useLine; simp [opensSection], not_aclPrefix_useLine name r.1,
      fun h => hne ((usePrefix_useLine hn.noWhitespace
        (hR r (List.mem_reverse.1 hr)).1.noWhitespace).1 h).symm⟩) ys
  have hrev : remove R.reverse name = (remove R name).reverse := List.filter_reverse
  obtain ⟨tail, hblocks, htail⟩ := removeLoop_blocks hn (fun r hr => (hR r hr).1) hnodup hmem
  have hloop : removeLoop name false (lines c) = fileLines c₀ (remove R name) ++ tail := by
    rw [hc, fileLines, fileLines]
    simp only [List.append_assoc]
    rw [removeLoop_kept fun l hl => hbase l ((List.takeWhile_sublist _).mem hl), hacl, huse,
      removeLoop_kept fun l hl => hbase l ((List.dropWhile_sublist _).mem hl), hblocks, hrev]
  have hinl := inline_fileLines hb.noCarriageReturn (@Valid.remove name R hR)
  rw [removedContent, hloop]
  rcases htail with rfl | ⟨rfl, hne⟩
  · exact lines_join_append_nil hinl
  · rw [List.append_nil]
    exact lines_join hinl (getLast_blocks hne _)

theorem not_marker_useLine (name name' : Text) : ¬ aclMarker name <+: trim (useLine name') :=
  not_prefix_of_head (use_prefix_trim name') (by decide)

theorem not_marker_block (hn : ServiceName name) {other : Text} (h : ServiceName other) :
    ∀ l ∈ blockLines other, ¬ aclMarker name <+: trim l := by
  intro l hl
  rcases List.mem_cons.1 hl with rfl | hl
  · unfold aclMarker
    simp [trim, trimStart, trimEnd]
  · rcases List.mem_cons.1 hl with rfl | hl
    · rw [trim_backendHeader h]
      unfold aclMarker backendHeader
      simp
    · exact (foreign_directive hl).not_marker hn

theorem serviceExists_iff (hb : Base c₀) (hR : Valid R) (hc : lines c = fileLines c₀ R)
    (hn : ServiceName name) : serviceExists c name ↔ name ∈ R.map Prod.fst := by
  have hbase : ∀ l ∈ lines c₀, ¬ aclMarker name <+: trim l :=
    fun l hl => (hb.foreign l hl).not_marker hn
  unfold serviceExists
  rw [hc]
  constructor
  · rintro ⟨l, hl, hm⟩
    simp only [fileLines, List.mem_append] at hl
    rcases hl with (((hl | hl) | hl) | hl) | hl
    · exact absurd hm (hbase l ((List.takeWhile_sublist _).mem hl))
    · obtain ⟨r, hr, rfl⟩ := List.mem_map.1 hl
      rw [(marker_aclLine hn.noWhitespace (hR r hr).1.noWhitespace r.2).1 hm]
      exact List.mem_map_of_mem hr
    · obtain ⟨r, _, rfl⟩ := List.mem_map.1 hl
      exact absurd hm (not_marker_useLine name r.1)
    · exact absurd hm (hbase l ((List.dropWhile_sublist _).mem hl))
    · obtain ⟨r, hr, hl⟩ := List.mem_flatMap.1 hl
      exact absurd hm (not_marker_block hn (hR r hr).1 l hl)
  · intro hmem
    obtain ⟨r, hr, rfl⟩ := List.mem_map.1 hmem
    refine ⟨aclLine r.1 r.2, ?_, (marker_aclLine hn.noWhitespace hn.noWhitespace r.2).2 rfl⟩
    simp only [fileLines, List.mem_append]
    exact Or.inl (Or.inl (Or.inl (Or.inr (List.mem_map_of_mem hr))))

def listed (l : Text) : Option Text :=
  if ("backend svc_" : Text) <+: trim l then some ((trim l).drop "backend ".toList.length)
  else none

theorem listed_header (h : ServiceName name) : listed (backendHeader name) = some name := by
  obtain ⟨rest, rfl⟩ := h.svc
  rw [listed, trim_backendHeader h, if_pos]
  · unfold backendHeader
    simp
  · unfold backendHeader
    simp

theorem Foreign.listed {l : Text} (hl : Foreign l) : listed l = none := if_neg hl.backend

theorem listed_aclLine (name domain : Text) : listed (aclLine name domain) = none :=
  if_neg (not_prefix_of_head (acl_prefix_trim name domain) (by decide))

theorem listed_useLine (name : Text) : listed (useLine name) = none :=
  if_neg (not_prefix_of_head (use_prefix_trim name) (by decide))

theorem filterMap_listed_block (h : ServiceName name) :
    (blockLines name).filterMap listed = [name] := by
  have hdir : backendDirectives.filterMap listed = [] :=
    List.filterMap_eq_nil_iff.2 fun l hl => (foreign_directive hl).listed
  have hblank : listed [] = none := by decide
  rw [blockLines, List.filterMap_cons_none hblank, List.filterMap_cons_some (listed_header h), hdir]

theorem serviceNames_eq (hb : Base c₀) (hR : Valid R) (hc : lines c = fileLines c₀ R) :
    serviceNames c = R.map Prod.fst := by
  have hbase : ∀ l ∈ lines c₀, listed l = none := fun l hl => (hb.foreign l hl).listed
  have hbefore : ((lines c₀).takeWhile fun l => !routing l).filterMap listed = [] :=
    List.filterMap_eq_nil_iff.2 fun l hl => hbase l ((List.takeWhile_sublist _).mem hl)
  have hafter : ((lines c₀).dropWhile fun l => !routing l).filterMap listed = [] :=
    List.filterMap_eq_nil_iff.2 fun l hl => hbase l ((List.dropWhile_sublist _).mem hl)
  have hacl : (R.map fun r => aclLine r.1 r.2).filterMap listed = [] := by
    refine List.filterMap_eq_nil_iff.2 fun l hl => ?_
    obtain ⟨r, _, rfl⟩ := List.mem_map.1 hl
    exact listed_aclLine r.1 r.2
  have huse : (R.reverse.map fun r => useLine r.1).filterMap listed = [] := by
    refine List.filterMap_eq_nil_iff.2 fun l hl => ?_
    obtain ⟨r, _, rfl⟩ := List.mem_map.1 hl
    exact listed_useLine r.1
  have hblocks : (R.flatMap fun r => blockLines r.1).filterMap listed = R.map Prod.fst := by
    rw [List.filterMap_flatMap, List.map_eq_flatMap]
    exact List.flatMap_congr fun r hr => filterMap_listed_block (hR r hr).1
  have hlist : serviceNames c = (lines c).filterMap listed := rfl
  rw [hlist, hc, fileLines]
  simp only [List.filterMap_append, hbefore, hafter, hacl, huse, hblocks, List.nil_append,
    List.append_nil]

theorem hasBackend_fileLines (hR : Valid R) (hc : lines c = fileLines c₀ R) {r : Text × Text}
    (hr : r ∈ R) : hasBackend c r.1 := by
  have hline : backendHeader r.1 ∈ fileLines c₀ R := by
    simp only [fileLines, List.mem_append, List.mem_flatMap]
    exact Or.inr ⟨r, hr, by simp [blockLines]⟩
  rw [hasBackend, hc]
  exact List.mem_map.2 ⟨_, hline, trim_backendHeader (hR r hr).1⟩

end Edits

section Runs

inductive Call
  | addService (name domain : Text)
  | removeService (name : Text)

namespace Call

def manager : Call → Manager Unit
  | addService name domain => Config.addService name domain
  | removeService name => Config.removeService name

def Admissible : Call → Prop
  | addService name domain => ServiceName name ∧ NoWhitespace domain
  | removeService name => ServiceName name

def register (R : Entries) : Call → Entries
  | addService name domain => add R name domain
  | removeService name => remove R name

end Call

def registered (calls : List Call) : Entries := calls.foldl Call.register []

inductive Edits : List Call → Haproxy → Haproxy → Prop
  | nil (h : Haproxy) : Edits [] h h
  | cons {call : Call} {calls : List Call} {h h' h'' : Haproxy} {r : Except ConfigError Unit}
      (hrun : Runs haproxySucceeds call.manager.run h r h') (hrest : Edits calls h' h'') :
      Edits (call :: calls) h h''

/-- The file stands for the registry `R` over the base configuration `c₀`. -/
structure Refines (c₀ : Text) (R : Entries) (h : Haproxy) : Prop where
  file : lines h.file = fileLines c₀ R
  valid : Valid R
  nodup : (R.map Prod.fst).Nodup
  unlocked : h.configLocked = false

variable {c₀ : Text} {R : Entries} {h : Haproxy}

theorem refines_base (hfile : h.file = c₀) (hl : h.configLocked = false) : Refines c₀ [] h := by
  refine ⟨?_, by simp [Valid], by simp, hl⟩
  rw [hfile, fileLines]
  simp

theorem Refines.add (hb : Base c₀) (hR : Refines c₀ R h) {name domain : Text}
    (hn : ServiceName name) (hd : NoWhitespace domain) :
    ∃ h', calm (Config.addService name domain).run h = some (.ok (), h') ∧
      Refines c₀ (add R name domain) h' := by
  have hex := serviceExists_iff hb hR.valid hR.file hn
  rw [calm_addService h name domain hR.unlocked, added]
  by_cases hmem : name ∈ R.map Prod.fst
  · refine ⟨h, by rw [if_pos (hex.2 hmem)], ?_⟩
    rw [Registry.add, if_pos hmem]
    exact hR
  · obtain ⟨c', hc', hlines⟩ := lines_addedContent hb hR.valid hR.file hn hd
    refine ⟨{ h with file := c' }.reload, by rw [if_neg (mt hex.1 hmem), hc'], ?_⟩
    rw [Registry.add, if_neg hmem]
    refine ⟨hlines, ?_, ?_, hR.unlocked⟩
    · intro r hr
      rcases List.mem_append.1 hr with hr | hr
      · exact hR.valid r hr
      · rw [List.mem_singleton.1 hr]
        exact ⟨hn, hd⟩
    · rw [List.map_append, List.map_singleton]
      exact hR.nodup.append (List.nodup_singleton name) (by simpa using hmem)

theorem Refines.remove (hb : Base c₀) (hR : Refines c₀ R h) {name : Text} (hn : ServiceName name) :
    ∃ h', calm (Config.removeService name).run h = some (.ok (), h') ∧
      Refines c₀ (remove R name) h' := by
  have hex := serviceExists_iff hb hR.valid hR.file hn
  rw [calm_removeService h name hR.unlocked]
  by_cases hmem : name ∈ R.map Prod.fst
  · refine ⟨{ h with file := removedContent h.file name }.reload, by rw [if_pos (hex.2 hmem)], ?_⟩
    refine ⟨lines_removedContent hb hR.valid hR.file hn hR.nodup hmem, hR.valid.remove, ?_,
      hR.unlocked⟩
    exact hR.nodup.sublist (List.filter_sublist.map _)
  · refine ⟨h, by rw [if_neg (mt hex.1 hmem)], ?_⟩
    rw [remove_eq_self hmem]
    exact hR

theorem Refines.step (hb : Base c₀) (hR : Refines c₀ R h) {call : Call} (hcall : call.Admissible) :
    ∃ h', calm call.manager.run h = some (.ok (), h') ∧ Refines c₀ (call.register R) h' := by
  cases call with
  | addService name domain => exact hR.add hb hcall.1 hcall.2
  | removeService name => exact hR.remove hb hcall

/-- Every admissible list of calls runs to its end, in one way, and registers what it should. -/
theorem edits_refine (hb : Base c₀) {calls : List Call} (hcalls : ∀ c ∈ calls, c.Admissible)
    (hR : Refines c₀ R h) :
    (∃ h', Edits calls h h') ∧
      ∀ h', Edits calls h h' → Refines c₀ (calls.foldl Call.register R) h' := by
  induction calls generalizing R h with
  | nil =>
      refine ⟨⟨h, .nil h⟩, fun h' he => ?_⟩
      cases he
      exact hR
  | cons call calls ih =>
      obtain ⟨h₁, hrun, hR₁⟩ := hR.step hb (hcalls call (by simp))
      obtain ⟨⟨h', hrest⟩, hall⟩ := ih (fun c hc => hcalls c (by simp [hc])) hR₁
      refine ⟨⟨h', .cons ((runs_calm _ _ _ _).2 hrun) hrest⟩, fun h'' he => ?_⟩
      cases he with
      | cons hrun' hrest' =>
          rw [runs_calm, hrun, Option.some.injEq, Prod.mk.injEq] at hrun'
          obtain ⟨-, rfl⟩ := hrun'
          exact hall h'' hrest'

/-- The configuration file refines the ordered registry of services. -/
theorem file_refines_registry (hb : Base c₀) (calls : List Call)
    (hcalls : ∀ c ∈ calls, c.Admissible) (hfile : h.file = c₀) (hl : h.configLocked = false) :
    (∃ h', Edits calls h h') ∧ ∀ h', Edits calls h h' →
      lines h'.file = fileLines c₀ (registered calls) ∧
      (∀ name, ServiceName name →
        (serviceExists h'.file name ↔ name ∈ (registered calls).map Prod.fst)) ∧
      ∀ r h'', Runs haproxySucceeds listServices.run h' r h'' →
        r = .ok ((registered calls).map Prod.fst) ∧ h'' = h' := by
  obtain ⟨hterm, hall⟩ := edits_refine hb hcalls (refines_base hfile hl)
  refine ⟨hterm, fun h' he => ?_⟩
  have hR := hall h' he
  refine ⟨hR.file, fun name hn => serviceExists_iff hb hR.valid hR.file hn, fun r h'' hrun => ?_⟩
  rw [runs_calm, calm_listServices, serviceNames_eq hb hR.valid hR.file, Option.some.injEq,
    Prod.mk.injEq] at hrun
  exact ⟨hrun.1.symm, hrun.2.symm⟩

theorem inline_shipped : ∀ l ∈ shippedLines, Inline l := by decide +kernel

theorem join_append_newline {ls : List Text} (hls : ls ≠ []) : join ls ++ ['\n'] = join (ls ++ [[]]) := by
  rcases List.eq_nil_or_concat ls with rfl | ⟨front, l, rfl⟩
  · exact absurd rfl hls
  · rw [List.concat_eq_append, join_append_singleton, join_append_singleton]
    simp

theorem shipped_eq : shipped = join (shippedLines ++ [[]]) := join_append_newline (by simp [shippedLines])

theorem lines_shipped : lines shipped = shippedLines := by
  rw [shipped_eq, lines_join_append_nil inline_shipped]

theorem shipped_noCarriageReturn : '\r' ∉ shipped := by
  rw [shipped_eq, join_append_singleton, List.append_nil, List.mem_flatMap]
  rintro ⟨l, hl, hr⟩
  rcases List.mem_append.1 hr with hr | hr
  · exact (inline_shipped l hl).2 hr
  · simp at hr

theorem base_shipped : Base shipped where
  noCarriageReturn := shipped_noCarriageReturn
  routed := by
    rw [lines_shipped]
    decide +kernel
  foreign := by
    rw [lines_shipped]
    have hall : ∀ l ∈ shippedLines, ¬ ("acl host_svc_" : Text) <+: trim l ∧
        ¬ ("use_backend svc_" : Text) <+: trim l ∧ ¬ ("backend svc_" : Text) <+: trim l := by
      decide +kernel
    exact fun l hl => ⟨(hall l hl).1, (hall l hl).2.1, (hall l hl).2.2⟩

theorem file_refines_registry_shipped :
    ∃ h', Edits [.addService "svc_blog" "blog.org", .addService "svc_shop" "shop.org",
        .removeService "svc_blog"] ⟨shipped, shipped, ∅, 0, false⟩ h' ∧
      lines h'.file = fileLines shipped [("svc_shop", "shop.org")] := by
  obtain ⟨⟨h', he⟩, hall⟩ := file_refines_registry base_shipped
    [.addService "svc_blog" "blog.org", .addService "svc_shop" "shop.org",
      .removeService "svc_blog"]
    (by
      intro c hc
      simp only [List.mem_cons, List.not_mem_nil, or_false] at hc
      rcases hc with rfl | rfl | rfl
      · exact ⟨⟨by decide, by decide⟩, by decide⟩
      · exact ⟨⟨by decide, by decide⟩, by decide⟩
      · exact ⟨by decide, by decide⟩)
    (@rfl _ (Haproxy.mk shipped shipped ∅ 0 false).file) rfl
  exact ⟨h', he, (hall h' he).1⟩

end Runs

end OpenShard.Registry
