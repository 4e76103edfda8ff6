import OpenShard.Detection
import OpenShard.Routing

/-!
# Which section a removal takes

A list that has headers in it is cut into sections, and a pruning takes out the sections that one
kind of header opens. The removal of a service prunes the file, but its headers are the lines that
are not indented, whether HAProxy begins a section there or not. It takes the directives of the
service's section and no others exactly if the two kinds of headers put each directive on the same
side.
-/

namespace OpenShard

section Outline

variable {α : Type}

/-- What stands before the first header, and the sections, each with its header in front. -/
def outline (header : α → Bool) : List α → List α × List (List α)
  | [] => ([], [])
  | x :: xs =>
    let rest := outline header xs
    if header x then ([], (x :: rest.1) :: rest.2) else (x :: rest.1, rest.2)

/-- Take out the sections that a target opens, and what is to be dropped anywhere. -/
def prune (header target drop : α → Bool) : Bool → List α → List α
  | _, [] => []
  | inside, x :: xs =>
    let inside := if header x then target x else inside
    if inside || drop x then prune header target drop inside xs
    else x :: prune header target drop inside xs

/-- The sections that no target opens, without what is to be dropped. -/
def others (target drop : α → Bool) (o : List α × List (List α)) : List α × List (List α) :=
  (o.1.filter (!drop ·), (o.2.filter fun s => !s.head?.any target).map (List.filter (!drop ·)))

/-- The section that is open behind these elements is a target's. -/
def within (header target : α → Bool) (before : List α) : Bool :=
  (before.reverse.find? header).any target

def positions : List α → List α → List (List α × α)
  | _, [] => []
  | before, x :: xs => (before, x) :: positions (before ++ [x]) xs

variable {header target drop : α → Bool}

theorem outline_flatten (xs : List α) :
    (outline header xs).1 ++ (outline header xs).2.flatten = xs := by
  induction xs with
  | nil => rfl
  | cons x xs ih =>
      rw [outline]
      by_cases hx : header x
      · simp [hx, ih]
      · simp [hx, ih]

theorem outline_injective : Function.Injective (outline header) := by
  intro xs ys h
  rw [← @outline_flatten _ header xs, h, outline_flatten]

theorem outline_prune (hdrop : ∀ x, header x → drop x = false) (inside : Bool) (xs : List α) :
    outline header (prune header target drop inside xs) =
      (if inside then [] else (others target drop (outline header xs)).1,
        (others target drop (outline header xs)).2) := by
  induction xs generalizing inside with
  | nil => cases inside <;> rfl
  | cons x xs ih =>
      rw [prune, outline]
      by_cases hx : header x
      · have hkept := hdrop x hx
        by_cases ht : target x
        · simp [hx, ht, ih, others]
        · simp [hx, ht, hkept, outline, ih, others]
      · cases inside with
        | true => simp [hx, ih, others]
        | false =>
            by_cases hd : drop x
            · simp [hx, hd, ih, others]
            · simp [hx, hd, outline, ih, others]

theorem within_snoc (before : List α) (x : α) :
    within header target (before ++ [x]) =
      if header x then target x else within header target before := by
  rw [within, List.reverse_append, List.reverse_singleton, List.singleton_append, List.find?_cons]
  cases header x <;> rfl

theorem mem_positions {before xs : List α} {p : List α × α} :
    p ∈ positions before xs ↔ ∃ front back, xs = front ++ p.2 :: back ∧ p.1 = before ++ front := by
  induction xs generalizing before with
  | nil => simp [positions]
  | cons x xs ih =>
      rw [positions, List.mem_cons, ih]
      constructor
      · rintro (rfl | ⟨front, back, rfl, hp⟩)
        · exact ⟨[], xs, rfl, (List.append_nil _).symm⟩
        · exact ⟨x :: front, back, rfl, by simpa using hp⟩
      · rintro ⟨front, back, hsplit, hp⟩
        cases front with
        | nil =>
            obtain ⟨rfl, -⟩ := List.cons.inj hsplit
            exact Or.inl (Prod.ext (by simpa using hp) rfl)
        | cons y front =>
            obtain ⟨rfl, rfl⟩ := List.cons.inj hsplit
            exact Or.inr ⟨front, back, rfl, by simpa using hp⟩

/-- A pruning keeps an element by where it stands. -/
theorem prune_positions (before xs : List α) :
    prune header target drop (within header target before) xs =
      ((positions before xs).filter fun p =>
        !within header target (p.1 ++ [p.2]) && !drop p.2).map Prod.snd := by
  induction xs generalizing before with
  | nil => rfl
  | cons x xs ih =>
      rw [prune, positions, List.filter_cons, ← within_snoc, ih]
      by_cases hin : within header target (before ++ [x])
      · simp [hin]
      · by_cases hd : drop x
        · simp [hin, hd]
        · simp [hin, hd]

theorem of_length_filter_eq {p q : α → Bool} {xs : List α} (hpq : ∀ x ∈ xs, p x → q x)
    (hlen : (xs.filter p).length = (xs.filter q).length) : ∀ x ∈ xs, q x → p x := by
  have hsub : xs.filter p = (xs.filter q).filter p := by
    rw [List.filter_filter]
    refine List.filter_congr fun x hx => ?_
    cases hp : p x with
    | false => rfl
    | true => rw [hpq x hx hp]; rfl
  rw [hsub, List.length_filter_eq_length_iff] at hlen
  exact fun x hx hq => hlen x (List.mem_filter.2 ⟨hx, hq⟩)

section Agree

variable {opens keep : α → Bool} {f : α → α} {xs : List α}

/-- Both kinds of headers put each kept element on the same side. -/
def Agree (opens header target drop keep : α → Bool) (xs : List α) : Prop :=
  ∀ front x back, xs = front ++ x :: back → keep x → drop x = false →
    within opens target (front ++ [x]) = within header target (front ++ [x])

/-- The kept elements that a pruning by these headers leaves, with what stands before them. -/
def remaining (header target drop keep : α → Bool) (xs : List α) : List (List α × α) :=
  (positions [] xs).filter fun p =>
    keep p.2 && (!within header target (p.1 ++ [p.2]) && !drop p.2)

theorem mem_remaining {p : List α × α} :
    p ∈ remaining header target drop keep xs ↔ p ∈ positions [] xs ∧ keep p.2 ∧
      within header target (p.1 ++ [p.2]) = false ∧ drop p.2 = false := by
  simp [remaining]

theorem prune_remaining :
    (prune header target drop false xs).filter keep =
      (remaining header target drop keep xs).map Prod.snd := by
  have hstart : within header target [] = false := rfl
  rw [← hstart, prune_positions, List.filter_map, List.filter_filter]
  rfl

theorem prune_filter_map (hkeep : ∀ x, header x → keep x) (hf : ∀ x, header (f x) = header x)
    (hf' : ∀ x, target (f x) = target x) (hf'' : ∀ x, drop (f x) = drop x) (inside : Bool)
    (xs : List α) :
    prune header target drop inside ((xs.filter keep).map f) =
      ((prune header target drop inside xs).filter keep).map f := by
  induction xs generalizing inside with
  | nil => rfl
  | cons x xs ih =>
      by_cases hx : keep x
      · rw [List.filter_cons_of_pos hx, List.map_cons, prune, prune, hf, hf', hf'', ih]
        generalize (if header x then target x else inside) = now
        split_ifs
        · rfl
        · simp [hx]
      · have hheader : header x = false := by simpa using mt (hkeep x) hx
        rw [List.filter_cons_of_neg hx, ih, prune]
        simp only [hheader, Bool.false_eq_true, if_false]
        split_ifs
        · rfl
        · simp [hx]

variable (hkeep : ∀ x, header x → keep x) (hdrop : ∀ x, header x → drop x = false)
  (hopens : ∀ x, opens x → target x → header x) (hheader : ∀ x, header (f x) = header x)
  (htarget : ∀ x, target (f x) = target x)

include hkeep hdrop hheader htarget in
theorem header_agrees
    (heq : (remaining opens target drop keep xs).map (fun p => f p.2) =
      (remaining header target drop keep xs).map fun p => f p.2) :
    ∀ p ∈ positions [] xs, header p.2 → within opens target (p.1 ++ [p.2]) →
      within header target (p.1 ++ [p.2]) := by
  have hown : ∀ p : List α × α, header p.2 → within header target (p.1 ++ [p.2]) = target p.2 := by
    intro p hp
    rw [within_snoc, if_pos hp]
  have hsub : ∀ p ∈ positions [] xs,
      header p.2 && !within opens target (p.1 ++ [p.2]) →
        header p.2 && !within header target (p.1 ++ [p.2]) := by
    intro p hp hstays
    simp only [Bool.and_eq_true, Bool.not_eq_true'] at hstays ⊢
    obtain ⟨hh, hout⟩ := hstays
    have hmem : f p.2 ∈ (remaining header target drop keep xs).map fun p => f p.2 := by
      rw [← heq]
      exact List.mem_map.2 ⟨p, mem_remaining.2 ⟨hp, hkeep _ hh, hout, hdrop _ hh⟩, rfl⟩
    obtain ⟨q, hq, hqp⟩ := List.mem_map.1 hmem
    obtain ⟨-, -, hqout, -⟩ := mem_remaining.1 hq
    have hqh : header q.2 := by rw [← hheader, hqp, hheader, hh]
    refine ⟨hh, ?_⟩
    rw [hown p hh, ← htarget, ← hqp, htarget, ← hown q hqh, hqout]
  have hcount : ∀ o : α → Bool,
      (((remaining o target drop keep xs).map fun p => f p.2).filter header).length =
        ((positions [] xs).filter fun p =>
          header p.2 && !within o target (p.1 ++ [p.2])).length := by
    intro o
    rw [List.filter_map, List.length_map, remaining, List.filter_filter]
    refine congrArg List.length (List.filter_congr fun p _ => ?_)
    cases hh : header p.2 with
    | false => simp [hheader, hh]
    | true => simp [hheader, hh, hkeep _ hh, hdrop _ hh]
  have hlen := (hcount opens).symm.trans ((congrArg (fun ys => (ys.filter header).length) heq).trans
    (hcount header))
  have hback := of_length_filter_eq hsub hlen
  intro p hp hh hin
  by_contra hout
  have hstays := hback p hp (by simp [hh, hout])
  simp [hh, hin] at hstays

include hkeep hdrop hopens hheader htarget in
/-- Two prunings leave the same kept elements exactly if their headers agree on each of them. -/
theorem remaining_eq_iff :
    (remaining opens target drop keep xs).map (fun p => f p.2) =
        (remaining header target drop keep xs).map (fun p => f p.2) ↔
      Agree opens header target drop keep xs := by
  constructor
  · intro heq
    have hheaders := header_agrees hkeep hdrop hheader htarget heq
    have hinside : ∀ before, before <+: xs → within opens target before →
        within header target before := by
      intro before
      induction before using List.reverseRecOn with
      | nil => exact fun _ hin => hin
      | append_singleton before x ih =>
          rintro ⟨back, rfl⟩ hin
          have hp : (before, x) ∈ positions [] (before ++ [x] ++ back) :=
            mem_positions.2 ⟨before, back, by simp, rfl⟩
          by_cases hh : header x
          · exact hheaders _ hp hh hin
          · rw [within_snoc, if_neg hh]
            rw [within_snoc] at hin
            by_cases ho : opens x
            · rw [if_pos ho] at hin
              exact absurd (hopens x ho hin) hh
            · rw [if_neg ho] at hin
              exact ih ⟨x :: back, by simp⟩ hin
    have hlen := congrArg List.length heq
    rw [List.length_map, List.length_map, remaining, remaining] at hlen
    have hback := of_length_filter_eq (fun p hp hstays => ?_) hlen.symm
    · intro front x back hsplit hk hd
      have hp : (front, x) ∈ positions [] xs := mem_positions.2 ⟨front, back, hsplit, rfl⟩
      have hprefix : front ++ [x] <+: xs := ⟨back, by rw [hsplit]; simp⟩
      cases hin : within opens target (front ++ [x]) with
      | true => exact (hinside _ hprefix hin).symm
      | false =>
          have hstays := hback _ hp (by simp [hk, hd, hin])
          simp only [Bool.and_eq_true, Bool.not_eq_true'] at hstays
          exact hstays.2.1.symm
    · obtain ⟨front, back, hsplit, hp₁⟩ := mem_positions.1 hp
      have hprefix : p.1 ++ [p.2] <+: xs := ⟨back, by rw [hsplit, hp₁]; simp⟩
      simp only [Bool.and_eq_true, Bool.not_eq_true'] at hstays ⊢
      refine ⟨hstays.1, ?_, hstays.2.2⟩
      by_contra hin
      rw [Bool.not_eq_false] at hin
      rw [hinside _ hprefix hin] at hstays
      simp at hstays
  · intro hagree
    refine congrArg (List.map _) (List.filter_congr fun p hp => ?_)
    obtain ⟨front, back, hsplit, hp₁⟩ := mem_positions.1 hp
    rw [List.nil_append] at hp₁
    cases hk : keep p.2 with
    | false => rfl
    | true =>
        cases hd : drop p.2 with
        | true => simp
        | false => rw [hp₁, hagree front p.2 back hsplit hk hd]

end Agree

end Outline

namespace Text

theorem words_cons_white {c : Char} (hc : isWhitespace c) (t : Text) : words (c :: t) = words t := by
  have happ := words_append_space hc [] t
  simpa [words, List.splitOnP_nil] using happ

theorem words_trimStart (t : Text) : words (trimStart t) = words t := by
  induction t with
  | nil => rfl
  | cons c t ih =>
      by_cases hc : isWhitespace c
      · rw [words_cons_white hc, ← ih, trimStart, List.dropWhile_cons_of_pos hc, trimStart]
      · rw [trimStart, List.dropWhile_cons_of_neg hc]

theorem words_trim (t : Text) : words (trim t) = words t := by
  rw [trim, ← words_trimStart t]
  induction trimStart t using List.reverseRecOn with
  | nil => rfl
  | append_singleton t c ih =>
      by_cases hc : isWhitespace c
      · have hskip := words_append_space hc t []
        rw [trimEnd, List.rdropWhile_concat_pos _ _ _ hc, hskip]
        exact ih.trans (List.append_nil _).symm
      · rw [trimEnd, List.rdropWhile_concat_neg _ _ _ hc]

end Text

namespace Config

open Text Registry Routing

def isDirective (l : Text) : Bool :=
  match words l with
  | [] => false
  | w :: _ => w.head? != some '#'

/-- The directives of a text, without what carriage returns stand at their ends. -/
def directives (content : Text) : List Text := ((lines content).filter isDirective).map chomp

/-- The text as HAProxy divides it. -/
def sections (content : Text) : List Text × List (List Text) := outline isHeader (directives content)

def ownHeader (name l : Text) : Bool := trim l == backendHeader name

def ownRule (name l : Text) : Bool := decide (aclPrefix name <+: l ∨ usePrefix name <+: l)

/-- For every directive but the service's rules, the next line above it (or the directive itself)
that is not indented is the header of the service's backend exactly if the next section header is. -/
def Delimited (name : Text) (ls : List Text) : Prop :=
  Agree opensSection isHeader (ownHeader name) (ownRule name) isDirective ls

section Directives

variable {name l : Text}

theorem words_of_rule {indented word rest : Text} (hword : words indented = [word])
    (h : indented ++ ' ' :: rest <+: l) : ∃ ws, words l = word :: ws := by
  obtain ⟨tail, rfl⟩ := h
  rw [List.append_assoc, List.cons_append, words_append_space (by decide), hword]
  exact ⟨_, rfl⟩

theorem isHeader_eq_false {word : Text} {ws : List Text} (h : words l = word :: ws)
    (hword : word ∉ sectionKeywords) : isHeader l = false := by
  rw [isHeader, h]
  exact decide_eq_false hword

theorem isDirective_of_isHeader (h : isHeader l) : isDirective l := by
  have hall : ∀ w ∈ sectionKeywords, (w.head? != some '#') = true := by decide
  rw [isHeader] at h
  rw [isDirective]
  cases hwords : words l with
  | nil => simp [hwords] at h
  | cons w ws =>
      rw [hwords] at h
      exact hall w (of_decide_eq_true h)

theorem not_ownRule_of_isHeader (h : isHeader l) : ownRule name l = false := by
  have hacl : aclPrefix name = "    acl".toList ++ ' ' :: ("host_" ++ name ++ " ") := by
    unfold aclPrefix
    simp
  have huse : usePrefix name = "    use_backend".toList ++ ' ' :: (name ++ " ") := by
    unfold usePrefix
    simp
  have haclWord : words "    acl" = ["acl"] := by decide
  have huseWord : words "    use_backend" = ["use_backend"] := by decide
  refine decide_eq_false ?_
  rintro (hrule | hrule)
  · rw [hacl] at hrule
    obtain ⟨ws, hws⟩ := words_of_rule haclWord hrule
    rw [isHeader_eq_false hws (by decide)] at h
    simp at h
  · rw [huse] at hrule
    obtain ⟨ws, hws⟩ := words_of_rule huseWord hrule
    rw [isHeader_eq_false hws (by decide)] at h
    simp at h

theorem isHeader_of_ownHeader (h : ownHeader name l) : isHeader l := by
  have htrim : trim l = "backend".toList ++ ' ' :: name := by
    rw [beq_iff_eq.1 h]
    unfold backendHeader
    simp
  have hword : ("backend" : Text) ∈ sectionKeywords := by decide
  have hwords : words l = "backend".toList :: words name := by
    rw [← words_trim, htrim, words_append_space (by decide)]
    rfl
  rw [isHeader, hwords]
  exact decide_eq_true hword

theorem isDirective_append_return (l : Text) : isDirective (l ++ ['\r']) = isDirective l := by
  simp only [isDirective, words_append_return]

theorem isHeader_chomp (l : Text) : isHeader (chomp l) = isHeader l := by
  refine @apply_chomp _ isHeader (fun l => ?_) l
  simp only [isHeader, words_append_return]

theorem ownHeader_chomp (name l : Text) : ownHeader name (chomp l) = ownHeader name l := by
  refine @apply_chomp _ (ownHeader name) (fun l => ?_) l
  simp only [ownHeader, trim_append_return]

theorem ownRule_chomp (name l : Text) : ownRule name (chomp l) = ownRule name l := by
  have hspace : ∀ p : Text, (p ++ " ".toList).getLast? ≠ some '\r' := by
    intro p
    have hlast : (" ".toList).getLast? = some ' ' := rfl
    rw [List.getLast?_append, hlast, Option.some_or]
    decide
  have hacl : (aclPrefix name).getLast? ≠ some '\r' := hspace _
  have huse : (usePrefix name).getLast? ≠ some '\r' := hspace _
  refine @apply_chomp _ (ownRule name) (fun l => ?_) l
  unfold ownRule
  rw [decide_eq_decide, prefix_append_return hacl, prefix_append_return huse]

theorem removeLoop_eq_prune (flag : Bool) (ls : List Text) :
    removeLoop name flag ls = prune opensSection (ownHeader name) (ownRule name) flag ls := by
  induction ls generalizing flag with
  | nil => rfl
  | cons l ls ih =>
      rw [removeLoop, prune]
      simp only [ownHeader, ownRule, ih, Bool.or_eq_true, decide_eq_true_eq]
      generalize (if opensSection l = true then trim l == backendHeader name else flag) = now
      cases now with
      | false => simp
      | true => simp

end Directives

section Removed

variable {name : Text}

/-- A removal that succeeds takes the directives of the service's section, and its rules, out of
the text and leaves every other directive in its section, exactly if the lines that are not indented
delimit the service's section for each of them. -/
theorem removes_section_iff {g : Guard HaproxyOp HaproxyEnv Haproxy} {h h' : Haproxy}
    (hex : serviceExists h.file name) (run : Runs g (removeService name).run h (.ok ()) h') :
    sections h'.file = others (ownHeader name) (ownRule name) (sections h.file) ↔
      Delimited name (lines h.file) := by
  have hfile := Option.some.inj (@call_ok_run g h h' (.removeService name) run (not_not.2 hex))
  have hafter : directives h'.file =
      (remaining opensSection (ownHeader name) (ownRule name) isDirective (lines h.file)).map
        fun p => chomp p.2 := by
    rw [directives, ← hfile, removedContent,
      filter_lines_join rfl isDirective_append_return (newline_notMem_removeLoop h.file),
      removeLoop_eq_prune, prune_remaining, List.map_map]
    rfl
  have hothers : others (ownHeader name) (ownRule name) (sections h.file) =
      outline isHeader ((remaining isHeader (ownHeader name) (ownRule name) isDirective
        (lines h.file)).map fun p => chomp p.2) := by
    have hpruned := @outline_prune _ isHeader (ownHeader name) (ownRule name)
      (fun l hl => not_ownRule_of_isHeader hl) false (directives h.file)
    rw [directives, prune_filter_map (fun l hl => isDirective_of_isHeader hl) isHeader_chomp
      (ownHeader_chomp name) (ownRule_chomp name), prune_remaining, List.map_map] at hpruned
    exact hpruned.symm
  rw [sections, hafter, hothers, outline_injective.eq_iff]
  exact remaining_eq_iff (fun l hl => isDirective_of_isHeader hl)
    (fun l hl => not_ownRule_of_isHeader hl) (fun l _ hl => isHeader_of_ownHeader hl)
    isHeader_chomp (ownHeader_chomp name)

def commented : Text := written
  ["frontend web", "    acl host_svc_blog hdr(host) -i blog.org",
    "    use_backend svc_blog if host_svc_blog", "    default_backend volunteers", "",
    "backend volunteers", "    balance leastconn", "", "backend svc_blog",
    "    balance leastconn", "# probes", "    option httpchk GET /"]

/-- The directive below the comment has moved into the backend above. -/
def joined : List (List Text) :=
  [["frontend web", "    default_backend volunteers"],
    ["backend volunteers", "    balance leastconn", "    option httpchk GET /"]]

/-- What stands below the comment stays. -/
theorem removal_stops_at_comment :
    ¬ ∀ (g : Guard HaproxyOp HaproxyEnv Haproxy) (name domain : Text) (h h' : Haproxy),
      aclLine name domain ∈ lines h.file → useLine name ∈ lines h.file →
      (∃ l ∈ lines h.file, opensSection l ∧ ownHeader name l) →
      Runs g (removeService name).run h (.ok ()) h' →
      sections h'.file = others (ownHeader name) (ownRule name) (sections h.file) := by
  intro hclaim
  have hrun : (calm (removeService "svc_blog").run ⟨commented, commented, ∅, 0, false⟩).any fun r =>
      decide (r.1 = .ok ()) && decide ((sections r.2.file).2 = joined) := by
    decide +kernel
  obtain ⟨⟨r, h'⟩, hremove, hbad⟩ := (Option.any_eq_true _ _).1 hrun
  simp only [Bool.and_eq_true, decide_eq_true_eq] at hbad
  obtain ⟨rfl, hjoined⟩ := hbad
  have hsame := hclaim _ "svc_blog" "blog.org" _ _ (by decide) (by decide) (by decide)
    ((runs_calm _ _ _ _).2 hremove)
  have hwant : (others (ownHeader "svc_blog") (ownRule "svc_blog") (sections commented)).2 ≠ joined := by
    decide +kernel
  rw [hsame] at hjoined
  exact hwant hjoined

def between : Text := written
  ["frontend web", "    acl host_svc_blog hdr(host) -i blog.org",
    "    use_backend svc_blog if host_svc_blog", "    default_backend volunteers", "",
    "backend svc_blog", "    balance leastconn", "", "backend svc_wiki",
    "    balance leastconn"]

theorem removes_section_between :
    ∃ h', serviceExists between "svc_blog" ∧
      Runs haproxySucceeds (removeService "svc_blog").run ⟨between, between, ∅, 0, false⟩ (.ok ()) h' ∧
      Delimited "svc_blog" (lines between) := by
  have hrun : (calm (removeService "svc_blog").run ⟨between, between, ∅, 0, false⟩).any fun r =>
      decide (r.1 = .ok ()) && decide (sections r.2.file =
        others (ownHeader "svc_blog") (ownRule "svc_blog") (sections between)) := by
    decide +kernel
  have hex : serviceExists between "svc_blog" := by decide
  obtain ⟨⟨r, h'⟩, hremove, hgood⟩ := (Option.any_eq_true _ _).1 hrun
  simp only [Bool.and_eq_true, decide_eq_true_eq] at hgood
  obtain ⟨rfl, hsections⟩ := hgood
  have run := (runs_calm _ _ _ _).2 hremove
  exact ⟨h', hex, run, (@removes_section_iff _ _ ⟨between, between, ∅, 0, false⟩ h' hex run).1
    hsections⟩

end Removed

end Config

end OpenShard
