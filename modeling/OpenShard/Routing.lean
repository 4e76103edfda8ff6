import OpenShard.Registry

/-!
# Where a frontend sends a host

A frontend section read as HAProxy reads it: `acl` lines name host patterns, the `use_backend` lines
are tried from the top against the patterns above them, and `default_backend` applies when none
fires. In a file that refines a registry the newest registered service whose domain is the requested
host comes first, and every other host goes where the base configuration sends it.
-/

namespace OpenShard.Routing

open Text Config Registry

inductive Directive
  | acl (name domain : Text)
  | useBackend (backend condition : Text)
  | defaultBackend (backend : Text)
  | other
  deriving DecidableEq

/-- A line of a section. The pattern of an `acl` line may be the empty text. -/
def directive (l : Text) : Directive :=
  match words l with
  | [keyword, a] => if keyword = "default_backend" then .defaultBackend a else .other
  | [keyword, a, b, c] =>
    if keyword = "use_backend" ∧ b = "if" then .useBackend a c
    else if keyword = "acl" ∧ b = "hdr(host)" ∧ c = "-i" then .acl a []
    else .other
  | [keyword, a, b, c, d] =>
    if keyword = "acl" ∧ b = "hdr(host)" ∧ c = "-i" then .acl a d else .other
  | _ => .other

/-- Whether one of the patterns read so far under the name of the condition is the host. -/
def fires (acls : Entries) (condition host : Text) : Bool :=
  acls.any fun a => a.1 == condition && eqIgnoreAsciiCase a.2 host

/-- The backend a section chooses for a host. -/
def choose (host : Text) : Entries → Option Text → List Directive → Option Text
  | _, dflt, [] => dflt
  | acls, dflt, .acl name domain :: ds => choose host ((name, domain) :: acls) dflt ds
  | acls, dflt, .useBackend backend condition :: ds =>
    if fires acls condition host then some backend else choose host acls dflt ds
  | acls, _, .defaultBackend backend :: ds => choose host acls (some backend) ds
  | acls, dflt, .other :: ds => choose host acls dflt ds

def route (body : List Text) (host : Text) : Option Text :=
  choose host [] none (body.map directive)

def sectionKeywords : List Text :=
  ["global", "defaults", "frontend", "backend", "listen", "resolvers", "peers", "userlist",
    "mailers", "program", "cache", "http-errors", "ring", "log-forward", "fcgi-app"]

def isHeader (l : Text) : Bool :=
  match words l with
  | [] => false
  | keyword :: _ => keyword ∈ sectionKeywords

/-- The header of the section that holds the first routing line, and the lines of that section. -/
def routedSection (ls : List Text) : Option Text × List Text :=
  let before := (ls.takeWhile fun l => !routing l).reverse
  let after := ls.dropWhile fun l => !routing l
  (before.find? isHeader,
    (before.takeWhile fun l => !isHeader l).reverse ++ after.takeWhile fun l => !isHeader l)

def lastDefault : Option Text → List Directive → Option Text
  | dflt, [] => dflt
  | _, .defaultBackend backend :: ds => lastDefault (some backend) ds
  | dflt, _ :: ds => lastDefault dflt ds

def defaultBackend (body : List Text) : Option Text := lastDefault none (body.map directive)

def newest (R : Entries) (host : Text) : Option Text :=
  (R.reverse.find? fun r => eqIgnoreAsciiCase r.2 host).map Prod.fst

def condition (name : Text) : Text := "host_" ++ name

section Directives

variable {name : Text}

theorem words_condition (hn : NoWhitespace name) : words (condition name) = [condition name] :=
  words_of_noWhitespace (NoWhitespace.append (by decide) hn) (by simp [condition])

theorem words_aclLine (hn : NoWhitespace name) (domain : Text) :
    words (aclLine name domain) =
      ["acl".toList, condition name, "hdr(host)", "-i"] ++ words domain := by
  have hhost := words_condition hn
  have heq : aclLine name domain = "    acl".toList ++ ' ' :: (condition name ++
      ' ' :: ("hdr(host)".toList ++ ' ' :: ("-i".toList ++ ' ' :: domain))) := by
    unfold aclLine condition
    simp
  rw [heq, words_append_space (by decide), words_append_space (by decide),
    words_append_space (by decide), words_append_space (by decide), hhost]
  rfl

theorem words_useLine (hn : NoWhitespace name) (hne : name ≠ []) :
    words (useLine name) = ["use_backend".toList, name, "if", condition name] := by
  have hhost := words_condition hn
  have heq : useLine name = "    use_backend".toList ++ ' ' :: (name ++
      ' ' :: ("if".toList ++ ' ' :: condition name)) := by
    unfold useLine condition
    simp
  rw [heq, words_append_space (by decide), words_append_space (by decide),
    words_append_space (by decide), hhost, words_of_noWhitespace hn hne]
  rfl

theorem directive_aclLine (hn : NoWhitespace name) {domain : Text} (hd : NoWhitespace domain) :
    directive (aclLine name domain) = .acl (condition name) domain := by
  by_cases hempty : domain = []
  · subst hempty
    have hwords : words (aclLine name []) = ["acl".toList, condition name, "hdr(host)", "-i"] := by
      rw [words_aclLine hn]
      rfl
    rw [directive, hwords]
    simp
  · have hwords : words (aclLine name domain) =
        ["acl".toList, condition name, "hdr(host)", "-i", domain] := by
      rw [words_aclLine hn, words_of_noWhitespace hd hempty]
      rfl
    rw [directive, hwords]
    simp

theorem directive_useLine (hn : ServiceName name) :
    directive (useLine name) = .useBackend name (condition name) := by
  rw [directive, words_useLine hn.noWhitespace hn.ne_nil]
  simp

theorem routing_of_directive {l : Text}
    (h : (∃ b c, directive l = .useBackend b c) ∨ ∃ b, directive l = .defaultBackend b) :
    routing l := by
  have hword : ∀ w ws, words l = w :: ws → w = "use_backend" ∨ w = "default_backend" → routing l := by
    intro w ws hws hw
    have hpre := first_word_prefix_trim hws
    unfold routing
    rw [Bool.or_eq_true]
    rcases hw with rfl | rfl
    · exact Or.inr (decide_eq_true hpre)
    · exact Or.inl (decide_eq_true hpre)
  unfold directive at h
  split at h
  · rename_i keyword a hws
    split_ifs at h with hk
    · exact hword _ _ hws (Or.inr hk)
    · simp at h
  · rename_i keyword a b c hws
    split_ifs at h with hk hk'
    · exact hword _ _ hws (Or.inl hk.1)
    · simp at h
    · simp at h
  · split_ifs at h <;> simp at h
  · simp at h

end Directives

section Choose

variable {host : Text}

theorem fires_eq_false {A : Entries} {c : Text} (h : ∀ a ∈ A, a.1 ≠ c) : fires A c host = false :=
  List.any_eq_false.2 fun a ha => by simp [h a ha]

theorem fires_append (A B : Entries) (c : Text) :
    fires (A ++ B) c host = (fires A c host || fires B c host) := by
  simp [fires]

/-- The patterns that the `acl` lines among some directives declare, the last first. -/
def declared (ds : List Directive) : Entries :=
  (ds.filterMap fun d =>
    match d with
    | .acl name domain => some (name, domain)
    | _ => none).reverse

theorem mem_declared {ds : List Directive} {n d : Text} :
    (n, d) ∈ declared ds ↔ Directive.acl n d ∈ ds := by
  simp only [declared, List.mem_reverse, List.mem_filterMap]
  constructor
  · rintro ⟨d', hd', heq⟩
    cases d' with
    | acl n' d'' =>
        simp only [Option.some.injEq, Prod.mk.injEq] at heq
        obtain ⟨rfl, rfl⟩ := heq
        exact hd'
    | useBackend b c => simp at heq
    | defaultBackend b => simp at heq
    | other => simp at heq
  · intro h
    exact ⟨_, h, rfl⟩

theorem declared_append (ds ds' : List Directive) :
    declared (ds ++ ds') = declared ds' ++ declared ds := by
  simp [declared]

/-- Directives that choose nothing. -/
def Declares (ds : List Directive) : Prop :=
  ∀ d ∈ ds, (∀ b c, d ≠ .useBackend b c) ∧ ∀ b, d ≠ .defaultBackend b

theorem Declares.append {ds ds' : List Directive} (h : Declares ds) (h' : Declares ds') :
    Declares (ds ++ ds') := by
  intro d hd
  rcases List.mem_append.1 hd with hd | hd
  · exact h d hd
  · exact h' d hd

theorem declares_of_not_routing {ls : List Text} (h : ∀ l ∈ ls, routing l = false) :
    Declares (ls.map directive) := by
  intro d hd
  obtain ⟨l, hl, rfl⟩ := List.mem_map.1 hd
  have hno := h l hl
  refine ⟨fun b c heq => ?_, fun b heq => ?_⟩
  · rw [routing_of_directive (Or.inl ⟨b, c, heq⟩)] at hno
    simp at hno
  · rw [routing_of_directive (Or.inr ⟨b, heq⟩)] at hno
    simp at hno

theorem choose_declared {ds : List Directive} (hds : Declares ds)
    (A : Entries) (dflt : Option Text) (rest : List Directive) :
    choose host A dflt (ds ++ rest) = choose host (declared ds ++ A) dflt rest := by
  induction ds generalizing A with
  | nil => rfl
  | cons d ds ih =>
      have ih := ih fun d' hd' => hds d' (by simp [hd'])
      obtain ⟨huse, hdefault⟩ := hds d (by simp)
      cases d with
      | acl name domain => simp [choose, ih, declared]
      | useBackend b c => exact absurd rfl (huse b c)
      | defaultBackend b => exact absurd rfl (hdefault b)
      | other => simp [choose, ih, declared]

theorem choose_rules (A : Entries) (dflt : Option Text) (R : Entries) (rest : List Directive) :
    choose host A dflt (R.map (fun r => .useBackend r.1 (condition r.1)) ++ rest) =
      match R.find? fun r => fires A (condition r.1) host with
      | some r => some r.1
      | none => choose host A dflt rest := by
  induction R with
  | nil => rfl
  | cons r R ih =>
      rw [List.map_cons, List.cons_append, choose, ih]
      by_cases hr : fires A (condition r.1) host
      · simp only [List.find?_cons, hr, if_true]
      · simp only [List.find?_cons, hr, Bool.false_eq_true, if_false]

/-- Only the patterns that a condition of the section names matter to it. -/
theorem choose_congr {ds : List Directive} {A B : Entries} (dflt : Option Text)
    (h : ∀ b c, Directive.useBackend b c ∈ ds → fires A c host = fires B c host) :
    choose host A dflt ds = choose host B dflt ds := by
  induction ds generalizing A B dflt with
  | nil => rfl
  | cons d ds ih =>
      cases d with
      | acl name domain =>
          rw [choose, choose]
          refine ih dflt fun b c hbc => ?_
          have hc := h b c (by simp [hbc])
          simp only [fires, List.any_cons] at hc ⊢
          rw [hc]
      | useBackend b c =>
          rw [choose, choose, h b c (by simp), ih dflt fun b' c' hbc => h b' c' (by simp [hbc])]
      | defaultBackend b =>
          rw [choose, choose, ih (some b) fun b' c' hbc => h b' c' (by simp [hbc])]
      | other =>
          rw [choose, choose, ih dflt fun b' c' hbc => h b' c' (by simp [hbc])]

theorem choose_other (A : Entries) (dflt : Option Text) (ds : List Directive)
    {tail : List Directive} (htail : ∀ d ∈ tail, d = .other) :
    choose host A dflt (ds ++ tail) = choose host A dflt ds := by
  induction ds generalizing A dflt with
  | nil =>
      induction tail with
      | nil => rfl
      | cons d tail ih =>
          rw [htail d (by simp)]
          exact ih fun d' hd' => htail d' (by simp [hd'])
  | cons d ds ih =>
      cases d with
      | acl name domain => exact ih _ _
      | useBackend b c =>
          rw [List.cons_append, choose, choose, ih]
      | defaultBackend b => exact ih _ _
      | other => exact ih _ _

theorem choose_of_no_rules {ds : List Directive} (A : Entries) (dflt : Option Text)
    (h : ∀ b c, Directive.useBackend b c ∉ ds) : choose host A dflt ds = lastDefault dflt ds := by
  induction ds generalizing A dflt with
  | nil => rfl
  | cons d ds ih =>
      have ih := fun A dflt => ih A dflt fun b c hbc => h b c (by simp [hbc])
      cases d with
      | acl name domain => exact ih _ _
      | useBackend b c => exact absurd List.mem_cons_self (h b c)
      | defaultBackend b => exact ih _ _
      | other => exact ih _ _

end Choose

/-- A base configuration that mentions no service and whose first routing line is the
`default_backend` line of a frontend section. -/
structure RoutedBase (c₀ : Text) : Prop where
  noCarriageReturn : '\r' ∉ c₀
  noService : ¬ ("svc_" : Text) <:+: c₀
  frontend : ∃ header ∈ (routedSection (lines c₀)).1, (words header).head? = some "frontend"
  default : ∃ l ∈ (lines c₀).find? routing, ∃ b, directive l = .defaultBackend b

section Base

variable {c₀ : Text}

theorem RoutedBase.not_service (hb : RoutedBase c₀) {l t : Text} (hl : l ∈ lines c₀) (ht : t <:+: l) :
    ¬ ("svc_" : Text) <:+: t :=
  fun h => hb.noService ((h.trans ht).trans (infix_of_mem_lines hb.noCarriageReturn l hl))

theorem RoutedBase.base (hb : RoutedBase c₀) : Base c₀ where
  noCarriageReturn := hb.noCarriageReturn
  routed := by
    obtain ⟨l, hl, -⟩ := hb.default
    exact ⟨l, List.mem_of_find?_eq_some hl, List.find?_some hl⟩
  foreign := fun l hl => by
    have hno := hb.not_service hl (trim_infix_self l)
    have hacl : ("svc_" : Text) <:+: "acl host_svc_" := by decide
    have huse : ("svc_" : Text) <:+: "use_backend svc_" := by decide
    have hbackend : ("svc_" : Text) <:+: "backend svc_" := by decide
    exact ⟨fun h => hno (hacl.trans h.isInfix), fun h => hno (huse.trans h.isInfix),
      fun h => hno (hbackend.trans h.isInfix)⟩

theorem infix_of_directive {l b c : Text} (h : directive l = .useBackend b c) : c <:+: l := by
  unfold directive at h
  split at h
  · split_ifs at h
  · rename_i keyword a b' c' hws
    split_ifs at h
    · obtain ⟨rfl, rfl⟩ := Directive.useBackend.inj h
      exact infix_of_mem_words c' (by simp [hws])
  · split_ifs at h
  · simp at h

theorem infix_of_directive_acl {l name domain : Text} (h : directive l = .acl name domain) :
    name <:+: l := by
  unfold directive at h
  split at h
  · split_ifs at h
  · rename_i keyword a b' c' hws
    split_ifs at h
    · obtain ⟨rfl, rfl⟩ := Directive.acl.inj h
      exact infix_of_mem_words a (by simp [hws])
  · rename_i keyword a b' c' d' hws
    split_ifs at h
    · obtain ⟨rfl, rfl⟩ := Directive.acl.inj h
      exact infix_of_mem_words a (by simp [hws])
  · simp at h

end Base

section Section

variable {c₀ name domain : Text} {R : Entries}

theorem isHeader_aclLine (hn : NoWhitespace name) (domain : Text) :
    isHeader (aclLine name domain) = false := by
  have hword : ("acl" : Text) ∉ sectionKeywords := by decide
  rw [isHeader, words_aclLine hn]
  exact decide_eq_false hword

theorem isHeader_useLine (name : Text) : isHeader (useLine name) = false := by
  have hword : ("use_backend" : Text) ∉ sectionKeywords := by decide
  have heq : useLine name = "    use_backend".toList ++ ' ' :: (name ++ " if host_" ++ name) := by
    unfold useLine
    simp
  have hfirst : words "    use_backend" = ["use_backend"] := by decide
  rw [isHeader, heq, words_append_space (by decide), hfirst]
  exact decide_eq_false hword

theorem isHeader_backendHeader (hn : ServiceName name) : isHeader (backendHeader name) := by
  have heq : backendHeader name = "backend".toList ++ ' ' :: name := by
    unfold backendHeader
    simp
  have hword : ("backend" : Text) ∈ sectionKeywords := by decide
  have hwords : words (backendHeader name) = ["backend".toList, name] := by
    rw [heq, words_append_space (by decide), words_of_noWhitespace hn.noWhitespace hn.ne_nil]
    rfl
  rw [isHeader, hwords]
  exact decide_eq_true hword

theorem takeWhile_blocks (hR : Valid R) (xs : List Text) :
    ∃ tail, (xs ++ R.flatMap fun r => blockLines r.1).takeWhile (fun l => !isHeader l) =
      (xs.takeWhile fun l => !isHeader l) ++ tail ∧ ∀ l ∈ tail, l = [] := by
  rw [List.takeWhile_append]
  split_ifs with hall
  · have hxs : (xs.takeWhile fun l => !isHeader l) = xs :=
      (List.takeWhile_prefix _).eq_of_length hall
    rw [hxs]
    refine ⟨_, rfl, ?_⟩
    cases R with
    | nil => simp
    | cons r R =>
        have hblank : isHeader [] = false := by decide
        simp [blockLines, hblank, isHeader_backendHeader (hR r (by simp)).1]
  · exact ⟨[], by simp, by simp⟩

/-- The section of the first routing line: the base's own lines with the registry's between. -/
theorem routedSection_fileLines (hb : Base c₀) (hR : Valid R) :
    ∃ header top bottom tail, routedSection (lines c₀) = (header, top ++ bottom) ∧
      (∀ l ∈ top, l ∈ lines c₀ ∧ routing l = false) ∧ (∀ l ∈ bottom, l ∈ lines c₀) ∧
      (∀ l ∈ tail, l = []) ∧
      routedSection (fileLines c₀ R) = (header, top ++ R.map (fun r => aclLine r.1 r.2) ++
        ((R.reverse.map fun r => useLine r.1) ++ (bottom ++ tail))) := by
  obtain ⟨-, htake, hdrop⟩ := fileLines_split hb R
  obtain ⟨tail, htail, hblank⟩ := takeWhile_blocks hR ((lines c₀).dropWhile fun l => !routing l)
  have hacl : ∀ l ∈ (R.map fun r => aclLine r.1 r.2).reverse, !isHeader l := by
    intro l hl
    obtain ⟨r, hr, rfl⟩ := List.mem_map.1 (List.mem_reverse.1 hl)
    rw [isHeader_aclLine (hR r hr).1.noWhitespace]
    rfl
  have huse : ∀ l ∈ R.reverse.map fun r => useLine r.1, !isHeader l := by
    intro l hl
    obtain ⟨r, hr, rfl⟩ := List.mem_map.1 hl
    rw [isHeader_useLine]
    rfl
  have hnone : (R.map fun r => aclLine r.1 r.2).reverse.find? isHeader = none :=
    List.find?_eq_none.2 fun l hl => by simpa using hacl l hl
  refine ⟨_, _, _, tail, rfl, ?_, ?_, hblank, ?_⟩
  · intro l hl
    have hmem := List.mem_reverse.1 ((List.takeWhile_sublist _).mem (List.mem_reverse.1 hl))
    exact ⟨(List.takeWhile_sublist _).mem hmem, by simpa using List.mem_takeWhile_imp hmem⟩
  · intro l hl
    exact (List.dropWhile_sublist _).mem ((List.takeWhile_sublist _).mem hl)
  · rw [routedSection, htake, hdrop]
    simp only [List.reverse_append, List.find?_append, hnone, Option.none_or,
      List.takeWhile_append_of_pos hacl, List.append_assoc, List.takeWhile_append_of_pos huse,
      htail, List.reverse_reverse]

end Section

section Registered

variable {c₀ name : Text} {R : Entries} {host : Text}

theorem service_infix_condition (hn : ServiceName name) : ("svc_" : Text) <:+: condition name := by
  obtain ⟨rest, rfl⟩ := hn.svc
  exact ⟨"host_".toList, rest, by simp [condition]⟩

def patterns (R : Entries) : Entries := (R.map fun r => (condition r.1, r.2)).reverse

theorem mem_patterns {a : Text × Text} :
    a ∈ patterns R ↔ ∃ r ∈ R, (condition r.1, r.2) = a := by
  simp [patterns]

theorem directives_acl (hR : Valid R) :
    (R.map fun r => aclLine r.1 r.2).map directive = R.map fun r => .acl (condition r.1) r.2 := by
  rw [List.map_map]
  exact List.map_congr_left fun r hr => directive_aclLine (hR r hr).1.noWhitespace (hR r hr).2

theorem directives_use (hR : Valid R) :
    (R.reverse.map fun r => useLine r.1).map directive =
      R.reverse.map fun r => .useBackend r.1 (condition r.1) := by
  rw [List.map_map]
  exact List.map_congr_left fun r hr => directive_useLine (hR r (List.mem_reverse.1 hr)).1

theorem declares_acl (R : Entries) : Declares (R.map fun r => .acl (condition r.1) r.2) := by
  intro d hd
  obtain ⟨r, _, rfl⟩ := List.mem_map.1 hd
  simp

theorem declared_acl (R : Entries) :
    declared (R.map fun r => .acl (condition r.1) r.2) = patterns R := by
  simp only [declared, patterns, List.filterMap_map]
  congr 1
  induction R with
  | nil => rfl
  | cons r R _ => simp

/-- The condition of a registered service fires for its recorded domain only. -/
theorem fires_registered (hR : Valid R) (hnodup : (R.map Prod.fst).Nodup) {r : Text × Text}
    (hr : r ∈ R) {A : Entries} (hA : ∀ a ∈ A, ¬ ("svc_" : Text) <:+: a.1) :
    fires (patterns R ++ A) (condition r.1) host = eqIgnoreAsciiCase r.2 host := by
  have hbase : fires A (condition r.1) host = false := by
    refine fires_eq_false fun a ha heq => hA a ha ?_
    rw [heq]
    exact service_infix_condition (hR r hr).1
  rw [fires_append, hbase, Bool.or_false, Bool.eq_iff_iff, fires, List.any_eq_true]
  constructor
  · rintro ⟨a, ha, hfire⟩
    obtain ⟨r', hr', rfl⟩ := mem_patterns.1 ha
    simp only [Bool.and_eq_true, beq_iff_eq, condition, List.append_cancel_left_eq] at hfire
    have heq : r' = r := List.inj_on_of_nodup_map hnodup hr' hr hfire.1
    rw [← heq]
    exact hfire.2
  · intro hdom
    refine ⟨_, mem_patterns.2 ⟨r, hr, rfl⟩, ?_⟩
    simpa using hdom

theorem fires_base (hb : RoutedBase c₀) (hR : Valid R) {ls : List Text} (hls : ∀ l ∈ ls, l ∈ lines c₀)
    (A : Entries) : ∀ b c, Directive.useBackend b c ∈ ls.map directive →
      fires (patterns R ++ A) c host = fires A c host := by
  intro b c hbc
  obtain ⟨l, hl, heq⟩ := List.mem_map.1 hbc
  have hno := hb.not_service (hls l hl) (infix_of_directive heq)
  have hfalse : fires (patterns R) c host = false := by
    refine fires_eq_false fun a ha heq => hno ?_
    obtain ⟨r, hr, rfl⟩ := mem_patterns.1 ha
    rw [← heq]
    exact service_infix_condition (hR r hr).1
  rw [fires_append, hfalse, Bool.false_or]

/-- The rules of the registry come first; a host none of them names goes where the base sends it. -/
theorem route_fileLines (hb : RoutedBase c₀) (hR : Valid R) (hnodup : (R.map Prod.fst).Nodup) :
    route (routedSection (fileLines c₀ R)).2 host =
      (newest R host).or (route (routedSection (lines c₀)).2 host) := by
  obtain ⟨header, top, bottom, tail, hbase, htop, hbottom, htail, hfile⟩ :=
    routedSection_fileLines hb.base hR
  have hdecl := declares_of_not_routing fun l hl => (htop l hl).2
  have hA : ∀ a ∈ declared (top.map directive), ¬ ("svc_" : Text) <:+: a.1 := by
    rintro ⟨n, d⟩ ha
    obtain ⟨l, hl, heq⟩ := List.mem_map.1 (mem_declared.1 ha)
    exact hb.not_service (htop l hl).1 (infix_of_directive_acl heq)
  have hother : ∀ d ∈ tail.map directive, d = .other := by
    intro d hd
    obtain ⟨l, hl, rfl⟩ := List.mem_map.1 hd
    rw [htail l hl]
    decide
  have hbaseRoute : route (top ++ bottom) host =
      choose host (declared (top.map directive)) none (bottom.map directive) := by
    rw [route, List.map_append, choose_declared hdecl, List.append_nil]
  have hfind : (R.reverse.find? fun r =>
      fires (patterns R ++ declared (top.map directive)) (condition r.1) host) =
        R.reverse.find? fun r => eqIgnoreAsciiCase r.2 host :=
    List.find?_congr fun r hr => fires_registered hR hnodup (List.mem_reverse.1 hr) hA
  rw [hfile, hbase, hbaseRoute, route]
  simp only [List.map_append]
  rw [directives_acl hR, directives_use hR, choose_declared (hdecl.append (declares_acl R)),
    List.append_nil, declared_append, declared_acl, choose_rules, hfind, choose_other _ _ _ hother,
    choose_congr none (fires_base hb hR hbottom _), newest]
  cases R.reverse.find? fun r => eqIgnoreAsciiCase r.2 host with
  | none => rfl
  | some r => rfl

/-- Above a rule that is not the base's own stand the pattern it asks for, and in the file the
backend it names. -/
theorem rules_fileLines (hb : RoutedBase c₀) (hR : Valid R) {before after : List Text} {l b c : Text}
    (hsplit : (routedSection (fileLines c₀ R)).2 = before ++ l :: after)
    (hrule : directive l = .useBackend b c) :
    l ∈ (routedSection (lines c₀)).2 ∨
      ∃ r ∈ R, b = r.1 ∧ c = condition r.1 ∧ aclLine r.1 r.2 ∈ before := by
  obtain ⟨header, top, bottom, tail, hbase, htop, hbottom, htail, hfile⟩ :=
    routedSection_fileLines hb.base hR
  rw [hfile] at hsplit
  rw [hbase]
  have hdecl : Declares ((top ++ R.map fun r => aclLine r.1 r.2).map directive) := by
    rw [List.map_append, directives_acl hR]
    exact (declares_of_not_routing fun l hl => (htop l hl).2).append (declares_acl R)
  have hnot : l ∉ top ++ R.map fun r => aclLine r.1 r.2 :=
    fun hl => (hdecl _ (List.mem_map_of_mem hl)).1 b c hrule
  obtain ⟨hacls, hrest⟩ : (∀ l' ∈ R.map fun r => aclLine r.1 r.2, l' ∈ before) ∧
      l ∈ (R.reverse.map fun r => useLine r.1) ++ (bottom ++ tail) := by
    rcases List.append_eq_append_iff.1 hsplit with ⟨mid, rfl, hmid⟩ | ⟨mid, hmid, hafter⟩
    · rw [hmid]
      exact ⟨fun l' hl' => by simp [hl'], by simp⟩
    · cases mid with
      | nil =>
          rw [List.append_nil] at hmid
          rw [List.nil_append] at hafter
          rw [← hmid, ← hafter]
          exact ⟨fun l' hl' => by simp [hl'], by simp⟩
      | cons l' mid =>
          obtain ⟨rfl, -⟩ := List.cons.inj hafter
          exact absurd (by rw [hmid]; simp) hnot
  simp only [List.mem_append] at hrest
  rcases hrest with hl | hl | hl
  · obtain ⟨r, hr, rfl⟩ := List.mem_map.1 hl
    have hr := List.mem_reverse.1 hr
    rw [directive_useLine (hR r hr).1] at hrule
    obtain ⟨rfl, rfl⟩ := Directive.useBackend.inj hrule
    exact Or.inr ⟨r, hr, rfl, rfl, hacls _ (List.mem_map_of_mem hr)⟩
  · exact Or.inl (List.mem_append_right _ hl)
  · have hblank : directive [] = .other := by decide
    rw [htail l hl, hblank] at hrule
    simp at hrule

/-- A host goes to the newest registered service of that domain, and failing that where the base
section sends it: to its default, unless it has rules of its own. -/
theorem host_routing (hb : RoutedBase c₀) (calls : List Call)
    (hcalls : ∀ c ∈ calls, c.Admissible) {h : Haproxy} (hfile : h.file = c₀)
    (hl : h.configLocked = false) :
    (∃ h', Edits calls h h') ∧ ∀ h', Edits calls h h' →
      (∀ host, route (routedSection (lines h'.file)).2 host =
        (newest (registered calls) host).or (route (routedSection (lines c₀)).2 host)) ∧
      ((∀ l ∈ (routedSection (lines c₀)).2, ∀ b c, directive l ≠ .useBackend b c) → ∀ host,
        route (routedSection (lines c₀)).2 host = defaultBackend (routedSection (lines c₀)).2) ∧
      ∀ before l after b c, (routedSection (lines h'.file)).2 = before ++ l :: after →
        directive l = .useBackend b c → l ∉ (routedSection (lines c₀)).2 →
          ∃ domain, (b, domain) ∈ registered calls ∧ c = condition b ∧
            (∃ l' ∈ before, directive l' = .acl c domain) ∧ hasBackend h'.file b := by
  obtain ⟨hterm, hall⟩ := edits_refine hb.base hcalls (refines_base hfile hl)
  refine ⟨hterm, fun h' he => ?_⟩
  have hR : Refines c₀ (registered calls) h' := hall h' he
  rw [hR.file]
  refine ⟨fun host => route_fileLines hb hR.valid hR.nodup, fun hno host => ?_, ?_⟩
  · refine choose_of_no_rules [] none fun b c hbc => ?_
    obtain ⟨l, hl, heq⟩ := List.mem_map.1 hbc
    exact hno l hl b c heq
  · intro before l after b c hsplit hrule hnot
    rcases rules_fileLines hb hR.valid hsplit hrule with hl | ⟨r, hr, rfl, rfl, hacl⟩
    · exact absurd hl hnot
    · have hv := hR.valid r hr
      exact ⟨r.2, hr, rfl, ⟨_, hacl, directive_aclLine hv.1.noWhitespace hv.2⟩,
        hasBackend_fileLines hR.valid hR.file hr⟩

theorem routedBase_shipped : RoutedBase shipped where
  noCarriageReturn := shipped_noCarriageReturn
  noService := by decide +kernel
  frontend := by
    rw [lines_shipped]
    decide +kernel
  default := by
    rw [lines_shipped]
    exact ⟨"    default_backend volunteers", by decide +kernel, "volunteers", by decide +kernel⟩

theorem host_routing_shipped :
    ∃ h', Edits [.addService "svc_blog" "blog.org", .addService "svc_shop" "blog.org",
        .addService "svc_wiki" "wiki.org"] ⟨shipped, shipped, ∅, 0, false⟩ h' ∧
      route (routedSection (lines h'.file)).2 "Blog.org" = some "svc_shop" := by
  obtain ⟨⟨h', he⟩, hall⟩ := host_routing routedBase_shipped
    [.addService "svc_blog" "blog.org", .addService "svc_shop" "blog.org",
      .addService "svc_wiki" "wiki.org"]
    (by
      intro c hc
      simp only [List.mem_cons, List.not_mem_nil, or_false] at hc
      rcases hc with rfl | rfl | rfl <;> exact ⟨⟨by decide, by decide⟩, by decide⟩)
    (@rfl _ (Haproxy.mk shipped shipped ∅ 0 false).file) rfl
  have hnewest : newest (registered [.addService "svc_blog" "blog.org",
      .addService "svc_shop" "blog.org", .addService "svc_wiki" "wiki.org"]) "Blog.org" =
        some "svc_shop" := by decide
  refine ⟨h', he, ?_⟩
  rw [(hall h' he).1, hnewest]
  rfl

/-- A base whose frontend keeps a rule of its own below its `default_backend` line. -/
def legacyBase : Text :=
  join ["frontend web", "    bind *:80", "    acl host_legacy hdr(host) -i legacy.org",
    "    default_backend volunteers", "    use_backend legacy if host_legacy", "",
    "backend volunteers", "    balance leastconn", "", "backend legacy", "    balance leastconn"]

theorem routedBase_legacy : RoutedBase legacyBase where
  noCarriageReturn := by decide +kernel
  noService := by decide +kernel
  frontend := by decide +kernel
  default := ⟨"    default_backend volunteers", by decide +kernel, "volunteers", by decide +kernel⟩

/-- There no service is registered for the host, and its request does not go to the default. -/
theorem legacy_rule_beats_default :
    RoutedBase legacyBase ∧
    ∃ h', Edits [.addService "svc_blog" "blog.org"] ⟨legacyBase, legacyBase, ∅, 0, false⟩ h' ∧
      newest (registered [.addService "svc_blog" "blog.org"]) "legacy.org" = none ∧
      defaultBackend (routedSection (lines legacyBase)).2 = some "volunteers" ∧
      route (routedSection (lines h'.file)).2 "legacy.org" = some "legacy" := by
  have hcall : ∀ c ∈ [Call.addService "svc_blog" "blog.org"], c.Admissible := by
    intro c hc
    rw [List.mem_singleton.1 hc]
    exact ⟨⟨by decide, by decide⟩, by decide⟩
  obtain ⟨⟨h', he⟩, hall⟩ := edits_refine routedBase_legacy.base hcall
    (refines_base (@rfl _ (Haproxy.mk legacyBase legacyBase ∅ 0 false).file) rfl)
  refine ⟨routedBase_legacy, h', he, by decide, by decide +kernel, ?_⟩
  rw [(hall h' he).file]
  decide +kernel

end Registered

end OpenShard.Routing
