import Mathlib

/-!
# Text as Rust reads it

A string is the list of its characters. `lines`, `trim`, `join` and `rsplitOnce` follow the
documented behaviour of the Rust string methods of the same names; `White_Space` is the Unicode
property that `char::is_whitespace` tests. The lemmas say how `lines` undoes `join`, line by line,
and what `trim` leaves of an indented line.
-/

namespace OpenShard

abbrev Text := List Char

instance : Coe String Text := ⟨String.toList⟩

instance : LawfulBEq Text := inferInstance

namespace Text

def isWhitespace (c : Char) : Bool :=
  let n := c.toNat
  (9 ≤ n && n ≤ 13) || n == 0x20 || n == 0x85 || n == 0xA0 || n == 0x1680 ||
    (0x2000 ≤ n && n ≤ 0x200A) || n == 0x2028 || n == 0x2029 || n == 0x202F || n == 0x205F ||
    n == 0x3000

def trimStart (t : Text) : Text := t.dropWhile isWhitespace

def trimEnd (t : Text) : Text := t.rdropWhile isWhitespace

def trim (t : Text) : Text := trimEnd (trimStart t)

/-- `str::lines`: a line feed ends a line, one carriage return directly before it goes with it, and
nothing after the last line feed is no line. -/
def lines : Text → List Text
  | [] => []
  | '\n' :: t => [] :: lines t
  | '\r' :: '\n' :: t => [] :: lines t
  | c :: t =>
    match lines t with
    | [] => [[c]]
    | l :: ls => (c :: l) :: ls

/-- `ls.join("\n")`. -/
def join : List Text → Text
  | [] => []
  | [l] => l
  | l :: l' :: ls => l ++ '\n' :: join (l' :: ls)

/-- `str::split_whitespace`. -/
def words (t : Text) : List Text := (t.splitOnP isWhitespace).filter (· ≠ [])

/-- `str::eq_ignore_ascii_case`. -/
def eqIgnoreAsciiCase (s t : Text) : Bool := s.map Char.toLower == t.map Char.toLower

/-- `str::rsplit_once`: the text before and after the last occurrence of `c`. -/
def rsplitOnce (c : Char) (t : Text) : Option (Text × Text) :=
  if c ∈ t then some ((t.rdropWhile (· != c)).dropLast, t.rtakeWhile (· != c)) else none

def contains (t part : Text) : Bool := decide (part <:+: t)

def ofNat (n : ℕ) : Text := Nat.toDigits 10 n

def NoWhitespace (t : Text) : Prop := ∀ c ∈ t, isWhitespace c = false

instance (t : Text) : Decidable (NoWhitespace t) :=
  List.decidableBAll (fun c => isWhitespace c = false) t

/-- No line feed and no carriage return: the text is part of one line. -/
def Inline (t : Text) : Prop := '\n' ∉ t ∧ '\r' ∉ t

instance (t : Text) : Decidable (Inline t) := inferInstanceAs (Decidable (_ ∧ _))

theorem NoWhitespace.inline {t : Text} (h : NoWhitespace t) : Inline t :=
  ⟨fun hc => absurd (h _ hc) (by decide), fun hc => absurd (h _ hc) (by decide)⟩

theorem NoWhitespace.append {s t : Text} (hs : NoWhitespace s) (ht : NoWhitespace t) :
    NoWhitespace (s ++ t) := by
  intro c hc
  rcases List.mem_append.1 hc with hc | hc
  · exact hs c hc
  · exact ht c hc

@[simp] theorem inline_nil : Inline [] := by simp [Inline]

@[simp] theorem inline_cons (c : Char) (t : Text) :
    Inline (c :: t) ↔ c ≠ '\n' ∧ c ≠ '\r' ∧ Inline t := by
  simp only [Inline, List.mem_cons, not_or]
  constructor
  · rintro ⟨⟨h₁, h₂⟩, h₃, h₄⟩
    exact ⟨Ne.symm h₁, Ne.symm h₃, h₂, h₄⟩
  · rintro ⟨h₁, h₃, h₂, h₄⟩
    exact ⟨⟨Ne.symm h₁, h₂⟩, Ne.symm h₃, h₄⟩

@[simp] theorem inline_append (s t : Text) : Inline (s ++ t) ↔ Inline s ∧ Inline t := by
  simp only [Inline, List.mem_append, not_or]
  constructor
  · rintro ⟨⟨h₁, h₂⟩, h₃, h₄⟩
    exact ⟨⟨h₁, h₃⟩, h₂, h₄⟩
  · rintro ⟨⟨h₁, h₃⟩, h₂, h₄⟩
    exact ⟨⟨h₁, h₂⟩, h₃, h₄⟩

theorem ofNat_injective : Function.Injective ofNat := by
  intro m n h
  have hdigits := congrArg (Nat.ofDigitChars 10 · 0) h
  simpa only [ofNat, Nat.ofDigitChars_toDigits (by decide : 1 < 10) (le_refl 10)] using hdigits

theorem not_mem_ofNat {c : Char} (hc : c.isDigit = false) (n : ℕ) : c ∉ ofNat n := by
  intro hmem
  have hdigit := Nat.isDigit_of_mem_toDigits (by decide) (by decide) hmem
  rw [hc] at hdigit
  simp at hdigit

theorem rsplitOnce_append {c : Char} (front : Text) {back : Text} (h : c ∉ back) :
    (rsplitOnce c (front ++ c :: back)).map Prod.snd = some back := by
  have hback : ∀ a ∈ back.reverse, (a != c) = true := by
    intro a ha
    rw [bne_iff_ne]
    rintro rfl
    exact h (List.mem_reverse.1 ha)
  have htake : (front ++ c :: back).rtakeWhile (· != c) = back := by
    rw [List.rtakeWhile, List.reverse_append, List.reverse_cons, List.append_assoc,
      List.takeWhile_append_of_pos hback]
    simp
  rw [rsplitOnce, if_pos (by simp), Option.map_some, htake]

theorem rsplitOnce_of_mem {c : Char} {t : Text} (h : c ∈ t) :
    ∃ front back, rsplitOnce c t = some (front, back) ∧ front ++ c :: back = t := by
  have hne : t.rdropWhile (· != c) ≠ [] := by
    intro hnil
    have hall := (List.rdropWhile_eq_nil_iff).1 hnil c h
    simp at hall
  have hlast : (t.rdropWhile (· != c)).getLast hne = c := by
    have hnot := List.rdropWhile_last_not (· != c) t hne
    simpa using hnot
  refine ⟨_, _, if_pos h, ?_⟩
  have hfront := List.dropLast_append_getLast hne
  rw [hlast] at hfront
  rw [← List.singleton_append, ← List.append_assoc, hfront]
  exact List.rdropWhile_append_rtakeWhile

section Lines

@[simp] theorem lines_nil : lines [] = [] := rfl

@[simp] theorem lines_newline (t : Text) : lines ('\n' :: t) = [] :: lines t := by
  rw [lines]

theorem lines_cons {c : Char} (hn : c ≠ '\n') (hr : c ≠ '\r') (t : Text) :
    lines (c :: t) = match lines t with
      | [] => [[c]]
      | l :: ls => (c :: l) :: ls := by
  rw [lines]
  · exact hn
  · rintro t' rfl
    exact absurd rfl hr

theorem lines_inline_newline {l : Text} (hl : Inline l) (t : Text) :
    lines (l ++ '\n' :: t) = l :: lines t := by
  induction l with
  | nil => simp
  | cons c l ih =>
      obtain ⟨hn, hr, hl⟩ := (inline_cons c l).1 hl
      rw [List.cons_append, lines_cons hn hr, ih hl]

theorem lines_inline {l : Text} (hl : Inline l) : lines l = if l = [] then [] else [l] := by
  induction l with
  | nil => rfl
  | cons c l ih =>
      obtain ⟨hn, hr, hl⟩ := (inline_cons c l).1 hl
      rw [lines_cons hn hr, ih hl]
      by_cases h : l = [] <;> simp [h]

@[simp] theorem join_singleton (l : Text) : join [l] = l := rfl

theorem join_cons {ls : List Text} (h : ls ≠ []) (l : Text) :
    join (l :: ls) = l ++ '\n' :: join ls := by
  cases ls with
  | nil => exact absurd rfl h
  | cons l' ls => rfl

theorem join_append_singleton (ls : List Text) (l : Text) :
    join (ls ++ [l]) = (ls.flatMap fun l' => l' ++ ['\n']) ++ l := by
  induction ls with
  | nil => simp
  | cons l' ls ih =>
      rw [List.cons_append, join_cons (by simp), ih]
      simp

/-- Splitting undoes joining, except that an empty last piece is no line. -/
theorem lines_join_append {ls : List Text} (hls : ∀ l ∈ ls, Inline l) (t : Text) :
    lines (join (ls ++ [t])) = ls ++ lines t := by
  induction ls with
  | nil => simp
  | cons l ls ih =>
      rw [List.cons_append, join_cons (by simp), lines_inline_newline (hls l (by simp)),
        ih (fun l' hl' => hls l' (by simp [hl'])), List.cons_append]

theorem lines_join {ls : List Text} (hls : ∀ l ∈ ls, Inline l) (hlast : ls.getLast? ≠ some []) :
    lines (join ls) = ls := by
  rcases List.eq_nil_or_concat ls with rfl | ⟨front, l, rfl⟩
  · rfl
  · have hne : l ≠ [] := by
      rintro rfl
      simp at hlast
    rw [List.concat_eq_append] at hls ⊢
    rw [lines_join_append fun l' hl' => hls l' (by simp [hl']), lines_inline (hls l (by simp)),
      if_neg hne]

theorem lines_join_append_nil {ls : List Text} (hls : ∀ l ∈ ls, Inline l) :
    lines (join (ls ++ [[]])) = ls := by
  rw [lines_join_append hls, lines_nil, List.append_nil]

theorem inline_of_mem_lines {t : Text} (ht : '\r' ∉ t) : ∀ l ∈ lines t, Inline l := by
  induction t with
  | nil => simp
  | cons c t ih =>
      simp only [List.mem_cons, not_or] at ht
      have ih := ih ht.2
      by_cases hn : c = '\n'
      · subst hn
        rw [lines_newline]
        intro l hl
        rcases List.mem_cons.1 hl with rfl | hl
        · exact inline_nil
        · exact ih l hl
      · have hr : c ≠ '\r' := fun hc => ht.1 hc.symm
        rw [lines_cons hn hr]
        intro l hl
        cases hls : lines t with
        | nil =>
            rw [hls, List.mem_singleton] at hl
            subst hl
            exact (inline_cons c []).2 ⟨hn, hr, inline_nil⟩
        | cons l₀ ls =>
            rw [hls] at hl ih
            rcases List.mem_cons.1 hl with rfl | hl
            · exact (inline_cons c l₀).2 ⟨hn, hr, ih l₀ (by simp)⟩
            · exact ih l (by simp [hl])

theorem infix_of_mem_lines {t : Text} (ht : '\r' ∉ t) : ∀ l ∈ lines t, l <:+: t := by
  suffices h : (∀ l ∈ lines t, l <:+: t) ∧ ∀ l ∈ (lines t).head?, l <+: t from h.1
  induction t with
  | nil => simp
  | cons c t ih =>
      simp only [List.mem_cons, not_or] at ht
      obtain ⟨ih, ihead⟩ := ih ht.2
      have htail : ∀ l ∈ lines t, l <:+: c :: t := fun l hl => List.infix_cons (ih l hl)
      by_cases hn : c = '\n'
      · subst hn
        rw [lines_newline]
        refine ⟨fun l hl => ?_, by simp⟩
        rcases List.mem_cons.1 hl with rfl | hl
        · exact List.nil_infix
        · exact htail l hl
      · have hr : c ≠ '\r' := fun hc => ht.1 hc.symm
        rw [lines_cons hn hr]
        cases hls : lines t with
        | nil =>
            have hhead : [c] <+: c :: t := ⟨t, rfl⟩
            simpa using hhead.isInfix
        | cons l₀ ls =>
            rw [hls] at htail ihead
            have hhead : c :: l₀ <+: c :: t := List.cons_prefix_cons.2 ⟨rfl, ihead l₀ (by simp)⟩
            refine ⟨fun l hl => ?_, by simpa using hhead⟩
            rcases List.mem_cons.1 hl with rfl | hl
            · exact hhead.isInfix
            · exact htail l (by simp [hl])

end Lines

section Trim

theorem dropWhile_white {ws t : Text} (hws : ∀ c ∈ ws, isWhitespace c) :
    trimStart (ws ++ t) = trimStart t := by
  induction ws with
  | nil => rfl
  | cons c ws ih =>
      have hc := hws c (by simp)
      rw [← ih fun d hd => hws d (by simp [hd])]
      simp [trimStart, hc]

/-- The text starts and ends outside white space. -/
def framed (t : Text) : Bool :=
  t.head?.any (!isWhitespace ·) && t.getLast?.any (!isWhitespace ·)

theorem white_indent : ∀ c ∈ "    ".toList, isWhitespace c :=
  List.all_eq_true.1 (by decide)

/-- What `trim` leaves of an indented text, with anything behind it. -/
theorem trim_framed {ws body : Text} (hws : ∀ c ∈ ws, isWhitespace c) (hb : framed body)
    (rest : Text) : trim (ws ++ body ++ rest) = body ++ trimEnd rest := by
  simp only [framed, Bool.and_eq_true, Option.any_eq_true, Bool.not_eq_true'] at hb
  obtain ⟨⟨c, hc, hcw⟩, d, hd, hdw⟩ := hb
  have hstart : trimStart (ws ++ body ++ rest) = body ++ rest := by
    rw [List.append_assoc, dropWhile_white hws]
    obtain ⟨tail, rfl⟩ := List.head?_eq_some_iff.1 hc
    simp [trimStart, hcw]
  obtain ⟨front, rfl⟩ := List.getLast?_eq_some_iff.1 hd
  have hrev : (front ++ [d] ++ rest).reverse = rest.reverse ++ d :: front.reverse := by simp
  rw [trim, hstart, trimEnd, trimEnd, List.rdropWhile, hrev, List.dropWhile_append]
  split_ifs with hempty
  · rw [List.isEmpty_iff] at hempty
    simp [List.rdropWhile, hdw, hempty]
  · simp [List.rdropWhile]

theorem framed_append {a c : Text} (ha : framed a) (hc : framed c) (b : Text) :
    framed (a ++ b ++ c) := by
  simp only [framed, Bool.and_eq_true, Option.any_eq_true] at *
  obtain ⟨⟨x, hx, hxw⟩, _⟩ := ha
  obtain ⟨_, y, hy, hyw⟩ := hc
  refine ⟨⟨x, ?_, hxw⟩, y, ?_, hyw⟩
  · simp [hx]
  · simp [List.getLast?_append, hy]

theorem framed_of_noWhitespace {t : Text} (ht : NoWhitespace t) (hne : t ≠ []) : framed t := by
  obtain ⟨c, tail, rfl⟩ := List.exists_cons_of_ne_nil hne
  have hlast := List.getLast_mem hne
  simp only [framed, List.head?_cons, List.getLast?_eq_some_getLast hne, Option.any_some,
    ht c (by simp), ht _ hlast]
  rfl

theorem prefix_trim {ws body : Text} (hws : ∀ c ∈ ws, isWhitespace c) (hb : framed body)
    (rest : Text) : body <+: trim (ws ++ body ++ rest) := by
  rw [trim_framed hws hb]
  exact List.prefix_append _ _

theorem trim_of_framed {body : Text} (hb : framed body) : trim body = body := by
  have h := @trim_framed [] body (by simp) hb []
  simpa [trimEnd] using h

theorem head_of_prefix_cons {c : Char} {p t : Text} (h : c :: p <+: t) : t.head? = some c := by
  obtain ⟨r, rfl⟩ := h
  rfl

theorem not_prefix_of_head {c d : Char} {p q t : Text} (h : c :: p <+: t) (hne : d ≠ c) :
    ¬ d :: q <+: t := by
  intro hq
  have heq : some c = some d := (head_of_prefix_cons h).symm.trans (head_of_prefix_cons hq)
  exact hne (Option.some.inj heq).symm

/-- Two words followed by a space are prefixes of one text only if they are the same word. -/
theorem word_prefix_iff {u v r : Text} (hu : NoWhitespace u) (hv : NoWhitespace v) :
    u ++ [' '] <+: v ++ ' ' :: r ↔ u = v := by
  induction u generalizing v with
  | nil =>
      cases v with
      | nil => simp
      | cons c v =>
          have hc : c ≠ ' ' := fun h => absurd (hv c (by simp)) (by rw [h]; decide)
          simpa using hc.symm
  | cons c u ih =>
      have hc : c ≠ ' ' := fun h => absurd (hu c (by simp)) (by rw [h]; decide)
      cases v with
      | nil => simp [hc]
      | cons c' v =>
          rw [List.cons_append, List.cons_append, List.cons_prefix_cons,
            ih (fun x hx => hu x (by simp [hx])) (fun x hx => hv x (by simp [hx]))]
          simp

end Trim

section Words

theorem words_append_space {c : Char} (hc : isWhitespace c) (s t : Text) :
    words (s ++ c :: t) = words s ++ words t := by
  unfold words
  rw [List.splitOnP_append_cons s t hc, List.filter_append]

theorem words_of_noWhitespace {t : Text} (ht : NoWhitespace t) (hne : t ≠ []) : words t = [t] := by
  rw [words, List.splitOnP_eq_singleton ht]
  simp [hne]

theorem splitOnP_pieces (p : Char → Bool) (t : Text) :
    (∀ w ∈ t.splitOnP p, w <:+: t ∧ ∀ c ∈ w, p c = false) ∧
      ∀ w ∈ (t.splitOnP p).head?, w <+: t := by
  induction t with
  | nil => simp [List.splitOnP_nil]
  | cons c t ih =>
      obtain ⟨ih, ihead⟩ := ih
      rw [List.splitOnP_cons_eq_if_modifyHead]
      split_ifs with hc
      · refine ⟨fun w hw => ?_, by simp⟩
        rcases List.mem_cons.1 hw with rfl | hw
        · exact ⟨List.nil_infix, by simp⟩
        · exact ⟨List.infix_cons (ih w hw).1, (ih w hw).2⟩
      · obtain ⟨w₀, ws, hws⟩ := List.exists_cons_of_ne_nil (List.splitOnP_ne_nil p t)
        rw [hws] at ih ihead
        rw [hws, List.modifyHead_cons]
        have hhead : c :: w₀ <+: c :: t := List.cons_prefix_cons.2 ⟨rfl, ihead w₀ (by simp)⟩
        refine ⟨fun w hw => ?_, by simpa using hhead⟩
        rcases List.mem_cons.1 hw with rfl | hw
        · refine ⟨hhead.isInfix, fun d hd => ?_⟩
          rcases List.mem_cons.1 hd with rfl | hd
          · simpa using hc
          · exact (ih w₀ (by simp)).2 d hd
        · exact ⟨List.infix_cons (ih w (by simp [hw])).1, (ih w (by simp [hw])).2⟩

theorem infix_of_mem_words {t : Text} : ∀ w ∈ words t, w <:+: t :=
  fun w hw => ((splitOnP_pieces isWhitespace t).1 w (List.mem_of_mem_filter hw)).1

theorem mem_words {t : Text} : ∀ w ∈ words t, NoWhitespace w ∧ w ≠ [] := by
  intro w hw
  obtain ⟨hw, hne⟩ := List.mem_filter.1 hw
  exact ⟨((splitOnP_pieces isWhitespace t).1 w hw).2, by simpa using hne⟩

theorem words_eq_cons {t w : Text} {ws : List Text} (h : words t = w :: ws) :
    ∃ blank rest, (∀ c ∈ blank, isWhitespace c) ∧ t = blank ++ w ++ rest := by
  induction t with
  | nil => simp [words, List.splitOnP_nil] at h
  | cons c t ih =>
      by_cases hc : isWhitespace c
      · have hskip : words (c :: t) = words t := by
          have happ := words_append_space hc [] t
          simpa [words, List.splitOnP_nil] using happ
        rw [hskip] at h
        obtain ⟨blank, rest, hblank, rfl⟩ := ih h
        refine ⟨c :: blank, rest, ?_, rfl⟩
        intro d hd
        rcases List.mem_cons.1 hd with rfl | hd
        · exact hc
        · exact hblank d hd
      · obtain ⟨w₀, ws₀, hws⟩ := List.exists_cons_of_ne_nil (List.splitOnP_ne_nil isWhitespace t)
        rw [words, List.splitOnP_cons_eq_if_modifyHead, if_neg hc, hws, List.modifyHead_cons,
          List.filter_cons_of_pos (by simp)] at h
        obtain ⟨rfl, -⟩ := List.cons.inj h
        obtain ⟨rest, rfl⟩ := (splitOnP_pieces isWhitespace t).2 w₀ (by simp [hws])
        exact ⟨[], rest, by simp, rfl⟩

theorem trim_infix_self (t : Text) : trim t <:+: t :=
  (List.rdropWhile_prefix _ _).isInfix.trans (List.dropWhile_suffix _).isInfix

theorem first_word_prefix_trim {t w : Text} {ws : List Text} (h : words t = w :: ws) : w <+: trim t := by
  obtain ⟨blank, rest, hblank, rfl⟩ := words_eq_cons h
  obtain ⟨hw, hne⟩ := mem_words w (by rw [h]; exact List.mem_cons_self)
  exact prefix_trim hblank (framed_of_noWhitespace hw hne) rest

end Words

section Written

theorem lines_return_newline (t : Text) : lines ('\r' :: '\n' :: t) = lines ('\n' :: t) := by
  rw [lines, lines]

theorem lines_cons_of_not_newline {c : Char} {t : Text} (hn : c ≠ '\n')
    (hr : c = '\r' → ∀ t', t ≠ '\n' :: t') : lines (c :: t) = match lines t with
      | [] => [[c]]
      | l :: ls => (c :: l) :: ls := by
  rw [lines]
  · exact hn
  · exact fun t' hc ht => hr hc t' ht

theorem lines_append_newline (a t : Text) :
    lines (a ++ '\n' :: t) = lines (a ++ ['\n']) ++ lines t ∧ lines (a ++ ['\n']) ≠ [] := by
  induction a with
  | nil => simp
  | cons c a ih =>
      by_cases hn : c = '\n'
      · subst hn
        simp [ih.1]
      by_cases hr : c = '\r' ∧ (a = [] ∨ ∃ a', a = '\n' :: a')
      · obtain ⟨rfl, rfl | ⟨a', rfl⟩⟩ := hr
        · simp [lines]
        · simp only [List.cons_append, lines_return_newline]
          exact ih
      · have hcons : ∀ t', lines (c :: (a ++ '\n' :: t')) = match lines (a ++ '\n' :: t') with
            | [] => [[c]]
            | l :: ls => (c :: l) :: ls := by
          refine fun t' => lines_cons_of_not_newline hn ?_
          rintro rfl t'' heq
          cases a with
          | nil => exact hr ⟨rfl, Or.inl rfl⟩
          | cons d a =>
              obtain ⟨rfl, -⟩ := List.cons.inj heq
              exact hr ⟨rfl, Or.inr ⟨a, rfl⟩⟩
        rw [List.cons_append, List.cons_append, hcons, hcons, ih.1]
        cases hl : lines (a ++ ['\n']) with
        | nil => exact absurd hl ih.2
        | cons l ls => simp

/-- A line keeps its text when it is written back and read again, but for a carriage return at its
end. -/
theorem lines_written {l : Text} (hl : '\n' ∉ l) :
    ∃ l', lines (l ++ ['\n']) = [l'] ∧ (l' = l ∨ l = l' ++ ['\r']) := by
  induction l with
  | nil => exact ⟨[], by simp, Or.inl rfl⟩
  | cons c l ih =>
      simp only [List.mem_cons, not_or] at hl
      obtain ⟨l', hlines, hl'⟩ := ih hl.2
      by_cases hr : c = '\r' ∧ l = []
      · obtain ⟨rfl, rfl⟩ := hr
        exact ⟨[], by simp [lines], Or.inr rfl⟩
      · refine ⟨c :: l', ?_, ?_⟩
        · rw [List.cons_append, lines_cons_of_not_newline (Ne.symm hl.1), hlines]
          rintro rfl t' heq
          cases l with
          | nil => exact hr ⟨rfl, rfl⟩
          | cons d l =>
              obtain ⟨rfl, -⟩ := List.cons.inj heq
              exact hl.2 List.mem_cons_self
        · rcases hl' with rfl | hl'
          · exact Or.inl rfl
          · exact Or.inr (by rw [hl', List.cons_append])

theorem trim_append_return (l : Text) : trim (l ++ ['\r']) = trim l := by
  have hwhite : isWhitespace '\r' = true := by decide
  by_cases hall : ∀ c ∈ l, isWhitespace c = true
  · have hnil : trimStart l = [] := List.dropWhile_eq_nil_iff.2 hall
    have hnil' : trimStart (l ++ ['\r']) = [] := by
      refine List.dropWhile_eq_nil_iff.2 fun c hc => ?_
      rcases List.mem_append.1 hc with hc | hc
      · exact hall c hc
      · rw [List.mem_singleton.1 hc]
        exact hwhite
    rw [trim, trim, hnil, hnil']
  · have hstart : trimStart (l ++ ['\r']) = trimStart l ++ ['\r'] := by
      rw [trimStart, List.dropWhile_append, if_neg]
      · rfl
      · simp only [List.isEmpty_iff, List.dropWhile_eq_nil_iff]
        exact hall
    rw [trim, hstart, trimEnd, List.rdropWhile_concat_pos _ _ _ hwhite]
    rfl

theorem newline_notMem_lines {t : Text} : ∀ l ∈ lines t, '\n' ∉ l := by
  induction t using lines.induct with
  | case1 => simp
  | case2 t ih => simpa using ih
  | case3 t ih =>
      rw [lines_return_newline]
      simpa using ih
  | case4 c t hn hr hnil ih =>
      rw [lines_cons_of_not_newline hn fun hc t' ht => hr t' hc ht, hnil]
      simpa using Ne.symm hn
  | case5 c t hn hr l ls hcons ih =>
      rw [lines_cons_of_not_newline hn fun hc t' ht => hr t' hc ht, hcons]
      rw [hcons] at ih
      simpa [Ne.symm hn] using ih

theorem trim_mem_lines_written {ls : List Text} {l : Text} (hl : l ∈ ls) (hn : '\n' ∉ l) (t : Text) :
    trim l ∈ (lines (ls.flatMap (fun l' => l' ++ ['\n']) ++ t)).map trim := by
  induction ls with
  | nil => simp at hl
  | cons l₀ ls ih =>
      have hsplit : List.flatMap (fun l' => l' ++ ['\n']) (l₀ :: ls) ++ t =
          l₀ ++ '\n' :: (List.flatMap (fun l' => l' ++ ['\n']) ls ++ t) := by simp
      rw [hsplit, (lines_append_newline l₀ _).1, List.map_append, List.mem_append]
      rcases List.mem_cons.1 hl with rfl | hl
      · obtain ⟨l', hlines, hl'⟩ := lines_written hn
        left
        rw [hlines, List.map_singleton, List.mem_singleton]
        rcases hl' with rfl | hl'
        · rfl
        · rw [hl', trim_append_return]
      · exact Or.inr (ih hl)

end Written

end Text
end OpenShard
