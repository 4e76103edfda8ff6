import OpenShard.Future
import Mathlib.Data.Multiset.Basic

/-!
# Interleaved tasks

Any number of tasks run at once. A task is a label with what is left of its future; it arrives at
any time, and the scheduler picks one task at a time and lets it take one step. A finished task
stays where it is, its answer the leaf of its future.

To reason about one task without naming the others, each task holds a token that says how far it has
come, and an invariant ties the tokens of all tasks to the state. `Carries` is the proof obligation
of a single future: from any state in which its token is valid among any others, each of its steps is
safe and leads to a state in which the new token is. It composes along `bind`, and an interleaving of
tasks that carry their tokens keeps the invariant.
-/

namespace OpenShard

open Machine (exec)

section Pool

variable {F : Type → Type} {E σ ι ρ : Type} [Machine F E σ]

/-- The tasks that have arrived, with what is left of them, and the state they have led to. -/
inductive Interleaving (g : Guard F E σ) (spawn : ι → Future F ρ) (s₀ : σ) :
    List (ι × Future F ρ) → σ → Prop
  | start : Interleaving g spawn s₀ [] s₀
  | arrive {tasks : List (ι × Future F ρ)} {s : σ} (i : ι)
      (past : Interleaving g spawn s₀ tasks s) :
      Interleaving g spawn s₀ ((i, spawn i) :: tasks) s
  | advance {before after : List (ι × Future F ρ)} {i : ι} {β : Type} {op : F β}
      {next : β → Future F ρ} {e : E} {s s' : σ} {c : β}
      (past : Interleaving g spawn s₀ (before ++ (i, .await op next) :: after) s)
      (hg : g β e op s) (he : exec e op s = some (c, s')) :
      Interleaving g spawn s₀ (before ++ (i, next c) :: after) s'

variable {g : Guard F E σ} {spawn : ι → Future F ρ} {s₀ s s' : σ}

theorem Interleaving.run {before after : List (ι × Future F ρ)} {i : ι} {t : Future F ρ} {a : ρ}
    (past : Interleaving g spawn s₀ (before ++ (i, t) :: after) s) (hrun : Runs g t s a s') :
    Interleaving g spawn s₀ (before ++ (i, .ready a) :: after) s' := by
  induction hrun with
  | ready a s => exact past
  | await hg he _ ih => exact ih (past.advance hg he)

theorem Interleaving.mono {g' : Guard F E σ} (hgg : ∀ β e (op : F β) s, g β e op s → g' β e op s)
    {tasks : List (ι × Future F ρ)} (h : Interleaving g spawn s₀ tasks s) :
    Interleaving g' spawn s₀ tasks s := by
  induction h with
  | start => exact .start
  | arrive i _ ih => exact ih.arrive i
  | advance _ hg he ih => exact ih.advance (hgg _ _ _ _ hg) he

theorem Interleaving.invariant {P : σ → Prop} (hinit : P s₀)
    (hstep : ∀ β e (op : F β) s b s', g β e op s → exec e op s = some (b, s') → P s → P s')
    {tasks : List (ι × Future F ρ)} (h : Interleaving g spawn s₀ tasks s) : P s := by
  induction h with
  | start => exact hinit
  | arrive _ _ ih => exact ih
  | advance _ hg he ih => exact hstep _ _ _ _ _ _ hg he ih

def answer : Future F ρ → Option ρ
  | .ready a => some a
  | .await _ _ => none

@[simp] theorem answer_ready (a : ρ) : answer (.ready a : Future F ρ) = some a := rfl

@[simp] theorem answer_await {β : Type} (op : F β) (next : β → Future F ρ) :
    answer (.await op next) = none := rfl

def Quiet (tasks : List (ι × Future F ρ)) : Prop := ∀ t ∈ tasks, (answer t.2).isSome

instance (tasks : List (ι × Future F ρ)) : Decidable (Quiet tasks) :=
  inferInstanceAs (Decidable (∀ t ∈ tasks, _))

end Pool

section Tokens

/-- What the steps of all tasks are assumed to meet, the invariant that ties the tokens of the tasks
to the state, and what every step has to meet. -/
structure Discipline (F : Type → Type) (E σ Γ : Type) where
  guard : Guard F E σ
  inv : σ → Multiset Γ → Prop
  safe : Guard F E σ

variable {F : Type → Type} {E σ ι ρ α β Γ : Type} [Machine F E σ]

/-- Holding the token `γ`, the future keeps the discipline at each of its steps, whatever the other
tasks do in between, and ends with an answer and a token that satisfy `Q`. -/
def Carries (D : Discipline F E σ Γ) (Q : α → Γ → Prop) : Future F α → Γ → Prop
  | .ready a, γ => Q a γ
  | .await op next, γ => ∀ e s γs, D.inv s (γ ::ₘ γs) → D.guard _ e op s →
      D.safe _ e op s ∧ ∀ c s', exec e op s = some (c, s') →
        ∃ γ', D.inv s' (γ' ::ₘ γs) ∧ Carries D Q (next c) γ'

variable {D : Discipline F E σ Γ} {Q : α → Γ → Prop} {γ : Γ}

theorem carries_pure {a : α} (h : Q a γ) : Carries D Q (pure a : Future F α) γ := h

theorem carries_perform {op : F α} (h : ∀ e s γs, D.inv s (γ ::ₘ γs) → D.guard α e op s →
    D.safe α e op s ∧ ∀ a s', exec e op s = some (a, s') → ∃ γ', D.inv s' (γ' ::ₘ γs) ∧ Q a γ') :
    Carries D Q (.perform op) γ := h

theorem carries_bind {R : β → Γ → Prop} {t : Future F α} {f : α → Future F β}
    (h : Carries D (fun a γ => Carries D R (f a) γ) t γ) : Carries D R (t >>= f) γ := by
  rw [Future.bind_eq]
  induction t generalizing γ with
  | ready a => exact h
  | await op next ih =>
      intro e s γs hinv hg
      obtain ⟨hsafe, hstep⟩ := h e s γs hinv hg
      refine ⟨hsafe, fun c s' he => ?_⟩
      obtain ⟨γ', hinv', hrest⟩ := hstep c s' he
      exact ⟨γ', hinv', ih c hrest⟩

theorem Carries.mono {R : α → Γ → Prop} {t : Future F α} (h : Carries D Q t γ)
    (hQR : ∀ a γ, Q a γ → R a γ) : Carries D R t γ := by
  induction t generalizing γ with
  | ready a => exact hQR a γ h
  | await op next ih =>
      intro e s γs hinv hg
      obtain ⟨hsafe, hstep⟩ := h e s γs hinv hg
      refine ⟨hsafe, fun c s' he => ?_⟩
      obtain ⟨γ', hinv', hrest⟩ := hstep c s' he
      exact ⟨γ', hinv', ih c hrest⟩

/-- Every task carries its token, and the invariant holds of the tokens together. -/
def Disciplined (D : Discipline F E σ Γ) (Q : ι → ρ → Γ → Prop) (tasks : List (ι × Future F ρ))
    (s : σ) (γs : List Γ) : Prop :=
  List.Forall₂ (fun t γ => Carries D (Q t.1) t.2 γ) tasks γs ∧ D.inv s γs

variable {spawn : ι → Future F ρ} {s₀ s : σ} {Q : ι → ρ → Γ → Prop}

omit [Machine F E σ] in
theorem forall₂_pick {α β : Type*} {R : α → β → Prop} {before after : List α} {a : α} {bs : List β}
    (h : List.Forall₂ R (before ++ a :: after) bs) :
    ∃ bs₁ b bs₂, bs = bs₁ ++ b :: bs₂ ∧ List.Forall₂ R before bs₁ ∧ R a b ∧
      List.Forall₂ R after bs₂ := by
  induction before generalizing bs with
  | nil =>
      cases h with
      | cons hab hrest => exact ⟨[], _, _, rfl, .nil, hab, hrest⟩
  | cons a' before ih =>
      cases h with
      | cons hab hrest =>
          obtain ⟨bs₁, b, bs₂, rfl, h₁, hb, h₂⟩ := ih hrest
          exact ⟨_ :: bs₁, b, bs₂, rfl, .cons hab h₁, hb, h₂⟩

theorem coe_pick {α : Type*} (l₁ l₂ : List α) (a : α) :
    ((l₁ ++ a :: l₂ : List α) : Multiset α) = a ::ₘ ((l₁ ++ l₂ : List α) : Multiset α) :=
  Multiset.coe_eq_coe.2 List.perm_middle

/-- An interleaving of tasks that carry their tokens keeps the discipline. -/
theorem Interleaving.disciplined (hinit : D.inv s₀ 0)
    (harrive : ∀ i s γs, D.inv s γs → ∃ γ, D.inv s (γ ::ₘ γs) ∧ Carries D (Q i) (spawn i) γ)
    {tasks : List (ι × Future F ρ)} (h : Interleaving D.guard spawn s₀ tasks s) :
    ∃ γs, Disciplined D Q tasks s γs := by
  induction h with
  | start => exact ⟨[], .nil, hinit⟩
  | arrive i _ ih =>
      obtain ⟨γs, hcarry, hinv⟩ := ih
      obtain ⟨γ, hinv', hnew⟩ := harrive i _ _ hinv
      exact ⟨γ :: γs, .cons hnew hcarry, hinv'⟩
  | advance _ hg he ih =>
      obtain ⟨γs, hcarry, hinv⟩ := ih
      obtain ⟨γs₁, γ, γs₂, rfl, h₁, hγ, h₂⟩ := forall₂_pick hcarry
      rw [coe_pick] at hinv
      obtain ⟨γ', hinv', hrest⟩ := (hγ _ _ _ hinv hg).2 _ _ he
      refine ⟨γs₁ ++ γ' :: γs₂, List.rel_append h₁ (.cons hrest h₂), ?_⟩
      rwa [coe_pick]

/-- Whatever step the scheduler may choose next is safe. -/
theorem Disciplined.safe {before after : List (ι × Future F ρ)} {i : ι} {op : F β}
    {next : β → Future F ρ} {γs : List Γ} {e : E}
    (h : Disciplined D Q (before ++ (i, .await op next) :: after) s γs) (hg : D.guard β e op s) :
    D.safe β e op s := by
  obtain ⟨hcarry, hinv⟩ := h
  obtain ⟨γs₁, γ, γs₂, rfl, -, hγ, -⟩ := forall₂_pick hcarry
  rw [coe_pick] at hinv
  exact (hγ _ _ _ hinv hg).1

theorem Disciplined.answered {tasks : List (ι × Future F ρ)} {γs : List Γ}
    (h : Disciplined D Q tasks s γs) {i : ι} {a : ρ} (hmem : (i, .ready a) ∈ tasks) :
    ∃ γ ∈ γs, Q i a γ := by
  obtain ⟨before, after, rfl⟩ := List.append_of_mem hmem
  obtain ⟨γs₁, γ, γs₂, rfl, -, hγ, -⟩ := forall₂_pick h.1
  exact ⟨γ, by simp, hγ⟩

theorem Disciplined.quiet {tasks : List (ι × Future F ρ)} {γs : List Γ}
    (h : Disciplined D Q tasks s γs) (hquiet : Quiet tasks) :
    ∀ γ ∈ γs, ∃ i a, (i, .ready a) ∈ tasks ∧ Q i a γ := by
  obtain ⟨hcarry, -⟩ := h
  induction hcarry with
  | nil => simp
  | @cons t γ tasks γs hγ _ ih =>
      intro γ' hγ'
      rcases List.mem_cons.1 hγ' with rfl | hmem
      · obtain ⟨i, t⟩ := t
        cases t with
        | ready a => exact ⟨i, a, by simp, hγ⟩
        | await op next => exact absurd (hquiet _ List.mem_cons_self) (by simp)
      · obtain ⟨i, a, ht, hQ⟩ := ih (fun t ht => hquiet t (List.mem_cons_of_mem _ ht)) γ' hmem
        exact ⟨i, a, List.mem_cons_of_mem _ ht, hQ⟩

end Tokens

section Exclusive

variable {Γ κ : Type} {f : Γ → Option κ} {taken : Multiset κ} {γs : Multiset Γ} {γ γ' : Γ} {k : κ}

/-- Each token holds at most one key, and `taken` are the keys that are held, each by one token. -/
structure Exclusive (f : Γ → Option κ) (taken : Multiset κ) (γs : Multiset Γ) : Prop where
  eq : taken = γs.filterMap f
  nodup : taken.Nodup

theorem exclusive_zero : Exclusive f 0 (0 : Multiset Γ) := ⟨rfl, Multiset.nodup_zero⟩

theorem Exclusive.keep (h : Exclusive f taken (γ ::ₘ γs)) (hγ : f γ' = f γ) :
    Exclusive f taken (γ' ::ₘ γs) := by
  refine ⟨?_, h.nodup⟩
  rw [h.eq]
  cases hk : f γ with
  | none => rw [Multiset.filterMap_cons_none _ _ hk, Multiset.filterMap_cons_none _ _ (hγ.trans hk)]
  | some k =>
      rw [Multiset.filterMap_cons_some _ _ _ hk, Multiset.filterMap_cons_some _ _ _ (hγ.trans hk)]

theorem Exclusive.take (h : Exclusive f taken (γ ::ₘ γs)) (hγ : f γ = none) (hγ' : f γ' = some k)
    (hfree : k ∉ taken) : Exclusive f (k ::ₘ taken) (γ' ::ₘ γs) := by
  refine ⟨?_, Multiset.nodup_cons.2 ⟨hfree, h.nodup⟩⟩
  rw [h.eq, Multiset.filterMap_cons_none _ _ hγ, Multiset.filterMap_cons_some _ _ _ hγ']

theorem Exclusive.release [DecidableEq κ] (h : Exclusive f taken (γ ::ₘ γs)) (hγ : f γ = some k)
    (hγ' : f γ' = none) : Exclusive f (taken.erase k) (γ' ::ₘ γs) := by
  refine ⟨?_, h.nodup.erase k⟩
  rw [h.eq, Multiset.filterMap_cons_some _ _ _ hγ, Multiset.filterMap_cons_none _ _ hγ',
    Multiset.erase_cons_head]

theorem Exclusive.arrive (h : Exclusive f taken γs) (hγ : f γ = none) :
    Exclusive f taken (γ ::ₘ γs) := by
  refine ⟨?_, h.nodup⟩
  rw [h.eq, Multiset.filterMap_cons_none _ _ hγ]

theorem Exclusive.mem (h : Exclusive f taken γs) (hγ : γ ∈ γs) (hk : f γ = some k) : k ∈ taken := by
  rw [h.eq]
  exact (Multiset.mem_filterMap _ _).2 ⟨γ, hγ, hk⟩

theorem Exclusive.ne (h : Exclusive f taken (γ ::ₘ γs)) (hγ : f γ = some k) {δ : Γ} (hδ : δ ∈ γs)
    {k' : κ} (hk' : f δ = some k') : k' ≠ k := by
  rintro rfl
  have hnodup := h.nodup
  rw [h.eq, Multiset.filterMap_cons_some _ _ _ hγ] at hnodup
  exact (Multiset.nodup_cons.1 hnodup).1 ((Multiset.mem_filterMap _ _).2 ⟨δ, hδ, hk'⟩)

end Exclusive

section Observed

structure Signed (ι : Type) (F : Type → Type) (ω β : Type) where
  who : ι
  op : F β

/-- An observer of the steps, whose notes do not influence them. -/
class Observer (ι : Type) (F : Type → Type) (E ω : Type) where
  note : ∀ {β : Type}, ι → E → F β → β → ω → ω

variable {ι E σ ω α β Γ : Type} {F : Type → Type} [Machine F E σ] [Observer ι F E ω]

instance : Machine (Signed ι F ω) E (σ × ω) where
  exec e op s := (exec e op.op s.1).map fun r =>
    (r.1, r.2, Observer.note op.who e op.op r.1 s.2)

def signed (ω : Type) (i : ι) (t : Future F α) : Future (Signed ι F ω) α :=
  t.hoist fun op => ⟨i, op⟩

variable {D : Discipline (Signed ι F ω) E (σ × ω) Γ} {i : ι} {γ : Γ} {Q : α → Γ → Prop}

theorem carries_signed_pure {a : α} (h : Q a γ) :
    Carries D Q (signed ω i (pure a : Future F α)) γ := h

theorem carries_signed_bind {R : β → Γ → Prop} {t : Future F α} {f : α → Future F β}
    (h : Carries D (fun a γ => Carries D R (signed ω i (f a)) γ) (signed ω i t) γ) :
    Carries D R (signed ω i (t >>= f)) γ := by
  rw [signed, Future.hoist_bind]
  exact carries_bind h

theorem carries_signed_map {R : β → Γ → Prop} {t : Future F α} {f : α → β}
    (h : Carries D (fun a γ => R (f a) γ) (signed ω i t) γ) :
    Carries D R (signed ω i (f <$> t)) γ := by
  rw [map_eq_pure_bind]
  exact carries_signed_bind (h.mono fun a γ hR => carries_signed_pure hR)

theorem carries_signed_perform {op : F α}
    (h : ∀ e s w γs, D.inv (s, w) (γ ::ₘ γs) → D.guard α e ⟨i, op⟩ (s, w) →
      D.safe α e ⟨i, op⟩ (s, w) ∧ ∀ a s', exec e op s = some (a, s') →
        ∃ γ', D.inv (s', Observer.note i e op a w) (γ' ::ₘ γs) ∧ Q a γ') :
    Carries D Q (signed ω i (.perform op)) γ := by
  refine carries_perform fun e s γs hinv hg => ?_
  obtain ⟨hsafe, hstep⟩ := h e s.1 s.2 γs hinv hg
  refine ⟨hsafe, fun a s' he => ?_⟩
  obtain ⟨⟨b, s₁⟩, hexec, heq⟩ := Option.map_eq_some_iff.1 he
  obtain ⟨rfl, rfl⟩ := Prod.mk.inj heq
  exact hstep _ _ hexec

theorem carries_signed_uses {P : ∀ β : Type, F β → Prop} {t : Future F α} (ht : t.Uses P)
    (hstep : ∀ β e (op : F β) s w γs, P β op → D.inv (s, w) (γ ::ₘ γs) →
      D.guard β e ⟨i, op⟩ (s, w) → D.safe β e ⟨i, op⟩ (s, w) ∧
        ∀ c s', exec e op s = some (c, s') → D.inv (s', Observer.note i e op c w) (γ ::ₘ γs))
    (hQ : ∀ a, Q a γ) : Carries D Q (signed ω i t) γ := by
  induction t with
  | ready a => exact hQ a
  | await op next ih =>
      intro e s γs hinv hg
      obtain ⟨hsafe, hkeep⟩ := hstep _ e op s.1 s.2 γs ht.1 hinv hg
      refine ⟨hsafe, fun c s' he => ?_⟩
      obtain ⟨⟨b, s₁⟩, hexec, heq⟩ := Option.map_eq_some_iff.1 he
      obtain ⟨rfl, rfl⟩ := Prod.mk.inj heq
      exact ⟨γ, hkeep _ _ hexec, ih _ (ht.2 _)⟩

end Observed

section Schedule

variable {F : Type → Type} {E σ ι ρ : Type} [Machine F E σ]

/-- What a scheduler does next: let a request in, or give the task at a position some steps, the
environment answering as told. -/
inductive Move (ι σ E : Type)
  | arrive (i : ι)
  | advance (position steps : ℕ) (strat : σ → E)

variable (g : Guard F E σ) [∀ β e op s, Decidable (g β e op s)] (spawn : ι → Future F ρ)

/-- Some steps of one task, fewer if it ends or a step is refused. -/
def advanceBy (strat : σ → E) : ℕ → Future F ρ → σ → Future F ρ × σ
  | 0, t, s => (t, s)
  | _ + 1, .ready a, s => (.ready a, s)
  | n + 1, .await op next, s =>
    if g _ (strat s) op s then
      match exec (strat s) op s with
      | none => (.await op next, s)
      | some (c, s') => advanceBy strat n (next c) s'
    else (.await op next, s)

def advanceAt (strat : σ → E) (steps : ℕ) :
    ℕ → List (ι × Future F ρ) → σ → List (ι × Future F ρ) × σ
  | _, [], s => ([], s)
  | 0, (i, t) :: tasks, s =>
    let r := advanceBy g strat steps t s
    ((i, r.1) :: tasks, r.2)
  | k + 1, task :: tasks, s =>
    let r := advanceAt strat steps k tasks s
    (task :: r.1, r.2)

def play : List (Move ι σ E) → List (ι × Future F ρ) → σ → List (ι × Future F ρ) × σ
  | [], tasks, s => (tasks, s)
  | .arrive i :: moves, tasks, s => play moves ((i, spawn i) :: tasks) s
  | .advance k steps strat :: moves, tasks, s =>
    let r := advanceAt g strat steps k tasks s
    play moves r.1 r.2

variable {g spawn} {s₀ s : σ}

theorem Interleaving.advanceBy {strat : σ → E} {before after : List (ι × Future F ρ)} {i : ι}
    (steps : ℕ) {t : Future F ρ}
    (past : Interleaving g spawn s₀ (before ++ (i, t) :: after) s) :
    Interleaving g spawn s₀ (before ++ (i, (OpenShard.advanceBy g strat steps t s).1) :: after)
      (OpenShard.advanceBy g strat steps t s).2 := by
  induction steps generalizing t s with
  | zero => exact past
  | succ n ih =>
      cases t with
      | ready a => exact past
      | await op next =>
          rw [OpenShard.advanceBy]
          split_ifs with hg
          · cases he : exec (strat s) op s with
            | none => exact past
            | some r => exact ih (past.advance hg he)
          · exact past

theorem Interleaving.advanceAt {strat : σ → E} {before tasks : List (ι × Future F ρ)}
    (steps k : ℕ) (past : Interleaving g spawn s₀ (before ++ tasks) s) :
    Interleaving g spawn s₀ (before ++ (OpenShard.advanceAt g strat steps k tasks s).1)
      (OpenShard.advanceAt g strat steps k tasks s).2 := by
  induction tasks generalizing before k with
  | nil =>
      cases k <;> exact past
  | cons task tasks ih =>
      cases k with
      | zero => exact past.advanceBy steps
      | succ k =>
          have hrest := @ih (before ++ [task]) k (by simpa using past)
          simpa [OpenShard.advanceAt] using hrest

/-- What a schedule leads to is an interleaving. -/
theorem Interleaving.play {tasks : List (ι × Future F ρ)} (moves : List (Move ι σ E))
    (past : Interleaving g spawn s₀ tasks s) :
    Interleaving g spawn s₀ (OpenShard.play g spawn moves tasks s).1
      (OpenShard.play g spawn moves tasks s).2 := by
  induction moves generalizing tasks s with
  | nil => exact past
  | cons move moves ih =>
      cases move with
      | arrive i => exact ih (past.arrive i)
      | advance k steps strat => exact ih (@Interleaving.advanceAt _ _ _ _ _ _ _ _ _ _ _ strat [] _ steps k past)

end Schedule

end OpenShard
