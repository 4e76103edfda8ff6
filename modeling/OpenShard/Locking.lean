import OpenShard.Interleaving
import Mathlib.Logic.Hydra

/-!
# Tasks that share a lock

Any number of tasks run at once and share one lock. If each of them takes the lock only while it does
not have it, and has given it back when it ends, then they all end: no schedule goes on for ever unless
further tasks arrive, and none gets stuck before the last task has finished.
-/

namespace OpenShard

open Machine (exec)

section Inevitable

universe u

variable {α : Type u} {step : α → α → Prop} {P I : α → Prop} {a : α}

/-- Whatever steps are taken, a state with the property is reached, and no state before it is stuck. -/
inductive Inevitable (step : α → α → Prop) (P : α → Prop) : α → Prop
  | now {a : α} (h : P a) : Inevitable step P a
  | later {a : α} (hsome : ∃ b, step a b) (hall : ∀ b, step a b → Inevitable step P b) :
      Inevitable step P a

/-- Steps that cannot go on for ever, and that can be taken until the property holds. -/
theorem inevitable_of_acc (hacc : Acc (fun b a => step a b) a) (ha : I a)
    (hkeep : ∀ a b, I a → step a b → I b) (hprogress : ∀ a, I a → ¬ P a → ∃ b, step a b) :
    Inevitable step P a := by
  induction hacc with
  | intro a _ ih =>
      by_cases hP : P a
      · exact .now hP
      · exact .later (hprogress a ha hP) fun b hb => ih b hb (hkeep a b ha hb)

end Inevitable

section Pool

variable {F : Type → Type} {E σ ι ρ : Type} [Machine F E σ]

inductive Advance (g : Guard F E σ) :
    List (ι × Future F ρ) × σ → List (ι × Future F ρ) × σ → Prop
  | mk {before after : List (ι × Future F ρ)} {i : ι} {β : Type} {op : F β} {next : β → Future F ρ}
      {e : E} {s s' : σ} {c : β} (hg : g β e op s) (he : exec e op s = some (c, s')) :
      Advance g (before ++ (i, .await op next) :: after, s) (before ++ (i, next c) :: after, s')

inductive Rest : Future F ρ → Future F ρ → Prop
  | mk {β : Type} (op : F β) (next : β → Future F ρ) (c : β) : Rest (next c) (.await op next)

omit [Machine F E σ] in
theorem rest_wellFounded : WellFounded (Rest : Future F ρ → Future F ρ → Prop) := by
  refine ⟨fun t => ?_⟩
  induction t with
  | ready a => exact ⟨_, fun _ h => nomatch h⟩
  | await op next ih =>
      refine ⟨_, fun u h => ?_⟩
      cases h with
      | mk op next c => exact ih c

variable {g : Guard F E σ}

theorem Advance.cutExpand {p q : List (ι × Future F ρ) × σ} (h : Advance g p q) :
    Relation.CutExpand Rest ((q.1.map Prod.snd : List (Future F ρ)) : Multiset (Future F ρ))
      (p.1.map Prod.snd : List (Future F ρ)) := by
  cases h with
  | @mk before after i β op next e s s' c hg he =>
      refine ⟨{next c}, .await op next, ?_, ?_⟩
      · intro t ht
        obtain rfl := Multiset.mem_singleton.1 ht
        exact .mk op next c
      · simp only [List.map_append, List.map_cons, coe_pick]
        rw [Multiset.add_comm, Multiset.singleton_add, Multiset.cons_swap, Multiset.add_comm,
          Multiset.singleton_add]

/-- The tasks that have arrived cannot step for ever. -/
theorem advance_wellFounded :
    WellFounded fun q p : List (ι × Future F ρ) × σ => Advance g p q :=
  Subrelation.wf (fun h => h.cutExpand)
    (InvImage.wf (fun p : List (ι × Future F ρ) × σ =>
      ((p.1.map Prod.snd : List (Future F ρ)) : Multiset (Future F ρ)))
      (WellFounded.cutExpand rest_wellFounded))

end Pool

inductive LockUse
  | takes
  | frees
  | neither
  deriving DecidableEq

/-- A machine with a lock. An operation waits only to take the lock while it is held. -/
structure Lock (F : Type → Type) (E σ : Type) [Machine F E σ] where
  use : ∀ {β : Type}, F β → LockUse
  held : σ → Bool
  takes : ∀ {β : Type} {e : E} {op : F β} {s s' : σ} {c : β}, use op = .takes →
    exec e op s = some (c, s') → held s = false ∧ held s' = true
  frees : ∀ {β : Type} {e : E} {op : F β} {s s' : σ} {c : β}, use op = .frees →
    exec e op s = some (c, s') → held s' = false
  neither : ∀ {β : Type} {e : E} {op : F β} {s s' : σ} {c : β}, use op = .neither →
    exec e op s = some (c, s') → held s' = held s
  waits : ∀ {β : Type} {e : E} {op : F β} {s : σ}, exec e op s = none →
    use op = .takes ∧ held s = true

section Brackets

variable {F : Type → Type} {E σ α β : Type} [Machine F E σ] {K : Lock F E σ}

/-- Whatever is answered, the future takes the lock only while it does not have it and gives it back
only while it does; the flags say whether it has it before and after. -/
def Brackets (K : Lock F E σ) (after : Bool) : Bool → Future F α → Prop
  | before, .ready _ => before = after
  | before, .await op next =>
    match K.use op with
    | .takes => before = false ∧ ∀ c, Brackets K after true (next c)
    | .frees => before = true ∧ ∀ c, Brackets K after false (next c)
    | .neither => ∀ c, Brackets K after before (next c)

theorem brackets_pure (b : Bool) (a : α) : Brackets K b b (pure a : Future F α) := rfl

theorem Brackets.bind {b b' b'' : Bool} {t : Future F α} {f : α → Future F β}
    (ht : Brackets K b' b t) (hf : ∀ a, Brackets K b'' b' (f a)) : Brackets K b'' b (t >>= f) := by
  rw [Future.bind_eq]
  induction t generalizing b with
  | ready a =>
      obtain rfl : b = b' := ht
      exact hf a
  | await op next ih =>
      simp only [Future.bind_await, Brackets] at ht ⊢
      cases huse : K.use op with
      | takes =>
          rw [huse] at ht
          exact ⟨ht.1, fun c => ih c (ht.2 c)⟩
      | frees =>
          rw [huse] at ht
          exact ⟨ht.1, fun c => ih c (ht.2 c)⟩
      | neither =>
          rw [huse] at ht
          exact fun c => ih c (ht c)

theorem brackets_takes {op : F α} (h : K.use op = .takes) :
    Brackets K true false (.perform op) := by
  simp [Future.perform, Brackets, h]

theorem brackets_frees {op : F α} (h : K.use op = .frees) :
    Brackets K false true (.perform op) := by
  simp [Future.perform, Brackets, h]

theorem brackets_of_uses {t : Future F α} (ht : t.Uses fun _ op => K.use op = .neither) (b : Bool) :
    Brackets K b b t := by
  induction t with
  | ready a => rfl
  | await op next ih =>
      simp only [Brackets, ht.1]
      exact fun c => ih c (ht.2 c)

end Brackets

section Sharing

variable {F : Type → Type} {E σ ι ρ : Type} [Machine F E σ] {K : Lock F E σ} {g : Guard F E σ}
  {tasks : List (ι × Future F ρ)} {s : σ}

/-- The lock is held while exactly one of the tasks has it. -/
def Shared (K : Lock F E σ) (p : List (ι × Future F ρ) × σ) : Prop :=
  ∃ bs : List Bool, List.Forall₂ (fun t b => Brackets K false b t.2) p.1 bs ∧
    bs.count true = if K.held p.2 then 1 else 0

theorem Shared.arrive (h : Shared K (tasks, s)) {i : ι} {t : Future F ρ}
    (ht : Brackets K false false t) : Shared K ((i, t) :: tasks, s) := by
  obtain ⟨bs, hbs, hcount⟩ := h
  exact ⟨false :: bs, .cons ht hbs, by simpa using hcount⟩

theorem Shared.advance {p q : List (ι × Future F ρ) × σ} (h : Shared K p) (hstep : Advance g p q) :
    Shared K q := by
  cases hstep with
  | @mk before after i β op next e s s' c hg he =>
      obtain ⟨bs, hbs, hcount⟩ := h
      obtain ⟨bs₁, b, bs₂, rfl, hbefore, hb, hafter⟩ := forall₂_pick hbs
      have hnew : ∀ b', Brackets K false b' (next c) →
          (bs₁ ++ b' :: bs₂).count true = (if K.held s' then 1 else 0) →
          Shared K (before ++ (i, next c) :: after, s') := fun b' hb' hcount' =>
        ⟨bs₁ ++ b' :: bs₂, List.rel_append hbefore (.cons hb' hafter), hcount'⟩
      simp only [Brackets] at hb
      simp only [List.count_append, List.count_cons] at hcount hnew
      cases huse : K.use op with
      | takes =>
          rw [huse] at hb
          obtain ⟨rfl, hb⟩ := hb
          obtain ⟨hfree, htaken⟩ := K.takes huse he
          refine hnew true (hb c) ?_
          simp [hfree, htaken] at hcount ⊢
          omega
      | frees =>
          rw [huse] at hb
          obtain ⟨rfl, hb⟩ := hb
          have hfree := K.frees huse he
          have hone : (if K.held s = true then 1 else 0) ≤ 1 := by split_ifs <;> omega
          rw [if_pos (show (true == true) = true from rfl)] at hcount
          refine hnew false (hb c) ?_
          rw [if_neg (show ¬ (false == true) = true by decide), hfree, if_neg (by decide)]
          omega
      | neither =>
          rw [huse] at hb
          refine hnew b (hb c) ?_
          rw [K.neither huse he]
          exact hcount

/-- As long as a task has not finished, one can take a step. -/
theorem Shared.progress (hlive : ∀ β (op : F β) s, ∃ e, g β e op s)
    {p : List (ι × Future F ρ) × σ} (h : Shared K p) (hquiet : ¬ Quiet p.1) :
    ∃ q, Advance g p q := by
  obtain ⟨tasks, s⟩ := p
  obtain ⟨bs, hbs, hcount⟩ := h
  have hstep : ∀ {before after : List (ι × Future F ρ)} {i : ι} {β : Type} {op : F β}
      {next : β → Future F ρ}, tasks = before ++ (i, .await op next) :: after →
      ¬ (K.use op = .takes ∧ K.held s = true) → ∃ q, Advance g (tasks, s) q := by
    rintro before after i β op next rfl hfree
    obtain ⟨e, he⟩ := hlive β op s
    cases hexec : exec e op s with
    | none => exact absurd (K.waits hexec) hfree
    | some r => exact ⟨_, .mk he hexec⟩
  cases hheld : K.held s with
  | true =>
      have hmem : true ∈ bs := by
        simp only [hheld, if_true] at hcount
        exact List.count_pos_iff.1 (by omega)
      obtain ⟨bs₁, bs₂, rfl⟩ := List.append_of_mem hmem
      obtain ⟨before, t, after, rfl, -, hb, -⟩ := forall₂_pick hbs.flip
      obtain ⟨i, t⟩ := t
      cases t with
      | ready a => cases hb
      | await op next =>
          refine hstep rfl fun htakes => ?_
          simp only [Brackets, htakes.1] at hb
          cases hb.1
  | false =>
      have hsome : ∃ t ∈ tasks, answer t.2 = none := by
        by_contra hnone
        refine hquiet fun t ht => Option.isSome_iff_ne_none.2 fun hanswer => ?_
        exact hnone ⟨t, ht, hanswer⟩
      obtain ⟨⟨i, t⟩, ht, hanswer⟩ := hsome
      obtain ⟨before, after, rfl⟩ := List.append_of_mem ht
      cases t with
      | ready a => cases hanswer
      | await op next => exact hstep rfl fun hwait => by simp [hheld] at hwait

/-- Whatever the schedule and the answers, the tasks that have arrived all finish. -/
theorem Interleaving.inevitable {spawn : ι → Future F ρ} {s₀ : σ}
    (hlive : ∀ β (op : F β) s, ∃ e, g β e op s) (hspawn : ∀ i, Brackets K false false (spawn i))
    (hfree : K.held s₀ = false) (h : Interleaving g spawn s₀ tasks s) :
    Inevitable (Advance g) (fun p => Quiet p.1) (tasks, s) := by
  have hshared : Shared K (tasks, s) := by
    induction h with
    | start => exact ⟨[], .nil, by simp [hfree]⟩
    | arrive i _ ih => exact ih.arrive (hspawn i)
    | advance _ hg he ih => exact ih.advance (.mk hg he)
  exact inevitable_of_acc (advance_wellFounded.apply _) hshared (fun _ _ => Shared.advance)
    fun p hp => hp.progress hlive

end Sharing

end OpenShard
