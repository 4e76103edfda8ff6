import Mathlib.Logic.Relation
import Mathlib.Order.WellFounded

/-!
# Labelled transition systems

A system of states, initial states and labelled steps; its runs are restricted by a condition on the
steps they take. What the initial states satisfy and every step keeps holds of every state reached; a
step-by-step simulation carries reached states into another system; and where a rank that is not yet
zero can always be lowered, some run lowers it to zero.
-/

namespace OpenShard

structure Lts (σ α : Type*) where
  init : σ → Prop
  step : σ → α → σ → Prop

namespace Lts

variable {σ τ α β : Type*} {L : Lts σ α} {M : Lts τ β} {P : σ → α → Prop} {Q : τ → β → Prop}
  {s s' s'' : σ}

/-- The states that are reached by steps that meet the condition. -/
inductive Reach (L : Lts σ α) (P : σ → α → Prop) : σ → Prop
  | init {s : σ} (hs : L.init s) : Reach L P s
  | step {s s' : σ} {a : α} (past : Reach L P s) (hP : P s a) (hstep : L.step s a s') : Reach L P s'

/-- From the one state to the other by steps that meet the condition. -/
def Path (L : Lts σ α) (P : σ → α → Prop) : σ → σ → Prop :=
  Relation.ReflTransGen fun s s' => ∃ a, P s a ∧ L.step s a s'

theorem Path.mono {P' : σ → α → Prop} (hpath : L.Path P s s') (h : ∀ s a, P s a → P' s a) :
    L.Path P' s s' := by
  induction hpath with
  | refl => exact .refl
  | tail _ hstep ih =>
      obtain ⟨a, hP, hstep⟩ := hstep
      exact ih.tail ⟨a, h _ _ hP, hstep⟩

theorem Reach.path (hreach : L.Reach P s) (hpath : L.Path P s s') : L.Reach P s' := by
  induction hpath with
  | refl => exact hreach
  | tail _ hstep ih =>
      obtain ⟨a, hP, hstep⟩ := hstep
      exact .step ih hP hstep

theorem Reach.invariant {I : σ → Prop} (hreach : L.Reach P s) (hinit : ∀ s, L.init s → I s)
    (hkeep : ∀ s a s', L.Reach P s → I s → P s a → L.step s a s' → I s') : I s := by
  induction hreach with
  | init hs => exact hinit _ hs
  | step past hP hstep ih => exact hkeep _ _ _ past ih hP hstep

theorem Path.invariant {I : σ → Prop} (hpath : L.Path P s s') (hs : I s)
    (hkeep : ∀ s a s', I s → P s a → L.step s a s' → I s') : I s' := by
  induction hpath with
  | refl => exact hs
  | tail _ hstep ih =>
      obtain ⟨a, hP, hstep⟩ := hstep
      exact hkeep _ _ _ ih hP hstep

theorem path_refl (s : σ) : L.Path P s s := .refl

theorem Path.trans (h : L.Path P s s') (h' : L.Path P s' s'') : L.Path P s s'' :=
  Relation.ReflTransGen.trans h h'

theorem path_step {a : α} (hP : P s a) (hstep : L.step s a s') : L.Path P s s' :=
  .single ⟨a, hP, hstep⟩

/-- Every step is matched by a step of the other system, or by none. -/
structure Simulates (L : Lts σ α) (M : Lts τ β) (P : σ → α → Prop) (Q : τ → β → Prop)
    (R : σ → τ → Prop) : Prop where
  init : ∀ s, L.init s → ∃ t, M.init t ∧ R s t
  step : ∀ s a s' t, R s t → P s a → L.step s a s' →
    R s' t ∨ ∃ b t', Q t b ∧ M.step t b t' ∧ R s' t'

theorem Simulates.reach {R : σ → τ → Prop} (h : Simulates L M P Q R) (hreach : L.Reach P s) :
    ∃ t, M.Reach Q t ∧ R s t := by
  induction hreach with
  | init hs =>
      obtain ⟨t, ht, hR⟩ := h.init _ hs
      exact ⟨t, .init ht, hR⟩
  | step _ hP hstep ih =>
      obtain ⟨t, ht, hR⟩ := ih
      rcases h.step _ _ _ t hR hP hstep with hR' | ⟨b, t', hQ, hstep', hR'⟩
      · exact ⟨t, ht, hR'⟩
      · exact ⟨t', ht.step hQ hstep', hR'⟩

/-- A rank that some step lowers wherever it is not zero is lowered to zero by some run. -/
theorem drains {I : σ → Prop} (rank : σ → ℕ) (hs : I s)
    (hlower : ∀ s, I s → 0 < rank s → ∃ a s', P s a ∧ L.step s a s' ∧ I s' ∧ rank s' < rank s) :
    ∃ s', L.Path P s s' ∧ I s' ∧ rank s' = 0 := by
  induction hn : rank s using Nat.strong_induction_on generalizing s with
  | _ n ih =>
      by_cases hzero : rank s = 0
      · exact ⟨s, path_refl s, hs, hzero⟩
      · obtain ⟨a, s₁, hP, hstep, hs₁, hless⟩ := hlower s hs (Nat.pos_of_ne_zero hzero)
        obtain ⟨s', hpath, hs', hrank⟩ := ih (rank s₁) (hn ▸ hless) hs₁ rfl
        exact ⟨s', (path_step hP hstep).trans hpath, hs', hrank⟩

end Lts

end OpenShard
