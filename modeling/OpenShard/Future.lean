import Mathlib

/-!
# Asynchronous functions as trees of await points

A `Future F α` is an `async fn`: either it is ready with its result, or it awaits the answer of one
operation of the signature `F` and goes on from there. What lies between two await points runs
without interruption, so an operation is the unit that a scheduler interleaves. A `Machine` gives
the operations their meaning on a state; whatever the code leaves open (clocks, failures, hash
order) is read off an environment that every single step may choose anew. `Runs` is a run to
completion with nothing in between.
-/

namespace OpenShard

inductive Future (F : Type → Type) (α : Type) : Type 1
  | ready (a : α)
  | await {β : Type} (op : F β) (next : β → Future F α)

namespace Future

variable {F G : Type → Type} {α β γ : Type}

def bind : Future F α → (α → Future F β) → Future F β
  | ready a, f => f a
  | await op next, f => await op fun b => bind (next b) f

instance : Monad (Future F) where
  pure := ready
  bind := bind

def perform (op : F α) : Future F α := await op ready

/-- The same future over a larger signature. -/
def hoist (φ : ∀ {β : Type}, F β → G β) : Future F α → Future G α
  | ready a => ready a
  | await op next => await (φ op) fun b => hoist φ (next b)

theorem bind_eq (t : Future F α) (f : α → Future F β) : t >>= f = bind t f := rfl

@[simp] theorem bind_ready (a : α) (f : α → Future F β) : bind (ready a) f = f a := rfl

@[simp] theorem bind_await (op : F γ) (next : γ → Future F α) (f : α → Future F β) :
    bind (await op next) f = await op fun b => bind (next b) f := rfl

theorem bind_ready_right (t : Future F α) : bind t ready = t := by
  induction t with
  | ready a => rfl
  | await op next ih => simp only [bind_await, ih]

theorem bind_assoc (t : Future F α) (f : α → Future F β) (g : β → Future F γ) :
    bind (bind t f) g = bind t fun a => bind (f a) g := by
  induction t with
  | ready a => rfl
  | await op next ih => simp only [bind_await, ih]

instance : LawfulMonad (Future F) :=
  LawfulMonad.mk' _ bind_ready_right (fun _ _ => rfl) bind_assoc

variable (φ : ∀ {β : Type}, F β → G β)

theorem hoist_bind (t : Future F α) (f : α → Future F β) :
    hoist φ (t >>= f) = hoist φ t >>= fun a => hoist φ (f a) := by
  rw [bind_eq, bind_eq]
  induction t with
  | ready a => rfl
  | await op next ih => simp only [bind_await, hoist, ih]

/-- Whatever is answered, the future awaits operations of this kind only. -/
def Uses (P : ∀ β : Type, F β → Prop) : Future F α → Prop
  | ready _ => True
  | await op next => P _ op ∧ ∀ b, Uses P (next b)

section Uses

variable {P : ∀ β : Type, F β → Prop}

theorem uses_pure (a : α) : Uses P (pure a : Future F α) := trivial

theorem uses_perform {op : F α} (h : P α op) : Uses P (perform op) := ⟨h, fun _ => trivial⟩

theorem Uses.bind {t : Future F α} {f : α → Future F β} (ht : Uses P t) (hf : ∀ a, Uses P (f a)) :
    Uses P (t >>= f) := by
  rw [bind_eq]
  induction t with
  | ready a => exact hf a
  | await op next ih => exact ⟨ht.1, fun b => ih b (ht.2 b)⟩

theorem Uses.map {t : Future F α} (ht : Uses P t) (f : α → β) : Uses P (f <$> t) := by
  rw [map_eq_pure_bind]
  exact ht.bind fun a => uses_pure (f a)

theorem Uses.runBind {ε : Type} {t : ExceptT ε (Future F) α} {f : α → ExceptT ε (Future F) β}
    (ht : Uses P t.run) (hf : ∀ a, Uses P (f a).run) : Uses P (t >>= f).run := by
  rw [ExceptT.run_bind]
  refine ht.bind fun r => ?_
  cases r with
  | ok a => exact hf a
  | error e => exact uses_pure _

theorem Uses.mono {P' : ∀ β : Type, F β → Prop} (h : ∀ β op, P β op → P' β op) {t : Future F α}
    (ht : Uses P t) : Uses P' t := by
  induction t with
  | ready a => trivial
  | await op next ih => exact ⟨h _ op ht.1, fun b => ih b (ht.2 b)⟩

theorem uses_hoist {φ : ∀ {β : Type}, G β → F β} (h : ∀ β (op : G β), P β (φ op))
    (t : Future G α) : Uses P (t.hoist φ) := by
  induction t with
  | ready a => trivial
  | await op next ih => exact ⟨h _ op, ih⟩

end Uses

end Future

/-- The meaning of a signature: `exec e op s` is the answer to `op` and the state after it when the
environment is `e`, and `none` where `op` has to wait. -/
class Machine (F : Type → Type) (E σ : outParam Type) where
  exec : ∀ {β : Type}, E → F β → σ → Option (β × σ)

/-- What is assumed of single steps: the environment, the operation and the state before it. -/
abbrev Guard (F : Type → Type) (E σ : Type) := ∀ β : Type, E → F β → σ → Prop

open Machine (exec)

section Runs

variable {F : Type → Type} {E σ α β : Type} [Machine F E σ]

inductive Runs (g : Guard F E σ) : Future F α → σ → α → σ → Prop
  | ready (a : α) (s : σ) : Runs g (.ready a) s a s
  | await {γ : Type} {op : F γ} {next : γ → Future F α} {e : E} {s s' s'' : σ} {c : γ} {a : α}
      (hg : g γ e op s) (he : exec e op s = some (c, s')) (hr : Runs g (next c) s' a s'') :
      Runs g (.await op next) s a s''

variable {g : Guard F E σ}

@[simp] theorem runs_ready (a b : α) (s s' : σ) :
    Runs g (.ready a) s b s' ↔ b = a ∧ s' = s := by
  constructor
  · intro h
    cases h
    exact ⟨rfl, rfl⟩
  · rintro ⟨rfl, rfl⟩
    exact .ready _ _

theorem runs_await {γ : Type} (op : F γ) (next : γ → Future F α) (s s'' : σ) (a : α) :
    Runs g (.await op next) s a s'' ↔
      ∃ e c s', g γ e op s ∧ exec e op s = some (c, s') ∧ Runs g (next c) s' a s'' := by
  constructor
  · intro h
    cases h with
    | await hg he hr => exact ⟨_, _, _, hg, he, hr⟩
  · rintro ⟨e, c, s', hg, he, hr⟩
    exact .await hg he hr

@[simp] theorem runs_perform (op : F α) (s s' : σ) (a : α) :
    Runs g (.perform op) s a s' ↔ ∃ e, g α e op s ∧ exec e op s = some (a, s') := by
  simp only [Future.perform, runs_await, runs_ready]
  constructor
  · rintro ⟨e, c, s₁, hg, he, rfl, rfl⟩
    exact ⟨e, hg, he⟩
  · rintro ⟨e, hg, he⟩
    exact ⟨e, a, s', hg, he, rfl, rfl⟩

theorem runs_bind (t : Future F α) (f : α → Future F β) (s s'' : σ) (b : β) :
    Runs g (t >>= f) s b s'' ↔ ∃ a s', Runs g t s a s' ∧ Runs g (f a) s' b s'' := by
  rw [Future.bind_eq]
  constructor
  · intro h
    induction t generalizing s with
    | ready a => exact ⟨a, s, .ready a s, h⟩
    | await op next ih =>
        obtain ⟨e, c, s₁, hg, he, hr⟩ := (runs_await op _ s s'' b).1 h
        obtain ⟨a, s', ht, hf⟩ := ih c s₁ hr
        exact ⟨a, s', .await hg he ht, hf⟩
  · rintro ⟨a, s', ht, hf⟩
    induction ht with
    | ready a s => exact hf
    | await hg he _ ih => exact .await hg he (ih hf)

@[simp] theorem runs_pure (a b : α) (s s' : σ) :
    Runs g (pure a : Future F α) s b s' ↔ b = a ∧ s' = s := runs_ready a b s s'

theorem runs_map (t : Future F α) (f : α → β) (s s' : σ) (b : β) :
    Runs g (f <$> t) s b s' ↔ ∃ a, Runs g t s a s' ∧ b = f a := by
  rw [map_eq_pure_bind, runs_bind]
  simp only [runs_pure]
  constructor
  · rintro ⟨a, s₁, ht, rfl, rfl⟩
    exact ⟨a, ht, rfl⟩
  · rintro ⟨a, ht, rfl⟩
    exact ⟨a, s', ht, rfl, rfl⟩

theorem runs_run_bind {ε : Type} (t : ExceptT ε (Future F) α) (f : α → ExceptT ε (Future F) β)
    (s s' : σ) (r : Except ε β) :
    Runs g (t >>= f).run s r s' ↔
      (∃ a s₁, Runs g t.run s (.ok a) s₁ ∧ Runs g (f a).run s₁ r s') ∨
        ∃ e, Runs g t.run s (.error e) s' ∧ r = .error e := by
  rw [ExceptT.run_bind, runs_bind]
  constructor
  · rintro ⟨r₁, s₁, ht, hrest⟩
    cases r₁ with
    | ok a => exact Or.inl ⟨a, s₁, ht, hrest⟩
    | error e =>
        obtain ⟨rfl, rfl⟩ := (runs_pure _ _ _ _).1 hrest
        exact Or.inr ⟨e, ht, rfl⟩
  · rintro (⟨a, s₁, ht, hf⟩ | ⟨e, ht, rfl⟩)
    · exact ⟨.ok a, s₁, ht, hf⟩
    · exact ⟨.error e, s', ht, (runs_pure _ _ _ _).2 ⟨rfl, rfl⟩⟩

theorem Runs.mono {g' : Guard F E σ} (hgg : ∀ β e (op : F β) s, g β e op s → g' β e op s)
    {t : Future F α} {s s' : σ} {a : α} (h : Runs g t s a s') : Runs g' t s a s' := by
  induction h with
  | ready a s => exact .ready a s
  | await hg he _ ih => exact .await (hgg _ _ _ _ hg) he ih

/-- The run in which the environment answers as `strat` says, if no step is refused. -/
def runBy (g : Guard F E σ) [∀ β e op s, Decidable (g β e op s)] (strat : σ → E) :
    Future F α → σ → Option (α × σ)
  | .ready a, s => some (a, s)
  | .await op next, s =>
    if g _ (strat s) op s then
      match exec (strat s) op s with
      | none => none
      | some (c, s') => runBy g strat (next c) s'
    else none

theorem runs_of_runBy [∀ β e op s, Decidable (g β e op s)] (strat : σ → E) (t : Future F α)
    (s s' : σ) (a : α) (h : runBy g strat t s = some (a, s')) : Runs g t s a s' := by
  induction t generalizing s with
  | ready b =>
      simp only [runBy, Option.some.injEq, Prod.mk.injEq] at h
      obtain ⟨rfl, rfl⟩ := h
      exact .ready _ _
  | await op next ih =>
      simp only [runBy] at h
      split_ifs at h with hg
      cases he : exec (strat s) op s with
      | none => simp [he] at h
      | some r =>
          rw [he] at h
          exact .await hg he (ih r.1 r.2 h)

section RunBy

variable [∀ β e (op : F β) s, Decidable (g β e op s)]

/-- Where the guard leaves one answer of the environment only, a run is a computation. -/
theorem runs_iff_runBy {strat : σ → E} (hg : ∀ β e (op : F β) s, g β e op s → e = strat s)
    (t : Future F α) (s s' : σ) (a : α) :
    Runs g t s a s' ↔ runBy g strat t s = some (a, s') := by
  refine ⟨fun h => ?_, runs_of_runBy strat t s s' a⟩
  induction h with
  | ready a s => rfl
  | await hgs he _ ih =>
      obtain rfl := hg _ _ _ _ hgs
      simp only [runBy, if_pos hgs, he, ih]

theorem runBy_bind (strat : σ → E) (t : Future F α) (f : α → Future F β) (s : σ) :
    runBy g strat (t >>= f) s = (runBy g strat t s).bind fun r => runBy g strat (f r.1) r.2 := by
  rw [Future.bind_eq]
  induction t generalizing s with
  | ready a => rfl
  | await op next ih =>
      rw [Future.bind_await, runBy, runBy]
      split_ifs with hg
      · cases he : exec (strat s) op s with
        | none => rfl
        | some r => exact ih r.1 r.2
      · rfl

end RunBy

section Completes

/-- Whatever its steps meet, the future leads from `P` to `P`; and it comes to its end if every step
may be as in `calm`. -/
structure Completes (calm : Guard F E σ) (P : σ → Prop) (t : Future F α) : Prop where
  keeps : ∀ {g : Guard F E σ} {s a s'}, Runs g t s a s' → P s → P s'
  ends : ∀ {s}, P s → ∃ a s', Runs calm t s a s'

variable {calm : Guard F E σ} {P : σ → Prop}

theorem completes_pure (a : α) : Completes calm P (pure a : Future F α) where
  keeps h hs := by
    obtain ⟨-, rfl⟩ := (runs_pure _ _ _ _).1 h
    exact hs
  ends _ := ⟨_, _, .ready _ _⟩

theorem completes_perform {op : F α} (hkeeps : ∀ e s b s', exec e op s = some (b, s') → P s → P s')
    (hends : ∀ s, P s → ∃ e b s', calm α e op s ∧ exec e op s = some (b, s')) :
    Completes calm P (.perform op) where
  keeps h hs := by
    obtain ⟨e, -, he⟩ := (runs_perform _ _ _ _).1 h
    exact hkeeps e _ _ _ he hs
  ends hs := by
    obtain ⟨e, b, s', hg, he⟩ := hends _ hs
    exact ⟨b, s', (runs_perform _ _ _ _).2 ⟨e, hg, he⟩⟩

theorem Completes.bind {t : Future F α} {f : α → Future F β} (ht : Completes calm P t)
    (hf : ∀ a, Completes calm P (f a)) : Completes calm P (t >>= f) where
  keeps h hs := by
    obtain ⟨a, s₁, h₁, h₂⟩ := (runs_bind _ _ _ _ _).1 h
    exact (hf a).keeps h₂ (ht.keeps h₁ hs)
  ends hs := by
    obtain ⟨a, s₁, h₁⟩ := ht.ends hs
    obtain ⟨b, s', h₂⟩ := (hf a).ends (ht.keeps h₁ hs)
    exact ⟨b, s', (runs_bind _ _ _ _ _).2 ⟨a, s₁, h₁, h₂⟩⟩

theorem Completes.map {t : Future F α} (ht : Completes calm P t) (f : α → β) :
    Completes calm P (f <$> t) := by
  rw [map_eq_pure_bind]
  exact ht.bind fun a => completes_pure (f a)

theorem Completes.run_bind {ε : Type} {t : ExceptT ε (Future F) α} {f : α → ExceptT ε (Future F) β}
    (ht : Completes calm P t.run) (hf : ∀ a, Completes calm P (f a).run) :
    Completes calm P (t >>= f).run := by
  rw [ExceptT.run_bind]
  refine Completes.bind ht fun r => ?_
  cases r with
  | ok a => exact hf a
  | error e => exact completes_pure _

end Completes

end Runs

section Hoist

variable {F G : Type → Type} {E E' σ τ α : Type} [Machine F E σ] [Machine G E' τ]

/-- A guard of a larger machine as a guard of the part that `put` writes, the rest being as in `s`. -/
def Guard.part (φ : ∀ {β : Type}, F β → G β) (proj : E' → E) (put : τ → σ → τ) (g : Guard G E' τ)
    (s : τ) : Guard F E σ :=
  fun β e op k => ∃ e', proj e' = e ∧ g β e' (φ op) (put s k)

/-- A future over a smaller signature, run inside a larger machine, runs on its own part of the
state and leaves the rest as it was. -/
theorem runs_hoist {φ : ∀ {β : Type}, F β → G β} {proj : E' → E} {view : τ → σ} {put : τ → σ → τ}
    (hview : ∀ s k, view (put s k) = k) (hput : ∀ s k k', put (put s k) k' = put s k')
    (hself : ∀ s, put s (view s) = s)
    (hexec : ∀ β e (op : F β) s, exec e (φ op) s =
      (exec (proj e) op (view s)).map fun r => (r.1, put s r.2))
    {g : Guard G E' τ} {t : Future F α} {s s' : τ} {a : α} :
    Runs g (t.hoist φ) s a s' ↔ ∃ k, Runs (g.part φ proj put s) t (view s) a k ∧ s' = put s k := by
  constructor
  · intro h
    induction t generalizing s with
    | ready b =>
        obtain ⟨rfl, rfl⟩ := (runs_ready b a s s').1 h
        exact ⟨view s', .ready _ _, (hself s').symm⟩
    | await op next ih =>
        obtain ⟨e, c, s₁, hg, he, hr⟩ := (runs_await (φ op) _ s s' a).1 h
        rw [hexec, Option.map_eq_some_iff] at he
        obtain ⟨⟨c, k₁⟩, he, heq⟩ := he
        obtain ⟨rfl, rfl⟩ := Prod.mk.inj heq
        obtain ⟨k, hk, rfl⟩ := ih c hr
        rw [hview] at hk
        refine ⟨k, .await ⟨e, rfl, by rw [hself]; exact hg⟩ he (hk.mono ?_), hput s k₁ k⟩
        rintro β e' op' k' ⟨e₁, he₁, hg₁⟩
        exact ⟨e₁, he₁, by rwa [hput] at hg₁⟩
  · rintro ⟨k, h, rfl⟩
    induction t generalizing s with
    | ready b =>
        obtain ⟨rfl, rfl⟩ := (runs_ready b a (view s) k).1 h
        rw [hself]
        exact .ready _ _
    | await op next ih =>
        obtain ⟨_, c, k₁, ⟨e, rfl, hg⟩, he, hr⟩ := (runs_await op _ (view s) k a).1 h
        rw [hself] at hg
        refine .await hg (by rw [hexec, he]; rfl) ?_
        have hrest := @ih c (put s k₁) (by
          rw [hview]
          refine hr.mono ?_
          rintro β e' op' k' ⟨e₁, he₁, hg₁⟩
          exact ⟨e₁, he₁, by rwa [hput]⟩)
        rwa [hput] at hrest

theorem Completes.hoist {φ : ∀ {β : Type}, F β → G β} {proj : E' → E} {view : τ → σ}
    {put : τ → σ → τ} (hview : ∀ s k, view (put s k) = k)
    (hput : ∀ s k k', put (put s k) k' = put s k') (hself : ∀ s, put s (view s) = s)
    (hexec : ∀ β e (op : F β) s, exec e (φ op) s =
      (exec (proj e) op (view s)).map fun r => (r.1, put s r.2))
    {calm : Guard G E' τ} {calm' : Guard F E σ} {P : σ → Prop}
    (hcalm : ∀ β e (op : F β) k s, calm' β e op k → ∃ e', proj e' = e ∧ calm β e' (φ op) (put s k))
    {t : Future F α} (ht : Completes calm' P t) :
    Completes calm (fun s => P (view s)) (t.hoist φ) where
  keeps h hs := by
    obtain ⟨k, hk, rfl⟩ := (runs_hoist hview hput hself hexec).1 h
    rw [hview]
    exact ht.keeps hk hs
  ends {s} hs := by
    obtain ⟨a, k, hk⟩ := ht.ends hs
    exact ⟨a, put s k, (runs_hoist hview hput hself hexec).2
      ⟨k, hk.mono fun β e op k' h => hcalm β e op k' s h, rfl⟩⟩

end Hoist

end OpenShard
