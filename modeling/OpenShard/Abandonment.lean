import OpenShard.Handover

/-!
# Enrollments that are given up

A future may be dropped at any of its await points; what it has done by then stays done. An
enrollment takes a pending service off the queue and enters it much later, so between the two the
service is in the hands of the handler alone.
-/

namespace OpenShard

open Machine (exec)

section Reaches

variable {F : Type → Type} {E σ α β M : Type} [Machine F E σ]

/-- The future is answered a number of times, and has then got so far. A monitor keeps an account of
the operations and their answers. -/
inductive Reaches (g : Guard F E σ) (watch : ∀ γ : Type, F γ → γ → M → M) :
    Future F α → σ → M → Future F α → σ → M → Prop
  | here (t : Future F α) (s : σ) (m : M) : Reaches g watch t s m t s m
  | step {γ : Type} {op : F γ} {next : γ → Future F α} {e : E} {s s' s'' : σ} {c : γ} {m m' : M}
      {t : Future F α} (hg : g γ e op s) (he : exec e op s = some (c, s'))
      (hrest : Reaches g watch (next c) s' (watch γ op c m) t s'' m') :
      Reaches g watch (.await op next) s m t s'' m'

variable {g : Guard F E σ} {watch : ∀ γ : Type, F γ → γ → M → M} {s s' : σ} {m m' : M}

theorem Reaches.runs {t : Future F α} {a : α} (h : Reaches g watch t s m (.ready a) s' m') :
    Runs g t s a s' := by
  generalize hu : Future.ready a = u at h
  induction h with
  | here t s m =>
      subst hu
      exact .ready a s
  | step hg he _ ih => exact .await hg he (ih hu)

/-- A composed future is dropped in its first part, or it has finished that. -/
theorem reaches_bind {t : Future F α} {f : α → Future F β} {u : Future F β}
    (h : Reaches g watch (t >>= f) s m u s' m') :
    ((∃ t', Reaches g watch t s m t' s' m') ∧ ∀ b, u ≠ .ready b) ∨
      ∃ a s₁ m₁, Reaches g watch t s m (.ready a) s₁ m₁ ∧ Reaches g watch (f a) s₁ m₁ u s' m' := by
  rw [Future.bind_eq] at h
  induction t generalizing s m with
  | ready a => exact Or.inr ⟨a, s, m, .here _ _ _, h⟩
  | await op next ih =>
      rw [Future.bind_await] at h
      cases h with
      | here => exact Or.inl ⟨⟨_, .here _ _ _⟩, fun b hb => by simp at hb⟩
      | step hg he hrest =>
          rcases ih _ hrest with ⟨⟨t', ht'⟩, hu⟩ | ⟨a, s₁, m₁, hfirst, hf⟩
          · exact Or.inl ⟨⟨t', .step hg he ht'⟩, hu⟩
          · exact Or.inr ⟨a, s₁, m₁, .step hg he hfirst, hf⟩

theorem Reaches.invariant {U : ∀ γ : Type, F γ → Prop} {P : σ → M → Prop}
    (hstep : ∀ γ e (op : F γ) s c s' m, U γ op → g γ e op s → exec e op s = some (c, s') → P s m →
      P s' (watch γ op c m)) {t u : Future F α} (ht : t.Uses U)
    (h : Reaches g watch t s m u s' m') (hs : P s m) : P s' m' := by
  induction h with
  | here t s m => exact hs
  | step hg he _ ih => exact ih (ht.2 _) (hstep _ _ _ _ _ _ _ ht.1 hg he hs)

variable (g watch) [∀ β e (op : F β) s, Decidable (g β e op s)]

/-- How far a future gets in a number of answers, the environment answering as `strat` says. -/
def reachBy (strat : σ → E) : ℕ → Future F α → σ → M → Future F α × σ × M
  | 0, t, s, m => (t, s, m)
  | _ + 1, .ready a, s, m => (.ready a, s, m)
  | n + 1, .await op next, s, m =>
    if g _ (strat s) op s then
      match exec (strat s) op s with
      | none => (.await op next, s, m)
      | some (c, s') => reachBy strat n (next c) s' (watch _ op c m)
    else (.await op next, s, m)

theorem reaches_reachBy (strat : σ → E) (n : ℕ) (t : Future F α) (s : σ) (m : M) :
    Reaches g watch t s m (reachBy g watch strat n t s m).1 (reachBy g watch strat n t s m).2.1
      (reachBy g watch strat n t s m).2.2 := by
  induction n generalizing t s m with
  | zero => exact .here t s m
  | succ n ih =>
      cases t with
      | ready a => exact .here _ s m
      | await op next =>
          rw [reachBy]
          split_ifs with hg
          · cases he : exec (strat s) op s with
            | none => exact .here _ s m
            | some r => exact .step hg he (ih (next r.1) r.2 _)
          · exact .here _ s m

end Reaches

namespace Registrar

open UuidFormat Future

section Enroll

variable {Uuid : Type}

/-- The service that a handler has taken off the queue and neither entered nor put back. -/
def inHand : (β : Type) → RegistrarOp Uuid β → β → Option PendingService → Option PendingService
  | _, .own .popPending, popped, _ => popped
  | _, .own (.pushFrontPending _), _, _ => none
  | _, .own (.insertVolunteer _), _, _ => none
  | _, _, _, hand => hand

def drawsUnused : Guard (RegistrarOp Uuid) (RegistrarEnv Uuid) (World Uuid) :=
  fun _ e op s => op.drawsId → e.uuid ∉ s.volunteers

/-- The operation touches neither the queue nor the map. -/
def RegistrarOp.quiet : (β : Type) → RegistrarOp Uuid β → Prop
  | _, .haproxy _ | _, .db _ => True
  | _, .own .utcNow | _, .own .newV4 | _, .own .tunnelHost | _, .own (.lookupHost _) => True
  | _, .own (.findByKey _) | _, .own (.assignedServiceOf _) => True
  | _, _ => False

theorem quiet_haproxy {α : Type} (call : HaproxyManager.Call α) :
    (haproxy call : Async Uuid (Except Error α)).Uses RegistrarOp.quiet :=
  uses_haproxy (fun _ _ => trivial) call

variable [DecidableEq Uuid] [UuidFormat Uuid] [Rfc3339]

/-- Only the service in hand has left the queue, and the map is as it was. -/
structure Holding (s₀ s : World Uuid) (hand : Option PendingService) : Prop where
  volunteers : s.volunteers = s₀.volunteers
  pending : s₀.pendingServices = hand.toList ++ s.pendingServices

variable {s₀ s s' : World Uuid} {hand hand' : Option PendingService} {α : Type}

theorem exec_quiet {β : Type} {e : RegistrarEnv Uuid} {op : RegistrarOp Uuid β} {c : β}
    (hop : RegistrarOp.quiet β op) (he : Machine.exec e op s = some (c, s')) :
    s'.volunteers = s.volunteers ∧ s'.pendingServices = s.pendingServices ∧
      inHand β op c hand = hand := by
  cases op with
  | haproxy op =>
      obtain ⟨h, rfl⟩ := exec_haproxy he
      exact ⟨rfl, rfl, rfl⟩
  | db op =>
      obtain ⟨db, -, rfl⟩ := exec_db he
      exact ⟨rfl, rfl, rfl⟩
  | own op =>
      obtain ⟨-, rfl⟩ := Prod.mk.inj (exec_own he)
      cases op with
      | utcNow | newV4 | tunnelHost | lookupHost | findByKey | assignedServiceOf =>
          exact ⟨rfl, rfl, rfl⟩
      | _ => exact hop.elim

variable {g : Guard (RegistrarOp Uuid) (RegistrarEnv Uuid) (World Uuid)}

theorem reaches_quiet {t u : Async Uuid α} (ht : t.Uses RegistrarOp.quiet)
    (h : Reaches g inHand t s hand u s' hand') :
    s'.volunteers = s.volunteers ∧ s'.pendingServices = s.pendingServices ∧ hand' = hand := by
  have hstep : ∀ β e (op : RegistrarOp Uuid β) s₁ c s₂ hand₁, RegistrarOp.quiet β op → g β e op s₁ →
      Machine.exec e op s₁ = some (c, s₂) →
      (s₁.volunteers = s.volunteers ∧ s₁.pendingServices = s.pendingServices ∧ hand₁ = hand) →
      s₂.volunteers = s.volunteers ∧ s₂.pendingServices = s.pendingServices ∧
        inHand β op c hand₁ = hand := by
    rintro β e op s₁ c s₂ hand₁ hop - he ⟨hmap, hpending, hhand⟩
    obtain ⟨hmap', hpending', hhand'⟩ := @exec_quiet _ _ _ _ _ _ hand₁ _ _ _ _ hop he
    exact ⟨hmap'.trans hmap, hpending'.trans hpending, hhand'.trans hhand⟩
  exact @Reaches.invariant (RegistrarOp Uuid) _ _ α _ _ g inHand s s' hand hand' RegistrarOp.quiet
    (fun s₁ hand₁ => s₁.volunteers = s.volunteers ∧ s₁.pendingServices = s.pendingServices ∧
      hand₁ = hand) hstep t u ht h ⟨rfl, rfl, rfl⟩

theorem Holding.quiet {t u : Async Uuid α} (hhold : Holding s₀ s hand) (ht : t.Uses RegistrarOp.quiet)
    (h : Reaches g inHand t s hand u s' hand') : Holding s₀ s' hand' ∧ hand' = hand := by
  obtain ⟨hmap, hpending, rfl⟩ := reaches_quiet ht h
  exact ⟨⟨hmap.trans hhold.volunteers, by rw [hhold.pending, hpending]⟩, rfl⟩

/-- What an enrollment is going to enter: what its volunteer had, or what it has in hand. -/
def Entering (now : DateTime) (existing a : Option ServiceAssignment) :
    Option PendingService → Prop
  | none => a = existing
  | some p => existing = none ∧ a = some (assignmentFor p now)

theorem reaches_perform {op : RegistrarOp Uuid α} {u : Async Uuid α}
    (h : Reaches g inHand (perform op) s hand u s' hand') :
    (s' = s ∧ hand' = hand ∧ ∀ b, u ≠ .ready b) ∨ ∃ e c, g α e op s ∧
      Machine.exec e op s = some (c, s') ∧ hand' = inHand α op c hand ∧ u = .ready c := by
  cases h with
  | here => exact Or.inl ⟨rfl, rfl, fun b hb => by simp [perform] at hb⟩
  | step hg he hrest =>
      cases hrest with
      | here => exact Or.inr ⟨_, _, hg, he, rfl, rfl⟩

theorem holding_popped {e : RegistrarEnv Uuid} {c : Option PendingService}
    (he : Machine.exec e (.own .popPending : RegistrarOp Uuid (Option PendingService)) s =
      some (c, s')) : Holding s s' c := by
  obtain ⟨rfl, rfl⟩ := Prod.mk.inj (exec_own he)
  refine ⟨rfl, ?_⟩
  change s.pendingServices = s.pendingServices.head?.toList ++ s.pendingServices.tail
  cases s.pendingServices with
  | nil => rfl
  | cons p ps => rfl

theorem holding_pushed {e : RegistrarEnv Uuid} {p : PendingService} {c : Unit}
    (hhold : Holding s₀ s (some p))
    (he : Machine.exec e (.own (.pushFrontPending p) : RegistrarOp Uuid Unit) s = some (c, s')) :
    Holding s₀ s' none := by
  obtain ⟨-, rfl⟩ := Prod.mk.inj (exec_own he)
  exact ⟨hhold.volunteers, hhold.pending⟩

theorem offered_reaches {id : Uuid} {addr : Text} {now : DateTime} {p : PendingService}
    {u : Async Uuid (Option ServiceAssignment)} (hhold : Holding s₀ s (some p))
    (h : Reaches g inHand (do
      match ← haproxy (HaproxyManager.assignService p.name p.domain addr) with
      | .ok () =>
        query (.upsertAssignment id (assignmentFor p now))
        return some (assignmentFor p now)
      | .error _ =>
        own (.pushFrontPending p)
        return none) s (some p) u s' hand) :
    Holding s₀ s' hand ∧ ∀ a, u = .ready a → Entering now none a hand := by
  rcases reaches_bind h with ⟨⟨t', hcall⟩, hu⟩ | ⟨r, s₁, hand₁, hcall, hrest⟩
  · obtain ⟨hhold', rfl⟩ := hhold.quiet (quiet_haproxy _) hcall
    exact ⟨hhold', fun a ha => absurd ha (hu a)⟩
  obtain ⟨hhold', rfl⟩ := hhold.quiet (quiet_haproxy _) hcall
  cases r with
  | ok v =>
      have huses : (query (.upsertAssignment id (assignmentFor p now)) >>= fun _ =>
          pure (some (assignmentFor p now)) : Async Uuid (Option ServiceAssignment)).Uses
            RegistrarOp.quiet := (uses_perform trivial).bind fun _ => uses_pure _
      obtain ⟨hhold'', rfl⟩ := hhold'.quiet huses hrest
      refine ⟨hhold'', ?_⟩
      rintro a rfl
      obtain ⟨_, s₂, -, hret⟩ := (runs_bind _ _ _ _ _).1 hrest.runs
      exact ⟨rfl, ((runs_pure _ _ _ _).1 hret).1⟩
  | error err =>
      rcases reaches_bind hrest with ⟨⟨t', hpush⟩, hu⟩ | ⟨v, s₂, hand₂, hpush, hret⟩
      · rcases reaches_perform hpush with ⟨rfl, rfl, -⟩ | ⟨e, c, -, he, rfl, -⟩
        · exact ⟨hhold', fun a ha => absurd ha (hu a)⟩
        · exact ⟨holding_pushed hhold' he, fun a ha => absurd ha (hu a)⟩
      · rcases reaches_perform hpush with ⟨-, -, hno⟩ | ⟨e, c, -, he, rfl, -⟩
        · exact absurd rfl (hno v)
        obtain ⟨hhold'', rfl⟩ := (holding_pushed hhold' he).quiet (uses_pure _) hret
        refine ⟨hhold'', ?_⟩
        rintro a rfl
        exact ((runs_pure _ _ _ _).1 hret.runs).1

theorem attachService_reaches {id : Uuid} {addr : Text} {now : DateTime}
    {existing : Option ServiceAssignment} {u : Async Uuid (Option ServiceAssignment)}
    (h : Reaches g inHand (attachService id addr now existing) s none u s' hand) :
    Holding s s' hand ∧ ∀ a, u = .ready a → Entering now existing a hand := by
  have hself : Holding s s none := ⟨rfl, rfl⟩
  cases existing with
  | some a₀ =>
      have huses : (attachService id addr now (some a₀)).Uses RegistrarOp.quiet := by
        refine (quiet_haproxy _).bind fun _ => ?_
        exact (uses_perform trivial).bind fun _ => uses_pure _
      obtain ⟨hhold, rfl⟩ := hself.quiet huses h
      refine ⟨hhold, ?_⟩
      rintro a rfl
      have hrun := attachService_run h.runs
      cases hrun
      rfl
  | none =>
      rcases reaches_bind h with ⟨⟨t', hpop⟩, hu⟩ | ⟨popped, s₁, hand₁, hpop, hrest⟩
      · rcases reaches_perform hpop with ⟨rfl, rfl, -⟩ | ⟨e, c, -, he, rfl, -⟩
        · exact ⟨hself, fun a ha => absurd ha (hu a)⟩
        · exact ⟨holding_popped he, fun a ha => absurd ha (hu a)⟩
      · rcases reaches_perform hpop with ⟨-, -, hno⟩ | ⟨e, c, -, he, hhand, hc⟩
        · exact absurd rfl (hno popped)
        have hhold : Holding s s₁ c := holding_popped he
        have hpopped : inHand _ (.own .popPending : RegistrarOp Uuid _) c none = c := rfl
        rw [Future.ready.inj hc, hhand, hpopped] at hrest
        cases c with
        | none =>
            obtain ⟨hhold', rfl⟩ := hhold.quiet (uses_pure _) hrest
            refine ⟨hhold', ?_⟩
            rintro a rfl
            exact ((runs_pure _ _ _ _).1 hrest.runs).1
        | some p => exact offered_reaches hhold hrest

/-- What was there is still there, except for the service in hand. -/
def Accounted (s s' : World Uuid) : Option PendingService → Prop
  | none => s.services ≤ s'.services
  | some p => s.services = {p.service} + s'.services

omit [DecidableEq Uuid] [UuidFormat Uuid] [Rfc3339] in
theorem Holding.services (h : Holding s s' hand) :
    s.services = ((hand.toList.map (·.service) : List Service) : Multiset Service) + s'.services := by
  rw [World.services, World.services, h.volunteers, h.pending, List.map_append, ← Multiset.coe_add,
    add_assoc]

omit [DecidableEq Uuid] [UuidFormat Uuid] [Rfc3339] in
theorem Holding.accounted (h : Holding s s' hand) : Accounted s s' hand := by
  have hservices := h.services
  cases hand with
  | none => exact (hservices.trans (zero_add _)).le
  | some p => exact hservices

omit [DecidableEq Uuid] [UuidFormat Uuid] [Rfc3339] in
theorem Holding.trans {s₁ : World Uuid} (h : Holding s₀ s none) (h' : Holding s s₁ hand) :
    Holding s₀ s₁ hand :=
  ⟨h'.volunteers.trans h.volunteers, h.pending.trans h'.pending⟩

theorem Holding.bind {β : Type} {t : Async Uuid α} {f : α → Async Uuid β} {u : Async Uuid β}
    (hhold : Holding s₀ s hand) (ht : t.Uses RegistrarOp.quiet)
    (h : Reaches g inHand (t >>= f) s hand u s' hand') :
    Accounted s₀ s' hand' ∨ ∃ a s₁, Runs g t s a s₁ ∧ Holding s₀ s₁ hand ∧
      Reaches g inHand (f a) s₁ hand u s' hand' := by
  rcases reaches_bind h with ⟨⟨t', hfirst⟩, -⟩ | ⟨a, s₁, hand₁, hfirst, hrest⟩
  · exact Or.inl (hhold.quiet ht hfirst).1.accounted
  · obtain ⟨hhold', rfl⟩ := hhold.quiet ht hfirst
    exact Or.inr ⟨a, s₁, hfirst.runs, hhold', hrest⟩

theorem heldBy_existing {existingId : Option Uuid} {existing : Option ServiceAssignment} {id : Uuid}
    (hunused : ∀ e s, g Uuid e (.own .newV4) s → e.uuid ∉ s.volunteers)
    (hexisting : AssignmentFound g s existingId existing) (hident : Identified g s existingId id s') :
    ∀ a, heldBy s id = some a → existing = some a := by
  intro a ha
  cases hexisting with
  | noId =>
      cases hident with
      | @issued e hdraw =>
          have hlookup := AList.lookup_eq_none.2 (hunused e s hdraw)
          rw [heldBy, hlookup] at ha
          simp at ha
  | @inMemory id' v a' hv ha' =>
      cases hident with
      | known =>
          rw [heldBy, hv] at ha
          exact ha'.symm.trans ha
  | @inDatabase id' found db hno hq =>
      cases hident with
      | known =>
          obtain ⟨v, hv, hheld⟩ := Option.bind_eq_some_iff.1 ha
          rw [hno v hv] at hheld
          simp at hheld

omit [UuidFormat Uuid] [Rfc3339] in
theorem Holding.insertVolunteer {v : VolunteerState Uuid} {now : DateTime}
    {existing : Option ServiceAssignment} (h : Holding s s' hand)
    (hheld : ∀ a, heldBy s v.id = some a → existing = some a)
    (henter : Entering now existing v.assignedService hand) :
    s.services ≤ (s'.insertVolunteer v).services := by
  have hservices := services_insertVolunteer s' v
  have hsame : heldBy s' v.id = heldBy s v.id := by
    rw [heldBy, heldBy, h.volunteers]
  rw [hsame] at hservices
  have hhold := h.services
  cases hand with
  | none =>
      obtain rfl : v.assignedService = existing := henter
      have hsum : s.services = s'.services := hhold.trans (zero_add _)
      cases hentry : heldBy s v.id with
      | none =>
          have hnone : servicesOf (none : Option ServiceAssignment) = 0 := rfl
          rw [hentry, hnone, add_zero] at hservices
          rw [hservices, hsum]
          exact Multiset.le_add_right _ _
      | some a =>
          rw [hentry, hheld a hentry] at hservices
          exact (hsum.trans (Multiset.add_left_inj.1 hservices).symm).le
  | some p =>
      obtain ⟨rfl, hassigned⟩ := henter
      have hnone : heldBy s v.id = none := by
        cases hentry : heldBy s v.id with
        | none => rfl
        | some a => exact absurd (hheld a hentry) (by simp)
      rw [hnone, hassigned] at hservices
      have hentered : (s'.insertVolunteer v).services = s.services := by
        refine ((add_zero _).symm.trans hservices).trans ?_
        rw [hhold, add_comm]
        rfl
      exact hentered.symm.le

theorem Holding.enter {v : VolunteerState Uuid} {now : DateTime} {existing : Option ServiceAssignment}
    {call : HaproxyManager.Call Unit} {r : EnrollResponse} {u : Async Uuid EnrollResponse}
    (hhold : Holding s₀ s hand) (hheld : ∀ a, heldBy s₀ v.id = some a → existing = some a)
    (henter : Entering now existing v.assignedService hand)
    (h : Reaches g inHand (do
      own (.insertVolunteer v)
      let _ ← haproxy call
      return r) s hand u s' hand') : Accounted s₀ s' hand' := by
  have huses : (haproxy call >>= fun _ => pure r : Async Uuid EnrollResponse).Uses
      RegistrarOp.quiet := (quiet_haproxy call).bind fun _ => uses_pure _
  rcases reaches_bind h with ⟨⟨t', hinsert⟩, -⟩ | ⟨_, s₁, hand₁, hinsert, hrest⟩
  · rcases reaches_perform hinsert with ⟨rfl, rfl, -⟩ | ⟨e, c, -, he, rfl, -⟩
    · exact hhold.accounted
    · obtain ⟨-, rfl⟩ := Prod.mk.inj (exec_own he)
      have hentered := hhold.insertVolunteer hheld henter
      exact hentered
  · rcases reaches_perform hinsert with ⟨-, -, hno⟩ | ⟨e, c, -, he, rfl, -⟩
    · exact absurd rfl (hno _)
    obtain ⟨-, rfl⟩ := Prod.mk.inj (exec_own he)
    obtain ⟨hmap, hpending, rfl⟩ := reaches_quiet huses hrest
    have hentered := hhold.insertVolunteer hheld henter
    have hsame : s'.services = (s.insertVolunteer v).services := by
      rw [World.services, World.services, hmap, hpending]
    exact hentered.trans hsame.ge

/-- Wherever an enrollment is dropped, only the service in its hands is gone. -/
theorem enroll_reaches {body : EnrollRequest} {u : Async Uuid EnrollResponse}
    (hunused : ∀ e s, g Uuid e (.own .newV4) s → e.uuid ∉ s.volunteers)
    (h : Reaches g inHand (enroll body) s none u s' hand) : Accounted s s' hand := by
  have hhold : Holding s s none := ⟨rfl, rfl⟩
  rw [enroll] at h
  have hclock : (own .utcNow : Async Uuid DateTime).Uses RegistrarOp.quiet := uses_perform trivial
  obtain hdone | ⟨now, s₁, -, hhold, h⟩ := hhold.bind hclock h
  · exact hdone
  obtain hdone | ⟨addr, s₂, -, hhold, h⟩ :=
    hhold.bind (uses_serviceAddrFor trivial (fun _ => trivial) _) h
  · exact hdone
  obtain hdone | ⟨existingId, s₃, -, hhold, h⟩ :=
    hhold.bind (uses_findExisting (fun _ => trivial) (fun _ => trivial) _) h
  · exact hdone
  obtain hdone | ⟨existing, s₄, hexisting, hhold, h⟩ :=
    hhold.bind (uses_findAssignment (fun _ => trivial) (fun _ => trivial) _) h
  · exact hdone
  obtain hdone | ⟨id, s₅, hident, hhold', h⟩ := hhold.bind (uses_identify trivial _) h
  · exact hdone
  obtain ⟨hsame, hexisting⟩ := findAssignment_run hexisting
  rw [hsame] at hident
  have hheld := heldBy_existing hunused hexisting (identify_run hident)
  have hvolunteers : s₃.volunteers = s.volunteers := hsame ▸ hhold.volunteers
  have hheld' : ∀ a, heldBy s id = some a → existing = some a := by
    intro a ha
    refine hheld a ?_
    rw [heldBy, hvolunteers]
    exact ha
  rcases reaches_bind h with ⟨⟨t', hattach⟩, -⟩ | ⟨a, s₆, hand₆, hattach, h⟩
  · exact (hhold'.trans (attachService_reaches hattach).1).accounted
  obtain ⟨hattached, henter⟩ := attachService_reaches hattach
  have hhold := hhold'.trans hattached
  have hrow : (query (.upsertVolunteer (newVolunteer id now
      { body.info with serviceAddr := addr } a)) : Async Uuid Unit).Uses RegistrarOp.quiet :=
    uses_perform trivial
  obtain hdone | ⟨_, s₇, -, hhold, h⟩ := hhold.bind hrow h
  · exact hdone
  exact hhold.enter hheld' (henter a rfl) h

/-- An enrollment that is dropped loses no service, exactly if it is dropped with none in its hands:
before it takes one off the queue, or after it has entered its volunteer or put the service back. -/
theorem dropped_enroll_keeps_services_iff {body : EnrollRequest} {u : Async Uuid EnrollResponse}
    (h : Reaches drawsUnused inHand (enroll body) s none u s' hand) :
    s.services ≤ s'.services ↔ hand = none := by
  have haccounted := enroll_reaches (fun e s hg => hg rfl) h
  cases hand with
  | none => exact iff_of_true haccounted rfl
  | some p =>
      refine iff_of_false (fun hle => ?_) (by simp)
      have hcard := Multiset.card_le_card hle
      have hlost : s.services = {p.service} + s'.services := haccounted
      rw [hlost, Multiset.card_add, Multiset.card_singleton] at hcard
      omega

end Enroll

section Dropped

instance (β : Type) (e : RegistrarEnv Node) (op : RegistrarOp Node β) (s : World Node) :
    Decidable (drawsUnused β e op s) :=
  inferInstanceAs (Decidable (op.drawsId = true → e.uuid ∉ s.volunteers))

/-- The only pending service is lost when the enrollment that takes it is dropped. -/
theorem dropped_enroll_loses_service :
    ¬ ∀ (h : Haproxy) (events : List (Event Node)) (s s' : World Node) (body : EnrollRequest)
      (u : Async Node EnrollResponse) (hand : Option PendingService),
      History answering (World.initial h) events s →
      Reaches answering inHand (enroll body) s none u s' hand → s.services ≤ s'.services := by
  intro hclaim
  have hbad : (replay answering (calmEnv 0 0) [.registerService blog]
      (World.initial smallHaproxy)).any fun r =>
        !decide (r.2.services ≤ (reachBy answering inHand (calmEnv 0 0) 12
          (enroll (joins "volunteer-101" 7001)) r.2 none).2.1.services) := by
    decide +kernel
  obtain ⟨⟨events, s⟩, hreplay, hlost⟩ := (Option.any_eq_true _ _).1 hbad
  rw [Bool.not_eq_true', decide_eq_false_iff_not] at hlost
  exact hlost (hclaim _ events s _ _ _ _ (history_of_replay answering hreplay)
    (reaches_reachBy answering inHand _ 12 _ s none))

/-- An enrollment is dropped when it has entered its volunteer with the pending service. -/
theorem dropped_enroll_keeps_service :
    ∃ (s s' : World Node) (u : Async Node EnrollResponse) (hand : Option PendingService),
      Reaches drawsUnused inHand (enroll (joins "volunteer-101" 7001)) s none u s' hand ∧
        s.services = {blog} ∧ s.services ≤ s'.services := by
  have hgood : (replay answering (calmEnv 0 0) [.registerService blog]
      (World.initial smallHaproxy)).any fun r =>
        decide (r.2.services = {blog}) && decide ((reachBy drawsUnused inHand (calmEnv 0 0) 23
          (enroll (joins "volunteer-101" 7001)) r.2 none).2.2 = none) := by
    decide +kernel
  obtain ⟨⟨events, s⟩, hreplay, hnone⟩ := (Option.any_eq_true _ _).1 hgood
  rw [Bool.and_eq_true, decide_eq_true_eq, decide_eq_true_eq] at hnone
  have hreach := reaches_reachBy drawsUnused inHand (calmEnv 0 0) 23
    (enroll (joins "volunteer-101" 7001)) s none
  exact ⟨s, _, _, _, hreach, hnone.1, (dropped_enroll_keeps_services_iff hreach).2 hnone.2⟩

end Dropped

end Registrar

end OpenShard
