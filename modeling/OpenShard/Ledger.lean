import OpenShard.Abandonment
import OpenShard.Handlers

/-!
# The ledger

What the requests served so far, with the answers to them, say about the volunteers: who is enrolled,
with which data and port, with which last metrics, and within which operation each was last heard. From
an empty start and between any two operations the map of the registrar is what the ledger says, and a
pass of the churn monitor takes exactly those for dead that the ledger has not heard for the timeout.
-/

namespace OpenShard.Registrar

open UuidFormat

/-- A request, the answer, and the times between which it was served. -/
structure Occurrence (Uuid : Type) where
  request : Request Uuid
  reply : Reply Uuid
  start : DateTime
  finish : DateTime

/-- What a volunteer has said, and the times between which it was last heard. -/
structure Sighting where
  info : HandshakeInfo
  port : UInt16
  metrics : Metrics
  serviceRunning : Option Bool
  serviceImage : Option Text
  start : DateTime
  finish : DateTime

abbrev Ledger (Uuid : Type) := Uuid → Option Sighting

section Definitions

variable {Uuid : Type}

def EnrollRequest.sighting (body : EnrollRequest) (start finish : DateTime) : Sighting where
  info := body.info
  port := body.tunnelPublicPort
  metrics := ⟨0.0, 0.0, 0.0, 0⟩
  serviceRunning := none
  serviceImage := none
  start
  finish

/-- A heartbeat reports new metrics; what it does not say about the service stays. -/
def Sighting.beat (body : HeartbeatRequest Uuid) (start finish : DateTime) (σ : Sighting) :
    Sighting :=
  { σ with
    metrics := ⟨body.cpuPct, body.memPct, body.loadAvg, body.activeRequests⟩
    serviceRunning := body.serviceRunning.or σ.serviceRunning
    serviceImage := body.serviceImage.or σ.serviceImage
    start
    finish }

def Sighting.moveTo (port : UInt16) (σ : Sighting) : Sighting := { σ with port }

variable [DecidableEq Uuid]

def Ledger.alter (L : Ledger Uuid) (id : Option Uuid) (f : Option Sighting → Option Sighting) :
    Ledger Uuid :=
  fun key => if id = some key then f (L key) else L key

variable [UuidFormat Uuid]

def Ledger.note (L : Ledger Uuid) (o : Occurrence Uuid) : Ledger Uuid :=
  match o.request, o.reply with
  | .enroll body, .enrolled r =>
    L.alter (parseStr r.volunteerId) fun _ => some (body.sighting o.start o.finish)
  | .heartbeat body, .heartbeat (.ok _) =>
    L.alter (some body.volunteerId) (Option.map (Sighting.beat body o.start o.finish))
  | .updateTunnelPort idStr port, .volunteer (.ok _) =>
    L.alter (parseStr idStr) (Option.map (Sighting.moveTo port))
  | .disconnect idStr, .volunteer (.ok _) => L.alter (parseStr idStr) fun _ => none
  | .churn, .evicted dead => fun key => if key ∈ dead.map Prod.fst then none else L key
  | _, _ => L

def ledger : List (Occurrence Uuid) → Ledger Uuid
  | [] => fun _ => none
  | o :: os => (ledger os).note o

/-- What the map holds of a volunteer is what it said; the host of its address was looked up, and its
last heartbeat lies in the operation in which it was last heard. -/
structure Sighting.Describes (id : Uuid) (σ : Sighting) (v : VolunteerState Uuid) : Prop where
  id : v.id = id
  info : ∃ host : Text, v.info = { σ.info with
    serviceAddr := host ++ ":" ++ Text.ofNat σ.port.toNat }
  metrics : v.metrics = σ.metrics
  serviceRunning : v.serviceRunning = σ.serviceRunning
  serviceImage : v.serviceImage = σ.serviceImage
  start : σ.start ≤ v.lastHeartbeat
  finish : v.lastHeartbeat ≤ σ.finish

/-- The map is what the ledger says. -/
def Ledger.Agrees (L : Ledger Uuid) (s : World Uuid) : Prop :=
  ∀ id, Option.Rel (Sighting.Describes id) (L id) (s.volunteers.lookup id)

end Definitions

section Timed

variable {Uuid : Type}

def within (g : Guard (RegistrarOp Uuid) (RegistrarEnv Uuid) (World Uuid)) (start finish : DateTime) :
    Guard (RegistrarOp Uuid) (RegistrarEnv Uuid) (World Uuid) :=
  fun β e op s => g β e op s ∧ (start ≤ e.now ∧ e.now ≤ finish) ∧
    ∀ id, start ≤ e.clock id ∧ e.clock id ≤ finish

variable [DecidableEq Uuid] [UuidFormat Uuid] [Rfc3339]

/-- Completed operations, the latest first, each within its times, and the state they lead to. The clock
may be set back between two of them. -/
inductive Timeline (g : Guard (RegistrarOp Uuid) (RegistrarEnv Uuid) (World Uuid)) (s₀ : World Uuid) :
    List (Occurrence Uuid) → World Uuid → Prop
  | nil : Timeline g s₀ [] s₀
  | step {os : List (Occurrence Uuid)} {s s' : World Uuid} {o : Occurrence Uuid}
      (past : Timeline g s₀ os s) (hup : o.request ≠ .restart)
      (run : Runs (within g o.start o.finish) (handle o.request) s o.reply s') :
      Timeline g s₀ (o :: os) s'

end Timed

section Agreement

variable {Uuid : Type} [DecidableEq Uuid] {L : Ledger Uuid} {s s' : World Uuid}

theorem Ledger.Agrees.same (h : L.Agrees s) (hmap : s'.volunteers = s.volunteers) : L.Agrees s' := by
  intro id
  rw [hmap]
  exact h id

theorem Ledger.Agrees.keyed (h : L.Agrees s) : Keyed s := by
  intro key v hv
  have hrel := h key
  rw [hv] at hrel
  cases hL : L key with
  | none =>
      rw [hL] at hrel
      cases hrel
  | some σ =>
      rw [hL] at hrel
      cases hrel with
      | some hσ => exact hσ.id

theorem Ledger.Agrees.sighting (h : L.Agrees s) {id : Uuid} {v : VolunteerState Uuid}
    (hv : s.volunteers.lookup id = some v) : ∃ σ, L id = some σ ∧ σ.Describes id v := by
  have hrel := h id
  rw [hv] at hrel
  cases hL : L id with
  | none =>
      rw [hL] at hrel
      cases hrel
  | some σ =>
      rw [hL] at hrel
      cases hrel with
      | some hσ => exact ⟨σ, rfl, hσ⟩

theorem Ledger.Agrees.volunteer (h : L.Agrees s) {id : Uuid} {σ : Sighting} (hσ : L id = some σ) :
    ∃ v, s.volunteers.lookup id = some v ∧ σ.Describes id v := by
  have hrel := h id
  rw [hσ] at hrel
  cases hv : s.volunteers.lookup id with
  | none =>
      rw [hv] at hrel
      cases hrel
  | some v =>
      rw [hv] at hrel
      cases hrel with
      | some hσv => exact ⟨v, rfl, hσv⟩

theorem Ledger.Agrees.insert (h : L.Agrees s) {id : Uuid} {v : VolunteerState Uuid} (σ : Sighting)
    {f : Option Sighting → Option Sighting} (hf : f (L id) = some σ) (hv : σ.Describes id v)
    (hmap : s'.volunteers = s.volunteers.insert id v) : (L.alter (some id) f).Agrees s' := by
  intro key
  rw [hmap, Table.lookup_insert_if]
  by_cases hkey : key = id
  · subst hkey
    rw [Ledger.alter, if_pos rfl, if_pos rfl, hf]
    exact .some hv
  · have hne : some id ≠ some key := fun heq => hkey (Option.some.inj heq).symm
    rw [Ledger.alter, if_neg hne, if_neg hkey]
    exact h key

theorem Ledger.Agrees.erase (h : L.Agrees s) (id : Uuid)
    (hmap : s'.volunteers = s.volunteers.erase id) :
    (L.alter (some id) fun _ => none).Agrees s' := by
  intro key
  rw [hmap, Table.lookup_erase_if]
  by_cases hkey : key = id
  · subst hkey
    rw [Ledger.alter, if_pos rfl, if_pos rfl]
    exact .none
  · have hne : some id ≠ some key := fun heq => hkey (Option.some.inj heq).symm
    rw [Ledger.alter, if_neg hne, if_neg hkey]
    exact h key

theorem Ledger.Agrees.alterVolunteer (h : L.Agrees s) {id : Uuid}
    {f : VolunteerState Uuid → VolunteerState Uuid}
    (hf : ∀ key σ v, Sighting.Describes key σ v → σ.Describes key (f v)) :
    L.Agrees (s.alterVolunteer id f) := by
  intro key
  rw [lookup_alterVolunteer]
  split_ifs with hkey
  · subst hkey
    have hrel := h key
    cases hv : s.volunteers.lookup key with
    | none =>
        rw [hv] at hrel
        exact hrel
    | some v =>
        obtain ⟨σ, hσ, hdesc⟩ := h.sighting hv
        rw [hσ]
        exact .some (hf key σ v hdesc)
  · exact h key

end Agreement

section Steps

variable {Uuid : Type} [DecidableEq Uuid] [UuidFormat Uuid] [Rfc3339]
  {g : Guard (RegistrarOp Uuid) (RegistrarEnv Uuid) (World Uuid)} {L : Ledger Uuid}
  {s s' : World Uuid} {start finish : DateTime}

theorem serviceAddrFor_ends {port : UInt16} {addr : Text}
    (h : Runs g (serviceAddrFor port) s addr s') :
    ∃ host : Text, addr = host ++ ":" ++ Text.ofNat port.toNat := by
  rw [serviceAddrFor, runs_bind] at h
  obtain ⟨host, s₁, -, h⟩ := h
  rw [runs_bind] at h
  obtain ⟨ip, s₂, -, h⟩ := h
  exact ⟨ip, ((runs_pure _ _ _ _).1 h).1⟩

theorem enroll_sighted {body : EnrollRequest} {r : EnrollResponse}
    (h : Runs (within g start finish) (enroll body) s r s') :
    ∃ id v, r.volunteerId = toText id ∧ s'.volunteers = s.volunteers.insert id v ∧
      (body.sighting start finish).Describes id v := by
  rw [enroll, runs_bind] at h
  obtain ⟨now, s₁, hnow, h⟩ := h
  obtain ⟨e, ⟨-, htime, -⟩, heq⟩ := (runs_own _).1 hnow
  obtain ⟨rfl, rfl⟩ := Prod.mk.inj heq
  simp only [runs_bind, runs_query, runs_own, runs_haproxy, runs_pure] at h
  obtain ⟨addr, s₁, haddr, existingId, s₂, hfind, existing, s₃, hassignment, id, s₄, hident, a, s₅,
    hattached, u, s₆, ⟨db, -, rfl⟩, u', s₇, ⟨e', -, hinsert⟩, res, s₈, ⟨h₁, -, rfl⟩, rfl, rfl⟩ := h
  obtain ⟨host, haddr'⟩ := serviceAddrFor_ends haddr
  obtain ⟨rfl, -⟩ := serviceAddrFor_run haddr
  obtain ⟨rfl, -⟩ := findExisting_run hfind
  obtain ⟨rfl, -⟩ := findAssignment_run hassignment
  have hmap : s₅.volunteers = s₃.volunteers :=
    (attachService_run hattached).volunteers.trans (identify_run hident).same.1
  obtain ⟨-, rfl⟩ := Prod.mk.inj hinsert
  refine ⟨id, enrolled body id addr e.now a, rfl, ?_, ?_⟩
  · rw [← hmap]
    rfl
  · subst haddr'
    exact ⟨rfl, ⟨host, rfl⟩, rfl, rfl, rfl, htime.1, htime.2⟩

theorem heartbeat_sighted {body : HeartbeatRequest Uuid} {r : HeartbeatReply}
    (h : Runs (within g start finish) (heartbeat body) s r s') :
    (r = .notFound volunteerNotFound ∧ s'.volunteers = s.volunteers) ∨
      ∃ v now a, r = .ok a ∧ s.volunteers.lookup body.volunteerId = some v ∧
        s'.volunteers = s.volunteers.insert body.volunteerId (v.beat now body) ∧
        start ≤ now ∧ now ≤ finish := by
  rw [heartbeat, runs_bind] at h
  obtain ⟨found, s₁, hown, h⟩ := h
  obtain ⟨e, ⟨-, htime, -⟩, heq⟩ := (runs_own _).1 hown
  obtain ⟨rfl, rfl⟩ := Prod.mk.inj heq
  cases hv : s.volunteers.lookup body.volunteerId with
  | none =>
      simp only [hv, Option.map_none, World.alterVolunteer] at h
      obtain ⟨rfl, rfl⟩ := (runs_pure _ _ _ _).1 h
      exact .inl ⟨rfl, rfl⟩
  | some v =>
      simp only [hv, Option.map_some, World.alterVolunteer_of_lookup hv, runs_bind, runs_query,
        runs_haproxy] at h
      obtain ⟨u, s₂, ⟨db, -, rfl⟩, res, s₃, ⟨h₁, -, rfl⟩, h⟩ := h
      refine .inr ⟨v, e.now, v.assignedService.map payload, ?_⟩
      cases res with
      | ok u =>
          obtain ⟨rfl, rfl⟩ := (runs_pure _ _ _ _).1 h
          exact ⟨rfl, rfl, rfl, htime⟩
      | error err =>
          simp only at h
          split_ifs at h
          · simp only [runs_bind, runs_haproxy] at h
            obtain ⟨res', s₄, ⟨h₂, -, rfl⟩, h⟩ := h
            obtain ⟨rfl, rfl⟩ := (runs_pure _ _ _ _).1 h
            exact ⟨rfl, rfl, rfl, htime⟩
          · obtain ⟨rfl, rfl⟩ := (runs_pure _ _ _ _).1 h
            exact ⟨rfl, rfl, rfl, htime⟩

theorem Evicted.volunteers {id : Uuid} {a : Option ServiceAssignment} (h : Evicted g s id a s') :
    s'.volunteers = s.volunteers.erase id := by
  cases h with
  | free hremoved => cases hremoved with | mk hg hq hh => rfl
  | serving hremoved hq => cases hremoved with | mk hg hq hh => rfl

theorem EvictedAll.lookup {dead : List (Uuid × Option ServiceAssignment)}
    (h : EvictedAll g dead s s') (key : Uuid) : s'.volunteers.lookup key =
      if key ∈ dead.map Prod.fst then none else s.volunteers.lookup key := by
  induction h with
  | nil s => simp
  | @cons d ds s s₁ s' hd hds ih =>
      rw [ih, hd.volunteers, Table.lookup_erase_if, List.map_cons]
      by_cases hkey : key = d.1
      · simp [hkey]
      · simp only [List.mem_cons, hkey, false_or, if_false]

theorem churnPass_looks {dead : List (Uuid × Option ServiceAssignment)}
    (h : Runs (within g start finish) churnPass s dead s') :
    EvictedAll (within g start finish) dead s s' ∧
      ∃ clock : Uuid → DateTime, (∀ id, start ≤ clock id ∧ clock id ≤ finish) ∧
        ∀ id, id ∈ dead.map Prod.fst ↔
          ∃ key v, s.volunteers.lookup key = some v ∧ v.id = id ∧ v.isAlive (clock id) = false := by
  have hevicted := (churnPass_run h).2
  rw [churnPass, runs_bind] at h
  obtain ⟨found, s₁, hown, h⟩ := h
  obtain ⟨e, ⟨-, -, hclock⟩, heq⟩ := (runs_own _).1 hown
  obtain ⟨rfl, rfl⟩ := Prod.mk.inj heq
  rw [runs_bind] at h
  obtain ⟨u, s₂, -, h⟩ := h
  obtain ⟨rfl, rfl⟩ := (runs_pure _ _ _ _).1 h
  refine ⟨hevicted, e.clock, hclock, fun id => ?_⟩
  rw [List.map_map, List.mem_map]
  constructor
  · rintro ⟨v, hv, rfl⟩
    obtain ⟨hmem, hdead⟩ := List.mem_filter.1 hv
    rw [IterOrder.mem_order, Table.mem_values] at hmem
    obtain ⟨key, hkey⟩ := hmem
    exact ⟨key, v, hkey, rfl, by simpa using hdead⟩
  · rintro ⟨key, v, hv, rfl, hdead⟩
    refine ⟨v, List.mem_filter.2 ⟨?_, by simp [hdead]⟩, rfl⟩
    rw [IterOrder.mem_order, Table.mem_values]
    exact ⟨key, hv⟩

/-- One operation: what it does to the map is what it enters in the ledger. -/
theorem Ledger.Agrees.step (h : L.Agrees s) {o : Occurrence Uuid} (hup : o.request ≠ .restart)
    (run : Runs (within g o.start o.finish) (handle o.request) s o.reply s') :
    (L.note o).Agrees s' := by
  obtain ⟨q, r, start, finish⟩ := o
  simp only at hup run
  cases q with
  | enroll body =>
      obtain ⟨r, hrun, rfl⟩ := (runs_map _ _ _ _ _).1 run
      obtain ⟨id, v, hid, hmap, hdesc⟩ := enroll_sighted hrun
      simp only [Ledger.note, hid, parseStr_toText]
      exact h.insert _ rfl hdesc hmap
  | heartbeat body =>
      obtain ⟨r, hrun, rfl⟩ := (runs_map _ _ _ _ _).1 run
      rcases heartbeat_sighted hrun with ⟨rfl, hmap⟩ | ⟨v, now, a, rfl, hv, hmap, hstart, hfinish⟩
      · exact h.same hmap
      · obtain ⟨σ, hσ, hdesc⟩ := h.sighting hv
        refine h.insert (σ.beat body start finish) (by rw [hσ]; rfl) ?_ hmap
        exact { hdesc with
          metrics := rfl
          serviceRunning := congrArg (Option.or body.serviceRunning) hdesc.serviceRunning
          serviceImage := congrArg (Option.or body.serviceImage) hdesc.serviceImage
          start := hstart
          finish := hfinish }
  | updateTunnelPort idStr port =>
      obtain ⟨r, hrun, rfl⟩ := (runs_map _ _ _ _ _).1 run
      rcases (updateTunnelPort_stores hrun).2 with
        ⟨hr, rfl⟩ | ⟨id, v, addr, hparse, rfl, hv, hmap, haddr⟩
      · cases r with
        | ok status => exact absurd rfl (hr status)
        | badRequest | notFound => exact h
      · obtain ⟨σ, hσ, hdesc⟩ := h.sighting hv
        obtain ⟨host, rfl⟩ := serviceAddrFor_ends haddr
        obtain ⟨host', hinfo⟩ := hdesc.info
        simp only [Ledger.note, hparse]
        refine h.insert (σ.moveTo port) (by rw [hσ]; rfl) ?_ hmap
        exact { hdesc with info := ⟨host, by rw [VolunteerState.moveTo, hinfo]; rfl⟩ }
  | disconnect idStr =>
      obtain ⟨r, hrun, rfl⟩ := (runs_map _ _ _ _ _).1 run
      cases disconnect_run hrun with
      | badRequest hparse => exact h
      | unknown hparse hno hs' =>
          subst hs'
          exact h.same (Table.erase_of_lookup_none hno)
      | gone hparse hv hremoved =>
          simp only [Ledger.note, hparse]
          cases hremoved with
          | mk hg hq hh => exact h.erase _ rfl
  | registerService body =>
      obtain ⟨r, hrun, rfl⟩ := (runs_map _ _ _ _ _).1 run
      cases registerService_run hrun with
      | assigned hv hfree hh hq =>
          refine Ledger.Agrees.alterVolunteer (h.same ?_) fun key σ v hdesc => ?_
          · rfl
          · exact { hdesc with }
      | refused hv hfree hh => exact h
      | queued => exact h
  | churn =>
      obtain ⟨dead, hrun, rfl⟩ := (runs_map _ _ _ _ _).1 run
      intro key
      rw [(churnPass_looks hrun).1.lookup key]
      simp only [Ledger.note]
      split_ifs
      · exact .none
      · exact h key
  | restart => exact absurd rfl hup

theorem Timeline.agrees {h : Haproxy} {os : List (Occurrence Uuid)}
    (ht : Timeline g (World.initial h) os s) : (ledger os).Agrees s := by
  induction ht with
  | nil =>
      intro id
      have hnone : (∅ : Table Uuid (VolunteerState Uuid)).lookup id = none := by simp
      change Option.Rel _ none ((∅ : Table Uuid (VolunteerState Uuid)).lookup id)
      rw [hnone]
      exact .none
  | step past hup run ih => exact ih.step hup run

/-- From an empty start and with operations completed one after another, between two starts of the
registrar, the map of the volunteers is exactly what the requests and the answers so far say. -/
theorem map_is_ledger {h : Haproxy} {os : List (Occurrence Uuid)}
    (ht : Timeline g (World.initial h) os s) : (ledger os).Agrees s :=
  ht.agrees

end Steps

section Detection

variable {Uuid : Type}

def heartbeatTimeout : ℤ := heartbeatTimeoutSecs * 1000000000

theorem heartbeatTimeoutSecs_le_tdiv (d : ℤ) :
    heartbeatTimeoutSecs ≤ d.tdiv 1000000000 ↔ heartbeatTimeout ≤ d := by
  unfold heartbeatTimeout heartbeatTimeoutSecs
  rcases le_or_gt 0 d with hpos | hneg
  · rw [Int.tdiv_eq_ediv_of_nonneg hpos]
    omega
  · have hle := Int.tdiv_nonneg (show 0 ≤ -d by omega) (show (0 : ℤ) ≤ 1000000000 by norm_num)
    rw [Int.neg_tdiv] at hle
    omega

theorem isAlive_eq_false_iff {now : DateTime} {v : VolunteerState Uuid} :
    v.isAlive now = false ↔ heartbeatTimeout ≤ now - v.lastHeartbeat := by
  rw [← heartbeatTimeoutSecs_le_tdiv, VolunteerState.isAlive, decide_eq_false_iff_not, not_lt]
  rfl

variable [DecidableEq Uuid] [UuidFormat Uuid]

def Occurrence.Enrolls (o : Occurrence Uuid) (id : Uuid) : Prop :=
  ∃ body r, o.request = .enroll body ∧ o.reply = .enrolled r ∧ parseStr r.volunteerId = some id

def Occurrence.Leaves (o : Occurrence Uuid) (id : Uuid) : Prop :=
  ∃ idStr status, o.request = .disconnect idStr ∧ o.reply = .volunteer (.ok status) ∧
    parseStr idStr = some id

omit [UuidFormat Uuid] in
theorem Ledger.alter_of_none {L : Ledger Uuid} {id : Uuid} (hL : L id = none) (who : Option Uuid)
    {f : Option Sighting → Option Sighting} (hf : f none = none) : L.alter who f id = none := by
  rw [Ledger.alter, hL, hf, ite_self]

theorem Ledger.note_of_none {L : Ledger Uuid} {o : Occurrence Uuid} {id : Uuid} (hL : L id = none)
    (ho : ¬ o.Enrolls id) : L.note o id = none := by
  obtain ⟨L', hnote⟩ : ∃ L', L.note o = L' := ⟨_, rfl⟩
  rw [hnote]
  unfold Ledger.note at hnote
  split at hnote <;> subst hnote
  · rename_i body r hq hr
    rw [Ledger.alter, if_neg fun hparse => ho ⟨body, r, hq, hr, hparse⟩, hL]
  · exact Ledger.alter_of_none hL _ rfl
  · exact Ledger.alter_of_none hL _ rfl
  · exact Ledger.alter_of_none hL _ rfl
  · simp [hL]
  · exact hL

omit [UuidFormat Uuid] in
theorem Ledger.alter_of_some {L : Ledger Uuid} {id : Uuid} {σ : Sighting} (hL : L id = some σ)
    (who : Option Uuid) {f : Option Sighting → Option Sighting} (hf : (f (some σ)).isSome) :
    (L.alter who f id).isSome := by
  rw [Ledger.alter, hL]
  split_ifs
  · exact hf
  · rfl

theorem Ledger.note_of_some {L : Ledger Uuid} {o : Occurrence Uuid} {id : Uuid} {σ : Sighting}
    (hL : L id = some σ) (hleaves : ¬ o.Leaves id)
    (hpass : ∀ dead, o.request = .churn → o.reply = .evicted dead → id ∉ dead.map Prod.fst) :
    (L.note o id).isSome := by
  obtain ⟨L', hnote⟩ : ∃ L', L.note o = L' := ⟨_, rfl⟩
  rw [hnote]
  unfold Ledger.note at hnote
  split at hnote <;> subst hnote
  · exact Ledger.alter_of_some hL _ rfl
  · exact Ledger.alter_of_some hL _ rfl
  · exact Ledger.alter_of_some hL _ rfl
  · rename_i idStr status hq hr
    rw [Ledger.alter, if_neg fun hparse => hleaves ⟨idStr, status, hq, hr, hparse⟩, hL]
    rfl
  · rename_i dead hq hr
    simp only [if_neg (hpass dead hq hr), hL, Option.isSome_some]
  · rw [hL]
    rfl

theorem Ledger.note_enrolls {L : Ledger Uuid} {o : Occurrence Uuid} {id : Uuid} (ho : o.Enrolls id) :
    (L.note o id).isSome := by
  obtain ⟨q, r, start, finish⟩ := o
  obtain ⟨body, r', hq, hr, hparse⟩ := ho
  simp only at hq hr
  subst hq hr
  simp only [Ledger.note, Ledger.alter, hparse, if_true]
  rfl

variable [Rfc3339] {g : Guard (RegistrarOp Uuid) (RegistrarEnv Uuid) (World Uuid)} {L : Ledger Uuid}
  {s s' : World Uuid}

/-- A pass condemns whoever was last heard the timeout before it began, and nobody who was heard within
the timeout before it ended. -/
theorem Ledger.Agrees.condemns (h : L.Agrees s) {start finish : DateTime}
    {dead : List (Uuid × Option ServiceAssignment)}
    (run : Runs (within g start finish) churnPass s dead s') :
    (∀ id σ, L id = some σ → heartbeatTimeout ≤ start - σ.finish → id ∈ dead.map Prod.fst) ∧
      ∀ id σ, L id = some σ → id ∈ dead.map Prod.fst → heartbeatTimeout ≤ finish - σ.start := by
  obtain ⟨-, clock, hclock, hmem⟩ := churnPass_looks run
  refine ⟨fun id σ hσ hsilent => ?_, fun id σ hσ hdead => ?_⟩
  · obtain ⟨v, hv, hdesc⟩ := h.volunteer hσ
    refine (hmem id).2 ⟨id, v, hv, hdesc.id, isAlive_eq_false_iff.2 ?_⟩
    have hlast := hdesc.finish
    have hnow := (hclock id).1
    unfold DateTime at *
    omega
  · obtain ⟨key, v, hv, rfl, hdead⟩ := (hmem id).1 hdead
    obtain rfl := h.keyed key v hv
    obtain ⟨σ', hσ', hdesc⟩ := h.sighting hv
    obtain rfl := Option.some.inj (hσ.symm.trans hσ')
    have hlate := isAlive_eq_false_iff.1 hdead
    have hlast := hdesc.start
    have hnow := (hclock v.id).2
    unfold DateTime at *
    omega

omit [DecidableEq Uuid] [UuidFormat Uuid] in
theorem Timeline.last [DecidableEq Uuid] [UuidFormat Uuid] {s₀ : World Uuid} {o : Occurrence Uuid}
    {os : List (Occurrence Uuid)} (h : Timeline g s₀ (o :: os) s) :
    ∃ s₁, Timeline g s₀ os s₁ ∧ o.request ≠ .restart ∧
      Runs (within g o.start o.finish) (handle o.request) s₁ o.reply s := by
  cases h with
  | step past hup run => exact ⟨_, past, hup, run⟩

theorem Timeline.suffix {s₀ : World Uuid} {later os : List (Occurrence Uuid)}
    (h : Timeline g s₀ (later ++ os) s) : ∃ s₁, Timeline g s₀ os s₁ := by
  induction later generalizing s with
  | nil => exact ⟨s, h⟩
  | cons o later ih =>
      obtain ⟨s₁, past, -⟩ := h.last
      exact ih past

theorem Timeline.pass {h : Haproxy} {pass : Occurrence Uuid} {earlier : List (Occurrence Uuid)}
    (ht : Timeline g (World.initial h) (pass :: earlier) s) (hpass : pass.request = .churn) :
    ∃ dead, pass.reply = .evicted dead ∧
      (∀ id σ, ledger earlier id = some σ → heartbeatTimeout ≤ pass.start - σ.finish →
        id ∈ dead.map Prod.fst) ∧
      ∀ id σ, ledger earlier id = some σ → id ∈ dead.map Prod.fst →
        heartbeatTimeout ≤ pass.finish - σ.start := by
  obtain ⟨s₁, past, -, run⟩ := ht.last
  rw [hpass] at run
  obtain ⟨dead, hrun, hreply⟩ := (runs_map _ _ _ _ _).1 run
  exact ⟨dead, hreply, past.agrees.condemns hrun⟩

omit [Rfc3339] in
theorem ledger_of_none {id : Uuid} {later earlier : List (Occurrence Uuid)}
    (hL : ledger earlier id = none) (hnot : ∀ o ∈ later, ¬ o.Enrolls id) :
    ledger (later ++ earlier) id = none := by
  induction later with
  | nil => exact hL
  | cons o later ih =>
      have hlater := ih fun o' ho' => hnot o' (List.mem_cons_of_mem _ ho')
      exact Ledger.note_of_none hlater (hnot o List.mem_cons_self)

/-- In such a run, a volunteer that was last heard the timeout or more before a pass began is out of the
map from then on, until it enrolls again. -/
theorem silence_detected {h : Haproxy} {later earlier : List (Occurrence Uuid)}
    {pass : Occurrence Uuid} {id : Uuid} {σ : Sighting}
    (ht : Timeline g (World.initial h) (later ++ pass :: earlier) s) (hpass : pass.request = .churn)
    (hσ : ledger earlier id = some σ) (hsilent : heartbeatTimeout ≤ pass.start - σ.finish)
    (hnot : ∀ o ∈ later, ¬ o.Enrolls id) : s.volunteers.lookup id = none := by
  obtain ⟨s₁, htpass⟩ := ht.suffix
  obtain ⟨dead, hreply, hcondemned, -⟩ := htpass.pass hpass
  have hout : ledger (pass :: earlier) id = none := by
    obtain ⟨q, r, start, finish⟩ := pass
    simp only at hpass hreply
    subst hpass hreply
    simp only [ledger, Ledger.note, if_pos (hcondemned id σ hσ hsilent)]
  have hagrees := ht.agrees id
  rw [ledger_of_none hout hnot] at hagrees
  cases hv : s.volunteers.lookup id with
  | none => rfl
  | some v =>
      rw [hv] at hagrees
      cases hagrees

/-- The ledger keeps whom every pass has heard. -/
theorem ledger_of_heard {h : Haproxy} {os : List (Occurrence Uuid)} {id : Uuid}
    (ht : Timeline g (World.initial h) os s) (hin : ∃ o ∈ os, o.Enrolls id)
    (hstay : ∀ o ∈ os, ¬ o.Leaves id)
    (hheard : ∀ pass earlier σ, pass :: earlier <:+ os → pass.request = .churn →
      ledger earlier id = some σ → pass.finish - σ.start < heartbeatTimeout) :
    (ledger os id).isSome := by
  induction os generalizing s with
  | nil =>
      obtain ⟨o, ho, -⟩ := hin
      cases ho
  | cons o os ih =>
      obtain ⟨s₁, past, -⟩ := ht.last
      by_cases hnow : o.Enrolls id
      · exact Ledger.note_enrolls hnow
      · have hbefore : ∃ o' ∈ os, o'.Enrolls id := by
          obtain ⟨o', ho', henrolls⟩ := hin
          rcases List.mem_cons.1 ho' with rfl | ho'
          · exact absurd henrolls hnow
          · exact ⟨o', ho', henrolls⟩
        have hsome := ih past hbefore (fun o' ho' => hstay o' (List.mem_cons_of_mem _ ho'))
          fun pass earlier σ hsuffix => hheard pass earlier σ (hsuffix.trans (List.suffix_cons o os))
        obtain ⟨σ, hσ⟩ := Option.isSome_iff_exists.1 hsome
        refine Ledger.note_of_some hσ (hstay o List.mem_cons_self) fun dead hpass hreply hmem => ?_
        obtain ⟨dead', hreply', -, hlate⟩ := ht.pass hpass
        obtain rfl : dead = dead' := Reply.evicted.inj (hreply.symm.trans hreply')
        have hheard' := hheard o os σ (List.suffix_refl _) hpass hσ
        exact absurd hheard' (not_lt.2 (hlate id σ hσ hmem))

/-- In such a run, a volunteer that has enrolled and not left, and that every pass has heard within the
timeout, is in the map. -/
theorem heard_kept {h : Haproxy} {os : List (Occurrence Uuid)} {id : Uuid}
    (ht : Timeline g (World.initial h) os s) (hin : ∃ o ∈ os, o.Enrolls id)
    (hstay : ∀ o ∈ os, ¬ o.Leaves id)
    (hheard : ∀ pass earlier σ, pass :: earlier <:+ os → pass.request = .churn →
      ledger earlier id = some σ → pass.finish - σ.start < heartbeatTimeout) :
    ∃ v, s.volunteers.lookup id = some v := by
  obtain ⟨σ, hσ⟩ := Option.isSome_iff_exists.1 (ledger_of_heard ht hin hstay hheard)
  obtain ⟨v, hv, -⟩ := ht.agrees.volunteer hσ
  exact ⟨v, hv⟩

end Detection

section Example

instance (start finish : DateTime) (β : Type) (e : RegistrarEnv Node) (op : RegistrarOp Node β)
    (s : World Node) : Decidable (within unhindered start finish β e op s) :=
  decidable_of_iff ((start ≤ e.now ∧ e.now ≤ finish) ∧ (start ≤ e.clock .a ∧ e.clock .a ≤ finish) ∧
    (start ≤ e.clock .b ∧ e.clock .b ≤ finish) ∧ (start ≤ e.clock .c ∧ e.clock .c ≤ finish))
    ⟨fun h => ⟨trivial, h.1, fun id => by cases id <;> simp only [h, and_self]⟩,
      fun h => ⟨h.2.1, h.2.2 .a, h.2.2 .b, h.2.2 .c⟩⟩

def timed : List (Request Node × DateTime) → World Node → Option (List (Occurrence Node) × World Node)
  | [], s => some ([], s)
  | (q, t) :: qs, s =>
    (timed qs s).bind fun past =>
      (runBy (within unhindered t t) (calmEnv t t) (handle q) past.2).map fun r =>
        (⟨q, r.1, t, t⟩ :: past.1, r.2)

theorem timeline_of_timed {qs : List (Request Node × DateTime)} {s₀ s : World Node}
    {os : List (Occurrence Node)} (hup : ∀ q ∈ qs, q.1 ≠ .restart)
    (h : timed qs s₀ = some (os, s)) : Timeline unhindered s₀ os s := by
  induction qs generalizing os s with
  | nil =>
      obtain ⟨rfl, rfl⟩ := Prod.mk.inj (Option.some.inj h)
      exact .nil
  | cons q qs ih =>
      obtain ⟨past, hpast, h⟩ := Option.bind_eq_some_iff.1 h
      obtain ⟨r, hr, heq⟩ := Option.map_eq_some_iff.1 h
      obtain ⟨rfl, rfl⟩ := Prod.mk.inj heq
      have hrun := runs_of_runBy (calmEnv q.2 q.2) _ _ _ _ hr
      exact .step (ih (fun q' hq' => hup q' (List.mem_cons_of_mem _ hq')) hpast)
        (hup q List.mem_cons_self) hrun

theorem timeline_any {qs : List (Request Node × DateTime)} {s₀ : World Node}
    {p : List (Occurrence Node) × World Node → Bool} (hup : ∀ q ∈ qs, q.1 ≠ .restart)
    (h : (timed qs s₀).any p) : ∃ os s, Timeline unhindered s₀ os s ∧ p (os, s) := by
  obtain ⟨⟨os, s⟩, hplayed, hp⟩ := (Option.any_eq_true p _).1 h
  exact ⟨os, s, timeline_of_timed hup hplayed, hp⟩

/-- A node enrolls, is silent for a minute, and the monitor passes; an hour later another node comes. -/
def crash : List (Request Node × DateTime) :=
  [(.enroll (joins "volunteer-102" 7002), 3600000000000), (.churn, 60000000000),
    (.enroll (joins "volunteer-101" 7001), 0)]

theorem crash_up : ∀ q ∈ crash, q.1 ≠ .restart := by
  simp [crash]

def crashed : List (Occurrence Node) × World Node → Bool
  | ([o, ⟨.churn, _, start, _⟩, o'], _) =>
    (ledger [o'] .a).any (fun σ => heartbeatTimeout ≤ start - σ.finish) &&
      match o.request, o.reply with
      | .enroll _, .enrolled r => (parseStr r.volunteerId : Option Node) = some .b
      | _, _ => false
  | _ => false

theorem silence_detected_crash : ∃ os s, Timeline unhindered (World.initial smallHaproxy) os s ∧
    (∃ o ∈ os, o.Enrolls .b) ∧ s.volunteers.lookup Node.a = none := by
  obtain ⟨os, s, ht, hp⟩ := @timeline_any crash (World.initial smallHaproxy) crashed crash_up
    (by decide +kernel)
  unfold crashed at hp
  split at hp
  · rename_i o r start finish o' s hr
    obtain ⟨rfl, rfl⟩ := Prod.mk.inj hr
    rw [Bool.and_eq_true] at hp
    obtain ⟨σ, hσ, hsilent⟩ := (Option.any_eq_true _ _).1 hp.1
    have hsecond := hp.2
    split at hsecond
    · rename_i body r' hq hr'
      have hb : (parseStr r'.volunteerId : Option Node) = some .b := by simpa using hsecond
      refine ⟨_, _, ht, ⟨o, List.mem_cons_self, body, r', hq, hr', hb⟩, ?_⟩
      refine @silence_detected _ _ _ _ _ _ _ [o] [o'] _ _ σ ht rfl hσ (by simpa using hsilent) ?_
      rintro o'' ho'' ⟨body', r'', hq', hr'', hparse⟩
      obtain rfl := List.mem_singleton.1 ho''
      rw [hr'] at hr''
      obtain rfl := Reply.enrolled.inj hr''
      rw [hb] at hparse
      cases hparse
    · cases hsecond
  · cases hp

theorem map_is_ledger_crash : ∃ os s, Timeline unhindered (World.initial smallHaproxy) os s ∧
    (ledger os).Agrees s ∧ ledger os Node.a = none ∧ (ledger os Node.b).isSome := by
  obtain ⟨os, s, ht, hp⟩ := @timeline_any crash (World.initial smallHaproxy)
    (fun r => (ledger r.1 .a).isNone && (ledger r.1 .b).isSome) crash_up (by decide +kernel)
  simp only [Bool.and_eq_true, Option.isNone_iff_eq_none] at hp
  exact ⟨os, s, ht, map_is_ledger ht, hp.1, hp.2⟩

/-- A node enrolls and beats; the monitor passes within the timeout after the heartbeat. -/
def beating : List (Request Node × DateTime) :=
  [(.churn, 60000000000), ((beats .a).1, 30000000000), (.enroll (joins "volunteer-101" 7001), 0)]

theorem beating_up : ∀ q ∈ beating, q.1 ≠ .restart := by
  simp [beating, beats]

def beaten : List (Occurrence Node) × World Node → Bool
  | ([⟨.churn, _, _, finish⟩, ⟨.heartbeat body, r, t, t'⟩, ⟨.enroll body', .enrolled r', t₁, t₁'⟩],
      _) =>
    (ledger [⟨.heartbeat body, r, t, t'⟩, ⟨.enroll body', .enrolled r', t₁, t₁'⟩] .a).all
      (fun σ => finish - σ.start < heartbeatTimeout) &&
      decide ((parseStr r'.volunteerId : Option Node) = some .a)
  | _ => false

theorem heard_kept_beating : ∃ os s, Timeline unhindered (World.initial smallHaproxy) os s ∧
    (∃ o ∈ os, o.request = .churn) ∧ ∃ v, s.volunteers.lookup Node.a = some v := by
  obtain ⟨os, s, ht, hp⟩ := @timeline_any beating (World.initial smallHaproxy) beaten beating_up
    (by decide +kernel)
  unfold beaten at hp
  split at hp
  · rename_i r finish body r₁ t t' body' r' t₁ t₁' s hr
    obtain ⟨rfl, rfl⟩ := Prod.mk.inj hr
    rw [Bool.and_eq_true, decide_eq_true_iff] at hp
    refine ⟨_, _, ht, ⟨_, List.mem_cons_self, rfl⟩, heard_kept ht ?_ ?_ ?_⟩
    · exact ⟨⟨.enroll body', .enrolled r', t₁, t₁'⟩, by simp, body', r', rfl, rfl, hp.2⟩
    · rintro o ho ⟨idStr, status, hq, -⟩
      simp only [List.mem_cons, List.not_mem_nil, or_false] at ho
      rcases ho with rfl | rfl | rfl <;> cases hq
    · intro pass earlier σ hsuffix hpass hσ
      simp only [List.suffix_cons_iff, List.suffix_nil, List.cons.injEq, reduceCtorEq,
        or_false] at hsuffix
      rcases hsuffix with ⟨rfl, rfl⟩ | ⟨rfl, rfl⟩ | ⟨rfl, rfl⟩
      · simpa [hσ] using hp.1
      · cases hpass
      · cases hpass
  · cases hp

end Example

end OpenShard.Registrar
