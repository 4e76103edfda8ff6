import OpenShard.Effects

/-!
# Histories

The requests the registrar serves, its own periodic pass and its restarts, and the runs in which each
is completed before the next begins.
-/

namespace OpenShard

/-- No volunteer, no pending service, an empty database, some running HAProxy, the lock free. -/
def World.initial {Uuid : Type} (h : Haproxy) : World Uuid :=
  ⟨∅, [], ⟨∅, ∅⟩, { h with configLocked := false }, []⟩

/-- The services that the registrar has, queued or assigned. -/
def World.services {Uuid : Type} (s : World Uuid) : Multiset Service :=
  (s.pendingServices.map (·.service) : Multiset Service) +
    Table.total VolunteerState.held s.volunteers

namespace Registrar

inductive Request (Uuid : Type)
  | enroll (body : EnrollRequest)
  | heartbeat (body : HeartbeatRequest Uuid)
  | updateTunnelPort (idStr : Text) (tunnelPublicPort : UInt16)
  | disconnect (idStr : Text)
  | registerService (body : Service)
  | churn
  | restart

inductive Reply (Uuid : Type)
  | enrolled (r : EnrollResponse)
  | heartbeat (r : HeartbeatReply)
  | volunteer (r : VolunteerReply)
  | registered (r : RegisterReply)
  | evicted (dead : List (Uuid × Option ServiceAssignment))
  | restarted (errors : List Error)

variable {Uuid : Type} [DecidableEq Uuid] [UuidFormat Uuid] [Rfc3339]

def handle : Request Uuid → Async Uuid (Reply Uuid)
  | .enroll body => .enrolled <$> enroll body
  | .heartbeat body => .heartbeat <$> heartbeat body
  | .updateTunnelPort idStr port => .volunteer <$> updateTunnelPort idStr port
  | .disconnect idStr => .volunteer <$> disconnect idStr
  | .registerService body => .registered <$> registerService body
  | .churn => .evicted <$> churnPass
  | .restart => .restarted <$> restart

inductive Effect (g : Guard (RegistrarOp Uuid) (RegistrarEnv Uuid) (World Uuid)) (s : World Uuid) :
    Request Uuid → Reply Uuid → World Uuid → Prop
  | enroll {body : EnrollRequest} {r : EnrollResponse} {s' : World Uuid}
      (h : Enrolled g s body r s') : Effect g s (.enroll body) (.enrolled r) s'
  | heartbeat {body : HeartbeatRequest Uuid} {r : HeartbeatReply} {s' : World Uuid}
      (h : Beaten g s body r s') : Effect g s (.heartbeat body) (.heartbeat r) s'
  | updateTunnelPort {idStr : Text} {port : UInt16} {r : VolunteerReply} {s' : World Uuid}
      (h : Moved g s idStr r s') : Effect g s (.updateTunnelPort idStr port) (.volunteer r) s'
  | disconnect {idStr : Text} {r : VolunteerReply} {s' : World Uuid}
      (h : Departed g s idStr r s') : Effect g s (.disconnect idStr) (.volunteer r) s'
  | registerService {body : Service} {r : RegisterReply} {s' : World Uuid}
      (h : Registered g s body r s') : Effect g s (.registerService body) (.registered r) s'
  | churn {dead : List (Uuid × Option ServiceAssignment)} {s' : World Uuid} (hdead : DeadIn s dead)
      (h : EvictedAll g dead s s') : Effect g s .churn (.evicted dead) s'
  | restart {errors : List Error} {s' : World Uuid} (h : Runs g Registrar.restart s errors s') :
      Effect g s .restart (.restarted errors) s'

theorem handle_run {g : Guard (RegistrarOp Uuid) (RegistrarEnv Uuid) (World Uuid)}
    {s s' : World Uuid} {q : Request Uuid} {r : Reply Uuid} (h : Runs g (handle q) s r s') :
    Effect g s q r s' := by
  cases q with
  | enroll body =>
      obtain ⟨r, run, rfl⟩ := (runs_map _ _ _ _ _).1 h
      exact .enroll (enroll_run run)
  | heartbeat body =>
      obtain ⟨r, run, rfl⟩ := (runs_map _ _ _ _ _).1 h
      exact .heartbeat (heartbeat_run run)
  | updateTunnelPort idStr port =>
      obtain ⟨r, run, rfl⟩ := (runs_map _ _ _ _ _).1 h
      exact .updateTunnelPort (updateTunnelPort_run run)
  | disconnect idStr =>
      obtain ⟨r, run, rfl⟩ := (runs_map _ _ _ _ _).1 h
      exact .disconnect (disconnect_run run)
  | registerService body =>
      obtain ⟨r, run, rfl⟩ := (runs_map _ _ _ _ _).1 h
      exact .registerService (registerService_run run)
  | churn =>
      obtain ⟨dead, run, rfl⟩ := (runs_map _ _ _ _ _).1 h
      exact .churn (churnPass_run run).1 (churnPass_run run).2
  | restart =>
      obtain ⟨errors, run, rfl⟩ := (runs_map _ _ _ _ _).1 h
      exact .restart run

abbrev Event (Uuid : Type) := Request Uuid × Reply Uuid

/-- Completed operations, the latest first, and the state they lead to. -/
inductive History (g : Guard (RegistrarOp Uuid) (RegistrarEnv Uuid) (World Uuid)) (s : World Uuid) :
    List (Event Uuid) → World Uuid → Prop
  | nil : History g s [] s
  | step {events : List (Event Uuid)} {s₁ s₂ : World Uuid} {q : Request Uuid} {r : Reply Uuid}
      (past : History g s events s₁) (run : Runs g (handle q) s₁ r s₂) :
      History g s ((q, r) :: events) s₂

def registeredBy : Event Uuid → Multiset Service
  | (.registerService body, .registered (.created _)) => {body}
  | _ => 0

def registeredIn (events : List (Event Uuid)) : Multiset Service :=
  (events.map registeredBy).sum

section Replay

variable (g : Guard (RegistrarOp Uuid) (RegistrarEnv Uuid) (World Uuid))
  [∀ β e op s, Decidable (g β e op s)]

/-- The history in which the environment answers as `strat` says, the latest event first. -/
def replay (strat : World Uuid → RegistrarEnv Uuid) :
    List (Request Uuid) → World Uuid → Option (List (Event Uuid) × World Uuid)
  | [], s => some ([], s)
  | q :: qs, s =>
    match replay strat qs s with
    | none => none
    | some (events, s₁) =>
      match runBy g strat (handle q) s₁ with
      | none => none
      | some (r, s₂) => some ((q, r) :: events, s₂)

theorem history_of_replay {strat : World Uuid → RegistrarEnv Uuid} {qs : List (Request Uuid)}
    {s s' : World Uuid} {events : List (Event Uuid)}
    (h : replay g strat qs s = some (events, s')) : History g s events s' := by
  induction qs generalizing events s' with
  | nil =>
      simp only [replay, Option.some.injEq, Prod.mk.injEq] at h
      obtain ⟨rfl, rfl⟩ := h
      exact .nil
  | cons q qs ih =>
      simp only [replay] at h
      cases hqs : replay g strat qs s with
      | none => simp [hqs] at h
      | some past =>
          cases hq : runBy g strat (handle q) past.2 with
          | none => simp [hqs, hq] at h
          | some res =>
              simp only [hqs, hq, Option.some.injEq, Prod.mk.injEq] at h
              obtain ⟨rfl, rfl⟩ := h
              exact .step (ih hqs) (runs_of_runBy strat _ _ _ _ hq)

theorem requests_of_replay {strat : World Uuid → RegistrarEnv Uuid} {qs : List (Request Uuid)}
    {s s' : World Uuid} {events : List (Event Uuid)}
    (h : replay g strat qs s = some (events, s')) : events.map Prod.fst = qs := by
  induction qs generalizing events s' with
  | nil =>
      simp only [replay, Option.some.injEq, Prod.mk.injEq] at h
      rw [← h.1, List.map_nil]
  | cons q qs ih =>
      simp only [replay] at h
      cases hqs : replay g strat qs s with
      | none => simp [hqs] at h
      | some past =>
          cases hq : runBy g strat (handle q) past.2 with
          | none => simp [hqs, hq] at h
          | some res =>
              simp only [hqs, hq, Option.some.injEq, Prod.mk.injEq] at h
              rw [← h.1, List.map_cons, ih hqs]

omit [DecidableEq Uuid] [UuidFormat Uuid] [Rfc3339] in
theorem requests_all {P : Request Uuid → Prop} {qs : List (Request Uuid)}
    {events : List (Event Uuid)} (h : events.map Prod.fst = qs) (hP : ∀ q ∈ qs, P q) :
    ∀ e ∈ events, P e.1 := fun _ he => hP _ (h ▸ List.mem_map_of_mem he)

end Replay

inductive Node
  | a
  | b
  | c
  deriving DecidableEq, Inhabited

instance : UuidFormat Node where
  toText
    | .a => "550e8400-e29b-41d4-a716-446655440000"
    | .b => "6ba7b810-9dad-41d1-80b4-00c04fd430c8"
    | .c => "9f1c2e5a-3b7d-4c60-8a2e-d41f6b93e075"
  simple
    | .a => "550e8400e29b41d4a716446655440000"
    | .b => "6ba7b8109dad41d180b400c04fd430c8"
    | .c => "9f1c2e5a3b7d4c608a2ed41f6b93e075"
  parseStr t :=
    if t = "550e8400-e29b-41d4-a716-446655440000" then some .a
    else if t = "6ba7b810-9dad-41d1-80b4-00c04fd430c8" then some .b
    else if t = "9f1c2e5a-3b7d-4c60-8a2e-d41f6b93e075" then some .c
    else none
  parseStr_toText u := by cases u <;> decide
  simple_injective u u' h := by
    revert h
    cases u <;> cases u' <;> decide

/-- A node that has not been drawn, as long as there is one. -/
def Node.draw (issued : List Node) : Node :=
  if .a ∉ issued then .a else if .b ∉ issued then .b else .c

/-- Nothing fails; the clock says `now`, and `seen` while entries are looked at. -/
def calmEnv (now seen : DateTime) (s : World Node) : RegistrarEnv Node :=
  ⟨now, fun _ => seen, Node.draw s.issued, none, .error "lookup failed", default, .calm, .calm⟩

def smallConfig : Text := "frontend web\n    default_backend volunteers\nbackend volunteers\n"

def smallHaproxy : Haproxy := ⟨smallConfig, smallConfig, ∅, 0, false⟩

def blog : Service := ⟨"blog", "blog.org", "nginx", 80⟩

def wiki : Service := ⟨"wiki", "wiki.org", "wikijs", 3000⟩

def joins (hostname : Text) (port : UInt16) : EnrollRequest :=
  ⟨⟨hostname, "Linux", "x86_64", 4, "i5", 8192, 100, "27.0", "1.0", []⟩, port⟩

/-- The epoch is written as it should be, any other point in time in signed unary. -/
instance : Rfc3339 where
  toRfc3339
    | .ofNat 0 => "1970-01-01T00:00:00+00:00"
    | .ofNat (n + 1) => '+' :: List.replicate n '0'
    | .negSucc n => '-' :: List.replicate n '0'
  parse
    | '+' :: ds => some (.ofNat (ds.length + 1))
    | '-' :: ds => some (.negSucc ds.length)
    | ds => if ds = "1970-01-01T00:00:00+00:00" then some 0 else none
  parse_toRfc3339
    | .ofNat 0 => by decide
    | .ofNat (n + 1) => by simp
    | .negSucc n => by simp

end Registrar
end OpenShard
