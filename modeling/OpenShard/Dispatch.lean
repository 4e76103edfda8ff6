import OpenShard.Ledger

/-!
# Dispatch

The handler of `dispatch.rs`: a request is forwarded to the live volunteer of the highest weight. The
map is looked at once; while the body is read and the volunteer answers, other requests are served. What
the HTTP client makes of a request that it is handed, redirects included, is one exchange.
-/

namespace OpenShard.Registrar

open Future

structure HttpRequest where
  method : Text
  pathAndQuery : Option Text

inductive Body
  | empty
  | text (t : Text)
  | bytes (bs : List UInt8)
  deriving DecidableEq

structure HttpResponse where
  status : ℕ
  body : Body
  deriving DecidableEq

/-- The status of an answer and its body, where that could be read; nothing where sending failed. -/
abbrev Relayed := Option (ℕ × Option (List UInt8))

inductive DispatchOp (Uuid : Type) : Type → Type
  | activeVolunteers : DispatchOp Uuid (List (VolunteerState Uuid))
  | readBody : DispatchOp Uuid (Option (List UInt8))
  | send (method url : Text) (body : List UInt8) : DispatchOp Uuid Relayed

structure Exchange where
  method : Text
  url : Text
  body : List UInt8
  answer : Relayed
  deriving DecidableEq

/-- `meanwhile` is the registrar after the step, other requests having been served. -/
structure DispatchEnv (Uuid : Type) where
  order : IterOrder (VolunteerState Uuid)
  clock : Uuid → DateTime
  body : Option (List UInt8)
  answer : Relayed
  meanwhile : World Uuid

instance {Uuid : Type} [DecidableEq Uuid] :
    Machine (DispatchOp Uuid) (DispatchEnv Uuid) (World Uuid × List Exchange) where
  exec
    | e, .activeVolunteers, s => some (activeVolunteers e.order e.clock s.1.volunteers, s)
    | e, .readBody, s => some (e.body, (e.meanwhile, s.2))
    | e, .send method url body, s =>
      some (e.answer, (e.meanwhile, s.2 ++ [⟨method, url, body, e.answer⟩]))

variable {Uuid : Type}

def relay : Relayed → HttpResponse
  | some (status, body) => ⟨status, .bytes (body.getD [])⟩
  | none => ⟨502, .empty⟩

def dispatch (req : HttpRequest) : Future (DispatchOp Uuid) HttpResponse := do
  match ← perform .activeVolunteers with
  | [] => return ⟨503, .text "No volunteers available"⟩
  | volunteer :: _ =>
    let url := "http://" ++ volunteer.info.serviceAddr ++ req.pathAndQuery.getD "/"
    match ← perform .readBody with
    | none => return ⟨500, .empty⟩
    | some bodyBytes => return relay (← perform (.send req.method url bodyBytes))

section Choice

variable [DecidableEq Uuid] {order : IterOrder (VolunteerState Uuid)} {clock : Uuid → DateTime}
  {map : Table Uuid (VolunteerState Uuid)}

omit [DecidableEq Uuid] in
theorem weight_le_of_activeVolunteers {v w : VolunteerState Uuid} {vs : List (VolunteerState Uuid)}
    (h : activeVolunteers order clock map = v :: vs) (hw : w ∈ activeVolunteers order clock map) :
    w.metrics.weight ≤ v.metrics.weight := by
  have htotal : Std.Total fun a b : VolunteerState Uuid => b.metrics.weight ≤ a.metrics.weight :=
    ⟨fun a b => UInt32.le_total b.metrics.weight a.metrics.weight⟩
  have htrans : IsTrans (VolunteerState Uuid) fun a b => b.metrics.weight ≤ a.metrics.weight :=
    ⟨fun _ _ _ hab hbc => UInt32.le_trans hbc hab⟩
  have hsorted : (activeVolunteers order clock map).Pairwise
      fun a b => b.metrics.weight ≤ a.metrics.weight := List.pairwise_insertionSort _ _
  rw [h] at hsorted hw
  rcases List.mem_cons.1 hw with rfl | hw
  · exact UInt32.le_refl _
  · exact (List.pairwise_cons.1 hsorted).1 w hw

end Choice

def looksWithin (start finish : DateTime) :
    Guard (DispatchOp Uuid) (DispatchEnv Uuid) (World Uuid × List Exchange) :=
  fun _ e _ _ => ∀ id, start ≤ e.clock id ∧ e.clock id ≤ finish

section Runs

variable [DecidableEq Uuid] {start finish : DateTime} {s s' : World Uuid} {sent : List Exchange}
  {req : HttpRequest} {resp : HttpResponse}

/-- All that `dispatch` can do. -/
theorem dispatch_run
    (h : Runs (looksWithin start finish) (dispatch req) (s, []) resp (s', sent)) :
    ∃ order clock, (∀ id, start ≤ clock id ∧ clock id ≤ finish) ∧
      ((activeVolunteers order clock s.volunteers = [] ∧ sent = [] ∧
          resp = ⟨503, .text "No volunteers available"⟩) ∨
        ∃ v vs, activeVolunteers order clock s.volunteers = v :: vs ∧
          ((sent = [] ∧ resp = ⟨500, .empty⟩) ∨
            ∃ body answer, resp = relay answer ∧ sent = [⟨req.method,
              "http://" ++ v.info.serviceAddr ++ req.pathAndQuery.getD "/", body, answer⟩])) := by
  rw [dispatch, runs_bind] at h
  obtain ⟨active, s₁, hactive, h⟩ := h
  obtain ⟨e, hclock, heq⟩ := (runs_perform _ _ _ _).1 hactive
  obtain ⟨rfl, rfl⟩ := Prod.mk.inj (Option.some.inj heq)
  refine ⟨e.order, e.clock, hclock, ?_⟩
  cases hlist : activeVolunteers e.order e.clock s.volunteers with
  | nil =>
      simp only [hlist] at h
      obtain ⟨rfl, heq'⟩ := (runs_pure _ _ _ _).1 h
      exact .inl ⟨rfl, (Prod.mk.inj heq').2, rfl⟩
  | cons v vs =>
      simp only [hlist] at h
      refine .inr ⟨v, vs, rfl, ?_⟩
      rw [runs_bind] at h
      obtain ⟨body, s₂, hbody, h⟩ := h
      obtain ⟨e', -, heq'⟩ := (runs_perform _ _ _ _).1 hbody
      obtain ⟨rfl, rfl⟩ := Prod.mk.inj (Option.some.inj heq')
      cases hread : e'.body with
      | none =>
          simp only [hread] at h
          obtain ⟨rfl, heq''⟩ := (runs_pure _ _ _ _).1 h
          exact .inl ⟨(Prod.mk.inj heq'').2, rfl⟩
      | some bytes =>
          simp only [hread] at h
          rw [runs_bind] at h
          obtain ⟨answer, s₃, hsend, h⟩ := h
          obtain ⟨e'', -, heq''⟩ := (runs_perform _ _ _ _).1 hsend
          obtain ⟨rfl, rfl⟩ := Prod.mk.inj (Option.some.inj heq'')
          obtain ⟨rfl, heq'''⟩ := (runs_pure _ _ _ _).1 h
          exact .inr ⟨bytes, e''.answer, rfl, (Prod.mk.inj heq''').2⟩

variable [UuidFormat Uuid] [Rfc3339]
  {g : Guard (RegistrarOp Uuid) (RegistrarEnv Uuid) (World Uuid)}

/-- The volunteer was heard within the timeout, and none that was weighs more. -/
structure Ledger.Best (L : Ledger Uuid) (start finish : DateTime) (id : Uuid) (σ : Sighting) :
    Prop where
  known : L id = some σ
  heard : start - σ.finish < heartbeatTimeout
  heaviest : ∀ id' σ', L id' = some σ' → finish - σ'.start < heartbeatTimeout →
    σ'.metrics.weight ≤ σ.metrics.weight

omit [UuidFormat Uuid] [Rfc3339] in
theorem Ledger.Agrees.best [UuidFormat Uuid] {L : Ledger Uuid} (h : L.Agrees s)
    {order : IterOrder (VolunteerState Uuid)} {clock : Uuid → DateTime}
    (hclock : ∀ id, start ≤ clock id ∧ clock id ≤ finish) {v : VolunteerState Uuid}
    {vs : List (VolunteerState Uuid)} (hv : activeVolunteers order clock s.volunteers = v :: vs) :
    ∃ σ, L.Best start finish v.id σ ∧ σ.Describes v.id v := by
  have hmem : v ∈ activeVolunteers order clock s.volunteers := hv ▸ List.mem_cons_self
  obtain ⟨⟨key, hkey⟩, halive⟩ := mem_activeVolunteers.1 hmem
  obtain rfl := h.keyed key v hkey
  obtain ⟨σ, hσ, hdesc⟩ := h.sighting hkey
  refine ⟨σ, ⟨hσ, ?_, fun id' σ' hσ' hheard => ?_⟩, hdesc⟩
  · by_contra hlate
    have hdead : v.isAlive (clock v.id) = false := by
      refine isAlive_eq_false_iff.2 ?_
      have hlast := hdesc.finish
      have hnow := (hclock v.id).1
      unfold DateTime at *
      omega
    rw [hdead] at halive
    cases halive
  · obtain ⟨w, hw, hdesc'⟩ := h.volunteer hσ'
    have halive' : w.isAlive (clock w.id) = true := by
      by_contra hdead
      have hlate := isAlive_eq_false_iff.1 (Bool.not_eq_true _ ▸ hdead)
      have hlast := hdesc'.start
      have hnow := (hclock w.id).2
      unfold DateTime at *
      omega
    have hle := weight_le_of_activeVolunteers hv (mem_activeVolunteers.2 ⟨⟨id', hw⟩, halive'⟩)
    rwa [hdesc'.metrics, hdesc.metrics] at hle

/-- From an empty start and with operations completed one after another, between two starts, the handler
hands a request at most once to the HTTP client, for the port reported last by a volunteer heard within
the timeout, no volunteer heard within the timeout having reported a lower load; and without a volunteer
it answers 503, only when none has been heard for the timeout. -/
theorem dispatch_forwards {h : Haproxy} {os : List (Occurrence Uuid)}
    (ht : Timeline g (World.initial h) os s)
    (run : Runs (looksWithin start finish) (dispatch req) (s, []) resp (s', sent)) :
    (resp = ⟨503, .text "No volunteers available"⟩ ∧ sent = [] ∧
        ∀ id σ, ledger os id = some σ → heartbeatTimeout ≤ finish - σ.start) ∨
      ∃ id σ, (ledger os).Best start finish id σ ∧
        ((resp = ⟨500, .empty⟩ ∧ sent = []) ∨
          ∃ body answer, ∃ host : Text, resp = relay answer ∧ sent = [⟨req.method,
            "http://" ++ (host ++ ":" ++ Text.ofNat σ.port.toNat) ++ req.pathAndQuery.getD "/",
            body, answer⟩]) := by
  have hagrees := ht.agrees
  obtain ⟨order, clock, hclock, hrun⟩ := dispatch_run run
  rcases hrun with ⟨hnone, hsent, hresp⟩ | ⟨v, vs, hv, hrest⟩
  · refine .inl ⟨hresp, hsent, fun id σ hσ => ?_⟩
    obtain ⟨w, hw, hdesc⟩ := hagrees.volunteer hσ
    have hdead : w.isAlive (clock w.id) = false := by
      by_contra halive
      have hmem : w ∈ activeVolunteers order clock s.volunteers :=
        mem_activeVolunteers.2 ⟨⟨id, hw⟩, by simpa using halive⟩
      rw [hnone] at hmem
      cases hmem
    have hlate := isAlive_eq_false_iff.1 hdead
    have hlast := hdesc.start
    have hnow := (hclock w.id).2
    unfold DateTime at *
    omega
  · obtain ⟨σ, hbest, hdesc⟩ := hagrees.best hclock hv
    refine .inr ⟨v.id, σ, hbest, ?_⟩
    rcases hrest with ⟨hsent, hresp⟩ | ⟨body, answer, hresp, hsent⟩
    · exact .inl ⟨hresp, hsent⟩
    · obtain ⟨host, hinfo⟩ := hdesc.info
      refine .inr ⟨body, answer, host, hresp, ?_⟩
      rw [hsent, hinfo]

end Runs

section Example

theorem dispatch_sends [DecidableEq Uuid] {s : World Uuid} {order : IterOrder (VolunteerState Uuid)}
    {clock : Uuid → DateTime} {start finish : DateTime}
    (hclock : ∀ id, start ≤ clock id ∧ clock id ≤ finish) (req : HttpRequest)
    (body : List UInt8) (answer : Relayed) {v : VolunteerState Uuid} {vs : List (VolunteerState Uuid)}
    (hv : activeVolunteers order clock s.volunteers = v :: vs) :
    ∃ sent, Runs (looksWithin start finish) (dispatch req) (s, []) (relay answer) (s, sent) ∧
      sent ≠ [] := by
  -- one environment serves all three steps
  have hsteps : ∀ {β : Type} {op : DispatchOp Uuid β} {σ σ' : World Uuid × List Exchange} {c : β},
      Machine.exec (⟨order, clock, some body, answer, s⟩ : DispatchEnv Uuid) op σ = some (c, σ') →
        Runs (looksWithin start finish) (perform op) σ c σ' :=
    fun he => (runs_perform _ _ _ _).2 ⟨⟨order, clock, some body, answer, s⟩, hclock, he⟩
  refine ⟨[] ++ [⟨req.method, "http://" ++ v.info.serviceAddr ++ req.pathAndQuery.getD "/", body,
    answer⟩], ?_, by simp⟩
  rw [dispatch, runs_bind]
  refine ⟨_, _, hsteps rfl, ?_⟩
  simp only [hv]
  rw [runs_bind]
  refine ⟨_, _, hsteps rfl, ?_⟩
  dsimp only
  rw [runs_bind]
  exact ⟨_, _, hsteps rfl, (runs_pure _ _ _ _).2 ⟨rfl, rfl⟩⟩

def twoLoads : List (Request Node × DateTime) :=
  [(.heartbeat ⟨.b, 40.0, 20.0, 0.5, 7, some false, none⟩, 0),
    (.heartbeat ⟨.a, 10.0, 20.0, 0.5, 3, some false, none⟩, 0),
    (.enroll (joins "volunteer-102" 7002), 0), (.enroll (joins "volunteer-101" 7001), 0)]

/-- A second later a request is dispatched, and reaches the best of them. -/
theorem dispatch_forwards_get : ∃ os s resp s' sent,
    Timeline unhindered (World.initial smallHaproxy) os s ∧
      (ledger os Node.a).map (·.metrics.activeRequests) = some 3 ∧
      (ledger os Node.b).map (·.metrics.activeRequests) = some 7 ∧
      Runs (looksWithin 1000000000 1000000000) (dispatch ⟨"GET", none⟩) (s, []) resp (s', sent) ∧
      ∃ (id : Node) (σ : Sighting), (ledger os).Best 1000000000 1000000000 id σ ∧
        ∃ body answer, ∃ host : Text, sent = [⟨"GET",
          "http://" ++ (host ++ ":" ++ Text.ofNat σ.port.toNat) ++ "/", body, answer⟩] := by
  obtain ⟨os, s, ht, hp⟩ := @timeline_any twoLoads (World.initial smallHaproxy)
    (fun r => (ledger r.1 .a).map (·.metrics.activeRequests) = some 3 &&
      (ledger r.1 .b).map (·.metrics.activeRequests) = some 7 &&
      (r.2.volunteers.lookup .a).any (·.isAlive 1000000000)) (by simp [twoLoads]) (by decide +kernel)
  simp only [Bool.and_eq_true, decide_eq_true_eq] at hp
  obtain ⟨⟨ha, hb⟩, halive⟩ := hp
  obtain ⟨v, hv, hvalive⟩ := (Option.any_eq_true _ _).1 halive
  have hmem : v ∈ activeVolunteers default (fun _ => 1000000000) s.volunteers :=
    mem_activeVolunteers.2 ⟨⟨.a, hv⟩, hvalive⟩
  obtain ⟨first, rest, hactive⟩ := List.exists_cons_of_ne_nil (List.ne_nil_of_mem hmem)
  obtain ⟨sent, run, hsent⟩ := dispatch_sends (fun _ => ⟨le_refl _, le_refl _⟩) ⟨"GET", none⟩ []
    (some (200, none)) hactive
  refine ⟨os, s, _, s, sent, ht, ha, hb, run, ?_⟩
  rcases dispatch_forwards ht run with ⟨-, hnone, -⟩ | ⟨id, σ, hbest, hforward⟩
  · exact absurd hnone hsent
  · rcases hforward with ⟨-, hnone⟩ | ⟨body, answer, host, -, hexchange⟩
    · exact absurd hnone hsent
    · exact ⟨id, σ, hbest, body, answer, host, hexchange⟩

end Example

end OpenShard.Registrar
