import OpenShard.Healing

/-!
# The weights

How HAProxy splits the visitors of `volunteers`. From an empty start, whatever is requested and however
reloads and restarts of HAProxy drop servers and heartbeats bring them back, a server that is there has
the weight of the load that its volunteer reported last, or the weight it enrolled with if it has not
reported one.
-/

namespace OpenShard.Registrar

open HaproxyManager

section Steps

variable {Uuid : Type}

/-- The weight of a server is that of the last report, or the first one before any. -/
def Reflects (v : VolunteerState Uuid) (sv : Server) : Prop :=
  sv.weight = v.metrics.weight ∨ v.metrics = ⟨0.0, 0.0, 0.0, 0⟩ ∧ sv.weight = 100

theorem Reflects.same {v w : VolunteerState Uuid} {sv sv' : Server} (h : Reflects v sv)
    (hmetrics : w.metrics = v.metrics) (hweight : sv'.weight = sv.weight) : Reflects w sv' := by
  unfold Reflects
  rw [hmetrics, hweight]
  exact h

variable [DecidableEq Uuid] [UuidFormat Uuid]

def Weighed (s : World Uuid) : Prop :=
  ∀ id v sv, s.volunteers.lookup id = some v →
    s.haproxy.servers.lookup (volunteers, serverNameFor id) = some sv → Reflects v sv

variable {s s' : World Uuid} {h h' : Haproxy}

theorem Weighed.shaken (hs : Weighed s) (hshaken : Shaken s.haproxy h) :
    Weighed { s with haproxy := h } := by
  intro id v sv hv hsv
  have hserver : h.servers.lookup (volunteers, serverNameFor id) = some sv := hsv
  rcases hshaken.servers with hkept | hgone
  · rw [hkept] at hserver
    exact hs id v sv hv hserver
  · rw [hgone] at hserver
    cases hserver

theorem Weighed.write (hs : Weighed s) (h : Haproxy) {id : Uuid} {v : VolunteerState Uuid}
    (hother : ∀ n, n ≠ serverNameFor id →
      h.servers.lookup (volunteers, n) = s.haproxy.servers.lookup (volunteers, n))
    (hown : ∀ sv, h.servers.lookup (volunteers, serverNameFor id) = some sv → Reflects v sv)
    {db : Db} : Weighed { s with volunteers := s.volunteers.insert id v, db := db, haproxy := h } := by
  intro key w sv hw hsv
  have hlookup : (s.volunteers.insert id v).lookup key = some w := hw
  have hserver : h.servers.lookup (volunteers, serverNameFor key) = some sv := hsv
  rw [Table.lookup_insert_if] at hlookup
  split_ifs at hlookup with hkey
  · obtain rfl := Option.some.inj hlookup
    exact hown sv (hkey ▸ hserver)
  · rw [hother _ fun heq => hkey (serverNameFor_injective heq)] at hserver
    exact hs key w sv hlookup hserver

theorem Weighed.setServer (hs : Weighed s) {id : Uuid} {v : VolunteerState Uuid} {sv : Server}
    (hsv : Reflects v sv) {db : Db} :
    Weighed { s with
      volunteers := s.volunteers.insert id v
      db := db
      haproxy := s.haproxy.setServer (volunteers, serverNameFor id) sv } := by
  refine hs.write _ (fun n hn => ?_) fun sv' hsv' => ?_
  · rw [Haproxy.lookup_setServer, if_neg fun heq => hn (Prod.mk.inj heq).2]
  · rw [Haproxy.lookup_setServer_self] at hsv'
    exact Option.some.inj hsv' ▸ hsv

theorem Weighed.altered (hs : Weighed s) {id : Uuid} {v : VolunteerState Uuid}
    (w : VolunteerState Uuid) (hv : s.volunteers.lookup id = some v) (hmetrics : w.metrics = v.metrics)
    {db : Db} : Weighed { s with volunteers := s.volunteers.insert id w, db := db } :=
  hs.write s.haproxy (fun _ _ => rfl) fun sv hsv => (hs id v sv hv hsv).same hmetrics rfl

theorem Weighed.erase (hs : Weighed s) {id : Uuid} {db : Db} :
    Weighed { s with
      volunteers := s.volunteers.erase id
      db := db
      haproxy := { s.haproxy with
        servers := s.haproxy.servers.erase (volunteers, serverNameFor id) } } := by
  intro key v sv hv hsv
  have hlookup : (s.volunteers.erase id).lookup key = some v := hv
  have hserver : (s.haproxy.servers.erase (volunteers, serverNameFor id)).lookup
      (volunteers, serverNameFor key) = some sv := hsv
  rw [Table.lookup_erase_if] at hlookup hserver
  split_ifs at hlookup hserver
  exact hs key v sv hlookup hserver

omit [DecidableEq Uuid] in
/-- After a heartbeat the server is not there, or has the reported weight; the others are as before. -/
theorem Weighted.server {v : VolunteerState Uuid} {weight : UInt32}
    (hw : Weighted commandsAnswered s v weight h) (hb : hasBackend s.haproxy.loaded volunteers) :
    (∀ n, n ≠ serverNameFor v.id →
      h.servers.lookup (volunteers, n) = s.haproxy.servers.lookup (volunteers, n)) ∧
      ∀ sv, h.servers.lookup (volunteers, serverNameFor v.id) = some sv → sv.weight = weight := by
  have hset : ∀ sv, (∀ n, n ≠ serverNameFor v.id →
      (s.haproxy.setServer (volunteers, serverNameFor v.id) sv).servers.lookup (volunteers, n) =
        s.haproxy.servers.lookup (volunteers, n)) := by
    intro sv n hn
    rw [Haproxy.lookup_setServer, if_neg fun heq => hn (Prod.mk.inj heq).2]
  have hown : ∀ sv, sv.weight = weight → ∀ sv',
      (s.haproxy.setServer (volunteers, serverNameFor v.id) sv).servers.lookup
        (volunteers, serverNameFor v.id) = some sv' → sv'.weight = weight := by
    intro sv hweight sv' hsv'
    rw [Haproxy.lookup_setServer_self] at hsv'
    rw [← Option.some.inj hsv', hweight]
  cases hsv : s.haproxy.servers.lookup (volunteers, serverNameFor v.id) with
  | some sv =>
      cases hw with
      | weighed hh =>
          have hcalm := calm_of_commands ((uses_setWeight _ _ _).mono isCommand_of_commandTo) hh
          rw [calm_setWeight, weighed_of_lookup hb hsv] at hcalm
          obtain ⟨-, rfl⟩ := Prod.mk.inj (Option.some.inj hcalm)
          exact ⟨hset _, hown _ rfl⟩
      | readded hh _ =>
          have hcalm := calm_of_commands ((uses_setWeight _ _ _).mono isCommand_of_commandTo) hh
          rw [calm_setWeight, weighed_of_lookup hb hsv] at hcalm
          simp at hcalm
  | none =>
      rcases hw.eq hb with rfl | ⟨sv', hsv', -⟩ | rfl
      · refine ⟨fun _ _ => rfl, fun sv hsv' => ?_⟩
        rw [hsv] at hsv'
        cases hsv'
      · rw [hsv] at hsv'
        cases hsv'
      · exact ⟨hset _, hown _ rfl⟩

variable [Rfc3339]

theorem Attached.weighed {id : Uuid} {addr : Text} {now : DateTime}
    {existing a : Option ServiceAssignment} (hs : Weighed s) (haddr : ':' ∈ addr)
    (hattached : Attached commandsAnswered s id addr now existing a s') : Weighed s' := by
  cases hattached with
  | reattached hh _ => exact hs.shaken (assignService_shaken haddr hh)
  | taken _ hh _ => exact hs.shaken (assignService_shaken haddr hh)
  | refused _ hh => exact hs.shaken (assignService_shaken haddr hh)
  | nothingPending _ => exact hs

theorem Enrolled.weighed {body : EnrollRequest} {r : EnrollResponse} (hhealthy : Healthy s)
    (hs : Weighed s) (henrolled : Enrolled commandsAnswered s body r s') : Weighed s' := by
  cases henrolled with
  | @mk existingId existing a id addr now s₁ s₂ db res hap haddr _ _ hident hattached _ hh =>
      have hs₁ : Healthy s₁ ∧ Weighed s₁ := by
        cases hident with
        | known id => exact ⟨hhealthy, hs⟩
        | issued _ =>
            exact ⟨⟨hhealthy.keyed, hhealthy.addressed, hhealthy.file, hhealthy.loaded,
              hhealthy.servers⟩, hs⟩
      have hloaded := (hattached.healthy hs₁.1 haddr).loaded
      have hs₂ := hattached.weighed hs₁.2 haddr
      have hcalm := calm_of_commands ((uses_upsertServer _ _ _ _).mono isCommand_of_commandTo) hh
      rw [calm_upsertServer _ _ _ haddr, if_pos hloaded] at hcalm
      obtain ⟨-, rfl⟩ := Prod.mk.inj (Option.some.inj hcalm)
      exact @Weighed.setServer _ _ _ s₂ hs₂ id (enrolled body id addr now a) ⟨addr, 100, .ready⟩
        (.inr ⟨rfl, rfl⟩) db

theorem Beaten.weighed {body : HeartbeatRequest Uuid} {r : HeartbeatReply} (hhealthy : Healthy s)
    (hs : Weighed s) (hbeaten : Beaten commandsAnswered s body r s') : Weighed s' := by
  cases hbeaten with
  | unknown hno => exact hs
  | @known v now db h hv _ hw =>
      have hid : (v.beat now body).id = body.volunteerId := hhealthy.keyed _ v hv
      obtain ⟨hother, hown⟩ := hw.server hhealthy.loaded
      rw [hid] at hother hown
      exact hs.write h hother fun sv hsv => .inl (hown sv hsv)

theorem Moved.weighed {idStr : Text} {r : VolunteerReply} (hhealthy : Healthy s) (hs : Weighed s)
    (hmoved : Moved commandsAnswered s idStr r s') : Weighed s' := by
  cases hmoved with
  | badRequest => exact hs
  | unknown => exact hs
  | @known id v addr db r h _ haddr hv _ _ _ hh =>
      have hsvc : ∀ x ∈ svcInfo v addr, ':' ∈ x.2 := by
        intro x hx
        obtain ⟨a, -, rfl⟩ := Option.map_eq_some_iff.1 hx
        exact haddr
      have hcalm := calm_of_commands (uses_updateVolunteerAddr _ _ _) hh
      rw [calm_updateVolunteerAddr _ _ haddr hsvc, retargeted, if_pos hhealthy.loaded] at hcalm
      cases hsv : s.haproxy.servers.lookup (volunteers, serverNameFor id) with
      | none =>
          simp only [hsv] at hcalm
          obtain ⟨-, rfl⟩ := Prod.mk.inj (Option.some.inj hcalm)
          exact hs.altered (v.moveTo addr) hv rfl
      | some sv =>
          simp only [hsv] at hcalm
          have hmoved : Reflects (v.moveTo addr) ⟨addr, sv.weight, .ready⟩ :=
            (hs id v sv hv hsv).same rfl rfl
          have hmain := @Weighed.setServer _ _ _ s hs id (v.moveTo addr) _ hmoved db
          generalize svcInfo v addr = svc at hsvc hcalm
          cases svc with
          | none =>
              obtain ⟨-, rfl⟩ := Prod.mk.inj (Option.some.inj hcalm)
              exact hmain
          | some x =>
              simp only [retargeted] at hcalm
              split_ifs at hcalm
              · split at hcalm
                · obtain ⟨-, rfl⟩ := Prod.mk.inj (Option.some.inj hcalm)
                  exact hmain
                · obtain ⟨-, rfl⟩ := Prod.mk.inj (Option.some.inj hcalm)
                  exact hmain.shaken (shaken_setServer _ (serviceBackend_ne_volunteers _) _)
              · obtain ⟨-, rfl⟩ := Prod.mk.inj (Option.some.inj hcalm)
                exact hmain

theorem Removed.weighed {id : Uuid} (hhealthy : Healthy s) (hs : Weighed s)
    (hremoved : Removed commandsAnswered s id s') : Weighed s' := by
  cases hremoved with
  | mk _ _ hh =>
      have hcalm := calm_of_commands ((uses_removeVolunteer _ _).mono isCommand_of_commandTo) hh
      obtain ⟨r', hr'⟩ := @calm_removeVolunteer Uuid _ s.haproxy volunteers id hhealthy.loaded
      obtain ⟨-, rfl⟩ := Prod.mk.inj (Option.some.inj (hr'.symm.trans hcalm))
      exact hs.erase

theorem Evicted.weighed {id : Uuid} {a : Option ServiceAssignment} (hhealthy : Healthy s)
    (hs : Weighed s) (hevicted : Evicted commandsAnswered s id a s') : Weighed s' := by
  cases hevicted with
  | free hremoved => exact hremoved.weighed hhealthy hs
  | serving hremoved _ =>
      have hs₁ := hremoved.weighed hhealthy hs
      exact hs₁

theorem EvictedAll.weighed {dead : List (Uuid × Option ServiceAssignment)} (hhealthy : Healthy s)
    (hs : Weighed s) (hall : EvictedAll commandsAnswered dead s s') : Weighed s' := by
  induction hall with
  | nil s => exact hs
  | cons hd _ ih => exact ih (hd.healthy hhealthy) (hd.weighed hhealthy hs)

theorem Registered.weighed {body : Service} {r : RegisterReply} (hhealthy : Healthy s)
    (hs : Weighed s) (hregistered : Registered commandsAnswered s body r s') : Weighed s' := by
  cases hregistered with
  | @assigned key v now h db hv _ hh _ =>
      have hs₁ := hs.shaken (assignService_shaken (hhealthy.addressed key v hv) hh)
      have hlookup : ({ s with haproxy := h, db := db } : World Uuid).volunteers.lookup v.id =
          some v := by
        rw [hhealthy.keyed key v hv]
        exact hv
      rw [World.alterVolunteer_of_lookup hlookup]
      exact @Weighed.altered _ _ _ { s with haproxy := h } hs₁ v.id v
        (v.assign (Service.assignment body now)) hlookup rfl db
  | refused hv _ hh => exact hs.shaken (assignService_shaken (hhealthy.addressed _ _ hv) hh)
  | queued => exact hs

theorem Effect.weighed {q : Request Uuid} {r : Reply Uuid} (hhealthy : Healthy s) (hs : Weighed s)
    (hq : q ≠ .restart) (heffect : Effect commandsAnswered s q r s') : Weighed s' := by
  cases heffect with
  | enroll h => exact h.weighed hhealthy hs
  | heartbeat h => exact h.weighed hhealthy hs
  | updateTunnelPort h => exact h.weighed hhealthy hs
  | disconnect h =>
      cases h with
      | badRequest => exact hs
      | unknown _ hno hs' =>
          rw [Table.erase_of_lookup_none hno] at hs'
          exact hs' ▸ hs
      | gone _ _ hremoved => exact hremoved.weighed hhealthy hs
  | registerService h => exact h.weighed hhealthy hs
  | churn _ h => exact h.weighed hhealthy hs
  | restart _ => exact absurd rfl hq

/-- From an empty start and with operations completed one after another, HAProxy being restarted at any
points between them but the registrar not, each server of `volunteers` belongs to a volunteer in the map
and has the weight of the load it reported last, or the first weight if it has reported none since it
enrolled. -/
theorem weights_follow_load {h : Haproxy} (hfile : hasBackend h.file volunteers)
    (hloaded : hasBackend h.loaded volunteers)
    (hnone : ∀ n, h.servers.lookup (volunteers, n) = none) {events : List (Event Uuid)}
    (course : Course commandsAnswered (World.initial h) events s)
    (hevents : ∀ e ∈ events, e.1 ≠ .restart) {n : Text} {sv : Server}
    (hsv : s.haproxy.servers.lookup (volunteers, n) = some sv) :
    ∃ v, s.volunteers.lookup v.id = some v ∧ n = serverNameFor v.id ∧
      (sv.weight = v.metrics.weight ∨ v.metrics = ⟨0.0, 0.0, 0.0, 0⟩ ∧ sv.weight = 100) := by
  have hinit := @healthy_initial Uuid _ _ h hfile hloaded hnone
  have hweighed : Weighed s := by
    clear hsv
    induction course with
    | nil =>
        intro id v sv hv
        simp [World.initial] at hv
    | step past run ih =>
        have hpast := ih fun e he => hevents e (List.mem_cons_of_mem _ he)
        have hhealthy := past.healthy hinit fun e he => hevents e (List.mem_cons_of_mem _ he)
        exact (handle_run run).weighed hhealthy hpast (hevents _ List.mem_cons_self)
    | haproxyRestart past ih => exact (ih hevents).shaken (shaken_reload _)
  obtain ⟨id, v, rfl, hv, -⟩ := (course.healthy hinit hevents).servers n sv hsv
  obtain rfl := (course.healthy hinit hevents).keyed id v hv
  exact ⟨v, hv, rfl, hweighed v.id v sv hv hsv⟩

end Steps

def bothReport : List (Request Node) :=
  [.heartbeat ⟨.b, 40.0, 20.0, 0.5, 7, some false, none⟩,
    .heartbeat ⟨.a, 10.0, 20.0, 0.5, 3, some false, none⟩,
    .enroll (joins "volunteer-102" 7002), .enroll (joins "volunteer-101" 7001)]

def hasReported (s : World Node) (id : Node) (requests : UInt32) : Bool :=
  (s.volunteers.lookup id).any (·.metrics.activeRequests = requests) &&
    (s.haproxy.servers.lookup (volunteers, serverNameFor id)).isSome

theorem weights_follow_load_enrolled : ∃ (events : List (Event Node)) (s : World Node),
    Course commandsAnswered (World.initial smallHaproxy) events s ∧
      events.map Prod.fst = bothReport ∧
      ∀ p ∈ [(Node.a, (3 : UInt32)), (Node.b, 7)], ∃ v sv, s.volunteers.lookup p.1 = some v ∧
        v.metrics.activeRequests = p.2 ∧
        s.haproxy.servers.lookup (volunteers, serverNameFor p.1) = some sv ∧
        sv.weight = v.metrics.weight := by
  have hsome : (replay commandsAnswered (calmEnv 0 0) bothReport (World.initial smallHaproxy)).any
      fun r => hasReported r.2 .a 3 && hasReported r.2 .b 7 := by
    decide +kernel
  obtain ⟨⟨events, s⟩, hreplay, hboth⟩ := (Option.any_eq_true _ _).1 hsome
  have hrequests := requests_of_replay commandsAnswered hreplay
  have hcourse := course_of_history (history_of_replay commandsAnswered hreplay)
  have hevents : ∀ e ∈ events, e.1 ≠ .restart :=
    @requests_all Node (· ≠ .restart) _ _ hrequests (by simp [bothReport])
  refine ⟨events, s, hcourse, hrequests, fun p hp => ?_⟩
  have hreported : hasReported s p.1 p.2 ∧ p.2 ≠ 0 := by
    rw [Bool.and_eq_true] at hboth
    rcases List.mem_cons.1 hp with rfl | hp
    · exact ⟨hboth.1, by decide⟩
    · rw [List.mem_singleton.1 hp]
      exact ⟨hboth.2, by decide⟩
  obtain ⟨hreported, hnone⟩ := hreported
  rw [hasReported, Bool.and_eq_true] at hreported
  obtain ⟨v, hv, hrequests'⟩ := (Option.any_eq_true _ _).1 hreported.1
  obtain ⟨sv, hsv⟩ := Option.isSome_iff_exists.1 hreported.2
  obtain ⟨w, hw, hname, hweight⟩ :=
    weights_follow_load (by decide) (by decide) (fun n => rfl) hcourse hevents hsv
  obtain rfl : v = w := by
    rw [serverNameFor_injective hname] at hv
    exact Option.some.inj (hv.symm.trans hw)
  have hcount : v.metrics.activeRequests = p.2 := of_decide_eq_true hrequests'
  refine ⟨v, sv, hv, hcount, hsv, hweight.resolve_right ?_⟩
  rintro ⟨hzero, -⟩
  rw [hzero] at hcount
  exact hnone hcount.symm

end OpenShard.Registrar
