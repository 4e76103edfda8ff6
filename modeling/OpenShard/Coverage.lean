import OpenShard.Conservation
import OpenShard.Placement

/-!
# Assigned services stay routed

The first assignment of a service writes its backend and reloads HAProxy, which drops the server of
every other service, and no heartbeat brings one of those back. As long as HAProxy is only reloaded
while no volunteer holds a service, every service that is held is routed to its volunteer.
-/

namespace OpenShard

namespace HaproxyManager

open Future

variable {h h' : Haproxy} {serviceName addr : Text} {r : Except Error Unit}

theorem generation_alter (h : Haproxy) (k : ServerKey) (f : Server → Server) :
    (h.alter k f).2.generation = h.generation := by
  rw [Haproxy.alter]
  split_ifs
  · cases h.servers.lookup k with
    | none => rfl
    | some sv => rfl
  · rfl

theorem generation_command (h : Haproxy) (cmd : Command) :
    (h.command cmd).2.generation = h.generation := by
  cases cmd with
  | addServer b n addr =>
      rw [Haproxy.command]
      split_ifs
      · cases h.servers.lookup (b, n) with
        | none => rfl
        | some sv => rfl
      · rfl
  | delServer b n =>
      rw [Haproxy.command]
      split_ifs
      · cases h.servers.lookup (b, n) with
        | none => rfl
        | some sv =>
            dsimp only
            split_ifs
            · rfl
            · rfl
      · rfl
  | setWeight b n weight => exact generation_alter h _ _
  | setState b n state => exact generation_alter h _ _
  | setAddr b n ip port => exact generation_alter h _ _

theorem generation_kept {α : Type} {t : Future HaproxyOp α} {a : α}
    {g : Guard HaproxyOp HaproxyEnv Haproxy} (hno : ∀ e h, ¬ g _ e .reloadHaproxy h)
    (run : Runs g t h a h') : h'.generation = h.generation := by
  induction run with
  | ready a s => rfl
  | @await γ op next e k k' k'' c a hg he _ ih =>
      refine ih.trans ?_
      cases op with
      | command cmd =>
          simp only [Machine.exec] at he
          split at he
          · rw [← (Prod.mk.inj (Option.some.inj he)).2, generation_command]
          · rw [← (Prod.mk.inj (Option.some.inj he)).2]
      | lockConfig =>
          simp only [Machine.exec] at he
          split_ifs at he
          rw [← (Prod.mk.inj (Option.some.inj he)).2]
      | readConfig =>
          simp only [Machine.exec] at he
          split at he
          · rw [← (Prod.mk.inj (Option.some.inj he)).2]
          · rw [← (Prod.mk.inj (Option.some.inj he)).2]
      | writeConfig content =>
          simp only [Machine.exec] at he
          split at he
          · rw [← (Prod.mk.inj (Option.some.inj he)).2]
          · rw [← (Prod.mk.inj (Option.some.inj he)).2]
      | reloadHaproxy => exact absurd hg (hno e k)
      | unlockConfig => rw [← (Prod.mk.inj (Option.some.inj he)).2]
      | validateConfig => rw [← (Prod.mk.inj (Option.some.inj he)).2]
      | sleep ms => rw [← (Prod.mk.inj (Option.some.inj he)).2]

theorem Assigned.still (ha : Assigned h serviceName addr r h')
    (hgeneration : h'.generation = h.generation) :
    (r ≠ .ok () ∧ h' = h) ∨ (r = .ok () ∧
      h' = h.setServer (serviceBackend serviceName, primary) ⟨addr, 100, .ready⟩) := by
  have hsame : ∀ {h₁ : Haproxy}, (h₁ = h ∨ ∃ c, h₁ = { h with file := c }.reload) →
      h₁.generation = h.generation → h₁ = h := by
    rintro h₁ (rfl | ⟨c, rfl⟩) hkept
    · rfl
    · exact absurd hkept (Nat.succ_ne_self _)
  cases ha with
  | unknown hi => exact Or.inl ⟨by simp, rfl⟩
  | unbacked hfrom _ _ => exact Or.inl ⟨by simp, hsame hfrom hgeneration⟩
  | @set h₁ hfrom _ _ _ =>
      obtain rfl := hsame hfrom hgeneration
      exact Or.inr ⟨rfl, rfl⟩

theorem Assigned.succeeds (ha : Assigned h serviceName addr r h') (hs : Sourced h) {sv : Server}
    (hsv : h.servers.lookup (serviceBackend serviceName, primary) = some sv)
    (hgeneration : h'.generation = h.generation) : r = .ok () := by
  cases ha with
  | unknown hi => exact absurd (hs.service _ _ hsv) hi
  | unbacked hfrom _ hb =>
      rcases hfrom with rfl | ⟨c, rfl⟩
      · exact absurd (hs.backend _ _ hsv) hb
      · exact absurd hgeneration (Nat.succ_ne_self _)
  | set _ _ _ _ => rfl

theorem Assigned.lookup_own (ha : Assigned h serviceName addr (.ok ()) h') :
    h'.servers.lookup (serviceBackend serviceName, primary) = some ⟨addr, 100, .ready⟩ := by
  cases ha with
  | set _ _ _ _ => exact Haproxy.lookup_setServer_self _ _ _

end HaproxyManager

namespace Registrar

open HaproxyManager UuidFormat

section Guards

variable {Uuid : Type}

def reloads : {β : Type} → RegistrarOp Uuid β → Bool
  | _, .haproxy .reloadHaproxy => true
  | _, _ => false

/-- HAProxy is only reloaded while no volunteer holds a service. -/
def reloadsIdle {β : Type} (s : World Uuid) (op : RegistrarOp Uuid β) : Prop :=
  reloads op → ∀ v ∈ Table.values s.volunteers, v.assignedService = none

instance {β : Type} (s : World Uuid) (op : RegistrarOp Uuid β) : Decidable (reloadsIdle s op) :=
  inferInstanceAs (Decidable (_ → _))

/-- HAProxy answers every call, identifiers are fresh, and no reload drops the server of a service. -/
def covering : Guard (RegistrarOp Uuid) (RegistrarEnv Uuid) (World Uuid) :=
  fun β e op s => haproxyAnswers β e op s ∧ freshIds β e op s ∧ reloadsIdle s op

instance [DecidableEq Uuid] (β : Type) (e : RegistrarEnv Uuid) (op : RegistrarOp Uuid β)
    (s : World Uuid) : Decidable (covering β e op s) :=
  inferInstanceAs (Decidable (e.haproxy = .calm ∧ (op.drawsId → e.uuid ∉ s.issued) ∧
    reloadsIdle s op))

theorem covering_calm {β : Type} (e : RegistrarEnv Uuid) (op : RegistrarOp Uuid β) (s : World Uuid)
    (hg : covering β e op s) : e.haproxy = .calm := hg.1

theorem covering_fresh (e : RegistrarEnv Uuid) (s : World Uuid)
    (hg : covering Uuid e (.own .newV4) s) : e.uuid ∉ s.issued := hg.2.1 rfl

/-- A service is assigned without a reload, or while no volunteer holds one. -/
theorem assigned_idle {s : World Uuid} {h h' : Haproxy} {r : Except Error Unit}
    {call : HaproxyManager.Call Unit} (run : Runs (haproxyPart covering s) call.run h r h') :
    (∀ v ∈ Table.values s.volunteers, v.assignedService = none) ∨ h'.generation = h.generation := by
  by_cases hidle : ∀ v ∈ Table.values s.volunteers, v.assignedService = none
  · exact Or.inl hidle
  · refine Or.inr (generation_kept (fun e k hg => hidle ?_) run)
    obtain ⟨e', -, hg'⟩ := hg
    exact hg'.2.2 rfl

end Guards

section Steps

variable {Uuid : Type} [DecidableEq Uuid] [UuidFormat Uuid] [Rfc3339] {s s' : World Uuid}

/-- Whoever has a row among the assignments holds a service. -/
def Owned (s : World Uuid) : Prop :=
  ∀ id, (s.db.assignments.lookup (toText id)).isSome →
    ∃ v ∈ s.volunteers.lookup id, v.assignedService ≠ none

/-- Every service that a volunteer holds is routed to it. -/
structure Placed (s : World Uuid) : Prop extends Listed s where
  sourced : Sourced s.haproxy
  owned : Owned s
  routed : ∀ id, ∀ v ∈ s.volunteers.lookup id, ∀ a ∈ v.assignedService,
    routedTo s.haproxy a.serviceName v.info.serviceAddr

omit [Rfc3339] in
theorem Placed.write (hs : Placed s) {id : Uuid} {v : VolunteerState Uuid} (hid : v.id = id)
    (haddr : ':' ∈ v.info.serviceAddr) {ps : List PendingService} {db : Db} {issued : List Uuid}
    {h : Haproxy} (hkeep : ∀ x ∈ s.issued, x ∈ issued) (hnew : id ∈ issued)
    (hrows : RowsIssued db issued) (hsourced : Sourced h)
    (hself : (db.assignments.lookup (toText id)).isSome → v.assignedService ≠ none)
    (howners : ∀ id', id' ≠ id → (db.assignments.lookup (toText id')).isSome →
      (s.db.assignments.lookup (toText id')).isSome)
    (hown : ∀ a ∈ v.assignedService, routedTo h a.serviceName v.info.serviceAddr)
    (hother : ∀ id', id' ≠ id → ∀ w ∈ s.volunteers.lookup id', ∀ a ∈ w.assignedService,
      routedTo s.haproxy a.serviceName w.info.serviceAddr →
        routedTo h a.serviceName w.info.serviceAddr) :
    Placed ⟨s.volunteers.insert id v, ps, db, h, issued⟩ where
  toListed := hs.toListed.write hid haddr hkeep hnew hrows
  sourced := hsourced
  owned id' hrow := by
    by_cases hne : id' = id
    · subst hne
      exact ⟨v, AList.lookup_insert _, hself hrow⟩
    · obtain ⟨w, hw, hheld⟩ := hs.owned id' (howners id' hne hrow)
      exact ⟨w, (AList.lookup_insert_ne hne).trans hw, hheld⟩
  routed id' w hw a ha := by
    have hlookup : (s.volunteers.insert id v).lookup id' = some w := hw
    rw [Table.lookup_insert_if] at hlookup
    split_ifs at hlookup with hne
    · obtain rfl := Option.some.inj hlookup
      exact hown a ha
    · exact hother id' hne w hlookup a ha (hs.routed id' w hlookup a ha)

omit [DecidableEq Uuid] [UuidFormat Uuid] [Rfc3339] in
theorem routed_kept {h h' : Haproxy} {name x : Text}
    (hsame : h'.servers.lookup (serviceBackend name, primary) =
      h.servers.lookup (serviceBackend name, primary)) (hrouted : routedTo h name x) :
    routedTo h' name x := by
  obtain ⟨sv, hsv, hready⟩ := hrouted
  exact ⟨sv, hsame ▸ hsv, hready⟩

omit [DecidableEq Uuid] [UuidFormat Uuid] [Rfc3339] in
theorem assigned_keeps {h h' : Haproxy} {serviceName addr : Text} {r : Except Error Unit}
    (ha : Assigned h serviceName addr r h') (hgeneration : h'.generation = h.generation)
    {name x : Text} (hname : r = .ok () → serviceName ≠ name) (hrouted : routedTo h name x) :
    routedTo h' name x := by
  rcases ha.still hgeneration with ⟨-, rfl⟩ | ⟨rfl, rfl⟩
  · exact hrouted
  · refine routed_kept ?_ hrouted
    rw [Haproxy.lookup_setServer, if_neg]
    exact fun heq => hname rfl (serviceBackend_injective (Prod.mk.inj heq).1).symm

/-- What HAProxy routes after a service was attached: the service to its new holder, and every other
one where it was. -/
structure Seated (s s' : World Uuid) (id : Uuid) (addr : Text) (now : DateTime)
    (existing a : Option ServiceAssignment) : Prop where
  volunteers : s'.volunteers = s.volunteers
  issued : s'.issued = s.issued
  rows : s'.db.volunteers = s.db.volunteers
  sourced : Sourced s'.haproxy
  takes : Takes now existing s.pendingServices a s'.pendingServices
  self : (s'.db.assignments.lookup (toText id)).isSome →
    a ≠ none ∨ (s.db.assignments.lookup (toText id)).isSome
  others : ∀ id', id' ≠ id → (s'.db.assignments.lookup (toText id')).isSome →
    (s.db.assignments.lookup (toText id')).isSome
  own : ∀ b ∈ a, routedTo s'.haproxy b.serviceName addr
  kept : ∀ u ∈ Table.values s.volunteers, u.assignedService ≠ none → ∀ name x,
    (∀ b ∈ a, b.serviceName ≠ name) → routedTo s.haproxy name x → routedTo s'.haproxy name x

theorem Queried.assignments {g : Guard (RegistrarOp Uuid) (RegistrarEnv Uuid) (World Uuid)}
    {id : Uuid} {a : ServiceAssignment} {db : Db}
    (hq : Queried g s (.upsertAssignment id a) () db) :
    db.volunteers = s.db.volunteers ∧ ∀ key, key ≠ toText id →
      db.assignments.lookup key = s.db.assignments.lookup key := by
  rcases hq.cases with ⟨-, rfl⟩ | ⟨e, heq⟩
  · exact ⟨rfl, fun _ _ => rfl⟩
  · obtain ⟨-, rfl⟩ := Prod.mk.inj heq
    exact ⟨rfl, fun key hkey => AList.lookup_insert_ne hkey⟩

theorem Attached.seated {id : Uuid} {addr : Text} {now : DateTime}
    {existing a : Option ServiceAssignment} (haddr : ':' ∈ addr) (hs : Sourced s.haproxy)
    (hl : s.haproxy.configLocked = false)
    (hserved : ∀ b ∈ existing, (∃ x, routedTo s.haproxy b.serviceName x) ∧
      ∃ u ∈ Table.values s.volunteers, u.assignedService ≠ none)
    (hattached : Attached covering s id addr now existing a s') :
    Seated s s' id addr now existing a := by
  have hset : ∀ {h' : Haproxy} {name : Text}, Assigned s.haproxy name addr (.ok ()) h' →
      routedTo h' name addr := fun ha => ⟨_, ha.lookup_own, rfl, rfl⟩
  cases hattached with
  | @reattached b r h db hh hq =>
      have ha := assigned_of_run (fun _ => covering_calm) haddr hl hh
      have hdb := hq.assignments
      obtain ⟨⟨x, sv, hsv, -⟩, u, hu, hheld⟩ := hserved b rfl
      have hgeneration := (assigned_idle hh).resolve_left fun hidle => hheld (hidle u hu)
      obtain rfl := ha.succeeds hs hsv hgeneration
      refine ⟨rfl, rfl, hdb.1, ha.sourced hs, .kept _ _, fun _ => Or.inl (by simp),
        fun id' hne hrow => ?_, ?_, fun _ _ _ name x hno hrouted => ?_⟩
      · rwa [hdb.2 _ fun heq => hne (toText_injective heq)] at hrow
      · rintro _ ⟨⟩
        exact hset ha
      · exact assigned_keeps ha hgeneration (fun _ => hno b rfl) hrouted
  | @taken p ps h db hp hh hq =>
      have ha := assigned_of_run (fun _ => covering_calm) haddr hl hh
      have hdb := hq.assignments
      refine ⟨rfl, rfl, hdb.1, ha.sourced hs, hp ▸ .taken p ps, fun _ => Or.inl (by simp),
        fun id' hne hrow => ?_, ?_, fun u hu hheld name x hno hrouted => ?_⟩
      · rwa [hdb.2 _ fun heq => hne (toText_injective heq)] at hrow
      · rintro _ ⟨⟩
        exact hset ha
      · have hgeneration := (assigned_idle hh).resolve_left fun hidle => hheld (hidle u hu)
        exact assigned_keeps ha hgeneration (fun _ => hno (assignmentFor p now) rfl) hrouted
  | @refused p ps e h hp hh =>
      have ha := assigned_of_run (fun _ => covering_calm) haddr hl hh
      refine ⟨rfl, rfl, rfl, ha.sourced hs, .left _, Or.inr, fun _ _ hrow => hrow, by simp,
        fun u hu hheld name x _ hrouted => ?_⟩
      have hgeneration := (assigned_idle hh).resolve_left fun hidle => hheld (hidle u hu)
      exact assigned_keeps ha hgeneration (fun hok => by simp at hok) hrouted
  | nothingPending hp =>
      exact ⟨rfl, rfl, rfl, hs, .left _, Or.inr, fun _ _ hrow => hrow, by simp,
        fun _ _ _ _ _ _ hrouted => hrouted⟩

omit [DecidableEq Uuid] [UuidFormat Uuid] [Rfc3339] in
theorem Takes.holds {now : DateTime} {existing a : Option ServiceAssignment}
    {ps ps' : List PendingService} (htakes : Takes now existing ps a ps') (hheld : existing ≠ none) :
    a ≠ none := by
  cases htakes with
  | kept b ps => exact Option.some_ne_none b
  | taken p ps => exact Option.some_ne_none _
  | left ps => exact hheld

theorem existing_eq (hs : Placed s) {existingId : Option Uuid}
    {existing : Option ServiceAssignment} {id : Uuid} {s₁ : World Uuid}
    (hexisting : AssignmentFound covering s existingId existing)
    (hident : Identified covering s existingId id s₁) :
    existing = (s.volunteers.lookup id).bind (·.assignedService) := by
  cases hident with
  | known id =>
      cases hexisting with
      | inMemory hv ha =>
          rw [hv]
          exact ha.symm
      | inDatabase hno hq =>
          have hnone : (s.volunteers.lookup id).bind (·.assignedService) = none := by
            cases hv : s.volunteers.lookup id with
            | none => rfl
            | some v => exact hno v hv
          rw [hnone]
          rcases hq.cases with ⟨rfl, -⟩ | ⟨e, heq⟩
          · rfl
          · obtain ⟨rfl, -⟩ := Prod.mk.inj heq
            cases hrow : s.db.assignments.lookup (toText id) with
            | none =>
                rw [Db.getAssignment, hrow]
                rfl
            | some row =>
                obtain ⟨v, hv, hheld⟩ := hs.owned id (by rw [hrow]; rfl)
                exact absurd (hno v hv) hheld
  | @issued e hg =>
      cases hexisting with
      | noId =>
          cases hv : s.volunteers.lookup e.uuid with
          | none => rfl
          | some v => exact absurd (hs.known _ v hv) (covering_fresh e s hg)

omit [UuidFormat Uuid] [Rfc3339] in
/-- Two volunteers do not hold services of one name. -/
theorem holder_unique (hnodup : (names s).Nodup) {id id' : Uuid} {v w : VolunteerState Uuid}
    (hv : s.volunteers.lookup id = some v) (hw : s.volunteers.lookup id' = some w)
    {b c : ServiceAssignment} (hb : b ∈ v.assignedService) (hc : c ∈ w.assignedService)
    (hname : b.serviceName = c.serviceName) : id = id' := by
  by_contra hne
  have hw' : (s.volunteers.erase id).lookup id' = some w :=
    (AList.lookup_erase_ne fun heq => hne heq.symm).trans hw
  rw [names, Table.total_split _ s.volunteers id, Table.total_split _ (s.volunteers.erase id) id',
    hv, hw'] at hnodup
  have htwo := (Multiset.nodup_add.1 (Multiset.nodup_add.1 hnodup).2.1).2.2
  have hmem : b.serviceName ∈ (v.assignedService.toList.map (·.serviceName) : Multiset Text) := by
    rw [hb]
    simp
  have hmem' : b.serviceName ∈ (w.assignedService.toList.map (·.serviceName) : Multiset Text) := by
    rw [hc, hname]
    simp
  exact Multiset.disjoint_left.1 htwo hmem (Multiset.mem_add.2 (Or.inl hmem'))

theorem Enrolled.placed {body : EnrollRequest} {r : EnrollResponse} (hs : Placed s)
    (hl : s.haproxy.configLocked = false) (henrolled : Enrolled covering s body r s') :
    s'.services = s.services ∧ ((names s').Nodup → Placed s') := by
  cases henrolled with
  | @mk existingId existing a id addr now s₁ s₂ db res h haddr hid hexisting hident hattached hq hh =>
    obtain ⟨hs₁, hkeep, hnew, -⟩ := identified_issued covering_fresh hs.toListed hid hexisting hident
    have heq := existing_eq hs hexisting hident
    have hsame : s₁.haproxy = s.haproxy := by rw [hs₁]
    have hmap : s₁.volunteers = s.volunteers := by rw [hs₁]
    have hdb : s₁.db = s.db := by rw [hs₁]
    have hpending : s₁.pendingServices = s.pendingServices := by rw [hs₁]
    have hserved : ∀ b ∈ existing, (∃ x, routedTo s₁.haproxy b.serviceName x) ∧
        ∃ u ∈ Table.values s₁.volunteers, u.assignedService ≠ none := by
      intro b hb
      rw [heq] at hb
      obtain ⟨v, hv, hheld⟩ := Option.bind_eq_some_iff.1 hb
      refine ⟨⟨_, hsame ▸ hs.routed id v hv b hheld⟩, v, ?_, by simp [hheld]⟩
      rw [hmap]
      exact Table.mem_values.2 ⟨id, hv⟩
    have hseated := hattached.seated haddr (hsame ▸ hs.sourced) (hsame ▸ hl) hserved
    have helse := elsewhere_of_commands (uses_upsertServer _ _ _ _) hh
    have hfinal : ({ { s₂ with db }.insertVolunteer (enrolled body id addr now a) with
        haproxy := h } : World Uuid) =
        ⟨s.volunteers.insert id (enrolled body id addr now a), s₂.pendingServices, db, h,
          s₂.issued⟩ := by
      rw [World.insertVolunteer, ← hmap, ← hseated.volunteers]
      rfl
    have htakes := hseated.takes
    rw [hpending, heq] at htakes
    have hassignments : db.assignments = s₂.db.assignments := by
      rcases hq.cases with ⟨-, rfl⟩ | ⟨e, he⟩
      · rfl
      · rw [← (Prod.mk.inj he).2]
        rfl
    rw [hfinal]
    refine ⟨services_of_takes rfl htakes, fun hnodup => ?_⟩
    have hrows : RowsIssued s₂.db s₂.issued := by
      intro key r hr
      rw [hseated.rows, hdb] at hr
      obtain ⟨id', hid', hr'⟩ := hs.rows key r hr
      exact ⟨id', hseated.issued ▸ hkeep id' hid', hr'⟩
    have hissued : id ∈ s₂.issued := hseated.issued ▸ hnew
    have hthrough : ∀ {name x : Text}, routedTo s₂.haproxy name x → routedTo h name x :=
      fun hrouted => routed_kept (helse.servers _ (serviceBackend_ne_volunteers _)) hrouted
    refine @Placed.write Uuid _ _ s hs id (enrolled body id addr now a) rfl haddr
      s₂.pendingServices db s₂.issued h (fun x hx => hseated.issued ▸ hkeep x hx) hissued
      (hq.rows_upsert hrows hissued) (hseated.sourced.elsewhere helse) (fun hrow => ?_)
      (fun id' hne hrow => ?_) (fun b hb => hthrough (hseated.own b hb))
      (fun id' hne w hw b hb hrouted => hthrough ?_)
    · rw [hassignments] at hrow
      rcases hseated.self hrow with hheld | hold
      · exact hheld
      · rw [hdb] at hold
        obtain ⟨v, hv, hheld⟩ := hs.owned id hold
        have hbind : (s.volunteers.lookup id).bind (·.assignedService) = v.assignedService := by
          rw [hv]
          rfl
        rw [hbind] at htakes
        exact htakes.holds hheld
    · rw [hassignments] at hrow
      have hold := hseated.others id' hne hrow
      rwa [hdb] at hold
    · have hvalue : w ∈ Table.values s₁.volunteers := by
        rw [hmap]
        exact Table.mem_values.2 ⟨id', hw⟩
      have hheld : w.assignedService ≠ none := by
        rw [hb]
        simp
      refine hseated.kept w hvalue hheld b.serviceName _ (fun c hc hname => hne ?_)
        (hsame.symm ▸ hrouted)
      exact (@holder_unique Uuid _ _ hnodup id id' _ w (AList.lookup_insert _)
        ((AList.lookup_insert_ne hne).trans hw) c b hc hb hname).symm

theorem Beaten.placed {body : HeartbeatRequest Uuid} {r : HeartbeatReply} (hs : Placed s)
    (hbeaten : Beaten covering s body r s') : s'.services = s.services ∧ Placed s' := by
  cases hbeaten with
  | unknown hno => exact ⟨rfl, hs⟩
  | @known v now db h hv hq hw =>
      have helse : Elsewhere volunteers s.haproxy h := by
        cases hw with
        | weighed hh => exact elsewhere_of_commands (uses_setWeight _ _ _) hh
        | readded hh hadd =>
            exact (elsewhere_of_commands (uses_setWeight _ _ _) hh).trans
              (elsewhere_of_commands (uses_addVolunteer _ _ _ _) hadd)
      have hkey : (v.beat now body).id = body.volunteerId := hs.keyed _ v hv
      have hissued := hs.known _ v hv
      have hassignments : db.assignments = s.db.assignments := by
        rcases hq.cases with ⟨-, rfl⟩ | ⟨e, he⟩
        · rfl
        · rw [← (Prod.mk.inj he).2]
          rfl
      have hthrough : ∀ {name x : Text}, routedTo s.haproxy name x → routedTo h name x :=
        fun hrouted => routed_kept (helse.servers _ (serviceBackend_ne_volunteers _)) hrouted
      have hrows : RowsIssued db s.issued := hq.rows_upsert hs.rows (hkey ▸ hissued)
      refine ⟨services_rewrite hv (w := v.beat now body) rfl rfl rfl, ?_⟩
      refine hs.write hkey (hs.addressed _ v hv) (fun _ hx => hx) hissued hrows
        (hs.sourced.elsewhere helse) (fun hrow => ?_) (fun id' _ hrow => ?_)
        (fun a ha => hthrough (hs.routed _ v hv a ha)) (fun _ _ _ _ _ _ => hthrough)
      · rw [hassignments] at hrow
        obtain ⟨w, hw', hheld⟩ := hs.owned _ hrow
        obtain rfl := Option.some.inj (hv.symm.trans hw')
        exact hheld
      · rwa [hassignments] at hrow

theorem Registered.placed {body : Service} {r : RegisterReply} (hs : Placed s)
    (hl : s.haproxy.configLocked = false) (hregistered : Registered covering s body r s') :
    s'.services = registeredBy ((.registerService body, .registered r) : Event Uuid) + s.services ∧
      ((names s').Nodup → Placed s') := by
  cases hregistered with
  | @assigned key v now h db hv hfree hh hq =>
      have ha := assigned_of_run (fun _ => covering_calm) (hs.addressed key v hv) hl hh
      obtain rfl := hs.keyed key v hv
      have hdb := hq.assignments
      have hlookup : ({ s with haproxy := h, db := db } : World Uuid).volunteers.lookup v.id =
          some v := hv
      rw [World.alterVolunteer_of_lookup hlookup]
      have hheld : (v.assign (Service.assignment body now)).held = {body} := rfl
      refine ⟨?_, fun hnodup => ?_⟩
      · rw [services_insert rfl, services_eq s v.id, hv, Option.map_some, Option.getD_some,
          VolunteerState.held_of_none hfree, hheld, zero_add, registeredBy]
        abel
      · refine @Placed.write Uuid _ _ s hs v.id (v.assign (Service.assignment body now)) rfl
          (hs.addressed _ v hv) s.pendingServices db s.issued h (fun _ hx => hx) (hs.known _ v hv)
          (hq.rows_kept hs.rows fun _ => rfl) (ha.sourced hs.sourced)
          (fun _ => Option.some_ne_none _) (fun id' hne hrow => ?_) ?_
          (fun id' hne w hw b hb hrouted => ?_)
        · rwa [hdb.2 _ fun heq => hne (toText_injective heq)] at hrow
        · rintro _ ⟨⟩
          exact ⟨_, ha.lookup_own, rfl, rfl⟩
        · have hvalue : w ∈ Table.values s.volunteers := Table.mem_values.2 ⟨id', hw⟩
          have hgeneration := (assigned_idle hh).resolve_left fun hidle => by
            have hnone := hidle w hvalue
            rw [hb] at hnone
            simp at hnone
          refine assigned_keeps ha hgeneration (fun _ hname => hne ?_) hrouted
          exact (@holder_unique Uuid _ _ hnodup v.id id' _ w (AList.lookup_insert _)
            ((AList.lookup_insert_ne hne).trans hw) (Service.assignment body now) b rfl hb hname).symm
  | @refused key v e h hv hfree hh =>
      have ha := assigned_of_run (fun _ => covering_calm) (hs.addressed key v hv) hl hh
      refine ⟨(zero_add _).symm, fun _ => ⟨⟨hs.keyed, hs.addressed, hs.known, hs.rows⟩,
        ha.sourced hs.sourced, hs.owned, fun id w hw b hb => ?_⟩⟩
      have hgeneration := (assigned_idle hh).resolve_left fun hidle => by
        have hnone := hidle w (Table.mem_values.2 ⟨id, hw⟩)
        rw [hb] at hnone
        simp at hnone
      exact assigned_keeps ha hgeneration (fun hok => by simp at hok) (hs.routed id w hw b hb)
  | queued =>
      refine ⟨?_, fun _ => ⟨⟨hs.keyed, hs.addressed, hs.known, hs.rows⟩, hs.sourced, hs.owned,
        hs.routed⟩⟩
      have hnew : ∀ now, ([body.pending now].map (·.service) : Multiset Service) = {body} :=
        fun _ => rfl
      rw [World.services, World.services, List.map_append, ← Multiset.coe_add, hnew, registeredBy]
      abel

def Request.brings : Request Uuid → Prop
  | .enroll _ => True
  | .heartbeat _ => True
  | .registerService _ => True
  | _ => False

theorem Effect.placed {q : Request Uuid} {r : Reply Uuid} (hs : Placed s)
    (hl : s.haproxy.configLocked = false) (hq : q.brings) (heffect : Effect covering s q r s') :
    s'.services = registeredBy (q, r) + s.services ∧ ((names s').Nodup → Placed s') := by
  cases heffect with
  | enroll h =>
      obtain ⟨hservices, hplaced⟩ := h.placed hs hl
      exact ⟨hservices.trans (zero_add _).symm, hplaced⟩
  | heartbeat h =>
      obtain ⟨hservices, hplaced⟩ := h.placed hs
      exact ⟨hservices.trans (zero_add _).symm, fun _ => hplaced⟩
  | registerService h => exact h.placed hs hl
  | updateTunnelPort _ => exact hq.elim
  | disconnect _ => exact hq.elim
  | churn _ _ => exact hq.elim
  | restart _ => exact hq.elim

end Steps

section Runs

variable {Uuid : Type} [DecidableEq Uuid] [UuidFormat Uuid] [Rfc3339] [Inhabited Uuid]

omit [Rfc3339] [Inhabited Uuid] in
theorem placed_initial {h : Haproxy} (hnone : ∀ k, h.servers.lookup k = none) :
    Placed (World.initial h : World Uuid) where
  toListed := (current_initial hnone).toListed
  sourced := sourced_of_empty hnone
  owned id hrow := by simp [World.initial] at hrow
  routed id v hv := by simp [World.initial] at hv

theorem History.placed {h : Haproxy} (hnone : ∀ k, h.servers.lookup k = none)
    {events : List (Event Uuid)} {s : World Uuid}
    (hrun : History covering (World.initial h) events s) (hevents : ∀ e ∈ events, e.1.brings)
    (hnames : ((registeredIn events).map Service.name).Nodup) :
    s.services = registeredIn events ∧ Placed s := by
  induction hrun with
  | nil => exact ⟨rfl, placed_initial hnone⟩
  | @step events s₁ s₂ q r past run ih =>
      have hsum : registeredIn ((q, r) :: events) = registeredBy (q, r) + registeredIn events := by
        rw [registeredIn, List.map_cons, List.sum_cons, ← registeredIn]
      have hbefore := hnames
      rw [hsum, Multiset.map_add] at hbefore
      obtain ⟨hservices, hpast⟩ := ih (fun e he => hevents e (List.mem_cons_of_mem _ he))
        (Multiset.nodup_add.1 hbefore).2.1
      obtain ⟨hnow, hplaced⟩ :=
        (handle_run run).placed hpast past.lockFree (hevents _ List.mem_cons_self)
      have hall : s₂.services = registeredIn ((q, r) :: events) := by
        rw [hnow, hservices, hsum]
      refine ⟨hall, hplaced ?_⟩
      rw [names_eq, hall]
      exact hnames

/-- While HAProxy is only reloaded when no volunteer holds a service, every service that a volunteer
holds has its backend and is routed to the volunteer. -/
theorem assigned_services_routed {h : Haproxy} (hnone : ∀ k, h.servers.lookup k = none)
    {events : List (Event Uuid)} {s : World Uuid}
    (hrun : History covering (World.initial h) events s) (hevents : ∀ e ∈ events, e.1.brings)
    (hnames : ((registeredIn events).map Service.name).Nodup) :
    ∀ id, ∀ v ∈ s.volunteers.lookup id, ∀ a ∈ v.assignedService,
      hasBackend s.haproxy.loaded (serviceBackend a.serviceName) ∧
        routedTo s.haproxy a.serviceName v.info.serviceAddr := by
  intro id v hv a ha
  have hplaced := (hrun.placed hnone hevents hnames).2
  obtain ⟨sv, hsv, hready⟩ := hplaced.routed id v hv a ha
  exact ⟨hplaced.sourced.backend _ _ hsv, sv, hsv, hready⟩

end Runs

section Replay

def enrolledAs : Event Node → Option Text
  | (.enroll body, _) => some body.info.hostname
  | _ => none

/-- Nothing fails: the second service to be assigned takes the server of the first one away. -/
theorem reload_drops_service :
    ¬ ∀ (h : Haproxy) (events : List (Event Node)) (s : World Node),
      (∀ k, h.servers.lookup k = none) → History answering (World.initial h) events s →
      (∀ e ∈ events, e.1.brings) → ((registeredIn events).map Service.name).Nodup →
      ((registeredIn events).map Service.domain).Nodup → (events.filterMap enrolledAs).Nodup →
      ∀ id, ∀ v ∈ s.volunteers.lookup id, ∀ a ∈ v.assignedService,
        hasBackend s.haproxy.loaded (serviceBackend a.serviceName) ∧
          routedTo s.haproxy a.serviceName v.info.serviceAddr := by
  intro hclaim
  have hbad : (replay answering (calmEnv 0 0) [.registerService wiki, .registerService blog,
      .enroll (joins "volunteer-102" 7002), .enroll (joins "volunteer-101" 7001)]
      (World.initial smallHaproxy)).any fun r =>
        decide (((registeredIn r.1).map Service.name).Nodup ∧
          ((registeredIn r.1).map Service.domain).Nodup ∧ (r.1.filterMap enrolledAs).Nodup) &&
          (Table.values r.2.volunteers).any fun v => v.assignedService.any fun a =>
            !decide (routedTo r.2.haproxy a.serviceName v.info.serviceAddr) := by
    decide +kernel
  obtain ⟨⟨events, s⟩, hreplay, hlost⟩ := (Option.any_eq_true _ _).1 hbad
  rw [Bool.and_eq_true] at hlost
  obtain ⟨v, hvalue, hlost'⟩ := List.any_eq_true.1 hlost.2
  obtain ⟨a, ha, hnot⟩ := (Option.any_eq_true _ _).1 hlost'
  obtain ⟨id, hv⟩ := Table.mem_values.1 hvalue
  have hevents : ∀ e ∈ events, e.1.brings :=
    requests_all (requests_of_replay answering hreplay) (by simp [Request.brings])
  obtain ⟨hnames, hdomains, hhostnames⟩ := of_decide_eq_true hlost.1
  have hrouted := (hclaim smallHaproxy events s (fun k => rfl)
    (history_of_replay answering hreplay) hevents hnames hdomains hhostnames id v hv a ha).2
  simp [hrouted] at hnot

/-- One service is registered and assigned, and two volunteers enroll. -/
theorem assigned_services_routed_one :
    ∃ events s, History covering (World.initial smallHaproxy : World Node) events s ∧
      events.map Prod.fst = [.enroll (joins "volunteer-102" 7002), .registerService blog,
        .enroll (joins "volunteer-101" 7001)] ∧
      ∀ id, ∀ v ∈ s.volunteers.lookup id, ∀ a ∈ v.assignedService,
        hasBackend s.haproxy.loaded (serviceBackend a.serviceName) ∧
          routedTo s.haproxy a.serviceName v.info.serviceAddr := by
  have hsome : (replay covering (calmEnv 0 0) [.enroll (joins "volunteer-102" 7002),
      .registerService blog, .enroll (joins "volunteer-101" 7001)]
      (World.initial smallHaproxy)).any fun r =>
        decide ((registeredIn r.1).map Service.name).Nodup := by
    decide +kernel
  obtain ⟨⟨events, s⟩, hreplay, hnodup⟩ := (Option.any_eq_true _ _).1 hsome
  have hrequests := requests_of_replay covering hreplay
  have hevents : ∀ e ∈ events, e.1.brings := requests_all hrequests (by simp [Request.brings])
  have hrun := history_of_replay covering hreplay
  exact ⟨events, s, hrun, hrequests,
    assigned_services_routed (fun k => rfl) hrun hevents (of_decide_eq_true hnodup)⟩

end Replay

end Registrar
end OpenShard
