import OpenShard.Journal

/-!
# The churn monitor and the living

A pass of the churn monitor judges all volunteers at one moment and removes those it found dead one
after the other, waiting for the database and HAProxy in between. Nothing looks at a victim again
before it is removed, so the victims stay dead exactly as long as no heartbeat and no enrollment
reaches one of them before its turn comes.
-/

namespace OpenShard.Registrar

section Evictions

variable {Uuid : Type} [DecidableEq Uuid]

/-- The victims of churn passes that are still to be removed. -/
def condemned : Journal Uuid → Multiset Uuid
  | [] => 0
  | entry :: journal => match entry.act, entry.who.1 with
    | .condemn ids, _ => ids + condemned journal
    | .remove id _, .churn => (condemned journal).erase id
    | _, _ => condemned journal

/-- The clock does not go back, and is not read ahead of time. -/
def clockRuns : Guard (Step Uuid) (RegistrarEnv Uuid) (Observed Uuid) := fun _ e _ s =>
  (∀ entry ∈ s.2, entry.time ≤ e.now) ∧ ∀ id, e.clock id ≤ e.now

def refreshes : {β : Type} → RegistrarOp Uuid β → Option Uuid
  | _, .own (.recordHeartbeat body) => some body.volunteerId
  | _, .own (.insertVolunteer v) => some v.id
  | _, _ => none

def removes : {β : Type} → RegistrarOp Uuid β → Option Uuid
  | _, .own (.removeVolunteer id) => some id
  | _, _ => none

/-- No heartbeat is recorded for a victim that is still to be removed, and none enrolls again. -/
def sparesCondemned : Guard (Step Uuid) (RegistrarEnv Uuid) (Observed Uuid) := fun _ _ op s =>
  ∀ id ∈ refreshes op.op, id ∉ condemned s.2

def evictsTheDead : Guard (Step Uuid) (RegistrarEnv Uuid) (Observed Uuid) := fun _ e op s =>
  op.who.1 = .churn → ∀ id ∈ removes op.op, ∀ v, s.1.volunteers.lookup id = some v →
    v.isAlive e.now = false

def Overdue (journal : Journal Uuid) (v : VolunteerState Uuid) : Prop :=
  ∃ entry ∈ journal, heartbeatTimeoutSecs ≤ secondsSince entry.time v.lastHeartbeat

/-- A token is the list of victims that a pass has still to remove. -/
structure Doomed (s : Observed Uuid) (γs : Multiset (Multiset Uuid)) : Prop where
  keyed : Keyed s.1
  victims : condemned s.2 = γs.sum
  overdue : ∀ id ∈ γs.sum, ∀ v, s.1.volunteers.lookup id = some v → Overdue s.2 v

theorem secondsSince_mono {t t' t₀ : DateTime} (h : t ≤ t') :
    secondsSince t t₀ ≤ secondsSince t' t₀ :=
  Int.tdiv_le_tdiv (by norm_num) (Int.sub_le_sub_right h t₀)

omit [DecidableEq Uuid] in
theorem Overdue.mono {journal : Journal Uuid} {v w : VolunteerState Uuid} (h : Overdue journal v)
    (hw : w.lastHeartbeat = v.lastHeartbeat) (entry : JournalEntry Uuid) : Overdue (entry :: journal) w := by
  obtain ⟨entry', hmem, hsince⟩ := h
  exact ⟨entry', List.mem_cons_of_mem _ hmem, hw ▸ hsince⟩

def ordinary (q : Request Uuid) : (β : Type) → RegistrarOp Uuid β → Prop
  | _, .own .deadVolunteers => False
  | _, .own (.recoverVolunteers _) => False
  | _, .own .start => False
  | _, .own (.removeVolunteer _) => match q with
    | .churn => False
    | _ => True
  | _, _ => True

variable {s s' : World Uuid} {journal : Journal Uuid} {γs : Multiset (Multiset Uuid)}

theorem Doomed.same (h : Doomed (s, journal) γs) (hmap : s'.volunteers = s.volunteers) :
    Doomed (s', journal) γs where
  keyed key v hv := h.keyed key v (hmap ▸ hv)
  victims := h.victims
  overdue id hid v hv := h.overdue id hid v (hmap ▸ hv)

theorem Doomed.noted (h : Doomed (s, journal) γs) {entry : JournalEntry Uuid} (hkeyed : Keyed s')
    (hsame : condemned (entry :: journal) = condemned journal)
    (hmap : ∀ id ∈ γs.sum, ∀ v, s'.volunteers.lookup id = some v →
      ∃ w, s.volunteers.lookup id = some w ∧ v.lastHeartbeat = w.lastHeartbeat) :
    Doomed (s', entry :: journal) γs where
  keyed := hkeyed
  victims := hsame.trans h.victims
  overdue id hid v hv := by
    obtain ⟨w, hw, heq⟩ := hmap id hid v hv
    exact (h.overdue id hid w hw).mono heq entry

variable [UuidFormat Uuid] [Rfc3339]

def evicting : Discipline (Step Uuid) (RegistrarEnv Uuid) (Observed Uuid) (Multiset Uuid) where
  guard β e op s := clockRuns β e op s ∧ sparesCondemned β e op s
  inv := Doomed
  safe := evictsTheDead

variable {e : RegistrarEnv Uuid} {q : Served Uuid} {β : Type}

theorem Doomed.step {op : RegistrarOp Uuid β} {c : β} (hop : ordinary q.1 β op)
    (h : Doomed (s, journal) γs) (hg : sparesCondemned β e ⟨q, op⟩ (s, journal))
    (he : Machine.exec e op s = some (c, s')) :
    Doomed (s', Observer.note q e op c journal) γs := by
  cases op with
  | haproxy op =>
      obtain ⟨hap, rfl⟩ := exec_haproxy he
      exact h.same rfl
  | db op =>
      obtain ⟨db, -, rfl⟩ := exec_db he
      cases op with
      | upsertVolunteer v => exact h.noted h.keyed rfl fun id _ v hv => ⟨v, hv, rfl⟩
      | removeVolunteer id => exact h.noted h.keyed rfl fun id _ v hv => ⟨v, hv, rfl⟩
      | _ => exact h.same rfl
  | own op =>
      have hown := exec_own he
      have hkeyed := Keyed.answered h.keyed op e
      obtain ⟨rfl, rfl⟩ := Prod.mk.inj hown
      cases op with
      | deadVolunteers => exact hop.elim
      | recoverVolunteers survivors => exact hop.elim
      | start => exact hop.elim
      | findByKey nodeKey => exact h.noted h.keyed rfl fun id _ v hv => ⟨v, hv, rfl⟩
      | insertVolunteer w =>
          refine h.noted hkeyed rfl fun id hid v hv => ⟨v, ?_, rfl⟩
          have hne : id ≠ w.id := by
            rintro rfl
            exact hg w.id rfl (h.victims ▸ hid)
          have hlookup : (s.volunteers.insert w.id w).lookup id = some v := hv
          rwa [AList.lookup_insert_ne hne] at hlookup
      | recordHeartbeat body =>
          refine h.noted hkeyed rfl fun id hid v hv => ⟨v, ?_, rfl⟩
          have hne : id ≠ body.volunteerId := by
            rintro rfl
            exact hg body.volunteerId rfl (h.victims ▸ hid)
          rwa [← lookup_alterVolunteer_ne s hne (·.beat e.now body)]
      | setServiceAddr id' addr =>
          refine h.noted hkeyed rfl fun id _ v hv => ?_
          have hlookup : (s.alterVolunteer id' (·.moveTo addr)).volunteers.lookup id = some v := hv
          rw [lookup_alterVolunteer] at hlookup
          split_ifs at hlookup with hid
          · obtain ⟨w, hw, rfl⟩ := Option.map_eq_some_iff.1 hlookup
            exact ⟨w, hid ▸ hw, rfl⟩
          · exact ⟨v, hlookup, rfl⟩
      | setAssignedService id' a =>
          have hmap : ∀ id ∈ γs.sum, ∀ v,
              (s.alterVolunteer id' (·.assign a)).volunteers.lookup id = some v →
              ∃ w, s.volunteers.lookup id = some w ∧ v.lastHeartbeat = w.lastHeartbeat := by
            intro id _ v hlookup
            rw [lookup_alterVolunteer] at hlookup
            split_ifs at hlookup with hid
            · obtain ⟨w, hw, rfl⟩ := Option.map_eq_some_iff.1 hlookup
              exact ⟨w, hid ▸ hw, rfl⟩
            · exact ⟨v, hlookup, rfl⟩
          refine ⟨hkeyed, h.victims, fun id hid v hv => ?_⟩
          obtain ⟨w, hw, heq⟩ := hmap id hid v hv
          obtain ⟨entry, hentry, hsince⟩ := h.overdue id hid w hw
          exact ⟨entry, hentry, heq ▸ hsince⟩
      | removeVolunteer id' =>
          have hsame : condemned (⟨q, e.now, .remove id' (s.volunteers.lookup id').isSome⟩ :: journal) =
              condemned journal := by
            obtain ⟨q, hq⟩ := q
            cases q with
            | churn => exact hop.elim
            | _ => rfl
          refine h.noted hkeyed hsame fun id _ v hv => ⟨v, ?_, rfl⟩
          have hlookup : (s.volunteers.erase id').lookup id = some v := hv
          rw [Table.lookup_erase_if] at hlookup
          split_ifs at hlookup
          exact hlookup
      | _ => exact h.same rfl

omit [DecidableEq Uuid] [UuidFormat Uuid] [Rfc3339] in
theorem ordinary_of_usedBy {q : Request Uuid} (hchurn : q ≠ .churn) (hrestart : q ≠ .restart)
    (op : RegistrarOp Uuid β) (hop : RegistrarOp.usedBy q β op) : ordinary q β op := by
  cases op with
  | haproxy op => trivial
  | db op => trivial
  | own op =>
      cases op with
      | deadVolunteers => cases q <;> first | exact hop | exact absurd rfl hchurn | exact absurd rfl hrestart
      | recoverVolunteers survivors => cases q <;> first | exact hop | exact absurd rfl hrestart
      | start => cases q <;> first | exact hop | exact absurd rfl hrestart
      | removeVolunteer id => cases q <;> trivial
      | _ => trivial

theorem evicting_step (op : RegistrarOp Uuid β) (hop : ordinary q.1 β op) {γ : Multiset Uuid}
    (h : evicting.inv (s, journal) (γ ::ₘ γs)) (hg : evicting.guard β e ⟨q, op⟩ (s, journal)) :
    ∀ c s', Machine.exec e op s = some (c, s') →
      evicting.inv (s', Observer.note q e op c journal) (γ ::ₘ γs) :=
  fun _ _ he => Doomed.step hop h hg.2 he

omit [UuidFormat Uuid] [Rfc3339] in
/-- An ordinary step removes nobody in the monitor's name. -/
theorem ordinary_safe {op : RegistrarOp Uuid β} {st : Observed Uuid} (hop : ordinary q.1 β op) :
    evictsTheDead β e ⟨q, op⟩ st := by
  intro hchurn id hid
  cases op with
  | own op =>
      cases op with
      | removeVolunteer id' =>
          obtain ⟨q, hq⟩ := q
          obtain rfl : q = .churn := hchurn
          exact hop.elim
      | _ => simp [removes] at hid
  | _ => simp [removes] at hid

theorem carries_ordinary {α : Type} {t : Async Uuid α} {γ : Multiset Uuid}
    (ht : t.Uses (ordinary q.1)) :
    Carries evicting (fun _ δ => δ = γ) (signed (Journal Uuid) q t) γ :=
  carries_signed_uses ht (fun _ _ op _ _ _ hop hinv hg =>
    ⟨ordinary_safe hop, evicting_step op hop hinv hg⟩) fun _ => rfl

omit [DecidableEq Uuid] [UuidFormat Uuid] [Rfc3339] in
theorem not_alive_of_overdue {journal : Journal Uuid} {v : VolunteerState Uuid} {now : DateTime}
    (h : Overdue journal v) (hclock : ∀ entry ∈ journal, entry.time ≤ now) :
    v.isAlive now = false := by
  obtain ⟨entry, hentry, hsince⟩ := h
  have hlater := @secondsSince_mono entry.time now v.lastHeartbeat (hclock entry hentry)
  simp only [VolunteerState.isAlive, decide_eq_false_iff_not, not_lt]
  exact hsince.trans hlater

def churn : Served Uuid := ⟨.churn, by simp⟩

omit [UuidFormat Uuid] [Rfc3339] in
theorem Doomed.remove {id : Uuid} {rest : Multiset Uuid} {found : Bool} {now : DateTime}
    (h : Doomed (s, journal) ((id ::ₘ rest) ::ₘ γs)) :
    Doomed ({ s with volunteers := s.volunteers.erase id },
      ⟨churn, now, .remove id found⟩ :: journal) (rest ::ₘ γs) where
  keyed key v hv := by
    rw [Table.lookup_erase_if] at hv
    split_ifs at hv
    exact h.keyed key v hv
  victims := by
    have hsum : condemned journal = id ::ₘ (rest + γs.sum) := by
      rw [h.victims, Multiset.sum_cons, Multiset.cons_add]
    have herase : (condemned journal).erase id = rest + γs.sum := by
      rw [hsum, Multiset.erase_cons_head]
    rw [Multiset.sum_cons]
    exact herase
  overdue key hkey v hv := by
    rw [Table.lookup_erase_if] at hv
    split_ifs at hv
    have hmem : key ∈ ((id ::ₘ rest) ::ₘ γs).sum := by
      rw [Multiset.sum_cons] at hkey
      rw [Multiset.sum_cons, Multiset.cons_add]
      exact Multiset.mem_cons_of_mem hkey
    exact (h.overdue key hmem v hv).mono rfl _

theorem carries_evict (id : Uuid) (assignment : Option ServiceAssignment) (rest : Multiset Uuid) :
    Carries evicting (fun _ δ => δ = rest) (signed (Journal Uuid) churn (evict id assignment))
      (id ::ₘ rest) := by
  refine carries_signed_bind (carries_signed_perform fun e s w γs hinv hg => ⟨?_, ?_⟩)
  · intro _ id' hid' v hv
    obtain rfl : id = id' := Option.some.inj hid'
    refine not_alive_of_overdue (hinv.overdue id ?_ v hv) hg.1.1
    rw [Multiset.sum_cons, Multiset.cons_add]
    exact Multiset.mem_cons_self _ _
  · rintro found s' he
    obtain ⟨rfl, rfl⟩ := Prod.mk.inj (exec_own he)
    refine ⟨rest, Doomed.remove hinv, ?_⟩
    refine carries_ordinary ?_
    refine (Future.uses_perform trivial).bind fun _ => ?_
    refine (Future.uses_hoist (fun _ _ => trivial) _).bind fun _ => ?_
    cases assignment with
    | none => exact Future.uses_pure _
    | some a => exact (Future.uses_perform trivial).bind fun _ => Future.uses_perform trivial

theorem carries_evictAll (dead : List (Uuid × Option ServiceAssignment)) :
    Carries evicting (fun _ δ => δ = 0) (signed (Journal Uuid) churn (evictAll dead))
      ((dead.map Prod.fst : List Uuid) : Multiset Uuid) := by
  induction dead with
  | nil => exact carries_signed_pure rfl
  | cons d dead ih =>
      have hevict := carries_evict d.1 d.2 ((dead.map Prod.fst : List Uuid) : Multiset Uuid)
      refine carries_signed_bind (hevict.mono ?_)
      rintro - _ rfl
      exact ih

omit [UuidFormat Uuid] [Rfc3339] in
theorem Doomed.condemn {dead : List (Uuid × Option ServiceAssignment)} {who : Served Uuid}
    {now : DateTime} (h : Doomed (s, journal) (0 ::ₘ γs))
    (hdead : ∀ d ∈ dead, ∃ v, s.volunteers.lookup d.1 = some v ∧
      heartbeatTimeoutSecs ≤ secondsSince now v.lastHeartbeat) :
    Doomed (s, ⟨who, now, .condemn (dead.map Prod.fst)⟩ :: journal)
      (((dead.map Prod.fst : List Uuid) : Multiset Uuid) ::ₘ γs) where
  keyed := h.keyed
  victims := by
    have hold : condemned journal = γs.sum := by rw [h.victims, Multiset.sum_cons, zero_add]
    rw [Multiset.sum_cons, ← hold]
    rfl
  overdue id hid v hv := by
    rw [Multiset.sum_cons, Multiset.mem_add] at hid
    rcases hid with hid | hid
    · obtain ⟨d, hd, rfl⟩ := List.mem_map.1 (Multiset.mem_coe.1 hid)
      obtain ⟨w, hw, hsince⟩ := hdead d hd
      obtain rfl : w = v := Option.some.inj (hw.symm.trans hv)
      exact ⟨_, List.mem_cons_self, hsince⟩
    · refine (h.overdue id ?_ v hv).mono rfl _
      rwa [Multiset.sum_cons, zero_add]

theorem carries_churn :
    Carries evicting (fun _ δ => δ = 0) (serve (churn : Served Uuid)) 0 := by
  refine carries_signed_map (carries_signed_bind ?_)
  refine carries_signed_perform fun e s w γs hinv hg =>
    ⟨fun _ id hid => by simp [removes] at hid, ?_⟩
  rintro dead s' he
  obtain ⟨rfl, rfl⟩ := Prod.mk.inj (exec_own he)
  refine ⟨_, Doomed.condemn hinv ?_, ?_⟩
  · intro d hd
    obtain ⟨v, hv, rfl⟩ := List.mem_map.1 hd
    rw [List.mem_filter, IterOrder.mem_order, Table.mem_values] at hv
    obtain ⟨⟨key, hkey⟩, hdead⟩ := hv
    refine ⟨v, ?_, ?_⟩
    · rw [hinv.keyed key v hkey]
      exact hkey
    · have hnot : heartbeatTimeoutSecs ≤ secondsSince (e.clock v.id) v.lastHeartbeat := by
        simpa [VolunteerState.isAlive] using hdead
      exact hnot.trans (secondsSince_mono (hg.1.2 v.id))
  · refine carries_signed_bind ((carries_evictAll _).mono ?_)
    rintro - _ rfl
    exact carries_signed_pure rfl

theorem carries_serve (q : Served Uuid) : Carries evicting (fun _ _ => True) (serve q) 0 := by
  by_cases hchurn : q.1 = .churn
  · obtain rfl : q = churn := Subtype.ext hchurn
    exact carries_churn.mono fun _ _ _ => trivial
  · have hordinary : (handle q.1).Uses (ordinary q.1) :=
      (uses_handle q).mono fun _ op => ordinary_of_usedBy hchurn q.2 op
    exact (carries_ordinary hordinary).mono fun _ _ _ => trivial

omit [UuidFormat Uuid] [Rfc3339] in
theorem Doomed.arrive {st : Observed Uuid} (h : Doomed st γs) : Doomed st (0 ::ₘ γs) where
  keyed := h.keyed
  victims := by rw [h.victims, Multiset.sum_cons, zero_add]
  overdue id hid := h.overdue id (by rwa [Multiset.sum_cons, zero_add] at hid)

/-- The volunteer that the monitor is about to remove, if it is this task's next step. -/
def nextVictim {ρ : Type} : Future (Step Uuid) ρ → Option Uuid
  | .ready _ => none
  | .await op _ => match op.who.1 with
    | .churn => removes op.op
    | _ => none

omit [UuidFormat Uuid] [Rfc3339] in
theorem spares_of_removes {op : RegistrarOp Uuid β} {id : Uuid} (hop : removes op = some id)
    {st : Observed Uuid} : sparesCondemned β e ⟨q, op⟩ st := by
  cases op with
  | own op =>
      cases op with
      | removeVolunteer id => exact fun key hkey => by simp [refreshes] at hkey
      | _ => simp [removes] at hop
  | _ => simp [removes] at hop

/-- Whatever requests are served meanwhile: as long as no heartbeat and no enrollment reaches a victim
before its turn, whom the monitor removes has been silent for too long at that very moment. -/
theorem monitor_evicts_the_dead {s₀ s : World Uuid} {journal : Journal Uuid}
    {tasks : List (Served Uuid × Future (Step Uuid) (Reply Uuid))} (hkeyed : Keyed s₀)
    (h : Interleaving (fun β e op st => clockRuns β e op st ∧ sparesCondemned β e op st) serve
      (s₀, []) tasks (s, journal)) :
    ∀ task ∈ tasks, ∀ id ∈ nextVictim task.2, ∀ now, (∀ entry ∈ journal, entry.time ≤ now) →
      ∀ v, s.volunteers.lookup id = some v → v.isAlive now = false := by
  intro task htask id hid now hclock v hv
  have hinit : evicting.inv (s₀, ([] : Journal Uuid)) 0 := ⟨hkeyed, rfl, by simp⟩
  have harrive : ∀ (q : Served Uuid) (st : Observed Uuid) (γs : Multiset (Multiset Uuid)),
      evicting.inv st γs → ∃ γ, evicting.inv st (γ ::ₘ γs) ∧
        Carries evicting (fun _ _ => True) (serve q) γ :=
    fun q st γs hinv => ⟨0, Doomed.arrive hinv, carries_serve q⟩
  obtain ⟨γs, hdisc⟩ := Interleaving.disciplined hinit harrive h
  obtain ⟨q, t⟩ := task
  obtain ⟨before, after, rfl⟩ := List.append_of_mem htask
  cases t with
  | ready r => simp [nextVictim] at hid
  | await op next =>
      obtain ⟨⟨who, hwho⟩, op⟩ := op
      cases who with
      | churn =>
          have hremoves : removes op = some id := hid
          have hguard : ∃ e : RegistrarEnv Uuid, e.now = now ∧
              evicting.guard _ e ⟨⟨.churn, hwho⟩, op⟩ (s, journal) :=
            ⟨⟨now, fun _ => now, id, none, .error [], default, .calm, .calm⟩, rfl,
              ⟨hclock, fun _ => le_rfl⟩, spares_of_removes hremoves⟩
          obtain ⟨e, rfl, hg⟩ := hguard
          exact hdisc.safe hg rfl id hremoves v hv
      | _ => simp [nextVictim] at hid

end Evictions

section Schedules

instance : Fintype Node := ⟨{.a, .b, .c}, fun u => by cases u <;> decide⟩

instance (β : Type) (e : RegistrarEnv Node) (op : Step Node β) (s : Observed Node) :
    Decidable (clockRuns β e op s) :=
  inferInstanceAs (Decidable ((∀ entry ∈ s.2, _) ∧ ∀ _, _))

instance (β : Type) (e : RegistrarEnv Node) (op : Step Node β) (s : Observed Node) :
    Decidable (sparesCondemned β e op s) := inferInstanceAs (Decidable (∀ id ∈ refreshes op.op, _))

/-- Two volunteers are silent for a minute; the second reports while the first is evicted. -/
def lateHeartbeat : List (Move (Served Node) (Observed Node) (RegistrarEnv Node)) :=
  [.arrive (enrolls "volunteer-101" 7001), .advance 0 40 (calmAt 0),
    .arrive (enrolls "volunteer-102" 7002), .advance 0 40 (calmAt 0),
    .arrive churn, .advance 0 5 (calmAt 60000000000),
    .arrive (beats .a), .advance 0 1 (calmAt 60000000000),
    .arrive (beats .b), .advance 0 1 (calmAt 60000000000)]

/-- The second volunteer reports before the pass and during it, the first never. -/
def timelyHeartbeat : List (Move (Served Node) (Observed Node) (RegistrarEnv Node)) :=
  [.arrive (enrolls "volunteer-101" 7001), .advance 0 40 (calmAt 0),
    .arrive (enrolls "volunteer-102" 7002), .advance 0 40 (calmAt 0),
    .arrive (beats .b), .advance 0 9 (calmAt 50000000000),
    .arrive churn, .advance 0 1 (calmAt 60000000000),
    .arrive (beats .b), .advance 0 1 (calmAt 60000000000)]

def victims (r : List (Served Node × Future (Step Node) (Reply Node)) × Observed Node) :
    List (VolunteerState Node) :=
  r.1.filterMap fun task => (nextVictim task.2).bind fun id => r.2.1.volunteers.lookup id

theorem mem_victims {r : List (Served Node × Future (Step Node) (Reply Node)) × Observed Node}
    {v : VolunteerState Node} (h : v ∈ victims r) :
    ∃ task ∈ r.1, ∃ id ∈ nextVictim task.2, r.2.1.volunteers.lookup id = some v := by
  obtain ⟨task, htask, hbind⟩ := List.mem_filterMap.1 h
  obtain ⟨id, hid, hv⟩ := Option.bind_eq_some_iff.1 hbind
  exact ⟨task, htask, id, hid, hv⟩

/-- A heartbeat that comes while an earlier victim is evicted does not save its sender. -/
theorem monitor_evicts_the_living :
    ¬ ∀ (s₀ s : World Node) (journal : Journal Node)
      (tasks : List (Served Node × Future (Step Node) (Reply Node))), Keyed s₀ →
      Interleaving clockRuns serve (s₀, []) tasks (s, journal) →
      ∀ task ∈ tasks, ∀ id ∈ nextVictim task.2, ∀ now, (∀ entry ∈ journal, entry.time ≤ now) →
        ∀ v, s.volunteers.lookup id = some v → v.isAlive now = false := by
  intro hclaim
  have hclock : ∀ entry ∈ (played clockRuns lateHeartbeat).2.2, entry.time ≤ 60000000000 := by
    decide +kernel
  have hbad : ∃ v ∈ victims (played clockRuns lateHeartbeat), v.isAlive 60000000000 = true := by
    decide +kernel
  obtain ⟨v, hvictim, halive⟩ := hbad
  obtain ⟨task, htask, id, hid, hv⟩ := mem_victims hvictim
  have hdead := hclaim _ _ _ _ (keyed_initial smallHaproxy)
    (interleaving_played clockRuns lateHeartbeat) task htask id hid _ hclock v hv
  rw [halive] at hdead
  simp at hdead

abbrev timely : Guard (Step Node) (RegistrarEnv Node) (Observed Node) :=
  fun β e op st => clockRuns β e op st ∧ sparesCondemned β e op st

theorem monitor_evicts_the_dead_timely :
    ∃ v ∈ victims (played timely timelyHeartbeat), v.id = .a ∧ v.isAlive 60000000000 = false := by
  have hclock : ∀ entry ∈ (played timely timelyHeartbeat).2.2, entry.time ≤ 60000000000 := by
    decide +kernel
  have hpending : ∃ v ∈ victims (played timely timelyHeartbeat), v.id = .a := by
    decide +kernel
  obtain ⟨v, hvictim, hid⟩ := hpending
  refine ⟨v, hvictim, hid, ?_⟩
  obtain ⟨task, htask, id, hnext, hv⟩ := mem_victims hvictim
  exact monitor_evicts_the_dead (keyed_initial smallHaproxy)
    (interleaving_played timely timelyHeartbeat) task htask id hnext _ hclock v hv

end Schedules

end OpenShard.Registrar
