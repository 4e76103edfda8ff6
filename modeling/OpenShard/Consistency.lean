import OpenShard.History

/-!
# Memory and database in step

`Synced` ties the volunteer map to the two tables: a row for every entry and no other, an assignment
row for every assigned service, rows of unknown volunteers only under identifiers that were issued
before, and no two entries with the same hostname. Every operation keeps it as long as the database
answers and identifiers are fresh, whatever HAProxy does.
-/

namespace OpenShard.Registrar

open UuidFormat

variable {Uuid : Type} [DecidableEq Uuid] [UuidFormat Uuid] [Rfc3339]

structure Synced (map : Table Uuid (VolunteerState Uuid)) (db : Db) (issued : List Uuid) : Prop where
  key : ∀ id v, map.lookup id = some v → v.id = id
  known : ∀ id v, map.lookup id = some v → id ∈ issued
  hostname : ∀ id v id' v', map.lookup id = some v → map.lookup id' = some v' →
    v.info.hostname = v'.info.hostname → v.info.hostname ≠ [] → id = id'
  row : ∀ id v, map.lookup id = some v →
    ∃ t, db.volunteers.lookup (toText id) = some (.ofVolunteer { v with lastHeartbeat := t })
  rowOwner : ∀ key r, db.volunteers.lookup key = some r →
    ∃ id v, key = toText id ∧ map.lookup id = some v
  assignment : ∀ id v, map.lookup id = some v →
    db.assignments.lookup (toText id) = v.assignedService.map (.ofAssignment id)
  assignmentOwner : ∀ key r, db.assignments.lookup key = some r →
    ∃ id a, key = toText id ∧ r = .ofAssignment id a ∧ id ∈ issued

/-- The queries are answered and the identifiers fresh. -/
structure Sound (g : Guard (RegistrarOp Uuid) (RegistrarEnv Uuid) (World Uuid)) : Prop where
  db : ∀ β e (op : RegistrarOp Uuid β) s, g β e op s → e.db.fault = false
  ids : ∀ e s, g Uuid e (.own .newV4) s → e.uuid ∉ s.issued

/-- The database answers and identifiers are fresh; nothing else is asked of the outside world. -/
def sound : Guard (RegistrarOp Uuid) (RegistrarEnv Uuid) (World Uuid) :=
  fun β e op s => dbAnswers β e op s ∧ freshIds β e op s

instance (β : Type) (e : RegistrarEnv Uuid) (op : RegistrarOp Uuid β) (s : World Uuid) :
    Decidable (sound β e op s) :=
  inferInstanceAs (Decidable (e.db.fault = false ∧ (op.drawsId → e.uuid ∉ s.issued)))

omit [DecidableEq Uuid] [UuidFormat Uuid] [Rfc3339] in
theorem sound_sound : Sound (sound : Guard (RegistrarOp Uuid) (RegistrarEnv Uuid) (World Uuid)) :=
  ⟨fun _ _ _ _ h => h.1, fun _ _ h => h.2 rfl⟩

def answering : Guard (RegistrarOp Uuid) (RegistrarEnv Uuid) (World Uuid) :=
  fun β e op s => dbAnswers β e op s ∧ haproxyAnswers β e op s ∧ freshIds β e op s

instance (β : Type) (e : RegistrarEnv Uuid) (op : RegistrarOp Uuid β) (s : World Uuid) :
    Decidable (answering β e op s) :=
  inferInstanceAs (Decidable (e.db.fault = false ∧ e.haproxy = .calm ∧
    (op.drawsId → e.uuid ∉ s.issued)))

omit [DecidableEq Uuid] [UuidFormat Uuid] [Rfc3339] in
theorem sound_answering :
    Sound (answering : Guard (RegistrarOp Uuid) (RegistrarEnv Uuid) (World Uuid)) :=
  ⟨fun _ _ _ _ h => h.1, fun _ _ h => h.2.2 rfl⟩

section Updates

variable {map : Table Uuid (VolunteerState Uuid)} {db : Db} {issued : List Uuid}

theorem synced_empty : Synced (∅ : Table Uuid (VolunteerState Uuid)) ⟨∅, ∅⟩ [] := by
  constructor <;> simp

theorem Synced.issue (hs : Synced map db issued) (id : Uuid) : Synced map db (id :: issued) :=
  { hs with
    known := fun id' v hv => List.mem_cons_of_mem _ (hs.known id' v hv)
    assignmentOwner := fun key r hr => by
      obtain ⟨id', a, hkey, hrow, hmem⟩ := hs.assignmentOwner key r hr
      exact ⟨id', a, hkey, hrow, List.mem_cons_of_mem _ hmem⟩ }

theorem Synced.write (hs : Synced map db issued) {v : VolunteerState Uuid} {t : DateTime} {db' : Db}
    (hrow : db'.volunteers.lookup (toText v.id) = some (.ofVolunteer { v with lastHeartbeat := t }))
    (hassign : db'.assignments.lookup (toText v.id) = v.assignedService.map (.ofAssignment v.id))
    (hother : ∀ key, key ≠ toText v.id → db'.volunteers.lookup key = db.volunteers.lookup key ∧
      db'.assignments.lookup key = db.assignments.lookup key)
    (hissued : v.id ∈ issued)
    (hname : ∀ id' v', id' ≠ v.id → map.lookup id' = some v' →
      v.info.hostname ≠ [] → v'.info.hostname ≠ v.info.hostname) :
    Synced (map.insert v.id v) db' issued := by
  have hne : ∀ id', id' ≠ v.id → toText id' ≠ toText v.id := fun id' h heq => h (toText_injective heq)
  have hlookup : ∀ id' v', (map.insert v.id v).lookup id' = some v' →
      (id' = v.id ∧ v' = v) ∨ (id' ≠ v.id ∧ map.lookup id' = some v') := by
    intro id' v' h
    rw [Table.lookup_insert_if] at h
    split_ifs at h with hid
    · exact Or.inl ⟨hid, (Option.some.inj h).symm⟩
    · exact Or.inr ⟨hid, h⟩
  constructor
  · intro id' v' h
    rcases hlookup id' v' h with ⟨rfl, rfl⟩ | ⟨-, h⟩
    · rfl
    · exact hs.key id' v' h
  · intro id' v' h
    rcases hlookup id' v' h with ⟨rfl, rfl⟩ | ⟨-, h⟩
    · exact hissued
    · exact hs.known id' v' h
  · intro id₁ v₁ id₂ v₂ h₁ h₂ heq hne'
    rcases hlookup id₁ v₁ h₁ with ⟨rfl, rfl⟩ | ⟨hid₁, hm₁⟩
    · rcases hlookup id₂ v₂ h₂ with ⟨rfl, rfl⟩ | ⟨hid₂, hm₂⟩
      · rfl
      · exact absurd heq.symm (hname id₂ v₂ hid₂ hm₂ hne')
    · rcases hlookup id₂ v₂ h₂ with ⟨rfl, rfl⟩ | ⟨hid₂, hm₂⟩
      · exact absurd heq (hname id₁ v₁ hid₁ hm₁ (heq ▸ hne'))
      · exact hs.hostname id₁ v₁ id₂ v₂ hm₁ hm₂ heq hne'
  · intro id' v' h
    rcases hlookup id' v' h with ⟨rfl, rfl⟩ | ⟨hid, h⟩
    · exact ⟨t, hrow⟩
    · rw [(hother _ (hne id' hid)).1]
      exact hs.row id' v' h
  · intro key r hr
    by_cases hkey : key = toText v.id
    · exact ⟨v.id, v, hkey, AList.lookup_insert _⟩
    · rw [(hother key hkey).1] at hr
      obtain ⟨id', v', rfl, hv'⟩ := hs.rowOwner key r hr
      have hid : id' ≠ v.id := fun heq => hkey (heq ▸ rfl)
      exact ⟨id', v', rfl, by rw [AList.lookup_insert_ne hid]; exact hv'⟩
  · intro id' v' h
    rcases hlookup id' v' h with ⟨rfl, rfl⟩ | ⟨hid, h⟩
    · exact hassign
    · rw [(hother _ (hne id' hid)).2]
      exact hs.assignment id' v' h
  · intro key r hr
    by_cases hkey : key = toText v.id
    · rw [hkey, hassign] at hr
      obtain ⟨a, -, rfl⟩ := Option.map_eq_some_iff.1 hr
      exact ⟨v.id, a, hkey, rfl, hissued⟩
    · rw [(hother key hkey).2] at hr
      exact hs.assignmentOwner key r hr

theorem Synced.remove (hs : Synced map db issued) {id : Uuid} {db' : Db}
    (hrow : db'.volunteers = db.volunteers.erase (toText id))
    (hassign : ∀ key, db'.assignments.lookup key = db.assignments.lookup key ∨
      key = toText id ∧ db'.assignments.lookup key = none) :
    Synced (map.erase id) db' issued := by
  have hlookup : ∀ id' v', (map.erase id).lookup id' = some v' → id' ≠ id ∧ map.lookup id' = some v' := by
    intro id' v' h
    rw [Table.lookup_erase_if] at h
    split_ifs at h with hid
    exact ⟨hid, h⟩
  constructor
  · exact fun id' v' h => hs.key id' v' (hlookup id' v' h).2
  · exact fun id' v' h => hs.known id' v' (hlookup id' v' h).2
  · exact fun id₁ v₁ id₂ v₂ h₁ h₂ => hs.hostname id₁ v₁ id₂ v₂ (hlookup _ _ h₁).2 (hlookup _ _ h₂).2
  · intro id' v' h
    obtain ⟨hid, h⟩ := hlookup id' v' h
    rw [hrow, AList.lookup_erase_ne fun heq => hid (toText_injective heq)]
    exact hs.row id' v' h
  · intro key r hr
    rw [hrow, Table.lookup_erase_if] at hr
    split_ifs at hr with hkey
    obtain ⟨id', v', rfl, hv'⟩ := hs.rowOwner key r hr
    have hid : id' ≠ id := fun heq => hkey (heq ▸ rfl)
    exact ⟨id', v', rfl, by rw [AList.lookup_erase_ne hid]; exact hv'⟩
  · intro id' v' h
    obtain ⟨hid, h⟩ := hlookup id' v' h
    rcases hassign (toText id') with heq | ⟨heq, -⟩
    · rw [heq]
      exact hs.assignment id' v' h
    · exact absurd (toText_injective heq) hid
  · intro key r hr
    rcases hassign key with heq | ⟨-, hnone⟩
    · rw [heq] at hr
      exact hs.assignmentOwner key r hr
    · rw [hnone] at hr
      simp at hr

end Updates

section Lookups

variable {map : Table Uuid (VolunteerState Uuid)} {db : Db} {issued : List Uuid}

theorem Synced.of_row (hs : Synced map db issued) {key : Text} {r : DbRow}
    (hr : db.volunteers.lookup key = some r) :
    ∃ id v t, key = toText id ∧ map.lookup id = some v ∧
      r = .ofVolunteer { v with lastHeartbeat := t } := by
  obtain ⟨id, v, rfl, hv⟩ := hs.rowOwner key r hr
  obtain ⟨t, ht⟩ := hs.row id v hv
  rw [hr] at ht
  exact ⟨id, v, t, rfl, hv, Option.some.inj ht⟩

variable {g : Guard (RegistrarOp Uuid) (RegistrarEnv Uuid) (World Uuid)} {s : World Uuid}

theorem FoundBy.synced (hg : Sound g) (hs : Synced s.volunteers s.db s.issued) {nodeKey : Text}
    {found : Option Uuid} (h : FoundBy g s nodeKey found) :
    (∃ id v, found = some id ∧ s.volunteers.lookup id = some v ∧ v.info.hostname = nodeKey) ∨
      (found = none ∧ ∀ id v, s.volunteers.lookup id = some v → nodeKey ≠ [] →
        v.info.hostname ≠ nodeKey) := by
  cases h with
  | anonymous hk => exact Or.inr ⟨rfl, fun _ _ _ hne => absurd hk hne⟩
  | @inMemory key v hk hv hname =>
      exact Or.inl ⟨v.id, v, rfl, by rw [hs.key key v hv]; exact hv, hname⟩
  | inDatabase hk hno hq =>
      obtain ⟨e, heq⟩ := hq.answered hg.db
      obtain ⟨rfl, -⟩ := Prod.mk.inj heq
      refine Or.inr ⟨?_, fun id v hv _ => hno id v hv⟩
      have hnone : (e.rows.order (Table.values s.db.volunteers)).find? (·.hostname == nodeKey) =
          none := by
        refine List.find?_eq_none.2 fun r hr => ?_
        rw [IterOrder.mem_order, Table.mem_values] at hr
        obtain ⟨key, hkey⟩ := hr
        obtain ⟨id, v, t, -, hv, rfl⟩ := hs.of_row hkey
        simpa [DbRow.ofVolunteer] using hno id v hv
      rw [Db.findByHostname, hnone]
      rfl

theorem AssignmentFound.synced (hg : Sound g) (hs : Synced s.volunteers s.db s.issued) {id : Uuid}
    {v : VolunteerState Uuid} (hv : s.volunteers.lookup id = some v)
    {found : Option ServiceAssignment} (h : AssignmentFound g s (some id) found) :
    found = v.assignedService := by
  cases h with
  | inMemory hv' ha =>
      rw [hv] at hv'
      obtain rfl := Option.some.inj hv'
      exact ha.symm
  | inDatabase hno hq =>
      obtain ⟨e, heq⟩ := hq.answered hg.db
      obtain ⟨rfl, -⟩ := Prod.mk.inj heq
      have hnone := hno v hv
      have hrow := hs.assignment id v hv
      rw [hnone] at hrow ⊢
      rw [Db.getAssignment, hrow]
      rfl

end Lookups

section Recovery

variable {map : Table Uuid (VolunteerState Uuid)} {db : Db} {issued : List Uuid}

omit [UuidFormat Uuid] [Rfc3339] in
theorem lookup_recoveredMap (clock : Uuid → DateTime) {survivors : List (VolunteerState Uuid)}
    (hids : (survivors.map (·.id)).Nodup) (map : Table Uuid (VolunteerState Uuid)) (id : Uuid) :
    (∀ v ∈ survivors, v.id = id → (recoveredMap clock survivors map).lookup id =
      some { v with lastHeartbeat := clock v.id }) ∧
    ((∀ v ∈ survivors, v.id ≠ id) →
      (recoveredMap clock survivors map).lookup id = map.lookup id) := by
  induction survivors generalizing map with
  | nil => simp [recoveredMap]
  | cons w survivors ih =>
      rw [List.map_cons, List.nodup_cons] at hids
      have ih := ih hids.2 (map.insert w.id { w with lastHeartbeat := clock w.id })
      refine ⟨fun v hv hid => ?_, fun hno => ?_⟩
      · rcases List.mem_cons.1 hv with rfl | hv
        · have hrest : ∀ u ∈ survivors, u.id ≠ id := by
            rintro u hu rfl
            exact hids.1 (hid ▸ List.mem_map_of_mem hu)
          have hlast := ih.2 hrest
          rw [← hid, AList.lookup_insert] at hlast
          rw [← hid]
          exact hlast
        · exact ih.1 v hv hid
      · have hlast := ih.2 fun u hu => hno u (List.mem_cons_of_mem _ hu)
        rw [AList.lookup_insert_ne (hno w (by simp)).symm] at hlast
        exact hlast

/-- What a restart makes of an entry: the fields that only live in memory are forgotten. -/
def survived (clock : Uuid → DateTime) (v : VolunteerState Uuid) : VolunteerState Uuid :=
  { v with lastHeartbeat := clock v.id, serviceRunning := none, serviceImage := none }

theorem Synced.volunteers_of_rows (hs : Synced map db issued) (rows : IterOrder DbRow) :
    ∃ ws : List (VolunteerState Uuid),
      ws.map DbRow.ofVolunteer = rows.order (Table.values db.volunteers) ∧
      (∀ w ∈ ws, ∃ v, map.lookup w.id = some v ∧ ∃ t, w = { v with lastHeartbeat := t }) ∧
      (ws.map (·.id)).Nodup := by
  have hrows : ∀ r ∈ rows.order (Table.values db.volunteers), ∃ w : VolunteerState Uuid,
      DbRow.ofVolunteer w = r ∧ ∃ v, map.lookup w.id = some v ∧
        ∃ t, w = { v with lastHeartbeat := t } := by
    intro r hr
    rw [IterOrder.mem_order, Table.mem_values] at hr
    obtain ⟨key, hkey⟩ := hr
    obtain ⟨id, v, t, -, hv, rfl⟩ := hs.of_row hkey
    exact ⟨_, rfl, v, by rw [hs.key id v hv]; exact hv, t, rfl⟩
  obtain ⟨ws, hws, hfrom⟩ := Table.exists_map_eq hrows
  refine ⟨ws, hws, hfrom, ?_⟩
  have hkeys : ((Table.values db.volunteers).map (·.id)).Nodup := by
    refine Table.nodup_map_values db.volunteers fun key r hr => ?_
    obtain ⟨id, v, t, rfl, hv, rfl⟩ := hs.of_row hr
    exact congrArg toText (hs.key id v hv)
  have hperm := ((rows.perm (Table.values db.volunteers)).map (·.id)).nodup_iff.2 hkeys
  rw [← hws, List.map_map] at hperm
  have hcomp : ws.map (DbRow.id ∘ DbRow.ofVolunteer) = (ws.map (·.id)).map toText := by
    rw [List.map_map]
    rfl
  rw [hcomp] at hperm
  exact hperm.of_map

theorem Synced.lookup_loadAssignments (hs : Synced map db issued)
    (assignments : IterOrder AssignmentRow) {id : Uuid} {v : VolunteerState Uuid}
    (hv : map.lookup id = some v) :
    (db.pruneOrphanAssignments.loadAssignments assignments : Table Uuid ServiceAssignment).lookup
      id = v.assignedService := by
  obtain ⟨t, hrow⟩ := hs.row id v hv
  have hkept : db.pruneOrphanAssignments.assignments.lookup (toText id) =
      v.assignedService.map (.ofAssignment id) := by
    rw [Db.pruneOrphanAssignments, Table.lookup_restrict, hrow]
    simpa using hs.assignment id v hv
  rw [Db.lookup_loadAssignments assignments, Db.getAssignment, hkept]
  · cases v.assignedService with
    | none => rfl
    | some a => exact assignment_ofAssignment id a
  · intro key r hr
    rw [Db.pruneOrphanAssignments, Table.lookup_restrict] at hr
    split_ifs at hr
    obtain ⟨id', a, hkey, hrow, -⟩ := hs.assignmentOwner key r hr
    exact ⟨id', a, hkey, hrow⟩

theorem Synced.lookup_recovered (hs : Synced map db issued) (clock : Uuid → DateTime)
    (rows : IterOrder DbRow) (assignments : IterOrder AssignmentRow) (id : Uuid) :
    (recoveredMap clock (Db.attach (db.pruneOrphanAssignments.loadAssignments assignments)
      (rows.order (Table.values db.volunteers))) ∅).lookup id =
        (map.lookup id).map (survived clock) := by
  obtain ⟨ws, hws, hfrom, hids⟩ := hs.volunteers_of_rows rows
  have hattach := Db.attach_map (db.pruneOrphanAssignments.loadAssignments assignments) hids
  rw [hws] at hattach
  rw [hattach]
  have hids' : ((ws.map (Db.attached (db.pruneOrphanAssignments.loadAssignments assignments))).map
      (·.id)).Nodup := by
    rw [List.map_map]
    exact hids
  have hfind := lookup_recoveredMap clock hids' (∅ : Table Uuid (VolunteerState Uuid)) id
  cases hv : map.lookup id with
  | none =>
      refine hfind.2 fun v hv' => ?_
      obtain ⟨w, hw, rfl⟩ := List.mem_map.1 hv'
      obtain ⟨v, hmem, -⟩ := hfrom w hw
      intro hid
      have hwid : w.id = id := hid
      rw [hwid, hv] at hmem
      simp at hmem
  | some v =>
      obtain ⟨t, hrow⟩ := hs.row id v hv
      have hmem : DbRow.ofVolunteer { v with lastHeartbeat := t } ∈ ws.map DbRow.ofVolunteer := by
        rw [hws, IterOrder.mem_order, Table.mem_values]
        exact ⟨_, hrow⟩
      obtain ⟨w, hw, hroweq⟩ := List.mem_map.1 hmem
      obtain ⟨v', hv', t', rfl⟩ := hfrom w hw
      have hid : v'.id = id :=
        (toText_injective (congrArg DbRow.id hroweq)).trans (hs.key id v hv)
      have hsame : map.lookup v'.id = some v' := hv'
      rw [hid, hv] at hsame
      obtain rfl := Option.some.inj hsame
      refine (hfind.1 _ (List.mem_map_of_mem hw) hid).trans ?_
      have hservice := hs.lookup_loadAssignments assignments hv
      rw [← hid] at hservice
      simp only [Db.attached, hservice, Option.map_some, survived]

/-- Recovery leaves memory and database in step again. -/
theorem Synced.recovered (hs : Synced map db issued) {clock : Uuid → DateTime}
    {map' : Table Uuid (VolunteerState Uuid)}
    (hmap : ∀ id, map'.lookup id = (map.lookup id).map (survived clock)) :
    Synced map' db.pruneOrphanAssignments issued := by
  have hfrom : ∀ id v', map'.lookup id = some v' →
      ∃ v, map.lookup id = some v ∧ v' = survived clock v := by
    intro id v' h
    rw [hmap] at h
    obtain ⟨v, hv, rfl⟩ := Option.map_eq_some_iff.1 h
    exact ⟨v, hv, rfl⟩
  constructor
  · intro id v' h
    obtain ⟨v, hv, rfl⟩ := hfrom id v' h
    exact hs.key id v hv
  · intro id v' h
    obtain ⟨v, hv, rfl⟩ := hfrom id v' h
    exact hs.known id v hv
  · intro id₁ v₁ id₂ v₂ h₁ h₂ heq hne
    obtain ⟨w₁, hw₁, rfl⟩ := hfrom id₁ v₁ h₁
    obtain ⟨w₂, hw₂, rfl⟩ := hfrom id₂ v₂ h₂
    exact hs.hostname id₁ w₁ id₂ w₂ hw₁ hw₂ heq hne
  · intro id v' h
    obtain ⟨v, hv, rfl⟩ := hfrom id v' h
    obtain ⟨t, ht⟩ := hs.row id v hv
    exact ⟨t, ht⟩
  · intro key r hr
    obtain ⟨id, v, hkey, hv⟩ := hs.rowOwner key r hr
    exact ⟨id, survived clock v, hkey, by rw [hmap, hv]; rfl⟩
  · intro id v' h
    obtain ⟨v, hv, rfl⟩ := hfrom id v' h
    obtain ⟨t, ht⟩ := hs.row id v hv
    rw [Db.pruneOrphanAssignments, Table.lookup_restrict, ht]
    simpa [survived] using hs.assignment id v hv
  · intro key r hr
    rw [Db.pruneOrphanAssignments, Table.lookup_restrict] at hr
    split_ifs at hr
    exact hs.assignmentOwner key r hr

end Recovery

section Effects

variable {g : Guard (RegistrarOp Uuid) (RegistrarEnv Uuid) (World Uuid)} {s s' : World Uuid}

abbrev InStep (s : World Uuid) : Prop := Synced s.volunteers s.db s.issued

/-- Which service an enrollment leaves the volunteer with: the one it had, the first pending one, or
none, and what is still pending then. -/
inductive Takes (now : DateTime) : Option ServiceAssignment → List PendingService →
    Option ServiceAssignment → List PendingService → Prop
  | kept (a : ServiceAssignment) (ps : List PendingService) : Takes now (some a) ps (some a) ps
  | taken (p : PendingService) (ps : List PendingService) :
      Takes now none (p :: ps) (some (assignmentFor p now)) ps
  | left (ps : List PendingService) : Takes now none ps none ps

/-- The entry that an enrollment will write: a known volunteer with this hostname, or a new one under
an identifier that nothing refers to. -/
structure Entry (s s₁ : World Uuid) (nodeKey : Text) (id : Uuid)
    (existing : Option ServiceAssignment) : Prop where
  inStep : Synced s.volunteers s.db s₁.issued
  volunteers : s₁.volunteers = s.volunteers
  db : s₁.db = s.db
  pending : s₁.pendingServices = s.pendingServices
  issued : id ∈ s₁.issued
  service : existing = (s.volunteers.lookup id).bind (·.assignedService)
  row : existing = none → s.db.assignments.lookup (toText id) = none
  hostname : ∀ id' v, id' ≠ id → s.volunteers.lookup id' = some v → nodeKey ≠ [] →
    v.info.hostname ≠ nodeKey

theorem entry_of_found (hg : Sound g) (hs : InStep s) {nodeKey : Text} {existingId : Option Uuid}
    {existing : Option ServiceAssignment} {id : Uuid} {s₁ : World Uuid}
    (hid : FoundBy g s nodeKey existingId) (hexisting : AssignmentFound g s existingId existing)
    (hident : Identified g s existingId id s₁) : Entry s s₁ nodeKey id existing := by
  rcases hid.synced hg hs with ⟨id', v, rfl, hv, hname⟩ | ⟨rfl, hno⟩
  · cases hident with
    | known =>
      have hservice := hexisting.synced hg hs hv
      refine ⟨hs, rfl, rfl, rfl, hs.known id v hv, by rw [hservice, hv]; rfl, fun hnone => ?_,
        fun id' w hne hw hkey hsame => ?_⟩
      · rw [hs.assignment id v hv, ← hservice, hnone]
        rfl
      · exact hne (hs.hostname id' w id v hw hv (hsame.trans hname.symm) (hsame ▸ hkey))
  · cases hident with
    | @issued e hfresh =>
      cases hexisting with
      | noId =>
        have hnew := hg.ids e s hfresh
        have habsent : s.volunteers.lookup e.uuid = none := by
          cases hv : s.volunteers.lookup e.uuid with
          | none => rfl
          | some v => exact absurd (hs.known _ v hv) hnew
        refine ⟨hs.issue e.uuid, rfl, rfl, rfl, List.mem_cons_self, by rw [habsent]; rfl,
          fun _ => ?_, fun id' v _ => hno id' v⟩
        cases hrow : s.db.assignments.lookup (toText e.uuid) with
        | none => rfl
        | some r =>
            obtain ⟨id', _, heq, _, hmem⟩ := hs.assignmentOwner _ r hrow
            rw [← toText_injective heq] at hmem
            exact absurd hmem hnew

theorem Attached.rows (hg : Sound g) {id : Uuid} {addr : Text} {now : DateTime}
    {existing a : Option ServiceAssignment} (h : Attached g s id addr now existing a s')
    (hrow : existing = none → s.db.assignments.lookup (toText id) = none) :
    s'.volunteers = s.volunteers ∧ s'.issued = s.issued ∧ s'.db.volunteers = s.db.volunteers ∧
      s'.db.assignments.lookup (toText id) = a.map (.ofAssignment id) ∧
      (∀ key, key ≠ toText id → s'.db.assignments.lookup key = s.db.assignments.lookup key) ∧
      Takes now existing s.pendingServices a s'.pendingServices := by
  cases h with
  | reattached _ hq =>
      obtain ⟨e, heq⟩ := hq.answered hg.db
      obtain ⟨-, rfl⟩ := Prod.mk.inj heq
      exact ⟨rfl, rfl, rfl, AList.lookup_insert _, fun key hkey => AList.lookup_insert_ne hkey,
        .kept _ _⟩
  | @taken p ps _ _ hp _ hq =>
      obtain ⟨e, heq⟩ := hq.answered hg.db
      obtain ⟨-, rfl⟩ := Prod.mk.inj heq
      rw [hp]
      exact ⟨rfl, rfl, rfl, AList.lookup_insert _, fun key hkey => AList.lookup_insert_ne hkey,
        .taken p ps⟩
  | refused _ _ => exact ⟨rfl, rfl, rfl, hrow rfl, fun _ _ => rfl, .left _⟩
  | nothingPending _ => exact ⟨rfl, rfl, rfl, hrow rfl, fun _ _ => rfl, .left _⟩

/-- An enrollment on a state in step: which entry it writes and which service it moves. -/
theorem Enrolled.inStep (hg : Sound g) (hs : InStep s) {body : EnrollRequest} {r : EnrollResponse}
    (h : Enrolled g s body r s') :
    InStep s' ∧ ∃ (id : Uuid) (addr : Text) (now : DateTime) (a : Option ServiceAssignment),
      s'.volunteers = s.volunteers.insert id (enrolled body id addr now a) ∧
      r.assignment = a.map payload ∧
      Takes now ((s.volunteers.lookup id).bind (·.assignedService)) s.pendingServices a
        s'.pendingServices := by
  cases h with
  | @mk existingId existing a id addr now s₁ s₂ db res hap _ hid hexisting hident hattached hq _ =>
    have he := entry_of_found hg hs hid hexisting hident
    obtain ⟨hmap, hissued, hrows, hown, hothers, htakes⟩ := hattached.rows hg (by
      rw [he.db]
      exact he.row)
    obtain ⟨e, heq⟩ := hq.answered hg.db
    obtain ⟨-, rfl⟩ := Prod.mk.inj heq
    refine ⟨?_, id, addr, now, a, ?_, rfl, ?_⟩
    · have hwrite := @Synced.write Uuid _ _ _ _ _ _ he.inStep (enrolled body id addr now a) now
        (s₂.db.upsertVolunteer (enrolled body id addr now a)) (AList.lookup_insert _) hown
        (fun key hkey => ⟨by
          rw [← he.db, ← hrows]
          exact AList.lookup_insert_ne hkey, by
          rw [← he.db]
          exact hothers key hkey⟩)
        he.issued fun id' v hne hv hkey => he.hostname id' v hne hv hkey
      rw [← he.volunteers, ← hmap, ← hissued] at hwrite
      exact hwrite
    · rw [← he.volunteers, ← hmap]
      rfl
    · rw [← he.service, ← he.pending]
      exact htakes

theorem Beaten.inStep (hg : Sound g) (hs : InStep s) {body : HeartbeatRequest Uuid}
    {r : HeartbeatReply} (h : Beaten g s body r s') :
    InStep s' ∧ s'.pendingServices = s.pendingServices ∧
      (s'.volunteers = s.volunteers ∨ ∃ v now, s.volunteers.lookup body.volunteerId = some v ∧
        s'.volunteers = s.volunteers.insert body.volunteerId (v.beat now body)) := by
  cases h with
  | unknown _ => exact ⟨hs, rfl, Or.inl rfl⟩
  | @known v now db h hv hq _ =>
      obtain ⟨e, heq⟩ := hq.answered hg.db
      obtain ⟨-, rfl⟩ := Prod.mk.inj heq
      refine ⟨?_, rfl, Or.inr ⟨v, now, hv, rfl⟩⟩
      have hid := hs.key _ v hv
      have hwrite := @Synced.write Uuid _ _ _ _ _ _ hs (v.beat now body) now
        (s.db.upsertVolunteer (v.beat now body)) (AList.lookup_insert _)
        (by rw [← hid] at hv; exact hs.assignment v.id v hv)
        (fun key hkey => ⟨AList.lookup_insert_ne hkey, rfl⟩)
        (by rw [← hid] at hv; exact hs.known v.id v hv)
        (fun id' v' hne hv' hname heq => by
          rw [← hid] at hv
          exact hne (hs.hostname id' v' v.id v hv' hv heq (heq ▸ hname)))
      rw [← hid]
      exact hwrite

theorem Moved.inStep (hg : Sound g) (hs : InStep s) {idStr : Text} {r : VolunteerReply}
    (h : Moved g s idStr r s') :
    InStep s' ∧ s'.pendingServices = s.pendingServices ∧
      (s'.volunteers = s.volunteers ∨ ∃ id v addr, s.volunteers.lookup id = some v ∧
        s'.volunteers = s.volunteers.insert id (v.moveTo addr)) := by
  cases h with
  | badRequest => exact ⟨hs, rfl, Or.inl rfl⟩
  | unknown => exact ⟨hs, rfl, Or.inl rfl⟩
  | @known id v addr db _ h _ _ hv _ _ hq _ =>
      obtain ⟨e, heq⟩ := hq.answered hg.db
      obtain ⟨-, rfl⟩ := Prod.mk.inj heq
      refine ⟨?_, rfl, Or.inr ⟨id, v, addr, hv, rfl⟩⟩
      obtain rfl := hs.key _ v hv
      exact @Synced.write Uuid _ _ _ _ _ _ hs (v.moveTo addr) v.lastHeartbeat
        (s.db.upsertVolunteer (v.moveTo addr)) (AList.lookup_insert _)
        (hs.assignment v.id v hv)
        (fun key hkey => ⟨AList.lookup_insert_ne hkey, rfl⟩)
        (hs.known v.id v hv)
        (fun id' v' hne hv' hname heq => hne (hs.hostname id' v' v.id v hv' hv heq (heq ▸ hname)))

theorem Removed.rows (hg : Sound g) {id : Uuid} (h : Removed g s id s') :
    s'.volunteers = s.volunteers.erase id ∧ s'.db = s.db.removeVolunteer id ∧
      s'.pendingServices = s.pendingServices ∧ s'.issued = s.issued := by
  cases h with
  | mk _ hq _ =>
      obtain ⟨e, heq⟩ := hq.answered hg.db
      obtain ⟨-, rfl⟩ := Prod.mk.inj heq
      exact ⟨rfl, rfl, rfl, rfl⟩

theorem Removed.inStep (hg : Sound g) (hs : InStep s) {id : Uuid} (h : Removed g s id s') :
    InStep s' := by
  obtain ⟨hmap, hdb, -, hissued⟩ := h.rows hg
  rw [InStep, hmap, hdb, hissued]
  exact hs.remove rfl fun key => Or.inl rfl

theorem Departed.inStep (hg : Sound g) (hs : InStep s) {idStr : Text} {r : VolunteerReply}
    (h : Departed g s idStr r s') : InStep s' := by
  cases h with
  | badRequest => exact hs
  | unknown _ hno hs' =>
      rw [hs', InStep, Table.erase_of_lookup_none hno]
      exact hs
  | gone _ _ hremoved => exact hremoved.inStep hg hs

theorem Evicted.inStep (hg : Sound g) (hs : InStep s) {id : Uuid} {a : Option ServiceAssignment}
    (h : Evicted g s id a s') :
    InStep s' ∧ s'.volunteers = s.volunteers.erase id ∧
      ∃ ps, s'.pendingServices = s.pendingServices ++ ps ∧
        ps.map (·.service) = a.toList.map (·.service) := by
  cases h with
  | free hremoved =>
      obtain ⟨hmap, -, hpending, -⟩ := hremoved.rows hg
      exact ⟨hremoved.inStep hg hs, hmap, [], by rw [hpending, List.append_nil], rfl⟩
  | @serving a s₁ db now hremoved hq =>
      obtain ⟨hmap, hdb, hpending, hissued⟩ := hremoved.rows hg
      obtain ⟨e, heq⟩ := hq.answered hg.db
      obtain ⟨-, rfl⟩ := Prod.mk.inj heq
      refine ⟨?_, hmap, [a.service.pending now], by rw [← hpending], rfl⟩
      have hassign : ∀ key, (s₁.db.removeAssignment id).assignments.lookup key =
          s.db.assignments.lookup key ∨
            key = toText id ∧ (s₁.db.removeAssignment id).assignments.lookup key = none := by
        intro key
        rw [hdb, Db.removeAssignment, Table.lookup_erase_if]
        split_ifs with hkey
        · exact Or.inr ⟨hkey, rfl⟩
        · exact Or.inl rfl
      have hremove := @Synced.remove Uuid _ _ _ _ _ _ hs id (s₁.db.removeAssignment id)
        (by rw [hdb]; rfl) hassign
      rw [← hmap, ← hissued] at hremove
      exact hremove

theorem Registered.inStep (hg : Sound g) (hs : InStep s) {body : Service} {r : RegisterReply}
    (h : Registered g s body r s') :
    InStep s' ∧
      ((∃ id v now reply, r = .created reply ∧ s.volunteers.lookup id = some v ∧
          v.assignedService = none ∧ s'.pendingServices = s.pendingServices ∧
          s'.volunteers = s.volunteers.insert id (v.assign (Service.assignment body now))) ∨
        (∃ now reply, r = .created reply ∧ s'.volunteers = s.volunteers ∧
          s'.pendingServices = s.pendingServices ++ [body.pending now]) ∨
        (∃ message, r = .failed message) ∧ s'.volunteers = s.volunteers ∧
          s'.pendingServices = s.pendingServices) := by
  cases h with
  | @assigned key v now h db hv hfree _ hq =>
      obtain ⟨e, heq⟩ := hq.answered hg.db
      obtain ⟨-, rfl⟩ := Prod.mk.inj heq
      obtain rfl := hs.key _ v hv
      rw [@World.alterVolunteer_of_lookup Uuid _ { s with
        haproxy := h, db := s.db.upsertAssignment v.id (Service.assignment body now) } v.id v hv]
      refine ⟨?_, Or.inl ⟨v.id, v, now, _, rfl, hv, hfree, rfl, rfl⟩⟩
      obtain ⟨t, ht⟩ := hs.row v.id v hv
      exact @Synced.write Uuid _ _ _ _ _ _ hs (v.assign (Service.assignment body now)) t
        (s.db.upsertAssignment v.id (Service.assignment body now)) ht (AList.lookup_insert _)
        (fun key hkey => ⟨rfl, AList.lookup_insert_ne hkey⟩)
        (hs.known v.id v hv)
        (fun id' v' hne hv' hname heq => hne (hs.hostname id' v' v.id v hv' hv heq (heq ▸ hname)))
  | refused _ _ _ => exact ⟨hs, Or.inr (Or.inr ⟨⟨_, rfl⟩, rfl, rfl⟩)⟩
  | queued => exact ⟨hs, Or.inr (Or.inl ⟨_, _, rfl, rfl, rfl⟩)⟩

theorem EvictedAll.induct {dead : List (Uuid × Option ServiceAssignment)} (hg : Sound g)
    {P : World Uuid → Prop}
    (hstep : ∀ s id v s', InStep s → s.volunteers.lookup id = some v → P s →
      Evicted g s id v.assignedService s' → P s')
    (hs : InStep s) (hP : P s)
    (hdead : ∀ d ∈ dead, ∃ v, s.volunteers.lookup d.1 = some v ∧ d.2 = v.assignedService)
    (hnodup : (dead.map Prod.fst).Nodup) (h : EvictedAll g dead s s') : InStep s' ∧ P s' := by
  induction h with
  | nil s => exact ⟨hs, hP⟩
  | @cons d ds s s₁ s' hd hds ih =>
      rw [List.map_cons, List.nodup_cons] at hnodup
      obtain ⟨v, hv, ha⟩ := hdead d (by simp)
      rw [ha] at hd
      obtain ⟨hs₁, hmap, -⟩ := hd.inStep hg hs
      refine ih hs₁ (hstep s d.1 v s₁ hs hv hP hd) (fun d' hd' => ?_) hnodup.2
      obtain ⟨w, hw, ha'⟩ := hdead d' (by simp [hd'])
      have hne : d'.1 ≠ d.1 := fun heq => hnodup.1 (heq ▸ List.mem_map_of_mem hd')
      exact ⟨w, by rw [hmap, AList.lookup_erase_ne hne]; exact hw, ha'⟩

/-- What one eviction preserves, a pass of the churn monitor preserves. -/
theorem churn_induct (hg : Sound g) {P : World Uuid → Prop}
    (hstep : ∀ s id v s', InStep s → s.volunteers.lookup id = some v → P s →
      Evicted g s id v.assignedService s' → P s')
    (hs : InStep s) (hP : P s) {dead : List (Uuid × Option ServiceAssignment)}
    (hdead : DeadIn s dead) (hall : EvictedAll g dead s s') : InStep s' ∧ P s' := by
  refine hall.induct hg hstep hs hP (fun d hd => ?_) (hdead.nodup hs.key)
  obtain ⟨key, v, hv, rfl⟩ := hdead.found d hd
  exact ⟨v, by rw [hs.key key v hv]; exact hv, rfl⟩

theorem recovery_inStep (hg : Sound g) (hs : InStep s) {errors : List Error}
    (h : Runs g recovery s.crashed errors s') :
    InStep s' ∧ s'.pendingServices = [] ∧
      ∃ clock, ∀ id, s'.volunteers.lookup id = (s.volunteers.lookup id).map (survived clock) := by
  obtain ⟨clock, h', rows, assignments, rfl⟩ := recovery_run hg.db h
  have hlookup := fun id => Synced.lookup_recovered hs clock rows assignments id
  exact ⟨Synced.recovered hs hlookup, rfl, clock, hlookup⟩

theorem restart_inStep (hg : Sound g) (hs : InStep s) {errors : List Error}
    (h : Runs g restart s errors s') :
    InStep s' ∧ s'.pendingServices = [] ∧
      ∃ clock, ∀ id, s'.volunteers.lookup id = (s.volunteers.lookup id).map (survived clock) :=
  recovery_inStep hg hs (recovery_of_restart h)

end Effects

section Histories

variable {g : Guard (RegistrarOp Uuid) (RegistrarEnv Uuid) (World Uuid)} {s s' : World Uuid}

/-- Every operation keeps memory and database in step. -/
theorem Effect.inStep (hg : Sound g) (hs : InStep s) {q : Request Uuid} {r : Reply Uuid}
    (h : Effect g s q r s') : InStep s' := by
  cases h with
  | enroll h => exact (h.inStep hg hs).1
  | heartbeat h => exact (h.inStep hg hs).1
  | updateTunnelPort h => exact (h.inStep hg hs).1
  | disconnect h => exact h.inStep hg hs
  | registerService h => exact (h.inStep hg hs).1
  | churn hdead h =>
      exact (@churn_induct Uuid _ _ _ g s s' hg (fun _ => True) (fun _ _ _ _ _ _ _ _ => trivial)
        hs trivial _ hdead h).1
  | restart h => exact (restart_inStep hg hs h).1

theorem inStep_initial (h : Haproxy) : InStep (World.initial h : World Uuid) := synced_empty

theorem History.inStep (hg : Sound g) {s₀ : World Uuid} (hs : InStep s₀)
    {events : List (Event Uuid)} (h : History g s₀ events s) : InStep s := by
  induction h with
  | nil => exact hs
  | step _ run ih => exact (handle_run run).inStep hg ih

end Histories

end OpenShard.Registrar
