import OpenShard.Journal

/-!
# Entries and rows

Every operation on a volunteer changes its entry in the map and its row in the database at two
different moments, and writes to the row what the entry was at the first of them. Where no operation
begins such a change on a volunteer while another one is between its two moments, the rows are those
of the map once all requests are served.
-/

namespace OpenShard.Registrar

open UuidFormat Future

section Changes

variable {Uuid : Type} [DecidableEq Uuid]

/-- The volunteers of whom an operation has changed only one of entry and row. -/
def unfinished : Journal Uuid → Multiset Uuid
  | [] => 0
  | entry :: journal => match entry.act, entry.who.1 with
    | .beat id true, _ => id ::ₘ unfinished journal
    | .move id true, _ => id ::ₘ unfinished journal
    | .remove id true, _ => id ::ₘ unfinished journal
    | .remove id false, .churn => id ::ₘ unfinished journal
    | .writeRow v, .enroll _ => v.id ::ₘ unfinished journal
    | .writeRow v, _ => (unfinished journal).erase v.id
    | .insert v, _ => (unfinished journal).erase v.id
    | .eraseRow id, _ => (unfinished journal).erase id
    | _, _ => unfinished journal

def begins (q : Request Uuid) (s : World Uuid) : {β : Type} → RegistrarOp Uuid β → Option Uuid
  | _, .own (.recordHeartbeat body) =>
    (s.volunteers.lookup body.volunteerId).map fun _ => body.volunteerId
  | _, .own (.setServiceAddr id _) => (s.volunteers.lookup id).map fun _ => id
  | _, .own (.removeVolunteer id) => match q with
    | .churn => some id
    | _ => (s.volunteers.lookup id).map fun _ => id
  | _, .db (.upsertVolunteer v) => match q with
    | .enroll _ => some v.id
    | _ => none
  | _, _ => none

/-- No change begins on a volunteer on whom another one is unfinished. -/
def oneWriter : Guard (Step Uuid) (RegistrarEnv Uuid) (Observed Uuid) := fun _ _ op s =>
  ∀ id ∈ begins op.who.1 s.1 op.op, id ∉ unfinished s.2

/-- What a task has still to do: write the row of an entry that it has changed, enter a volunteer
whose row it has written, or erase the row of an entry that it has removed. -/
inductive Debt (Uuid : Type)
  | settled
  | toWrite (v : VolunteerState Uuid)
  | toEnter (id : Uuid) (addr : Text)
  | toErase (id : Uuid)

def Debt.on : Debt Uuid → Option Uuid
  | .settled => none
  | .toWrite v => some v.id
  | .toEnter id _ => some id
  | .toErase id => some id

def entryAddr (s : World Uuid) (id : Uuid) : Option Text :=
  (s.volunteers.lookup id).map (·.info.serviceAddr)

theorem entryAddr_insertVolunteer (s : World Uuid) (v : VolunteerState Uuid) (id : Uuid) :
    entryAddr (s.insertVolunteer v) id =
      if id = v.id then some v.info.serviceAddr else entryAddr s id := by
  simp only [entryAddr, World.insertVolunteer, Table.lookup_insert_if]
  split_ifs
  · rfl
  · rfl

theorem entryAddr_erase (s : World Uuid) (key id : Uuid) :
    entryAddr { s with volunteers := s.volunteers.erase key } id =
      if id = key then none else entryAddr s id := by
  simp only [entryAddr, Table.lookup_erase_if]
  split_ifs
  · rfl
  · rfl

theorem entryAddr_alterVolunteer (s : World Uuid) (id key : Uuid)
    (f : VolunteerState Uuid → VolunteerState Uuid) :
    entryAddr (s.alterVolunteer id f) key =
      if key = id then (s.volunteers.lookup id).map (fun v => (f v).info.serviceAddr)
      else entryAddr s key := by
  rw [entryAddr, lookup_alterVolunteer, entryAddr]
  split_ifs
  · rw [Option.map_map]
    rfl
  · rfl

variable [UuidFormat Uuid]

def rowAddr (s : World Uuid) (id : Uuid) : Option Text :=
  (s.db.volunteers.lookup (toText id)).map (·.serviceAddr)

def Debt.Valid (s : World Uuid) : Debt Uuid → Prop
  | .settled => True
  | .toWrite v => entryAddr s v.id = some v.info.serviceAddr
  | .toEnter id addr => rowAddr s id = some addr
  | .toErase id => entryAddr s id = none

structure InDebt (s : World Uuid) (journal : Journal Uuid) (γs : Multiset (Debt Uuid)) : Prop where
  keyed : Keyed s
  owners : ∀ key ∈ s.db.volunteers, ∃ id : Uuid, key = toText id
  unfinished : unfinished journal = γs.filterMap Debt.on
  alone : (γs.filterMap Debt.on).Nodup
  valid : ∀ γ ∈ γs, γ.Valid s
  agree : ∀ id, id ∉ γs.filterMap Debt.on → entryAddr s id = rowAddr s id

/-- The rows are those of the volunteers in the map, with their addresses. -/
structure RowsMatch (s : World Uuid) : Prop where
  keyed : Keyed s
  rows : ∀ key, key ∈ s.db.volunteers ↔ ∃ id ∈ s.volunteers, key = toText id
  addr : ∀ id v r, s.volunteers.lookup id = some v →
    s.db.volunteers.lookup (toText id) = some r → r.serviceAddr = v.info.serviceAddr

variable {s s' : World Uuid} {journal journal' : Journal Uuid} {γs : Multiset (Debt Uuid)}

theorem Debt.Valid.frame {γ : Debt Uuid} (h : γ.Valid s)
    (hsame : ∀ id ∈ γ.on, entryAddr s' id = entryAddr s id ∧ rowAddr s' id = rowAddr s id) :
    γ.Valid s' := by
  cases γ with
  | settled => trivial
  | toWrite v => exact (hsame v.id rfl).1.trans h
  | toEnter id addr => exact (hsame id rfl).2.trans h
  | toErase id => exact (hsame id rfl).1.trans h

theorem InDebt.frame (h : InDebt s journal γs) (hkeyed : Keyed s') (hdb : s'.db = s.db ∨
      ∀ key, s'.db.volunteers.lookup key = s.db.volunteers.lookup key)
    (hentries : ∀ id, entryAddr s' id = entryAddr s id)
    (hjournal : Registrar.unfinished journal' = Registrar.unfinished journal) :
    InDebt s' journal' γs := by
  have hrows : ∀ key, s'.db.volunteers.lookup key = s.db.volunteers.lookup key := by
    rcases hdb with hdb | hdb
    · intro key
      rw [hdb]
    · exact hdb
  have hrow : ∀ id, rowAddr s' id = rowAddr s id := fun id => by rw [rowAddr, rowAddr, hrows]
  refine ⟨hkeyed, fun key hkey => h.owners key ?_, hjournal.trans h.unfinished, h.alone,
    fun γ hγ => (h.valid γ hγ).frame fun id _ => ⟨hentries id, hrow id⟩, fun id hid => ?_⟩
  · rw [← AList.lookup_isSome, ← hrows, AList.lookup_isSome]
    exact hkey
  · rw [hentries, hrow]
    exact h.agree id hid

theorem InDebt.begin (h : InDebt s journal (.settled ::ₘ γs)) {γ : Debt Uuid} {id : Uuid}
    (hγ : γ.on = some id) (hfree : id ∉ Registrar.unfinished journal)
    (hjournal : Registrar.unfinished journal' = id ::ₘ Registrar.unfinished journal)
    (hkeyed : Keyed s') (howners : ∀ key ∈ s'.db.volunteers, ∃ id : Uuid, key = toText id)
    (hother : ∀ key, key ≠ id → entryAddr s' key = entryAddr s key ∧ rowAddr s' key = rowAddr s key)
    (hvalid : γ.Valid s') : InDebt s' journal' (γ ::ₘ γs) := by
  have hold : (Debt.settled ::ₘ γs).filterMap Debt.on = γs.filterMap Debt.on :=
    Multiset.filterMap_cons_none _ _ rfl
  have hnew : (γ ::ₘ γs).filterMap Debt.on = id ::ₘ γs.filterMap Debt.on :=
    Multiset.filterMap_cons_some _ _ _ hγ
  have hunfinished := h.unfinished
  rw [hold] at hunfinished
  have halone := h.alone
  rw [hold] at halone
  have hnotin : id ∉ γs.filterMap Debt.on := hunfinished ▸ hfree
  refine ⟨hkeyed, howners, by rw [hjournal, hnew, hunfinished], ?_, fun δ hδ => ?_,
    fun key hkey => ?_⟩
  · rw [hnew]
    exact Multiset.nodup_cons.2 ⟨hnotin, halone⟩
  · rcases Multiset.mem_cons.1 hδ with rfl | hδ
    · exact hvalid
    · refine (h.valid δ (Multiset.mem_cons_of_mem hδ)).frame fun key hkey => hother key ?_
      rintro rfl
      exact hnotin ((Multiset.mem_filterMap _ _).2 ⟨δ, hδ, hkey⟩)
  · rw [hnew, Multiset.mem_cons, not_or] at hkey
    rw [(hother key hkey.1).1, (hother key hkey.1).2]
    exact h.agree key (hold ▸ hkey.2)

theorem InDebt.finish {γ : Debt Uuid} (h : InDebt s journal (γ ::ₘ γs)) {id : Uuid}
    (hγ : γ.on = some id)
    (hjournal : Registrar.unfinished journal' = (Registrar.unfinished journal).erase id)
    (hkeyed : Keyed s') (howners : ∀ key ∈ s'.db.volunteers, ∃ id : Uuid, key = toText id)
    (hother : ∀ key, key ≠ id → entryAddr s' key = entryAddr s key ∧ rowAddr s' key = rowAddr s key)
    (hagree : entryAddr s' id = rowAddr s' id) : InDebt s' journal' (.settled ::ₘ γs) := by
  have hnew : (Debt.settled ::ₘ γs).filterMap Debt.on = γs.filterMap Debt.on :=
    Multiset.filterMap_cons_none _ _ rfl
  have hold : (γ ::ₘ γs).filterMap Debt.on = id ::ₘ γs.filterMap Debt.on :=
    Multiset.filterMap_cons_some _ _ _ hγ
  have halone := h.alone
  rw [hold] at halone
  obtain ⟨hnotin, halone⟩ := Multiset.nodup_cons.1 halone
  refine ⟨hkeyed, howners, ?_, by rwa [hnew], fun δ hδ => ?_, fun key hkey => ?_⟩
  · rw [hjournal, h.unfinished, hold, hnew, Multiset.erase_cons_head]
  · rcases Multiset.mem_cons.1 hδ with rfl | hδ
    · trivial
    · refine (h.valid δ (Multiset.mem_cons_of_mem hδ)).frame fun key hkey => hother key ?_
      rintro rfl
      exact hnotin ((Multiset.mem_filterMap _ _).2 ⟨δ, hδ, hkey⟩)
  · rw [hnew] at hkey
    by_cases hid : key = id
    · rw [hid]
      exact hagree
    · rw [(hother key hid).1, (hother key hid).2]
      refine h.agree key ?_
      rw [hold, Multiset.mem_cons, not_or]
      exact ⟨hid, hkey⟩

theorem InDebt.valid_head {γ : Debt Uuid} (h : InDebt s journal (γ ::ₘ γs)) : γ.Valid s :=
  h.valid γ (Multiset.mem_cons_self γ γs)

theorem InDebt.alter_absent (h : InDebt s journal γs) {id : Uuid}
    (hv : s.volunteers.lookup id = none) (f : VolunteerState Uuid → VolunteerState Uuid)
    (hjournal : Registrar.unfinished journal' = Registrar.unfinished journal) :
    InDebt (s.alterVolunteer id f) journal' γs := by
  have hsame : s.alterVolunteer id f = s := by rw [World.alterVolunteer, hv]
  rw [hsame]
  exact h.frame h.keyed (Or.inl rfl) (fun _ => rfl) hjournal

theorem InDebt.alter_present (h : InDebt s journal (.settled ::ₘ γs)) {id : Uuid}
    {v : VolunteerState Uuid} (hv : s.volunteers.lookup id = some v)
    (f : VolunteerState Uuid → VolunteerState Uuid) (hf : ∀ v, (f v).id = v.id)
    (hfree : id ∉ Registrar.unfinished journal)
    (hjournal : Registrar.unfinished journal' = id ::ₘ Registrar.unfinished journal) :
    InDebt (s.alterVolunteer id f) journal' (.toWrite (f v) ::ₘ γs) := by
  have hid : (f v).id = id := (hf v).trans (h.keyed id v hv)
  have hdb := s.alterVolunteer_db id f
  have hentry := fun key => entryAddr_alterVolunteer s id key f
  refine h.begin (congrArg some hid) hfree hjournal (h.keyed.alterVolunteer hf) ?_
    (fun key hkey => ⟨(hentry key).trans (if_neg hkey), by rw [rowAddr, hdb, rowAddr]⟩) ?_
  · rw [hdb]
    exact h.owners
  · rw [Debt.Valid, hid, hentry, if_pos rfl, hv, Option.map_some]

theorem InDebt.remove (h : InDebt s journal (.settled ::ₘ γs)) {id : Uuid}
    (hfree : id ∉ Registrar.unfinished journal)
    (hjournal : Registrar.unfinished journal' = id ::ₘ Registrar.unfinished journal) :
    InDebt { s with volunteers := s.volunteers.erase id } journal' (.toErase id ::ₘ γs) := by
  have hentry := entryAddr_erase s id
  refine h.begin rfl hfree hjournal (fun key v hv => ?_) h.owners
    (fun key hkey => ⟨(hentry key).trans (if_neg hkey), rfl⟩) ((hentry id).trans (if_pos rfl))
  rw [Table.lookup_erase_if] at hv
  split_ifs at hv
  exact h.keyed key v hv

theorem InDebt.arrive (h : InDebt s journal γs) : InDebt s journal (.settled ::ₘ γs) := by
  have hsame : (Debt.settled ::ₘ γs).filterMap Debt.on = γs.filterMap Debt.on :=
    Multiset.filterMap_cons_none _ _ rfl
  refine ⟨h.keyed, h.owners, by rw [hsame, h.unfinished], by rw [hsame]; exact h.alone,
    fun δ hδ => ?_, fun id hid => h.agree id (hsame ▸ hid)⟩
  rcases Multiset.mem_cons.1 hδ with rfl | hδ
  · trivial
  · exact h.valid δ hδ

/-- Where nothing is unfinished, the rows match. -/
theorem InDebt.rowsMatch (h : InDebt s journal γs) (hsettled : ∀ γ ∈ γs, γ = .settled) :
    RowsMatch s := by
  have hagree : ∀ id, entryAddr s id = rowAddr s id := by
    refine fun id => h.agree id fun hid => ?_
    obtain ⟨γ, hγ, hon⟩ := (Multiset.mem_filterMap _ _).1 hid
    rw [hsettled γ hγ] at hon
    simp [Debt.on] at hon
  have hmem : ∀ id, toText id ∈ s.db.volunteers ↔ id ∈ s.volunteers := by
    intro id
    have hsome := congrArg Option.isSome (hagree id)
    rw [entryAddr, rowAddr, Option.isSome_map, Option.isSome_map] at hsome
    rw [← AList.lookup_isSome, ← AList.lookup_isSome, hsome]
  refine ⟨h.keyed, fun key => ⟨fun hkey => ?_, ?_⟩, fun id v r hv hr => ?_⟩
  · obtain ⟨id, rfl⟩ := h.owners key hkey
    exact ⟨id, (hmem id).1 hkey, rfl⟩
  · rintro ⟨id, hid, rfl⟩
    exact (hmem id).2 hid
  · have haddr := hagree id
    rw [entryAddr, rowAddr, hv, hr] at haddr
    exact (Option.some.inj haddr).symm

theorem RowsMatch.inDebt (h : RowsMatch s) : InDebt s [] 0 := by
  refine ⟨h.keyed, fun key hkey => ?_, rfl, Multiset.nodup_zero, by simp, fun id _ => ?_⟩
  · obtain ⟨id, -, hid⟩ := (h.rows key).1 hkey
    exact ⟨id, hid⟩
  · rw [entryAddr, rowAddr]
    cases hv : s.volunteers.lookup id with
    | none =>
        cases hr : s.db.volunteers.lookup (toText id) with
        | none => rfl
        | some r =>
            obtain ⟨id', hid', heq⟩ := (h.rows (toText id)).1 (AList.lookup_isSome.1 (by rw [hr]; rfl))
            obtain rfl := toText_injective heq
            have hsome := AList.lookup_isSome.2 hid'
            rw [hv] at hsome
            simp at hsome
    | some v =>
        have hmem := (h.rows (toText id)).2 ⟨id, AList.lookup_isSome.1 (by rw [hv]; rfl), rfl⟩
        obtain ⟨r, hr⟩ := Option.isSome_iff_exists.1 (AList.lookup_isSome.2 hmem)
        rw [hr, Option.map_some, Option.map_some, h.addr id v r hv hr]

theorem rowsMatch_initial (h : Haproxy) : RowsMatch (World.initial h : World Uuid) := by
  refine ⟨fun key v hv => ?_, fun key => ?_, fun id v r hv => ?_⟩
  · simp [World.initial] at hv
  · simp [World.initial]
  · simp [World.initial] at hv

end Changes

section Writers

variable {Uuid : Type} [DecidableEq Uuid] [UuidFormat Uuid] [Rfc3339]

def neutral : (β : Type) → RegistrarOp Uuid β → Prop
  | _, .own (.recordHeartbeat _) => False
  | _, .own (.insertVolunteer _) => False
  | _, .own (.setServiceAddr _ _) => False
  | _, .own (.removeVolunteer _) => False
  | _, .own (.recoverVolunteers _) => False
  | _, .own .start => False
  | _, .db (.upsertVolunteer _) => False
  | _, .db (.removeVolunteer _) => False
  | _, _ => True

def writing : Discipline (Step Uuid) (RegistrarEnv Uuid) (Observed Uuid) (Debt Uuid) where
  guard β e op s := seen dbAnswers β e op s ∧ oneWriter β e op s
  inv s γs := InDebt s.1 s.2 γs
  safe _ _ _ _ := True

variable {s s' : World Uuid} {journal : Journal Uuid} {γs : Multiset (Debt Uuid)} {q : Served Uuid}
  {e : RegistrarEnv Uuid} {β : Type}

theorem InDebt.step {op : RegistrarOp Uuid β} {c : β} (hop : neutral β op) (h : InDebt s journal γs)
    (he : Machine.exec e op s = some (c, s')) : InDebt s' (Observer.note q e op c journal) γs := by
  cases op with
  | haproxy op =>
      obtain ⟨hap, rfl⟩ := exec_haproxy he
      exact h.frame h.keyed (Or.inl rfl) (fun _ => rfl) rfl
  | db op =>
      obtain ⟨db, hexec, rfl⟩ := exec_db he
      have hdb : db.volunteers = s.db.volunteers := by
        simp only [Machine.exec] at hexec
        split_ifs at hexec
        · rw [← (Prod.mk.inj (Option.some.inj hexec)).2]
        · rw [← (Prod.mk.inj (Option.some.inj hexec)).2]
          cases op with
          | upsertVolunteer v => exact hop.elim
          | removeVolunteer id => exact hop.elim
          | _ => rfl
      have hjournal : Registrar.unfinished (Observer.note q e (RegistrarOp.db op) c journal) =
          Registrar.unfinished journal := by
        cases op with
        | upsertVolunteer v => exact hop.elim
        | removeVolunteer id => exact hop.elim
        | _ => rfl
      exact h.frame h.keyed (Or.inr fun _ => by rw [hdb]) (fun _ => rfl) hjournal
  | own op =>
      have hkeyed := Keyed.answered h.keyed op e
      obtain ⟨rfl, rfl⟩ := Prod.mk.inj (exec_own he)
      cases op with
      | recordHeartbeat body => exact hop.elim
      | insertVolunteer v => exact hop.elim
      | setServiceAddr id addr => exact hop.elim
      | removeVolunteer id => exact hop.elim
      | recoverVolunteers survivors => exact hop.elim
      | start => exact hop.elim
      | setAssignedService id a =>
          refine h.frame hkeyed (Or.inl ?_) (fun key => ?_) rfl
          · change (s.alterVolunteer id (·.assign a)).db = s.db
            rw [World.alterVolunteer]
            split <;> rfl
          · change ((s.alterVolunteer id (·.assign a)).volunteers.lookup key).map _ = _
            rw [lookup_alterVolunteer, entryAddr]
            split_ifs with hkey
            · rw [hkey, Option.map_map]
              rfl
            · rfl
      | _ => exact h.frame h.keyed (Or.inl rfl) (fun _ => rfl) rfl

theorem carries_neutral {α : Type} {t : Async Uuid α} (ht : t.Uses neutral) {γ : Debt Uuid} :
    Carries writing (fun _ δ => δ = γ) (signed (Journal Uuid) q t) γ :=
  carries_signed_uses ht (fun _ _ _ _ _ _ hop hinv _ =>
    ⟨trivial, fun _ _ he => InDebt.step hop hinv he⟩) fun _ => rfl

theorem exec_db_answered {op : DbOp Uuid β} {c : β} (hfault : e.db.fault = false)
    (he : Machine.exec e (RegistrarOp.db op) s = some (c, s')) :
    s' = { s with db := (op.answered e.db s.db).2 } := by
  obtain ⟨db, hexec, rfl⟩ := exec_db he
  simp only [Machine.exec, hfault, Bool.false_eq_true, if_false] at hexec
  rw [Option.some.inj hexec]

theorem rowAddr_upsertVolunteer (s : World Uuid) (v : VolunteerState Uuid) (id : Uuid) :
    rowAddr { s with db := s.db.upsertVolunteer v } id =
      if id = v.id then some v.info.serviceAddr else rowAddr s id := by
  simp only [rowAddr, Db.upsertVolunteer, Table.lookup_insert_if, toText_injective.eq_iff]
  split_ifs
  · rfl
  · rfl

omit [Rfc3339] in
theorem rowAddr_removeVolunteer (s : World Uuid) (key id : Uuid) :
    rowAddr { s with db := s.db.removeVolunteer key } id = if id = key then none else rowAddr s id := by
  simp only [rowAddr, Db.removeVolunteer, Table.lookup_erase_if, toText_injective.eq_iff]
  split_ifs
  · rfl
  · rfl

omit [DecidableEq Uuid] in
theorem owners_upsertVolunteer (h : ∀ key ∈ s.db.volunteers, ∃ id : Uuid, key = toText id)
    (v : VolunteerState Uuid) :
    ∀ key ∈ (s.db.upsertVolunteer v).volunteers, ∃ id : Uuid, key = toText id := by
  intro key hkey
  rcases (AList.mem_insert _).1 hkey with rfl | hkey
  · exact ⟨v.id, rfl⟩
  · exact h key hkey

theorem carries_writeRow (q : Served Uuid) (hq : ∀ body, q.1 ≠ .enroll body) (v : VolunteerState Uuid) :
    Carries writing (fun _ δ => δ = .settled)
      (signed (Journal Uuid) q (query (.upsertVolunteer v))) (.toWrite v) := by
  refine carries_signed_perform fun e s journal γs hinv hg => ⟨trivial, fun _ s' he => ?_⟩
  have hs' := exec_db_answered hg.1 he
  subst hs'
  have hjournal : unfinished (⟨q, e.now, .writeRow v⟩ :: journal) = (unfinished journal).erase v.id := by
    obtain ⟨q, hrestart⟩ := q
    cases q with
    | enroll body => exact absurd rfl (hq body)
    | _ => rfl
  have hrow := rowAddr_upsertVolunteer s v
  refine ⟨_, InDebt.finish hinv rfl hjournal hinv.keyed (owners_upsertVolunteer hinv.owners v)
    (fun key hkey => ⟨rfl, (hrow key).trans (if_neg hkey)⟩) ?_, rfl⟩
  exact (InDebt.valid_head hinv).trans ((hrow v.id).trans (if_pos rfl)).symm

theorem carries_eraseRow (id : Uuid) :
    Carries writing (fun _ δ => δ = .settled)
      (signed (Journal Uuid) q (query (.removeVolunteer id))) (.toErase id) := by
  refine carries_signed_perform fun e s journal γs hinv hg => ⟨trivial, fun _ s' he => ?_⟩
  have hs' := exec_db_answered hg.1 he
  subst hs'
  have hrow := rowAddr_removeVolunteer s id
  refine ⟨_, InDebt.finish hinv rfl rfl hinv.keyed (fun key hkey => hinv.owners key ?_)
    (fun key hkey => ⟨rfl, (hrow key).trans (if_neg hkey)⟩) ?_, rfl⟩
  · exact (AList.mem_erase.1 hkey).2
  · exact (InDebt.valid_head hinv).trans ((hrow id).trans (if_pos rfl)).symm

abbrev Settles {α : Type} (q : Served Uuid) (t : Async Uuid α) : Prop :=
  Carries writing (fun _ δ => δ = .settled) (signed (Journal Uuid) q t) .settled

theorem settles_heartbeat (body : HeartbeatRequest Uuid) (hrestart : Request.heartbeat body ≠ .restart) :
    Settles ⟨.heartbeat body, hrestart⟩ (heartbeat body) := by
  refine carries_signed_bind (carries_signed_perform fun e s journal γs hinv hg =>
    ⟨trivial, fun found s' he => ?_⟩)
  obtain ⟨hfound, hs'⟩ := Prod.mk.inj (exec_own he)
  obtain rfl : s.alterVolunteer body.volunteerId (·.beat e.now body) = s' := hs'
  cases hv : s.volunteers.lookup body.volunteerId with
  | none =>
      obtain rfl : none = found := by simpa [hv] using hfound
      exact ⟨_, InDebt.alter_absent hinv hv _ rfl, carries_signed_pure rfl⟩
  | some v =>
      obtain rfl : some (v.beat e.now body, _) = found := by simpa [hv] using hfound
      have hfree : body.volunteerId ∉ unfinished journal :=
        hg.2 body.volunteerId (by simp [begins, hv])
      refine ⟨_, InDebt.alter_present hinv hv _ (fun _ => rfl) hfree rfl, ?_⟩
      refine carries_signed_bind ((carries_writeRow ⟨_, hrestart⟩ (by simp) _).mono ?_)
      rintro _ _ rfl
      refine carries_neutral ((uses_haproxy (fun _ _ => trivial) _).bind fun r => ?_)
      cases r with
      | ok u => exact uses_pure _
      | error err =>
          dsimp only
          split_ifs
          · exact (uses_haproxy (fun _ _ => trivial) _).bind fun _ => uses_pure _
          · exact uses_pure _

theorem settles_updateTunnelPort (idStr : Text) (port : UInt16)
    (hrestart : (.updateTunnelPort idStr port : Request Uuid) ≠ .restart) :
    Settles ⟨.updateTunnelPort idStr port, hrestart⟩ (updateTunnelPort idStr port) := by
  rw [updateTunnelPort]
  cases (UuidFormat.parseStr idStr : Option Uuid) with
  | none => exact carries_signed_pure rfl
  | some id =>
      refine carries_signed_bind ((carries_neutral
        (uses_serviceAddrFor trivial (fun _ => trivial) _)).mono ?_)
      rintro addr _ rfl
      refine carries_signed_bind (carries_signed_perform fun e s journal γs hinv hg =>
        ⟨trivial, fun found s' he => ?_⟩)
      obtain ⟨hfound, hs'⟩ := Prod.mk.inj (exec_own he)
      obtain rfl : s.alterVolunteer id (·.moveTo addr) = s' := hs'
      cases hv : s.volunteers.lookup id with
      | none =>
          obtain rfl : none = found := by simpa [hv] using hfound
          exact ⟨_, InDebt.alter_absent hinv hv _ rfl, carries_signed_pure rfl⟩
      | some v =>
          obtain rfl : some (v.moveTo addr, _) = found := by simpa [hv] using hfound
          have hfree : id ∉ unfinished journal := hg.2 id (by simp [begins, hv])
          refine ⟨_, InDebt.alter_present hinv hv _ (fun _ => rfl) hfree rfl, ?_⟩
          refine carries_signed_bind ((carries_writeRow ⟨_, hrestart⟩ (by simp) _).mono ?_)
          rintro _ _ rfl
          exact carries_neutral
            ((uses_haproxy (fun _ _ => trivial) _).bind fun _ => uses_pure _)

theorem settles_disconnect (idStr : Text) (hrestart : (.disconnect idStr : Request Uuid) ≠ .restart) :
    Settles ⟨.disconnect idStr, hrestart⟩ (disconnect idStr) := by
  rw [disconnect]
  cases (UuidFormat.parseStr idStr : Option Uuid) with
  | none => exact carries_signed_pure rfl
  | some id =>
      refine carries_signed_bind (carries_signed_perform fun e s journal γs hinv hg =>
        ⟨trivial, fun found s' he => ?_⟩)
      obtain ⟨hfound, hs'⟩ := Prod.mk.inj (exec_own he)
      obtain rfl : { s with volunteers := s.volunteers.erase id } = s' := hs'
      cases hv : s.volunteers.lookup id with
      | none =>
          obtain rfl : none = found := by simpa [hv] using hfound
          refine ⟨_, InDebt.frame hinv (fun key v hkey => ?_) (Or.inl rfl) (fun key => ?_) rfl,
            carries_signed_pure rfl⟩
          · rw [Table.lookup_erase_if] at hkey
            split_ifs at hkey
            exact hinv.keyed key v hkey
          · rw [entryAddr_erase]
            split_ifs with hkey
            · rw [hkey, entryAddr, hv]
              rfl
            · rfl
      | some v =>
          obtain rfl : some v = found := by simpa [hv] using hfound
          have hfree : id ∉ unfinished journal := hg.2 id (by simp [begins, hv])
          refine ⟨_, InDebt.remove hinv hfree rfl, ?_⟩
          refine carries_signed_bind ((carries_eraseRow id).mono ?_)
          rintro _ _ rfl
          exact carries_neutral
            ((uses_haproxy (fun _ _ => trivial) _).bind fun _ => uses_pure _)

theorem settles_evict (hrestart : (.churn : Request Uuid) ≠ .restart) (id : Uuid)
    (assignment : Option ServiceAssignment) : Settles ⟨.churn, hrestart⟩ (evict id assignment) := by
  refine carries_signed_bind (carries_signed_perform fun e s journal γs hinv hg =>
    ⟨trivial, fun found s' he => ?_⟩)
  obtain rfl : { s with volunteers := s.volunteers.erase id } = s' := (Prod.mk.inj (exec_own he)).2
  have hfree : id ∉ unfinished journal := hg.2 id rfl
  have hjournal : unfinished (Observer.note (⟨.churn, hrestart⟩ : Served Uuid) e
      (RegistrarOp.own (.removeVolunteer id)) found journal) = id ::ₘ unfinished journal := by
    cases found with
    | none => rfl
    | some v => rfl
  refine ⟨_, InDebt.remove hinv hfree hjournal, ?_⟩
  refine carries_signed_bind ((carries_eraseRow id).mono ?_)
  rintro _ _ rfl
  refine carries_neutral ((uses_haproxy (fun _ _ => trivial) _).bind fun _ => ?_)
  cases assignment with
  | none => exact uses_pure _
  | some a => exact (uses_perform trivial).bind fun _ => uses_perform trivial

theorem settles_churnPass (hrestart : (.churn : Request Uuid) ≠ .restart) :
    Settles ⟨.churn, hrestart⟩ churnPass := by
  have hall : ∀ dead : List (Uuid × Option ServiceAssignment),
      Settles ⟨.churn, hrestart⟩ (evictAll dead) := by
    intro dead
    induction dead with
    | nil => exact carries_signed_pure rfl
    | cons d dead ih =>
        refine carries_signed_bind ((settles_evict hrestart d.1 d.2).mono ?_)
        rintro _ _ rfl
        exact ih
  have hpick : Uses neutral (own .deadVolunteers :
      Async Uuid (List (Uuid × Option ServiceAssignment))) := uses_perform trivial
  refine carries_signed_bind ((carries_neutral hpick).mono ?_)
  rintro dead _ rfl
  refine carries_signed_bind ((hall dead).mono ?_)
  rintro _ _ rfl
  exact carries_signed_pure rfl

theorem settles_enroll (body : EnrollRequest) (hrestart : (.enroll body : Request Uuid) ≠ .restart) :
    Settles ⟨.enroll body, hrestart⟩ (enroll body) := by
  have hclock : Uses neutral (own .utcNow : Async Uuid DateTime) := uses_perform trivial
  refine carries_signed_bind ((carries_neutral hclock).mono ?_)
  rintro now _ rfl
  refine carries_signed_bind ((carries_neutral
    (uses_serviceAddrFor trivial (fun _ => trivial) _)).mono ?_)
  rintro addr _ rfl
  refine carries_signed_bind ((carries_neutral
    (uses_findExisting (fun _ => trivial) (fun _ => trivial) _)).mono ?_)
  rintro existingId _ rfl
  refine carries_signed_bind ((carries_neutral
    (uses_findAssignment (fun _ => trivial) (fun _ => trivial) _)).mono ?_)
  rintro existing _ rfl
  refine carries_signed_bind ((carries_neutral (uses_identify trivial _)).mono ?_)
  rintro id _ rfl
  have hneutral : ∀ β (op : RegistrarOp Uuid β), RegistrarOp.prepares β op → neutral β op := by
    intro β op hop
    cases op with
    | haproxy op => trivial
    | db op => cases op <;> trivial
    | own op => cases op <;> trivial
  refine carries_signed_bind ((carries_neutral
    ((uses_attachService _ _ _ _).mono hneutral)).mono ?_)
  rintro assigned _ rfl
  refine carries_signed_bind (carries_signed_perform fun e s journal γs hinv hg =>
    ⟨trivial, fun _ s' he => ?_⟩)
  have hs' := exec_db_answered hg.1 he
  subst hs'
  have hrow := rowAddr_upsertVolunteer s (newVolunteer id now { body.info with serviceAddr := addr } assigned)
  refine ⟨.toEnter id addr, InDebt.begin hinv rfl (hg.2 id rfl) rfl hinv.keyed
    (owners_upsertVolunteer hinv.owners _) (fun key hkey => ⟨rfl, (hrow key).trans (if_neg hkey)⟩)
    ((hrow id).trans (if_pos rfl)), ?_⟩
  refine carries_signed_bind (carries_signed_perform fun e s journal γs hinv hg =>
    ⟨trivial, fun _ s' he => ?_⟩)
  obtain ⟨-, rfl⟩ := Prod.mk.inj (exec_own he)
  have hentry := entryAddr_insertVolunteer s
    (newVolunteer id now { body.info with serviceAddr := addr } assigned)
  refine ⟨_, InDebt.finish hinv rfl rfl (keyed_insert hinv.keyed rfl) hinv.owners
    (fun key hkey => ⟨(hentry key).trans (if_neg hkey), rfl⟩) ?_, ?_⟩
  · exact ((hentry id).trans (if_pos rfl)).trans (InDebt.valid_head hinv).symm
  · exact carries_neutral ((uses_haproxy (fun _ _ => trivial) _).bind fun _ => uses_pure _)

theorem settles_handle (q : Served Uuid) : Settles q (handle q.1) := by
  obtain ⟨q, hq⟩ := q
  cases q with
  | enroll body => exact carries_signed_map (settles_enroll body hq)
  | heartbeat body => exact carries_signed_map (settles_heartbeat body hq)
  | updateTunnelPort idStr port => exact carries_signed_map (settles_updateTunnelPort idStr port hq)
  | disconnect idStr => exact carries_signed_map (settles_disconnect idStr hq)
  | churn => exact carries_signed_map (settles_churnPass hq)
  | restart => exact absurd rfl hq
  | registerService body =>
      refine carries_neutral ((uses_handle ⟨_, hq⟩).mono fun β op hop => ?_)
      cases op with
      | haproxy op => trivial
      | db op => cases op <;> trivial
      | own op => cases op <;> trivial

/-- However requests are interleaved: as long as the database answers and no operation begins a
change on a volunteer between the two moments of another one, the table has the rows of exactly the
volunteers in the map, with their addresses, once all requests are served. -/
theorem rows_match {s₀ s : World Uuid} {journal : Journal Uuid}
    {tasks : List (Served Uuid × Future (Step Uuid) (Reply Uuid))} (hinit : RowsMatch s₀)
    (hrun : Interleaving (fun β e op st => seen dbAnswers β e op st ∧ oneWriter β e op st) serve
      (s₀, []) tasks (s, journal)) (hquiet : Quiet tasks) : RowsMatch s := by
  have harrive : ∀ (q : Served Uuid) (st : Observed Uuid) (γs : Multiset (Debt Uuid)),
      writing.inv st γs → ∃ γ, writing.inv st (γ ::ₘ γs) ∧
        Carries writing (fun _ δ => δ = .settled) (serve q) γ :=
    fun q st γs hinv => ⟨.settled, InDebt.arrive hinv, settles_handle q⟩
  obtain ⟨γs, hdisc⟩ := Interleaving.disciplined hinit.inDebt harrive hrun
  refine InDebt.rowsMatch hdisc.2 fun γ hγ => ?_
  obtain ⟨-, -, -, rfl⟩ := hdisc.quiet hquiet γ (Multiset.mem_coe.1 hγ)
  rfl

end Writers

section Schedules

instance (β : Type) (e : RegistrarEnv Node) (op : Step Node β) (s : Observed Node) :
    Decidable (oneWriter β e op s) := inferInstanceAs (Decidable (∀ id ∈ begins _ _ op.op, _))

def movesTo (id : Node) (port : UInt16) : Served Node :=
  ⟨.updateTunnelPort (UuidFormat.toText id) port, by simp⟩

def leaves (id : Node) : Served Node := ⟨.disconnect (UuidFormat.toText id), by simp⟩

/-- A heartbeat is recorded, then the volunteer moves, then the heartbeat writes its row. -/
def staleHeartbeat : List (Move (Served Node) (Observed Node) (RegistrarEnv Node)) :=
  [.arrive (enrolls "volunteer-101" 7001), .advance 0 40 (calmAt 0),
    .arrive (beats .a), .advance 0 1 (calmAt 0),
    .arrive (movesTo .a 7009), .advance 0 40 (calmAt 0), .advance 1 40 (calmAt 0)]

def busyDay : List (Move (Served Node) (Observed Node) (RegistrarEnv Node)) :=
  [.arrive (enrolls "volunteer-101" 7001), .advance 0 4 (calmAt 0),
    .arrive (enrolls "volunteer-102" 7002), .advance 0 40 (calmAt 0), .advance 1 40 (calmAt 0),
    .arrive (beats .a), .advance 0 1 (calmAt 0), .arrive (leaves .b), .advance 0 40 (calmAt 0),
    .advance 1 40 (calmAt 0), .arrive (movesTo .a 7009), .advance 0 40 (calmAt 0)]

abbrev orderly : Guard (Step Node) (RegistrarEnv Node) (Observed Node) :=
  fun β e op st => seen dbAnswers β e op st ∧ oneWriter β e op st

instance (β : Type) (e : RegistrarEnv Node) (op : RegistrarOp Node β) (s : World Node) :
    Decidable (dbAnswers β e op s) := inferInstanceAs (Decidable (e.db.fault = false))

/-- A heartbeat that writes late takes a volunteer's row back to its old address. -/
theorem rows_go_stale :
    ¬ ∀ (s₀ s : World Node) (journal : Journal Node)
      (tasks : List (Served Node × Future (Step Node) (Reply Node))), RowsMatch s₀ →
      Interleaving (seen answering) serve (s₀, []) tasks (s, journal) → Quiet tasks →
      RowsMatch s := by
  intro hclaim
  have hquiet : Quiet (played (seen answering) staleHeartbeat).1 := by
    decide +kernel
  have haddrs : entryAddr (played (seen answering) staleHeartbeat).2.1 .a = some "tunnel:7009" ∧
      rowAddr (played (seen answering) staleHeartbeat).2.1 .a = some "tunnel:7001" := by
    decide +kernel
  have hmatch := hclaim _ _ _ _ (rowsMatch_initial smallHaproxy)
    (interleaving_played (seen answering) staleHeartbeat) hquiet
  obtain ⟨v, hv, hnew⟩ := Option.map_eq_some_iff.1 haddrs.1
  obtain ⟨r, hr, hold⟩ := Option.map_eq_some_iff.1 haddrs.2
  have hsame := hmatch.addr .a v r hv hr
  rw [hnew, hold] at hsame
  exact absurd hsame (by decide)

theorem rows_match_busy :
    RowsMatch (played orderly busyDay).2.1 ∧ (played orderly busyDay).2.1.volunteers.keys = [.a] := by
  have hquiet : Quiet (played orderly busyDay).1 := by
    decide +kernel
  have hkeys : (played orderly busyDay).2.1.volunteers.keys = [.a] := by
    decide +kernel
  exact ⟨rows_match (rowsMatch_initial smallHaproxy) (interleaving_played orderly busyDay) hquiet, hkeys⟩

end Schedules

end OpenShard.Registrar
