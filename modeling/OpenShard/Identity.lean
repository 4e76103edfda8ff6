import OpenShard.Journal

/-!
# One identity per node

An enrollment looks its hostname up, in memory and then in the database, and much later enters the
map under the identifier it found or drew. Two enrollments of one hostname that both look before
either of them enters get two identifiers. Where no enrollment looks a hostname up while another one
is between its look and its entry, a hostname has one identifier until its volunteer is removed.
-/

namespace OpenShard.Registrar

open UuidFormat

section Identities

variable {Uuid : Type} [DecidableEq Uuid]

def searchedIn : Journal Uuid → Multiset Text
  | [] => 0
  | entry :: journal => match entry.act with
    | .lookUp hostname => hostname ::ₘ searchedIn journal
    | .insert v => (searchedIn journal).erase v.info.hostname
    | _ => searchedIn journal

/-- The identifier under which the hostname was entered last, unless it has been removed since. -/
def current (hostname : Text) : Journal Uuid → Option Uuid
  | [] => none
  | entry :: journal => match entry.act with
    | .insert v => if v.info.hostname = hostname then some v.id else current hostname journal
    | .remove id _ => if current hostname journal = some id then none else current hostname journal
    | _ => current hostname journal

/-- Every enrollment entered its hostname under the identifier that it had, if it had one. -/
def Agrees : Journal Uuid → Prop
  | [] => True
  | entry :: journal =>
    (∀ v, entry.act = .insert v → v.info.hostname ≠ [] →
      ∀ id ∈ current v.info.hostname journal, v.id = id) ∧ Agrees journal

/-- The volunteer was removed after the earlier entry and before the later one. -/
def RemovedBetween (id : Uuid) (earlier later : JournalEntry Uuid) (journal : Journal Uuid) : Prop :=
  ∃ after between before, journal = after ++ later :: (between ++ earlier :: before) ∧
    ∃ entry ∈ between, ∃ found, entry.act = .remove id found

def looksUp : {β : Type} → RegistrarOp Uuid β → Option Text
  | _, .own (.findByKey nodeKey) => some nodeKey
  | _, _ => none

/-- An enrollment looks its hostname up only while no other one of that hostname is between its look
and its entry, and no identifier is drawn twice. -/
def oneAtATime : Guard (Step Uuid) (RegistrarEnv Uuid) (Observed Uuid) := fun _ e op s =>
  (∀ hostname ∈ looksUp op.op, hostname ∉ searchedIn s.2) ∧ (op.op.drawsId → e.uuid ∉ s.1.issued)

/-- How far a task has come: it has looked a hostname up and may know its identifier, or holds an
identifier with its hostname, or has entered a hostname under an identifier. -/
inductive Stage (Uuid : Type)
  | idle
  | searching (hostname : Text) (known : Option Uuid)
  | holding (id : Uuid) (hostname : Text)
  | entered (hostname : Text) (id : Uuid)

def Stage.searched : Stage Uuid → Option Text
  | .searching hostname _ => some hostname
  | _ => none

variable [UuidFormat Uuid]

/-- Identifiers belong to one hostname each, in the map and in the database. -/
structure Named (owner : Uuid → Text) (s : World Uuid) : Prop where
  entries : ∀ key v, s.volunteers.lookup key = some v →
    v.id = key ∧ v.info.hostname = owner key ∧ key ∈ s.issued
  rows : ∀ key r, s.db.volunteers.lookup key = some r →
    ∃ id : Uuid, r.id = toText id ∧ r.hostname = owner id ∧ id ∈ s.issued

def Stage.Valid (owner : Uuid → Text) (s : World Uuid) (journal : Journal Uuid) : Stage Uuid → Prop
  | .idle => True
  | .searching hostname known => hostname ≠ [] ∧
      (∀ key ∈ s.volunteers, owner key = hostname → known = some key) ∧
      ∀ id ∈ known, owner id = hostname ∧ id ∈ s.issued
  | .holding id hostname => owner id = hostname ∧ id ∈ s.issued
  | .entered hostname id => ∃ entry ∈ journal, ∃ v, entry.act = .insert v ∧
      v.info.hostname = hostname ∧ v.id = id

structure OneName (owner : Uuid → Text) (s : World Uuid) (journal : Journal Uuid)
    (γs : Multiset (Stage Uuid)) : Prop where
  named : Named owner s
  unique : ∀ key ∈ s.volunteers, ∀ key' ∈ s.volunteers, owner key = owner key' → owner key ≠ [] →
    key = key'
  searched : searchedIn journal = γs.filterMap Stage.searched
  alone : (γs.filterMap Stage.searched).Nodup
  current : ∀ hostname id, hostname ≠ [] → current hostname journal = some id →
    id ∈ s.volunteers ∧ owner id = hostname
  agrees : Agrees journal
  stages : ∀ γ ∈ γs, γ.Valid owner s journal

def Act.silent : Act Uuid → Prop
  | .lookUp _ => False
  | .insert _ => False
  | .remove _ _ => False
  | _ => True

variable {owner : Uuid → Text} {s s' : World Uuid} {journal journal' : Journal Uuid}
  {γs : Multiset (Stage Uuid)}

/-- What two journals have in common if one is the other with at most one silent entry more. -/
structure Quieter (journal journal' : Journal Uuid) : Prop where
  searched : searchedIn journal' = searchedIn journal
  current : ∀ hostname, Registrar.current hostname journal' = Registrar.current hostname journal
  agrees : Agrees journal → Agrees journal'
  mono : ∀ entry ∈ journal, entry ∈ journal'

omit [UuidFormat Uuid] in
theorem quieter_refl (journal : Journal Uuid) : Quieter journal journal :=
  ⟨rfl, fun _ => rfl, id, fun _ h => h⟩

omit [UuidFormat Uuid] in
theorem quieter_cons {entry : JournalEntry Uuid} (h : entry.act.silent) :
    Quieter journal (entry :: journal) := by
  obtain ⟨who, time, act⟩ := entry
  cases act with
  | lookUp hostname => exact h.elim
  | insert v => exact h.elim
  | remove id found => exact h.elim
  | _ =>
      refine ⟨rfl, fun _ => rfl, fun hagrees => ⟨fun v hv => ?_, hagrees⟩, fun _ hmem =>
        List.mem_cons_of_mem _ hmem⟩
      simp at hv

omit [DecidableEq Uuid] [UuidFormat Uuid] in
theorem Stage.Valid.mono {γ : Stage Uuid} (h : γ.Valid owner s journal)
    (hmap : ∀ key, key ∈ s'.volunteers → key ∈ s.volunteers)
    (hissued : ∀ id ∈ s.issued, id ∈ s'.issued) (hjournal : ∀ entry ∈ journal, entry ∈ journal') :
    γ.Valid owner s' journal' := by
  cases γ with
  | idle => trivial
  | searching hostname known =>
      exact ⟨h.1, fun key hkey => h.2.1 key (hmap key hkey),
        fun id hid => ⟨(h.2.2 id hid).1, hissued id (h.2.2 id hid).2⟩⟩
  | holding id hostname => exact ⟨h.1, hissued id h.2⟩
  | entered hostname id =>
      obtain ⟨entry, hentry, hrest⟩ := h
      exact ⟨entry, hjournal entry hentry, hrest⟩

theorem OneName.frame (h : OneName owner s journal γs) (hnamed : Named owner s')
    (hmap : ∀ key, key ∈ s'.volunteers ↔ key ∈ s.volunteers) (hissued : s'.issued = s.issued)
    (hjournal : Quieter journal journal') : OneName owner s' journal' γs where
  named := hnamed
  unique key hkey key' hkey' := h.unique key ((hmap key).1 hkey) key' ((hmap key').1 hkey')
  searched := hjournal.searched.trans h.searched
  alone := h.alone
  current hostname id hne hid := by
    rw [hjournal.current] at hid
    have hcurrent := h.current hostname id hne hid
    exact ⟨(hmap id).2 hcurrent.1, hcurrent.2⟩
  agrees := hjournal.agrees h.agrees
  stages γ hγ := (h.stages γ hγ).mono (fun key => (hmap key).1) (fun id hid => hissued ▸ hid)
    hjournal.mono

omit [UuidFormat Uuid] in
theorem mem_alterVolunteer {id key : Uuid} {f : VolunteerState Uuid → VolunteerState Uuid} :
    key ∈ (s.alterVolunteer id f).volunteers ↔ key ∈ s.volunteers := by
  rw [← AList.lookup_isSome, ← AList.lookup_isSome, lookup_alterVolunteer]
  split_ifs with hk
  · rw [hk, Option.isSome_map]
  · rfl

theorem Named.alterVolunteer (h : Named owner s) {id : Uuid}
    {f : VolunteerState Uuid → VolunteerState Uuid} (hid : ∀ v, (f v).id = v.id)
    (hname : ∀ v, (f v).info.hostname = v.info.hostname) : Named owner (s.alterVolunteer id f) where
  entries key v hv := by
    have hissued : (s.alterVolunteer id f).issued = s.issued := by
      rw [World.alterVolunteer]
      split <;> rfl
    rw [lookup_alterVolunteer] at hv
    rw [hissued]
    split_ifs at hv with hk
    · obtain ⟨w, hw, rfl⟩ := Option.map_eq_some_iff.1 hv
      rw [hid, hname, hk]
      exact h.entries id w hw
    · exact h.entries key v hv
  rows key r hr := by
    have hsame : (s.alterVolunteer id f).db = s.db ∧ (s.alterVolunteer id f).issued = s.issued := by
      rw [World.alterVolunteer]
      split <;> exact ⟨rfl, rfl⟩
    rw [hsame.1] at hr
    rw [hsame.2]
    exact h.rows key r hr

theorem OneName.alterVolunteer (h : OneName owner s journal γs) {id : Uuid}
    {f : VolunteerState Uuid → VolunteerState Uuid} (hid : ∀ v, (f v).id = v.id)
    (hname : ∀ v, (f v).info.hostname = v.info.hostname) (hjournal : Quieter journal journal') :
    OneName owner (s.alterVolunteer id f) journal' γs := by
  refine h.frame (h.named.alterVolunteer hid hname) (fun key => mem_alterVolunteer) ?_ hjournal
  rw [World.alterVolunteer]
  split <;> rfl

theorem OneName.removeVolunteer (h : OneName owner s journal γs) {id : Uuid} {entry : JournalEntry Uuid}
    {found : Bool} (hact : entry.act = .remove id found) :
    OneName owner { s with volunteers := s.volunteers.erase id } (entry :: journal) γs where
  named := by
    refine ⟨fun key v hv => ?_, h.named.rows⟩
    rw [Table.lookup_erase_if] at hv
    split_ifs at hv
    exact h.named.entries key v hv
  unique key hkey key' hkey' :=
    h.unique key (AList.mem_erase.1 hkey).2 key' (AList.mem_erase.1 hkey').2
  searched := by
    rw [searchedIn, hact]
    exact h.searched
  alone := h.alone
  current hostname key hne hcurrent := by
    rw [Registrar.current, hact] at hcurrent
    simp only at hcurrent
    split_ifs at hcurrent with hid
    obtain ⟨hmem, howner⟩ := h.current hostname key hne hcurrent
    refine ⟨AList.mem_erase.2 ⟨?_, hmem⟩, howner⟩
    rintro rfl
    exact hid hcurrent
  agrees := by
    refine ⟨fun v hv => ?_, h.agrees⟩
    rw [hact] at hv
    simp at hv
  stages γ hγ := (h.stages γ hγ).mono (fun key hkey => (AList.mem_erase.1 hkey).2) (fun _ hid => hid)
    fun _ hmem => List.mem_cons_of_mem _ hmem

theorem OneName.stage {γ γ' : Stage Uuid} (h : OneName owner s journal (γ ::ₘ γs))
    (hsearched : γ'.searched = γ.searched) (hvalid : γ'.Valid owner s journal) :
    OneName owner s journal (γ' ::ₘ γs) where
  named := h.named
  unique := h.unique
  searched := by
    rw [h.searched]
    cases hγ : γ.searched with
    | none => rw [Multiset.filterMap_cons_none _ _ hγ,
        Multiset.filterMap_cons_none _ _ (hsearched.trans hγ)]
    | some hostname => rw [Multiset.filterMap_cons_some _ _ _ hγ,
        Multiset.filterMap_cons_some _ _ _ (hsearched.trans hγ)]
  alone := by
    have halone := h.alone
    cases hγ : γ.searched with
    | none =>
        rw [Multiset.filterMap_cons_none _ _ hγ] at halone
        rwa [Multiset.filterMap_cons_none _ _ (hsearched.trans hγ)]
    | some hostname =>
        rw [Multiset.filterMap_cons_some _ _ _ hγ] at halone
        rwa [Multiset.filterMap_cons_some _ _ _ (hsearched.trans hγ)]
  current := h.current
  agrees := h.agrees
  stages δ hδ := by
    rcases Multiset.mem_cons.1 hδ with rfl | hδ
    · exact hvalid
    · exact h.stages δ (Multiset.mem_cons_of_mem hδ)

theorem OneName.valid {γ : Stage Uuid} (h : OneName owner s journal (γ ::ₘ γs)) :
    γ.Valid owner s journal := h.stages γ (Multiset.mem_cons_self γ γs)

/-- The operation has nothing to do with who has which identifier, or only removes a volunteer. -/
def nameless : (β : Type) → RegistrarOp Uuid β → Prop
  | _, .own (.findByKey _) => False
  | _, .own (.insertVolunteer _) => False
  | _, .own .newV4 => False
  | _, .own .start => False
  | _, .own (.recoverVolunteers _) => False
  | _, .db (.upsertVolunteer _) => False
  | _, _ => True

variable [Rfc3339] {e : RegistrarEnv Uuid} {q : Served Uuid} {β : Type}

theorem Named.db (h : Named owner s) {op : DbOp Uuid β} {c : β} {db : Db}
    (hop : nameless β (.db op)) (he : Machine.exec e.db op s.db = some (c, db)) :
    Named owner { s with db } := by
  refine ⟨h.entries, fun key r hr => ?_⟩
  simp only [Machine.exec] at he
  split_ifs at he with hfault
  · obtain ⟨-, rfl⟩ := Prod.mk.inj (Option.some.inj he)
    exact h.rows key r hr
  · have hdb := (Prod.mk.inj (Option.some.inj he)).2
    cases op with
    | upsertVolunteer v => exact hop.elim
    | removeVolunteer id =>
        obtain rfl : s.db.removeVolunteer id = db := hdb
        have hlookup : (s.db.volunteers.erase (toText id)).lookup key = some r := hr
        rw [Table.lookup_erase_if] at hlookup
        split_ifs at hlookup
        exact h.rows key r hlookup
    | _ =>
        obtain rfl := hdb
        exact h.rows key r hr

theorem OneName.step {op : RegistrarOp Uuid β} {c : β} (hop : nameless β op)
    (h : OneName owner s journal γs) (he : Machine.exec e op s = some (c, s')) :
    OneName owner s' (Observer.note q e op c journal) γs := by
  cases op with
  | haproxy op =>
      obtain ⟨hap, rfl⟩ := exec_haproxy he
      exact h.frame ⟨h.named.entries, h.named.rows⟩ (fun _ => Iff.rfl) rfl (quieter_refl journal)
  | db op =>
      obtain ⟨db, hexec, rfl⟩ := exec_db he
      have hnamed := h.named.db hop hexec
      cases op with
      | upsertVolunteer v => exact hop.elim
      | removeVolunteer id => exact h.frame hnamed (fun _ => Iff.rfl) rfl (quieter_cons trivial)
      | _ => exact h.frame hnamed (fun _ => Iff.rfl) rfl (quieter_refl journal)
  | own op =>
      obtain ⟨rfl, rfl⟩ := Prod.mk.inj (exec_own he)
      have hsame : Named owner s := h.named
      cases op with
      | findByKey nodeKey => exact hop.elim
      | insertVolunteer v => exact hop.elim
      | newV4 => exact hop.elim
      | start => exact hop.elim
      | recoverVolunteers survivors => exact hop.elim
      | removeVolunteer id => exact h.removeVolunteer rfl
      | recordHeartbeat body =>
          exact h.alterVolunteer (fun _ => rfl) (fun _ => rfl) (quieter_cons trivial)
      | setServiceAddr id addr =>
          exact h.alterVolunteer (fun _ => rfl) (fun _ => rfl) (quieter_cons trivial)
      | setAssignedService id a =>
          exact h.alterVolunteer (fun _ => rfl) (fun _ => rfl) (quieter_refl journal)
      | deadVolunteers => exact h.frame hsame (fun _ => Iff.rfl) rfl (quieter_cons trivial)
      | _ => exact h.frame ⟨hsame.entries, hsame.rows⟩ (fun _ => Iff.rfl) rfl (quieter_refl journal)

omit [Rfc3339] in
theorem OneName.issued (h : OneName owner s journal γs) {key : Uuid} (hkey : key ∈ s.volunteers) :
    key ∈ s.issued := by
  obtain ⟨v, hv⟩ := Option.isSome_iff_exists.1 (AList.lookup_isSome.2 hkey)
  exact (h.named.entries key v hv).2.2

omit [Rfc3339] in
theorem OneName.draw (h : OneName owner s journal γs) {id : Uuid} (hfresh : id ∉ s.issued)
    (hostname : Text) :
    OneName (Function.update owner id hostname) { s with issued := id :: s.issued } journal γs := by
  have hold : ∀ key ∈ s.issued, Function.update owner id hostname key = owner key := by
    intro key hkey
    refine Function.update_of_ne ?_ _ _
    rintro rfl
    exact hfresh hkey
  have hmem : ∀ key ∈ s.volunteers, Function.update owner id hostname key = owner key :=
    fun key hkey => hold key (h.issued hkey)
  refine ⟨⟨fun key v hv => ?_, fun key r hr => ?_⟩, fun key hkey key' hkey' heq hne => ?_, h.searched,
    h.alone, fun host key hne hcurrent => ?_, h.agrees, fun γ hγ => ?_⟩
  · obtain ⟨hid, hname, hissued⟩ := h.named.entries key v hv
    exact ⟨hid, hname.trans (hold key hissued).symm, List.mem_cons_of_mem _ hissued⟩
  · obtain ⟨id', hid', hname, hissued⟩ := h.named.rows key r hr
    exact ⟨id', hid', hname.trans (hold id' hissued).symm, List.mem_cons_of_mem _ hissued⟩
  · rw [hmem key hkey] at heq hne
    rw [hmem key' hkey'] at heq
    exact h.unique key hkey key' hkey' heq hne
  · obtain ⟨hkey, howner⟩ := h.current host key hne hcurrent
    exact ⟨hkey, (hmem key hkey).trans howner⟩
  · have hvalid := h.stages γ hγ
    cases γ with
    | idle => trivial
    | searching host known =>
        refine ⟨hvalid.1, fun key hkey howner => ?_, fun id' hid' => ?_⟩
        · exact hvalid.2.1 key hkey ((hmem key hkey).symm.trans howner)
        · obtain ⟨howner, hissued⟩ := hvalid.2.2 id' hid'
          exact ⟨(hold id' hissued).trans howner, List.mem_cons_of_mem _ hissued⟩
    | holding id' host =>
        exact ⟨(hold id' hvalid.2).trans hvalid.1, List.mem_cons_of_mem _ hvalid.2⟩
    | entered host id' => exact hvalid

omit [Rfc3339] in
theorem OneName.lookUp {hostname : Text} {known : Option Uuid} {entry : JournalEntry Uuid}
    (h : OneName owner s journal (.idle ::ₘ γs)) (hact : entry.act = .lookUp hostname)
    (hfree : hostname ∉ searchedIn journal)
    (hvalid : (Stage.searching hostname known).Valid owner s journal) :
    OneName owner s (entry :: journal) (.searching hostname known ::ₘ γs) := by
  have hsearched : searchedIn journal = γs.filterMap Stage.searched := by
    rw [h.searched, Multiset.filterMap_cons_none _ _ rfl]
  have hnew : (Stage.searching hostname known ::ₘ γs).filterMap Stage.searched =
      hostname ::ₘ γs.filterMap Stage.searched := Multiset.filterMap_cons_some _ _ _ rfl
  refine ⟨h.named, h.unique, ?_, ?_, fun host id hne hcurrent => ?_, ⟨fun v hv => ?_, h.agrees⟩,
    fun γ hγ => ?_⟩
  · rw [hnew, searchedIn, hact, ← hsearched]
  · have halone := h.alone
    rw [Multiset.filterMap_cons_none _ _ rfl] at halone
    rw [hnew, Multiset.nodup_cons, ← hsearched]
    exact ⟨hfree, hsearched ▸ halone⟩
  · rw [Registrar.current, hact] at hcurrent
    exact h.current host id hne hcurrent
  · rw [hact] at hv
    simp at hv
  · rcases Multiset.mem_cons.1 hγ with rfl | hγ
    · exact hvalid
    · exact (h.stages γ (Multiset.mem_cons_of_mem hγ)).mono (fun _ hkey => hkey) (fun _ hid => hid)
        fun _ hmem => List.mem_cons_of_mem _ hmem

def claimed (hostname : Text) (id : Uuid) : Stage Uuid :=
  if hostname = [] then .holding id hostname else .searching hostname (some id)

omit [DecidableEq Uuid] [UuidFormat Uuid] [Rfc3339] in
theorem claimed_valid {hostname : Text} {id : Uuid}
    (h : (claimed hostname id).Valid owner s journal) : owner id = hostname ∧ id ∈ s.issued := by
  rw [claimed] at h
  split_ifs at h
  · exact h
  · exact h.2.2 id rfl

omit [DecidableEq Uuid] [UuidFormat Uuid] [Rfc3339] in
theorem claimed_key {hostname : Text} {id key : Uuid} (hne : hostname ≠ [])
    (h : (claimed hostname id).Valid owner s journal) (hkey : key ∈ s.volunteers)
    (howner : owner key = hostname) : id = key := by
  rw [claimed, if_neg hne] at h
  exact Option.some.inj (h.2.1 key hkey howner)

omit [Rfc3339] in
theorem OneName.nonempty (h : OneName owner s journal γs) :
    ([] : Text) ∉ γs.filterMap Stage.searched := by
  intro hmem
  obtain ⟨γ, hγ, hsearched⟩ := (Multiset.mem_filterMap _ _).1 hmem
  have hvalid := h.stages γ hγ
  cases γ with
  | searching hostname known =>
      obtain rfl : hostname = [] := Option.some.inj hsearched
      exact hvalid.1 rfl
  | _ => simp [Stage.searched] at hsearched

omit [Rfc3339] in
theorem OneName.claimed_alone {hostname : Text} {id : Uuid}
    (h : OneName owner s journal (claimed hostname id ::ₘ γs)) :
    hostname ∉ γs.filterMap Stage.searched ∧
      (searchedIn journal).erase hostname = γs.filterMap Stage.searched := by
  have hempty := h.nonempty
  have halone := h.alone
  rw [h.searched]
  by_cases hne : hostname = []
  · subst hne
    have hnone : (claimed ([] : Text) id).searched = none := by rw [claimed, if_pos rfl]; rfl
    rw [Multiset.filterMap_cons_none _ _ hnone] at hempty ⊢
    exact ⟨hempty, Multiset.erase_of_notMem hempty⟩
  · have hsome : (claimed hostname id).searched = some hostname := by
      rw [claimed, if_neg hne]
      rfl
    rw [Multiset.filterMap_cons_some _ _ _ hsome, Multiset.nodup_cons] at halone
    rw [Multiset.filterMap_cons_some _ _ _ hsome, Multiset.erase_cons_head]
    exact ⟨halone.1, rfl⟩

omit [Rfc3339] in
theorem OneName.insert {v : VolunteerState Uuid} {entry : JournalEntry Uuid}
    (h : OneName owner s journal (claimed v.info.hostname v.id ::ₘ γs))
    (hact : entry.act = .insert v) :
    OneName owner (s.insertVolunteer v) (entry :: journal)
      (.entered v.info.hostname v.id ::ₘ γs) := by
  obtain ⟨hothers, herase⟩ := h.claimed_alone
  obtain ⟨howner, hissued⟩ := claimed_valid h.valid
  have hmem : ∀ key, key ∈ (s.insertVolunteer v).volunteers ↔ key = v.id ∨ key ∈ s.volunteers :=
    fun key => AList.mem_insert _
  have hkeys : v.info.hostname ≠ [] → ∀ key ∈ s.volunteers, owner key = v.info.hostname → v.id = key :=
    fun hne key hkey hkeyowner => claimed_key hne h.valid hkey hkeyowner
  have hnew : (Stage.entered v.info.hostname v.id ::ₘ γs).filterMap Stage.searched =
      γs.filterMap Stage.searched := Multiset.filterMap_cons_none _ _ rfl
  refine ⟨⟨fun key w hw => ?_, h.named.rows⟩, fun key hkey key' hkey' heq hne => ?_, ?_, ?_,
    fun host id hne hcurrent => ?_, ⟨fun w hw hne id hid => ?_, h.agrees⟩, fun γ hγ => ?_⟩
  · rw [World.insertVolunteer, Table.lookup_insert_if] at hw
    split_ifs at hw with hk
    · rw [hk, ← Option.some.inj hw]
      exact ⟨rfl, howner.symm, hissued⟩
    · exact h.named.entries key w hw
  · rcases (hmem key).1 hkey with rfl | hold
    · rcases (hmem key').1 hkey' with rfl | hold'
      · rfl
      · rw [howner] at heq hne
        exact hkeys hne key' hold' heq.symm
    · rcases (hmem key').1 hkey' with rfl | hold'
      · rw [howner] at heq
        rw [heq] at hne
        exact (hkeys hne key hold heq).symm
      · exact h.unique key hold key' hold' heq hne
  · rw [hnew, searchedIn, hact]
    exact herase
  · rw [hnew]
    have halone := h.alone
    rw [← h.searched] at halone
    exact herase ▸ halone.erase _
  · rw [Registrar.current, hact] at hcurrent
    simp only at hcurrent
    split_ifs at hcurrent with hhost
    · obtain rfl := Option.some.inj hcurrent
      exact ⟨(hmem v.id).2 (Or.inl rfl), howner.trans hhost⟩
    · obtain ⟨hkey, hkeyowner⟩ := h.current host id hne hcurrent
      exact ⟨(hmem id).2 (Or.inr hkey), hkeyowner⟩
  · rw [hact, Act.insert.injEq] at hw
    subst hw
    obtain ⟨hkey, hkeyowner⟩ := h.current _ id hne hid
    exact hkeys hne id hkey hkeyowner
  · rcases Multiset.mem_cons.1 hγ with rfl | hγ
    · exact ⟨entry, List.mem_cons_self, v, hact, rfl, rfl⟩
    · have hvalid := h.stages γ (Multiset.mem_cons_of_mem hγ)
      cases γ with
      | searching host known =>
          refine ⟨hvalid.1, fun key hkey hkeyowner => ?_, hvalid.2.2⟩
          rcases (hmem key).1 hkey with rfl | hold
          · refine absurd ((Multiset.mem_filterMap _ _).2 ⟨_, hγ, ?_⟩) hothers
            exact congrArg some (hkeyowner.symm.trans howner)
          · exact hvalid.2.1 key hold hkeyowner
      | idle => trivial
      | holding id host => exact hvalid
      | entered host id =>
          obtain ⟨entry', hentry', hrest⟩ := hvalid
          exact ⟨entry', List.mem_cons_of_mem _ hentry', hrest⟩

theorem OneName.writeRow {v : VolunteerState Uuid} {db : Db} {u : Unit} {entry : JournalEntry Uuid}
    (h : OneName owner s journal γs) (hv : owner v.id = v.info.hostname ∧ v.id ∈ s.issued)
    (hact : entry.act = .writeRow v)
    (he : Machine.exec e.db (.upsertVolunteer v : DbOp Uuid Unit) s.db = some (u, db)) :
    OneName owner { s with db } (entry :: journal) γs := by
  have hquiet : Quieter journal (entry :: journal) := quieter_cons (by rw [hact]; trivial)
  refine h.frame ⟨h.named.entries, fun key r hr => ?_⟩ (fun _ => Iff.rfl) rfl hquiet
  simp only [Machine.exec] at he
  split_ifs at he with hfault
  · obtain ⟨-, rfl⟩ := Prod.mk.inj (Option.some.inj he)
    exact h.named.rows key r hr
  · obtain rfl : s.db.upsertVolunteer v = db := (Prod.mk.inj (Option.some.inj he)).2
    have hlookup : (s.db.volunteers.insert (toText v.id) (.ofVolunteer v)).lookup key = some r := hr
    rw [Table.lookup_insert_if] at hlookup
    split_ifs at hlookup
    · obtain rfl := Option.some.inj hlookup
      exact ⟨v.id, rfl, hv.1.symm, hv.2⟩
    · exact h.named.rows key r hlookup

def naming : Discipline (Step Uuid) (RegistrarEnv Uuid) (Observed Uuid) (Stage Uuid) where
  guard := oneAtATime
  inv st γs := ∃ owner, OneName owner st.1 st.2 γs
  safe _ _ _ _ := True

open Future

theorem carries_nameless {α : Type} {t : Async Uuid α} {γ : Stage Uuid} (ht : t.Uses nameless) :
    Carries naming (fun _ δ => δ = γ) (signed (Journal Uuid) q t) γ := by
  refine carries_signed_uses ht (fun β e op s w γs hop hinv _ => ⟨trivial, fun c s' he => ?_⟩)
    fun _ => rfl
  obtain ⟨owner, h⟩ := hinv
  exact ⟨owner, h.step hop he⟩

theorem carries_write {id : Uuid} {hostname : Text} {v : VolunteerState Uuid} (hid : v.id = id)
    (hname : v.info.hostname = hostname) :
    Carries naming (fun _ δ => δ = .holding id hostname)
      (signed (Journal Uuid) q (query (.upsertVolunteer v))) (.holding id hostname) := by
  subst hid hname
  refine carries_signed_perform fun e s w γs hinv _ => ⟨trivial, fun u s' he => ?_⟩
  obtain ⟨owner, h⟩ := hinv
  obtain ⟨db, hexec, rfl⟩ := exec_db he
  exact ⟨_, ⟨owner, h.writeRow h.valid rfl hexec⟩, rfl⟩

theorem OneName.hold {id : Uuid} {v w : VolunteerState Uuid} {op : LocalOp Uuid β}
    (h : OneName owner s journal (.idle ::ₘ γs)) (hop : nameless β (.own op))
    (hv : s.volunteers.lookup id = some v) (hid : w.id = v.id)
    (hname : w.info.hostname = v.info.hostname)
    (hissued : (op.answered e s).2.issued = s.issued) :
    OneName owner (op.answered e s).2
      (Observer.note q e (RegistrarOp.own op) (op.answered e s).1 journal)
      (.holding w.id w.info.hostname ::ₘ γs) := by
  have hstep := @OneName.step _ _ _ owner s (op.answered e s).2 journal _ _ e q β (.own op)
    (op.answered e s).1 hop h rfl
  obtain ⟨hkey, hname', hmem⟩ := h.named.entries id v hv
  refine hstep.stage rfl ⟨?_, ?_⟩
  · rw [hid, hname, hname', hkey]
  · rw [hid, hkey, hissued]
    exact hmem

theorem carries_heartbeat (body : HeartbeatRequest Uuid) :
    Carries naming (fun _ _ => True) (signed (Journal Uuid) q (heartbeat body)) .idle := by
  refine carries_signed_bind (carries_signed_perform fun e s w γs hinv _ =>
    ⟨trivial, fun found s' he => ?_⟩)
  obtain ⟨rfl, rfl⟩ := Prod.mk.inj (exec_own he)
  obtain ⟨owner, h⟩ := hinv
  cases hv : s.volunteers.lookup body.volunteerId with
  | none =>
      refine ⟨.idle, ⟨owner, h.step trivial he⟩, ?_⟩
      simp only [hv, Option.map_none]
      exact carries_signed_pure trivial
  | some v =>
      refine ⟨.holding v.id v.info.hostname, ⟨owner, @OneName.hold _ _ _ owner s w γs _ e q _ _ v
        (v.beat e.now body) (.recordHeartbeat body) h trivial hv rfl rfl
        (World.alterVolunteer_issued _ _ _)⟩, ?_⟩
      simp only [hv, Option.map_some]
      refine carries_signed_bind ((carries_write rfl rfl).mono ?_)
      rintro u _ rfl
      refine Carries.mono (carries_nameless ((uses_haproxy (fun _ _ => trivial) _).bind fun r => ?_))
        fun _ _ _ => trivial
      cases r with
      | ok u => exact uses_pure _
      | error err =>
          dsimp only
          split_ifs
          · exact (uses_haproxy (fun _ _ => trivial) _).bind fun _ => uses_pure _
          · exact uses_pure _

theorem carries_updateTunnelPort (idStr : Text) (port : UInt16) :
    Carries naming (fun _ _ => True) (signed (Journal Uuid) q (updateTunnelPort idStr port))
      .idle := by
  rw [updateTunnelPort]
  cases (parseStr idStr : Option Uuid) with
  | none => exact carries_signed_pure trivial
  | some id =>
      refine carries_signed_bind ((carries_nameless (uses_serviceAddrFor trivial (fun _ => trivial) port)).mono ?_)
      rintro addr _ rfl
      refine carries_signed_bind (carries_signed_perform fun e s w γs hinv _ =>
        ⟨trivial, fun found s' he => ?_⟩)
      obtain ⟨rfl, rfl⟩ := Prod.mk.inj (exec_own he)
      obtain ⟨owner, h⟩ := hinv
      cases hv : s.volunteers.lookup id with
      | none =>
          refine ⟨.idle, ⟨owner, h.step trivial he⟩, ?_⟩
          simp only [hv, Option.map_none]
          exact carries_signed_pure trivial
      | some v =>
          refine ⟨.holding v.id v.info.hostname, ⟨owner, @OneName.hold _ _ _ owner s w γs _ e q _ _ v
            (v.moveTo addr) (.setServiceAddr id addr) h trivial hv rfl rfl
            (World.alterVolunteer_issued _ _ _)⟩, ?_⟩
          simp only [hv, Option.map_some]
          refine carries_signed_bind ((carries_write rfl rfl).mono ?_)
          rintro u _ rfl
          exact Carries.mono (carries_nameless ((uses_haproxy (fun _ _ => trivial) _).bind fun _ => uses_pure _))
            fun _ _ _ => trivial

theorem Named.findByHostname (h : Named owner s) {hostname : Text} {found : Option Uuid} {db : Db}
    (he : Machine.exec e.db (.findByHostname hostname : DbOp Uuid (Option Uuid)) s.db =
      some (found, db)) : ∀ id ∈ found, owner id = hostname ∧ id ∈ s.issued := by
  intro id hid
  simp only [Machine.exec] at he
  split_ifs at he
  · obtain ⟨rfl, -⟩ := Prod.mk.inj (Option.some.inj he)
    simp [DbOp.failed] at hid
  · obtain ⟨rfl, -⟩ := Prod.mk.inj (Option.some.inj he)
    obtain ⟨key, r, hkey, hhost, hparse⟩ := Db.row_of_findByHostname hid
    obtain ⟨id', hid', hname, hissued⟩ := h.rows key r hkey
    rw [hid', parseStr_toText] at hparse
    obtain rfl := Option.some.inj hparse
    exact ⟨hname.symm.trans hhost, hissued⟩

/-- After the look the task knows the identifier of the hostname, if anybody has one. -/
theorem carries_findExisting (hostname : Text) :
    Carries naming (fun found δ => (hostname = [] ∧ found = none ∧ δ = .idle) ∨
        (hostname ≠ [] ∧ δ = .searching hostname found))
      (signed (Journal Uuid) q (findExisting hostname)) .idle := by
  rw [findExisting]
  split_ifs with hempty
  · exact carries_signed_pure (Or.inl ⟨hempty, rfl, rfl⟩)
  · refine carries_signed_bind (carries_signed_perform fun e s w γs hinv hg =>
      ⟨trivial, fun found s' he => ?_⟩)
    obtain ⟨rfl, rfl⟩ := Prod.mk.inj (exec_own he)
    obtain ⟨owner, h⟩ := hinv
    have hfree : hostname ∉ searchedIn w := hg.1 hostname rfl
    cases hfind : (e.volunteers.order (Table.values s.volunteers)).find?
        (·.info.hostname == hostname) with
    | some v =>
        obtain ⟨key, hkey, hfound⟩ := Table.lookup_of_find?_order hfind
        have hhost : v.info.hostname = hostname := by simpa using hfound
        obtain ⟨hid, hname, hissued⟩ := h.named.entries key v hkey
        have hpresent : key ∈ s.volunteers := AList.lookup_isSome.1 (by rw [hkey]; rfl)
        have howner : owner key = hostname := hname.symm.trans hhost
        have hvalid : (Stage.searching hostname (some v.id)).Valid owner s w := by
          refine ⟨hempty, fun key' hkey' howner' => ?_, fun id hid' => ?_⟩
          · rw [hid]
            exact congrArg some (h.unique key hpresent key' hkey' (howner.trans howner'.symm)
              (howner ▸ hempty))
          · obtain rfl := Option.some.inj hid'
            exact hid ▸ ⟨howner, hissued⟩
        refine ⟨.searching hostname (some v.id), ⟨owner, h.lookUp rfl hfree hvalid⟩, ?_⟩
        simp only [hfind, Option.map_some]
        exact carries_signed_pure (Or.inr ⟨hempty, rfl⟩)
    | none =>
        have hvalid : (Stage.searching hostname none).Valid owner s w := by
          refine ⟨hempty, fun key hkey howner => ?_, by simp⟩
          obtain ⟨v, hv⟩ := Option.isSome_iff_exists.1 (AList.lookup_isSome.2 hkey)
          have hmem : v ∈ e.volunteers.order (Table.values s.volunteers) := by
            rw [IterOrder.mem_order, Table.mem_values]
            exact ⟨key, hv⟩
          have hnot := List.find?_eq_none.1 hfind v hmem
          simp [(h.named.entries key v hv).2.1, howner] at hnot
        refine ⟨.searching hostname none, ⟨owner, h.lookUp rfl hfree hvalid⟩, ?_⟩
        simp only [hfind, Option.map_none]
        refine carries_signed_perform fun e s w γs hinv _ => ⟨trivial, fun found s' he => ?_⟩
        obtain ⟨owner, h⟩ := hinv
        obtain ⟨db, hexec, rfl⟩ := exec_db he
        have hfound := h.named.findByHostname hexec
        have hop : nameless _ (.db (.findByHostname hostname) : RegistrarOp Uuid (Option Uuid)) :=
          trivial
        have hread := h.frame (h.named.db hop hexec) (fun _ => Iff.rfl) rfl (quieter_refl w)
        refine ⟨.searching hostname found, ⟨owner, hread.stage rfl ?_⟩, Or.inr ⟨hempty, rfl⟩⟩
        obtain ⟨-, hnobody, -⟩ := h.valid
        exact ⟨hempty, fun key hkey howner => absurd (hnobody key hkey howner) (by simp), hfound⟩

theorem carries_identify {hostname : Text} {existingId : Option Uuid} {γ : Stage Uuid}
    (hγ : (hostname = [] ∧ existingId = none ∧ γ = .idle) ∨
      (hostname ≠ [] ∧ γ = .searching hostname existingId)) :
    Carries naming (fun id δ => δ = claimed hostname id)
      (signed (Journal Uuid) q (identify existingId)) γ := by
  cases existingId with
  | some id =>
      obtain ⟨-, hnone, -⟩ | ⟨hne, rfl⟩ := hγ
      · simp at hnone
      · exact carries_signed_pure (by rw [claimed, if_neg hne])
  | none =>
      refine carries_signed_perform fun e s w γs hinv hg => ⟨trivial, fun id s' he => ?_⟩
      obtain ⟨rfl, rfl⟩ := Prod.mk.inj (exec_own he)
      obtain ⟨owner, h⟩ := hinv
      have hfresh : e.uuid ∉ s.issued := hg.2 rfl
      refine ⟨_, ⟨_, (h.draw hfresh hostname).stage ?_ ?_⟩, rfl⟩
      · rcases hγ with ⟨rfl, -, rfl⟩ | ⟨hne, rfl⟩
        · rfl
        · rw [claimed, if_neg hne]
          rfl
      · rcases hγ with ⟨rfl, -, rfl⟩ | ⟨hne, rfl⟩
        · exact ⟨Function.update_self _ _ _, List.mem_cons_self⟩
        · obtain ⟨-, hnobody, -⟩ := h.valid
          rw [claimed, if_neg hne]
          refine ⟨hne, fun key hkey howner => ?_, fun id hid => ?_⟩
          · have hne' : key ≠ e.uuid := by
              rintro rfl
              exact hfresh (h.issued hkey)
            rw [Function.update_of_ne hne'] at howner
            exact absurd (hnobody key hkey howner) (by simp)
          · obtain rfl := Option.some.inj hid
            exact ⟨Function.update_self _ _ _, List.mem_cons_self⟩

theorem carries_enroll (body : EnrollRequest) :
    Carries naming
      (fun r δ => ∃ id, r.volunteerId = toText id ∧ δ = .entered body.info.hostname id)
      (signed (Journal Uuid) q (enroll body)) .idle := by
  have hclock : Uses nameless (own .utcNow : Async Uuid DateTime) := uses_perform trivial
  refine carries_signed_bind ((carries_nameless hclock).mono ?_)
  rintro now _ rfl
  refine carries_signed_bind ((carries_nameless
    (uses_serviceAddrFor trivial (fun _ => trivial) _)).mono ?_)
  rintro addr _ rfl
  refine carries_signed_bind ((carries_findExisting body.info.hostname).mono ?_)
  intro existingId γ hγ
  refine carries_signed_bind ((carries_nameless ?_).mono ?_)
  · cases existingId with
    | none => exact uses_pure _
    | some id =>
        refine (uses_perform trivial).bind fun found => ?_
        cases found with
        | some a => exact uses_pure _
        | none => exact uses_perform trivial
  rintro existing _ rfl
  refine carries_signed_bind ((carries_identify hγ).mono ?_)
  rintro id _ rfl
  refine carries_signed_bind ((carries_nameless ?_).mono ?_)
  · cases existing with
    | some a =>
        refine (uses_haproxy (fun _ _ => trivial) _).bind fun _ => ?_
        exact (uses_perform trivial).bind fun _ => uses_pure _
    | none =>
        refine (uses_perform trivial).bind fun popped => ?_
        cases popped with
        | none => exact uses_pure _
        | some p =>
            refine (uses_haproxy (fun _ _ => trivial) _).bind fun r => ?_
            cases r with
            | ok u => exact (uses_perform trivial).bind fun _ => uses_pure _
            | error err => exact (uses_perform trivial).bind fun _ => uses_pure _
  rintro a _ rfl
  refine carries_signed_bind (carries_signed_perform fun e s w γs hinv _ =>
    ⟨trivial, fun u s' he => ?_⟩)
  obtain ⟨owner, h⟩ := hinv
  obtain ⟨db, hexec, rfl⟩ := exec_db he
  refine ⟨claimed body.info.hostname id, ⟨owner, h.writeRow (claimed_valid h.valid) rfl hexec⟩, ?_⟩
  refine carries_signed_bind (carries_signed_perform fun e s w γs hinv _ =>
    ⟨trivial, fun u s' he => ?_⟩)
  obtain ⟨owner, h⟩ := hinv
  obtain ⟨rfl, rfl⟩ := Prod.mk.inj (exec_own he)
  refine ⟨.entered body.info.hostname id, ⟨owner, OneName.insert h rfl⟩, ?_⟩
  refine carries_signed_bind ((carries_nameless (uses_haproxy (fun _ _ => trivial) _)).mono ?_)
  rintro r _ rfl
  exact carries_signed_pure ⟨id, rfl, rfl⟩

def Named.answers (q : Served Uuid) (r : Reply Uuid) (γ : Stage Uuid) : Prop :=
  ∀ body resp, q.1 = .enroll body → r = .enrolled resp →
    ∃ id, resp.volunteerId = toText id ∧ γ = .entered body.info.hostname id

theorem carries_named (q : Served Uuid) :
    Carries naming (Named.answers q) (serve q) .idle := by
  obtain ⟨q, hq⟩ := q
  cases q with
  | enroll body =>
      refine carries_signed_map ((carries_enroll body).mono ?_)
      rintro r γ hr body' resp hbody hresp
      obtain rfl := Request.enroll.inj hbody
      obtain rfl := Reply.enrolled.inj hresp
      exact hr
  | heartbeat body =>
      refine carries_signed_map ((carries_heartbeat body).mono fun _ _ _ => ?_)
      exact fun body' _ hbody => by simp at hbody
  | updateTunnelPort idStr port =>
      refine carries_signed_map ((carries_updateTunnelPort idStr port).mono fun _ _ _ => ?_)
      exact fun body' _ hbody => by simp at hbody
  | restart => exact absurd rfl hq
  | _ =>
      refine Carries.mono (carries_nameless ((uses_handle ⟨_, hq⟩).mono fun β op hop => ?_))
        fun _ _ _ body' _ hbody => by simp at hbody
      cases op with
      | haproxy op => trivial
      | db op => cases op <;> trivial
      | own op => cases op <;> trivial

omit [Rfc3339] in
theorem oneName_initial (h : Haproxy) :
    OneName (fun _ => []) (World.initial h : World Uuid) [] 0 where
  named := ⟨fun key v hv => by simp [World.initial] at hv, fun key r hr => by
    simp [World.initial] at hr⟩
  unique key hkey := by simp [World.initial] at hkey
  searched := rfl
  alone := Multiset.nodup_zero
  current hostname id _ hid := by simp [Registrar.current] at hid
  agrees := trivial
  stages γ hγ := by simp at hγ

omit [Rfc3339] in
theorem OneName.arrive (h : OneName owner s journal γs) : OneName owner s journal (.idle ::ₘ γs) where
  named := h.named
  unique := h.unique
  searched := by rw [h.searched, Multiset.filterMap_cons_none _ _ rfl]
  alone := by
    rw [Multiset.filterMap_cons_none _ _ rfl]
    exact h.alone
  current := h.current
  agrees := h.agrees
  stages γ hγ := by
    rcases Multiset.mem_cons.1 hγ with rfl | hγ
    · trivial
    · exact h.stages γ hγ

omit [UuidFormat Uuid] [Rfc3339] in
/-- A hostname keeps the identifier under which it was entered until that volunteer is removed. -/
theorem Agrees.current_eq {earlier : JournalEntry Uuid} {v : VolunteerState Uuid}
    {between before : Journal Uuid} (h : Agrees (between ++ earlier :: before))
    (hact : earlier.act = .insert v) (hne : v.info.hostname ≠ [])
    (hkept : ∀ entry ∈ between, ∀ found, entry.act ≠ .remove v.id found) :
    Registrar.current v.info.hostname (between ++ earlier :: before) = some v.id := by
  induction between with
  | nil =>
      rw [List.nil_append, Registrar.current, hact]
      exact if_pos rfl
  | cons latest between ih =>
      have hpast := ih h.2 fun entry hmem => hkept entry (List.mem_cons_of_mem _ hmem)
      rw [List.cons_append, Registrar.current]
      cases hlatest : latest.act with
      | insert w =>
          simp only
          split_ifs with hhost
          · rw [h.1 w hlatest (hhost ▸ hne) v.id (hhost ▸ hpast)]
          · exact hpast
      | remove id found =>
          simp only
          have hother : id ≠ v.id := by
            rintro rfl
            exact hkept latest List.mem_cons_self found hlatest
          rw [hpast, if_neg fun hsame => hother (Option.some.inj hsame).symm]
      | _ => exact hpast

omit [DecidableEq Uuid] [UuidFormat Uuid] [Rfc3339] in
theorem mem_order {α : Type} {a b : α} {as : List α} (ha : a ∈ as) (hb : b ∈ as) :
    a = b ∨ (∃ xs ys zs, as = xs ++ b :: (ys ++ a :: zs)) ∨ ∃ xs ys zs, as = xs ++ a :: (ys ++ b :: zs) := by
  obtain ⟨xs, rest, rfl⟩ := List.append_of_mem ha
  rcases List.mem_append.1 hb with hb | hb
  · obtain ⟨us, vs, rfl⟩ := List.append_of_mem hb
    exact Or.inr (Or.inl ⟨us, vs, rest, by simp⟩)
  · rcases List.mem_cons.1 hb with rfl | hb
    · exact Or.inl rfl
    · obtain ⟨us, vs, rfl⟩ := List.append_of_mem hb
      exact Or.inr (Or.inr ⟨xs, us, vs, rfl⟩)

omit [UuidFormat Uuid] [Rfc3339] in
/-- Two entries of one hostname are under one identifier, or the volunteer of the earlier one was removed
between them. -/
theorem Agrees.entered (h : Agrees journal) {e e' : JournalEntry Uuid} {v v' : VolunteerState Uuid}
    (he : e ∈ journal) (he' : e' ∈ journal) (hact : e.act = .insert v) (hact' : e'.act = .insert v')
    (hname : v.info.hostname = v'.info.hostname) (hne : v.info.hostname ≠ []) :
    v.id = v'.id ∨ RemovedBetween v.id e e' journal ∨ RemovedBetween v'.id e' e journal := by
  have hlater : ∀ {e e' : JournalEntry Uuid} {v v' : VolunteerState Uuid} {xs ys zs : Journal Uuid},
      journal = xs ++ e' :: (ys ++ e :: zs) → e.act = .insert v → e'.act = .insert v' →
      v.info.hostname = v'.info.hostname → v.info.hostname ≠ [] →
      v.id = v'.id ∨ RemovedBetween v.id e e' journal := by
    intro e e' v v' xs ys zs hsplit hact hact' hname hne
    by_cases hkept : ∀ entry ∈ ys, ∀ found, entry.act ≠ .remove v.id found
    · have hsuffix : Agrees (e' :: (ys ++ e :: zs)) := by
        have hall : Agrees (xs ++ e' :: (ys ++ e :: zs)) := hsplit ▸ h
        clear hsplit
        induction xs with
        | nil => exact hall
        | cons x xs ih => exact ih hall.2
      have hcurrent := Agrees.current_eq hsuffix.2 hact hne hkept
      exact Or.inl (hsuffix.1 v' hact' (hname ▸ hne) v.id (hname ▸ hcurrent)).symm
    · push Not at hkept
      obtain ⟨entry, hentry, found, hremoved⟩ := hkept
      exact Or.inr ⟨xs, ys, zs, hsplit, entry, hentry, found, hremoved⟩
  rcases mem_order he he' with rfl | ⟨xs, ys, zs, hsplit⟩ | ⟨xs, ys, zs, hsplit⟩
  · rw [hact] at hact'
    rw [Act.insert.inj hact']
    exact Or.inl rfl
  · exact (hlater hsplit hact hact' hname hne).imp_right Or.inl
  · exact (hlater hsplit hact' hact hname.symm (hname ▸ hne)).imp Eq.symm Or.inr

end Identities

section Schedules

instance (β : Type) (e : RegistrarEnv Node) (op : Step Node β) (s : Observed Node) :
    Decidable (oneAtATime β e op s) :=
  inferInstanceAs (Decidable ((∀ hostname ∈ looksUp op.op, _) ∧ (_ → e.uuid ∉ s.1.issued)))

/-- The agent gives up on an enrollment and sends it again before the first one has drawn. -/
def retriedEnroll : List (Move (Served Node) (Observed Node) (RegistrarEnv Node)) :=
  [.arrive (enrolls "volunteer-101" 7001), .advance 0 5 (calmAt 0),
    .arrive (enrolls "volunteer-101" 7001), .advance 0 40 (calmAt 0), .advance 1 40 (calmAt 0)]

/-- The agent sends its enrollment again after the first one is done, while others are served. -/
def repeatedEnroll : List (Move (Served Node) (Observed Node) (RegistrarEnv Node)) :=
  [.arrive (enrolls "volunteer-101" 7001), .advance 0 4 (calmAt 0),
    .arrive (enrolls "volunteer-102" 7002), .advance 0 40 (calmAt 0), .advance 1 40 (calmAt 0),
    .arrive (enrolls "volunteer-101" 7003), .advance 0 40 (calmAt 0)]

end Schedules

end OpenShard.Registrar
