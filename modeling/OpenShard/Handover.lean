import OpenShard.Conservation
import OpenShard.Journal

/-!
# Services handed over at the same time

A registration picks a free volunteer and gives it the service much later; an enrollment reads what
its volunteer holds and enters it much later. Between the two moments the request has the volunteer
in hand. Where no request takes a volunteer in hand that another one has, every service that was
accepted is queued or held once all requests are served.
-/

namespace OpenShard.Registrar

open UuidFormat Future

section Hands

variable {Uuid : Type} [DecidableEq Uuid]

def Request.assigns : Request Uuid → Prop
  | .enroll _ => True
  | .registerService _ => True
  | _ => False

abbrev Assigning (Uuid : Type) := {q : Request Uuid // q.assigns}

structure Hands (Uuid : Type) where
  taken : Multiset Uuid

def takenBy : {β : Type} → RegistrarOp Uuid β → β → Option Uuid
  | _, .own .activeVolunteers, active =>
    (active.find? (·.assignedService.isNone)).map (·.id)
  | _, .own (.assignedServiceOf id), _ => some id
  | _, .own .newV4, id => some id
  | _, _, _ => none

def releasedBy : {β : Type} → RegistrarOp Uuid β → Option Uuid
  | _, .own (.insertVolunteer v) => some v.id
  | _, .own (.setAssignedService id _) => some id
  | _, _ => none

def Hands.after (hands : Hands Uuid) : Option Uuid → Option Uuid → Hands Uuid
  | some id, _ => ⟨id ::ₘ hands.taken⟩
  | none, some id => ⟨hands.taken.erase id⟩
  | none, none => hands

instance : Observer (Assigning Uuid) (RegistrarOp Uuid) (RegistrarEnv Uuid) (Hands Uuid) where
  note _ _ op answer hands := hands.after (takenBy op answer) (releasedBy op)

abbrev Handing (Uuid : Type) := Signed (Assigning Uuid) (RegistrarOp Uuid) (Hands Uuid)

/-- The volunteer that the operation is about to take in hand: the one that a registration is going
to pick, the one that an enrollment looks at, or a new one. -/
def takes (e : RegistrarEnv Uuid) (s : World Uuid) : {β : Type} → RegistrarOp Uuid β → Option Uuid
  | _, .own .activeVolunteers =>
    ((activeVolunteers e.volunteers e.clock s.volunteers).find? (·.assignedService.isNone)).map (·.id)
  | _, .own (.assignedServiceOf id) => some id
  | _, .own .newV4 => some e.uuid
  | _, _ => none

/-- No volunteer is taken in hand while another request has it, and no identifier is drawn twice. -/
def oneHand : Guard (Handing Uuid) (RegistrarEnv Uuid) (World Uuid × Hands Uuid) := fun _ e op s =>
  (∀ id ∈ takes e s.1 op.op, id ∉ s.2.taken) ∧ (op.op.drawsId → e.uuid ∉ s.1.issued)

/-- How far a task has come: it may know a volunteer; it may have it in hand, holding what the map
says, with what it has written to the database and what it has taken from the queue; or it has picked
it; or it has been accepted. -/
inductive Load (Uuid : Type)
  | idle
  | known (id : Uuid)
  | hand (id : Uuid) (held written : Option ServiceAssignment) (carried : Option Service)
  | aimed (id : Uuid) (written : Option ServiceAssignment)
  | accepted (S : Service)

namespace Load

def taken : Load Uuid → Option Uuid
  | .hand id _ _ _ => some id
  | .aimed id _ => some id
  | _ => none

def carried : Load Uuid → Multiset Service
  | .hand _ _ _ carried => (carried.toList : List Service)
  | _ => 0

def owed : Load Uuid → Multiset Service
  | .accepted S => {S}
  | _ => 0

end Load

def heldBy (s : World Uuid) (id : Uuid) : Option ServiceAssignment :=
  (s.volunteers.lookup id).bind (·.assignedService)

variable [UuidFormat Uuid] [Rfc3339]

def Load.Valid (s : World Uuid) : Load Uuid → Prop
  | .idle => True
  | .known id => id ∈ s.issued
  | .hand id held written _ => id ∈ s.issued ∧ heldBy s id = held ∧
      ∀ a, s.db.getAssignment id = some a → held = some a ∨ written = some a
  | .aimed id written => id ∈ s.volunteers ∧ heldBy s id = none ∧
      ∀ a, s.db.getAssignment id = some a → written = some a
  | .accepted _ => True

structure Drawn (s : World Uuid) : Prop where
  keyed : ∀ key v, s.volunteers.lookup key = some v → v.id = key
  known : ∀ id ∈ s.volunteers, id ∈ s.issued
  rows : ∀ key r, s.db.volunteers.lookup key = some r →
    ∀ id : Uuid, parseStr r.id = some id → id ∈ s.issued

structure InHand (s : World Uuid) (hands : Hands Uuid) (γs : Multiset (Load Uuid)) : Prop where
  drawn : Drawn s
  taken : Exclusive Load.taken hands.taken γs
  recorded : ∀ id, id ∉ hands.taken → ∀ a, s.db.getAssignment id = some a → heldBy s id = some a
  balance : s.services + (γs.map Load.carried).sum = (γs.map Load.owed).sum
  valid : ∀ γ ∈ γs, γ.Valid s

variable {s s' : World Uuid} {hands hands' : Hands Uuid} {γs : Multiset (Load Uuid)}
  {γ γ' : Load Uuid}

theorem Load.Valid.frame (h : γ.Valid s) (hissued : ∀ id ∈ s.issued, id ∈ s'.issued)
    (hmap : ∀ id ∈ s.volunteers, id ∈ s'.volunteers)
    (hsame : ∀ id ∈ γ.taken, heldBy s' id = heldBy s id ∧
      s'.db.getAssignment id = s.db.getAssignment id) : γ.Valid s' := by
  cases γ with
  | idle => trivial
  | known id => exact hissued id h
  | hand id held written carried =>
      obtain ⟨hheld, hrow⟩ := hsame id rfl
      obtain ⟨hid, hmine, hwritten⟩ := h
      exact ⟨hissued id hid, hheld.trans hmine, fun a ha => hwritten a (hrow ▸ ha)⟩
  | aimed id written =>
      obtain ⟨hheld, hrow⟩ := hsame id rfl
      obtain ⟨hid, hmine, hwritten⟩ := h
      exact ⟨hmap id hid, hheld.trans hmine, fun a ha => hwritten a (hrow ▸ ha)⟩
  | accepted S => trivial

theorem InHand.head (h : InHand s hands (γ ::ₘ γs)) : γ.Valid s :=
  h.valid γ (Multiset.mem_cons_self γ γs)

/-- A step of the task that holds `γ`. It changes what is said of the volunteer in hand only. -/
theorem InHand.step (h : InHand s hands (γ ::ₘ γs)) (hdrawn : Drawn s')
    (htaken : Exclusive Load.taken hands'.taken (γ' ::ₘ γs))
    (hissued : ∀ id ∈ s.issued, id ∈ s'.issued) (hmap : ∀ id ∈ s.volunteers, id ∈ s'.volunteers)
    (hother : ∀ id, γ.taken ≠ some id → heldBy s' id = heldBy s id ∧
      s'.db.getAssignment id = s.db.getAssignment id)
    (hfree : ∀ id ∈ γ.taken, id ∉ hands'.taken → ∀ a, s'.db.getAssignment id = some a →
      heldBy s' id = some a)
    (hkept : ∀ id ∈ hands.taken, γ.taken ≠ some id → id ∈ hands'.taken)
    (hbalance : s'.services + γ'.carried + γ.owed = s.services + γ.carried + γ'.owed)
    (hvalid : γ'.Valid s') : InHand s' hands' (γ' ::ₘ γs) where
  drawn := hdrawn
  taken := htaken
  recorded id hid a ha := by
    by_cases hmine : γ.taken = some id
    · exact hfree id hmine hid a ha
    · rw [(hother id hmine).1]
      rw [(hother id hmine).2] at ha
      exact h.recorded id (fun hold => hid (hkept id hold hmine)) a ha
  balance := by
    have hold := h.balance
    rw [Multiset.map_cons, Multiset.sum_cons, Multiset.map_cons, Multiset.sum_cons] at hold ⊢
    refine Multiset.add_right_inj.1 (?_ : γ.owed + _ = γ.owed + _)
    calc γ.owed + (s'.services + (γ'.carried + (γs.map Load.carried).sum))
        = s'.services + γ'.carried + γ.owed + (γs.map Load.carried).sum := by abel
      _ = s.services + γ.carried + γ'.owed + (γs.map Load.carried).sum := by rw [hbalance]
      _ = s.services + (γ.carried + (γs.map Load.carried).sum) + γ'.owed := by abel
      _ = γ.owed + (γs.map Load.owed).sum + γ'.owed := by rw [hold]
      _ = γ.owed + (γ'.owed + (γs.map Load.owed).sum) := by abel
  valid δ hδ := by
    rcases Multiset.mem_cons.1 hδ with rfl | hδ
    · exact hvalid
    · refine (h.valid δ (Multiset.mem_cons_of_mem hδ)).frame hissued hmap fun id hid => ?_
      refine hother id fun hmine => ?_
      exact h.taken.ne hmine hδ hid rfl

theorem InHand.arrive (h : InHand s hands γs) : InHand s hands (.idle ::ₘ γs) where
  drawn := h.drawn
  taken := h.taken.arrive rfl
  recorded := h.recorded
  balance := by
    rw [Multiset.map_cons, Multiset.sum_cons, Multiset.map_cons, Multiset.sum_cons]
    exact (congrArg _ (zero_add _)).trans (h.balance.trans (zero_add _).symm)
  valid δ hδ := by
    rcases Multiset.mem_cons.1 hδ with rfl | hδ
    · trivial
    · exact h.valid δ hδ

theorem InHand.same (h : InHand s hands γs) (hmap : s'.volunteers = s.volunteers)
    (hpending : s'.pendingServices = s.pendingServices) (hdb : s'.db = s.db)
    (hissued : s'.issued = s.issued) : InHand s' hands γs := by
  obtain ⟨map, pending, db, hap, issued⟩ := s'
  obtain rfl : map = s.volunteers := hmap
  obtain rfl : pending = s.pendingServices := hpending
  obtain rfl : db = s.db := hdb
  obtain rfl : issued = s.issued := hissued
  refine ⟨⟨h.drawn.keyed, h.drawn.known, h.drawn.rows⟩, h.taken, h.recorded, h.balance, fun γ hγ => ?_⟩
  exact (h.valid γ hγ).frame (fun _ hid => hid) (fun _ hid => hid) fun _ _ => ⟨rfl, rfl⟩

end Hands

section Carriers

variable {Uuid : Type} [DecidableEq Uuid] [UuidFormat Uuid] [Rfc3339]

def handing : Discipline (Handing Uuid) (RegistrarEnv Uuid) (World Uuid × Hands Uuid) (Load Uuid) where
  guard := oneHand
  inv s γs := InHand s.1 s.2 γs
  safe _ _ _ _ := True

def aloof : (β : Type) → RegistrarOp Uuid β → Prop
  | _, .haproxy _ | _, .own .utcNow | _, .own .tunnelHost | _, .own (.lookupHost _) => True
  | _, _ => False

variable {s s' : World Uuid} {hands : Hands Uuid} {γs : Multiset (Load Uuid)} {q : Assigning Uuid}
  {e : RegistrarEnv Uuid} {α β : Type} {γ : Load Uuid}

theorem carries_aloof {t : Async Uuid α} (ht : t.Uses aloof) :
    Carries handing (fun _ δ => δ = γ) (signed (Hands Uuid) q t) γ := by
  refine carries_signed_uses ht (fun β e op s hands γs hop hinv _ =>
    ⟨trivial, fun c s' he => ?_⟩) fun _ => rfl
  cases op with
  | haproxy op =>
      obtain ⟨hap, rfl⟩ := exec_haproxy he
      exact InHand.same hinv rfl rfl rfl rfl
  | db op => exact hop.elim
  | own op =>
      obtain ⟨rfl, rfl⟩ := Prod.mk.inj (exec_own he)
      cases op with
      | utcNow => exact hinv
      | tunnelHost => exact hinv
      | lookupHost host => exact hinv
      | _ => exact hop.elim

theorem carries_call (call : HaproxyManager.Call α) :
    Carries handing (fun _ δ => δ = γ) (signed (Hands Uuid) q (haproxy call)) γ :=
  carries_aloof (uses_haproxy (fun _ _ => trivial) call)

theorem exec_reads {op : DbOp Uuid β} {c : β} (hop : ∀ e, (op.answered e s.db).2 = s.db)
    (he : Machine.exec e (RegistrarOp.db op) s = some (c, s')) :
    s' = s ∧ (c = op.failed ∨ c = (op.answered e.db s.db).1) := by
  obtain ⟨db, hexec, rfl⟩ := exec_db he
  simp only [Machine.exec] at hexec
  split_ifs at hexec
  · obtain ⟨rfl, rfl⟩ := Prod.mk.inj (Option.some.inj hexec)
    exact ⟨rfl, Or.inl rfl⟩
  · have hanswer := Option.some.inj hexec
    have hsame := hop e.db
    rw [hanswer] at hsame
    obtain rfl : db = s.db := hsame
    exact ⟨rfl, Or.inr (by rw [hanswer])⟩

def Load.ofFound : Option Uuid → Load Uuid
  | none => .idle
  | some id => .known id

theorem InHand.know (h : InHand s hands (.idle ::ₘ γs)) {id : Uuid} (hid : id ∈ s.issued) :
    InHand s hands (.known id ::ₘ γs) :=
  h.step h.drawn (h.taken.keep rfl) (fun _ hmem => hmem) (fun _ hmem => hmem)
    (fun _ _ => ⟨rfl, rfl⟩) (fun _ hmine => by simp [Load.taken] at hmine) (fun _ hmem _ => hmem) rfl hid

omit [Rfc3339] in
theorem lookup_of_mem_order {order : IterOrder (VolunteerState Uuid)} (h : Drawn s)
    {v : VolunteerState Uuid} (hv : v ∈ order.order (Table.values s.volunteers)) :
    s.volunteers.lookup v.id = some v := by
  rw [IterOrder.mem_order, Table.mem_values] at hv
  obtain ⟨key, hkey⟩ := hv
  rw [h.keyed key v hkey]
  exact hkey

theorem carries_found (hostname : Text) :
    Carries handing (fun found δ => δ = .ofFound found)
      (signed (Hands Uuid) q (findExisting hostname)) .idle := by
  rw [findExisting]
  split_ifs with hempty
  · exact carries_signed_pure rfl
  refine carries_signed_bind (carries_signed_perform fun e s hands γs hinv _ =>
    ⟨trivial, fun found s' he => ?_⟩)
  obtain ⟨rfl, rfl⟩ := Prod.mk.inj (exec_own he)
  have hdrawn : Drawn s := hinv.drawn
  cases hfind : (e.volunteers.order (Table.values s.volunteers)).find?
      (·.info.hostname == hostname) with
  | some v =>
      have hlookup := lookup_of_mem_order hdrawn (List.mem_of_find?_eq_some hfind)
      have hissued := hdrawn.known v.id (AList.lookup_isSome.1 (by rw [hlookup]; rfl))
      refine ⟨.known v.id, InHand.know hinv hissued, ?_⟩
      simp only [hfind, Option.map_some]
      exact carries_signed_pure rfl
  | none =>
      refine ⟨.idle, hinv, ?_⟩
      simp only [hfind, Option.map_none]
      refine carries_signed_perform fun e s hands γs hinv _ => ⟨trivial, fun found s' he => ?_⟩
      obtain ⟨rfl, hanswer⟩ := exec_reads (fun _ => rfl) he
      cases found with
      | none => exact ⟨.idle, hinv, rfl⟩
      | some id =>
          refine ⟨.known id, InHand.know hinv ?_, rfl⟩
          rcases hanswer with hnone | hsome
          · simp [DbOp.failed] at hnone
          · obtain ⟨key, r, hkey, -, hparse⟩ := Db.row_of_findByHostname hsome.symm
            exact hinv.drawn.rows key r hkey id hparse

def Load.ofAssignment (existing : Option ServiceAssignment) : Option Uuid → Load Uuid
  | none => .idle
  | some id => .hand id existing none none

theorem carries_held (existingId : Option Uuid) :
    Carries handing (fun existing δ => δ = .ofAssignment existing existingId ∧
        (existingId = none → existing = none))
      (signed (Hands Uuid) q (findAssignment existingId)) (.ofFound existingId) := by
  cases existingId with
  | none => exact carries_signed_pure ⟨rfl, fun _ => rfl⟩
  | some id =>
      refine carries_signed_bind (carries_signed_perform fun e s hands γs hinv hg =>
        ⟨trivial, fun found s' he => ?_⟩)
      obtain ⟨hfound, rfl⟩ := Prod.mk.inj (exec_own he)
      have hheld : heldBy s id = found := hfound
      have hfree : id ∉ hands.taken := hg.1 id rfl
      have htake : InHand s ⟨id ::ₘ hands.taken⟩ (.hand id found none none ::ₘ γs) := by
        refine InHand.step hinv hinv.drawn (hinv.taken.take rfl rfl hfree) (fun _ hmem => hmem)
          (fun _ hmem => hmem) (fun _ _ => ⟨rfl, rfl⟩) (fun _ hmine => by simp [Load.ofFound, Load.taken] at hmine)
          (fun _ hmem _ => Multiset.mem_cons_of_mem hmem) rfl ⟨InHand.head hinv, hheld, fun a ha => ?_⟩
        exact Or.inl (hheld.symm.trans (hinv.recorded id hfree a ha))
      refine ⟨_, htake, ?_⟩
      cases found with
      | some a => exact carries_signed_pure ⟨rfl, by simp⟩
      | none =>
          refine carries_signed_perform fun e s hands γs hinv _ => ⟨trivial, fun found s' he => ?_⟩
          obtain ⟨rfl, hanswer⟩ := exec_reads (fun _ => rfl) he
          refine ⟨_, hinv, ?_, by simp⟩
          rcases hanswer with rfl | hread
          · rfl
          · obtain ⟨-, -, hrow⟩ := InHand.head hinv
            cases found with
            | none => rfl
            | some a => simpa using hrow a hread.symm

theorem carries_drawn {existingId : Option Uuid} {existing : Option ServiceAssignment}
    (hnone : existingId = none → existing = none) :
    Carries handing (fun id δ => δ = .hand id existing none none)
      (signed (Hands Uuid) q (identify existingId)) (.ofAssignment existing existingId) := by
  cases existingId with
  | some id => exact carries_signed_pure rfl
  | none =>
      obtain rfl := hnone rfl
      refine carries_signed_perform fun e s hands γs hinv hg => ⟨trivial, fun id s' he => ?_⟩
      obtain ⟨rfl, rfl⟩ := Prod.mk.inj (exec_own he)
      have hfree : e.uuid ∉ hands.taken := hg.1 e.uuid rfl
      have hnew : e.uuid ∉ s.volunteers := fun hmem => hg.2 rfl (hinv.drawn.known _ hmem)
      have hheld : heldBy s e.uuid = none := by
        rw [heldBy, AList.lookup_eq_none.2 hnew, Option.bind_none]
      refine ⟨.hand e.uuid none none none,
        InHand.step hinv ⟨hinv.drawn.keyed, fun id hid => ?_, fun key r hr id hid => ?_⟩ (hinv.taken.take rfl rfl hfree)
        (fun _ hmem => List.mem_cons_of_mem _ hmem) (fun _ hmem => hmem) (fun _ _ => ⟨rfl, rfl⟩)
        (fun _ hmine => by simp [Load.ofAssignment, Load.taken] at hmine)
        (fun _ hmem _ => Multiset.mem_cons_of_mem hmem) rfl ⟨List.mem_cons_self, hheld, fun a ha => ?_⟩,
        rfl⟩
      · exact List.mem_cons_of_mem _ (hinv.drawn.known id hid)
      · exact List.mem_cons_of_mem _ (hinv.drawn.rows key r hr id hid)
      · exact Or.inl (hheld.symm.trans (hinv.recorded _ hfree a ha))

theorem getAssignment_upsertAssignment (db : Db) (id key : Uuid) (a : ServiceAssignment) :
    (db.upsertAssignment key a).getAssignment id =
      if id = key then some a else db.getAssignment id := by
  simp only [Db.getAssignment, Db.upsertAssignment, Table.lookup_insert_if, toText_injective.eq_iff]
  split_ifs with hid
  · rw [Option.bind_some, assignment_ofAssignment]
  · rfl

theorem InHand.record (h : InHand s hands (γ ::ₘ γs)) {id : Uuid} {a : ServiceAssignment}
    (hγ : γ.taken = some id) (hγ' : γ'.taken = some id) (hcarried : γ'.carried = γ.carried)
    (howed : γ'.owed = γ.owed) (hexec : Machine.exec e (RegistrarOp.db (.upsertAssignment id a)) s = some ((), s'))
    (hvalid : ∀ s₁ : World Uuid, s₁.volunteers = s.volunteers → s₁.issued = s.issued →
      (∀ a', s₁.db.getAssignment id = some a' → s.db.getAssignment id = some a' ∨ a' = a) →
      γ'.Valid s₁) : InHand s' hands (γ' ::ₘ γs) := by
  obtain ⟨db, he, rfl⟩ := exec_db hexec
  have hdb : db.volunteers = s.db.volunteers ∧
      (∀ key, key ≠ id → db.getAssignment key = s.db.getAssignment key) ∧
      ∀ a', db.getAssignment id = some a' → s.db.getAssignment id = some a' ∨ a' = a := by
    simp only [Machine.exec] at he
    split_ifs at he
    · obtain rfl := (Prod.mk.inj (Option.some.inj he)).2
      exact ⟨rfl, fun _ _ => rfl, fun _ ha => Or.inl ha⟩
    · have hupsert := (Prod.mk.inj (Option.some.inj he)).2
      obtain rfl : s.db.upsertAssignment id a = db := hupsert
      refine ⟨rfl, fun key hkey => ?_, fun a' ha => ?_⟩
      · rw [getAssignment_upsertAssignment, if_neg hkey]
      · rw [getAssignment_upsertAssignment, if_pos rfl] at ha
        exact Or.inr (Option.some.inj ha).symm
  obtain ⟨hrows, hother, hmine⟩ := hdb
  refine h.step ⟨h.drawn.keyed, h.drawn.known, fun key r hr => h.drawn.rows key r (hrows ▸ hr)⟩
    (h.taken.keep (hγ'.trans hγ.symm)) (fun _ hmem => hmem) (fun _ hmem => hmem)
    (fun key hkey => ⟨rfl, hother key ?_⟩) (fun key hkey hnot => ?_) (fun _ hmem _ => hmem) ?_
    (hvalid _ rfl rfl hmine)
  · rintro rfl
    exact hkey hγ
  · exact absurd (h.taken.mem (Multiset.mem_cons_self γ γs) hkey) hnot
  · rw [hcarried, howed]
    rfl

def servicesOf (a : Option ServiceAssignment) : Multiset Service :=
  (a.toList.map (·.service) : List Service)

/-- An enrollment is about to enter what its volunteer holds, or what it has taken from the queue
and written. -/
structure Fits (assigned held written : Option ServiceAssignment) (carried : Option Service) :
    Prop where
  entered : ∀ a, held = some a ∨ written = some a → assigned = some a
  services : servicesOf assigned = servicesOf held + (carried.toList : List Service)

theorem InHand.pop (h : InHand s hands (γ ::ₘ γs)) {id : Uuid} {p : PendingService}
    (hγ : γ = .hand id none none none) (hp : s.pendingServices.head? = some p) :
    InHand { s with pendingServices := s.pendingServices.tail } hands
      (.hand id none none (some p.service) ::ₘ γs) := by
  subst hγ
  refine h.step ⟨h.drawn.keyed, h.drawn.known, h.drawn.rows⟩ (h.taken.keep rfl) (fun _ hmem => hmem)
    (fun _ hmem => hmem) (fun _ _ => ⟨rfl, rfl⟩) (fun key hkey hnot => ?_) (fun _ hmem _ => hmem) ?_
    h.head
  · exact absurd (h.taken.mem (Multiset.mem_cons_self _ γs) hkey) hnot
  · have hsplit : s.pendingServices = p :: s.pendingServices.tail := by
      cases hs : s.pendingServices with
      | nil => simp [hs] at hp
      | cons p' ps =>
          obtain rfl : p' = p := by simpa [hs] using hp
          rfl
    have hcoe : (s.pendingServices.map (·.service) : Multiset Service) =
        {p.service} + (s.pendingServices.tail.map (·.service) : List Service) := by
      rw [hsplit]
      rfl
    have hcarried : (Load.hand id none none (some p.service)).carried = {p.service} := rfl
    rw [World.services, World.services, hcoe, hcarried]
    simp only [Load.carried, Load.owed, Option.toList_none, Multiset.coe_nil]
    abel

theorem InHand.push {id : Uuid} {p : PendingService}
    (h : InHand s hands (.hand id none none (some p.service) ::ₘ γs)) :
    InHand { s with pendingServices := p :: s.pendingServices } hands
      (.hand id none none none ::ₘ γs) := by
  refine h.step ⟨h.drawn.keyed, h.drawn.known, h.drawn.rows⟩ (h.taken.keep rfl) (fun _ hmem => hmem)
    (fun _ hmem => hmem) (fun _ _ => ⟨rfl, rfl⟩) (fun key hkey hnot => ?_) (fun _ hmem _ => hmem) ?_
    h.head
  · exact absurd (h.taken.mem (Multiset.mem_cons_self _ γs) hkey) hnot
  · have hcoe : ((p :: s.pendingServices).map (·.service) : Multiset Service) =
        {p.service} + (s.pendingServices.map (·.service) : List Service) := rfl
    have hcarried : (Load.hand id none none (some p.service)).carried = {p.service} := rfl
    rw [World.services, World.services, hcoe, hcarried]
    simp only [Load.carried, Load.owed, Option.toList_none, Multiset.coe_nil]
    abel

theorem carries_attached (id : Uuid) (addr : Text) (now : DateTime)
    (existing : Option ServiceAssignment) :
    Carries handing (fun assigned δ => ∃ written carried,
        δ = .hand id existing written carried ∧ Fits assigned existing written carried)
      (signed (Hands Uuid) q (attachService id addr now existing)) (.hand id existing none none) := by
  cases existing with
  | some a =>
      refine carries_signed_bind ((carries_call _).mono ?_)
      rintro _ _ rfl
      refine carries_signed_bind (carries_signed_perform fun e s hands γs hinv _ =>
        ⟨trivial, fun _ s' he => ?_⟩)
      obtain ⟨hissued, hheld, hwritten⟩ := InHand.head hinv
      refine ⟨.hand id (some a) none none,
        InHand.record hinv rfl rfl rfl rfl he fun s₁ hmap hissued' hrow => ?_,
        carries_signed_pure ⟨none, none, rfl, fun a' ha => ?_, rfl⟩⟩
      · refine ⟨hissued' ▸ hissued, ?_, fun a' ha => ?_⟩
        · rw [heldBy, hmap]
          exact hheld
        · rcases hrow a' ha with hold | rfl
          · exact hwritten a' hold
          · exact Or.inl rfl
      · simpa using ha
  | none =>
      refine carries_signed_bind (carries_signed_perform fun e s hands γs hinv _ =>
        ⟨trivial, fun popped s' he => ?_⟩)
      obtain ⟨hpopped, hs'⟩ := Prod.mk.inj (exec_own he)
      obtain rfl : { s with pendingServices := s.pendingServices.tail } = s' := hs'
      have hhead : s.pendingServices.head? = popped := hpopped
      cases popped with
      | none =>
          have hempty : s.pendingServices.tail = s.pendingServices := by
            rw [List.head?_eq_none_iff.1 hhead]
            rfl
          refine ⟨.hand id none none none, InHand.same hinv rfl hempty rfl rfl, ?_⟩
          exact carries_signed_pure ⟨none, none, rfl, by simp, rfl⟩
      | some p =>
          refine ⟨_, InHand.pop hinv rfl hhead, ?_⟩
          refine carries_signed_bind ((carries_call _).mono ?_)
          rintro r _ rfl
          cases r with
          | error err =>
              refine carries_signed_bind (carries_signed_perform fun e s hands γs hinv _ =>
                ⟨trivial, fun _ s' he => ?_⟩)
              obtain ⟨-, rfl⟩ := Prod.mk.inj (exec_own he)
              exact ⟨_, InHand.push hinv, carries_signed_pure ⟨none, none, rfl, by simp, rfl⟩⟩
          | ok u =>
              refine carries_signed_bind (carries_signed_perform fun e s hands γs hinv _ =>
                ⟨trivial, fun _ s' he => ?_⟩)
              obtain ⟨hissued, hheld, hwritten⟩ := InHand.head hinv
              refine ⟨.hand id none (some (assignmentFor p now)) (some p.service),
                InHand.record hinv rfl rfl rfl rfl he fun s₁ hmap hissued' hrow => ?_,
                carries_signed_pure ⟨_, _, rfl, fun a' ha => ?_, rfl⟩⟩
              · refine ⟨hissued' ▸ hissued, ?_, fun a' ha => ?_⟩
                · rw [heldBy, hmap]
                  exact hheld
                · rcases hrow a' ha with hold | rfl
                  · simpa using hwritten a' hold
                  · exact Or.inr rfl
              · simpa using ha

theorem InHand.writeRow {id : Uuid} {held written : Option ServiceAssignment}
    {carried : Option Service} (h : InHand s hands (.hand id held written carried ::ₘ γs))
    {v : VolunteerState Uuid} (hid : v.id = id)
    (he : Machine.exec e (RegistrarOp.db (.upsertVolunteer v)) s = some ((), s')) :
    InHand s' hands (.hand id held written carried ::ₘ γs) := by
  subst hid
  obtain ⟨db, hexec, rfl⟩ := exec_db he
  have hdb : db.assignments = s.db.assignments ∧ ∀ key r, db.volunteers.lookup key = some r →
      ∀ id : Uuid, parseStr r.id = some id → id ∈ s.issued := by
    simp only [Machine.exec] at hexec
    split_ifs at hexec
    · obtain rfl := (Prod.mk.inj (Option.some.inj hexec)).2
      exact ⟨rfl, h.drawn.rows⟩
    · have hupsert := (Prod.mk.inj (Option.some.inj hexec)).2
      obtain rfl : s.db.upsertVolunteer v = db := hupsert
      refine ⟨rfl, fun key r hr key' hkey' => ?_⟩
      rw [Db.upsertVolunteer, Table.lookup_insert_if] at hr
      split_ifs at hr
      · obtain rfl := Option.some.inj hr
        have hparse : parseStr (toText v.id) = some key' := hkey'
        rw [parseStr_toText] at hparse
        obtain rfl := Option.some.inj hparse
        exact h.head.1
      · exact h.drawn.rows key r hr key' hkey'
  have hsame : ∀ key : Uuid, db.getAssignment key = s.db.getAssignment key := by
    intro key
    rw [Db.getAssignment, hdb.1, Db.getAssignment]
  refine h.step ⟨h.drawn.keyed, h.drawn.known, hdb.2⟩ (h.taken.keep rfl) (fun _ hmem => hmem)
    (fun _ hmem => hmem) (fun key _ => ⟨rfl, hsame key⟩) (fun key hkey hnot => ?_) (fun _ hmem _ => hmem)
    rfl ?_
  · exact absurd (h.taken.mem (Multiset.mem_cons_self _ γs) hkey) hnot
  · exact h.head.frame (fun _ hmem => hmem) (fun _ hmem => hmem) fun key _ => ⟨rfl, hsame key⟩

omit [UuidFormat Uuid] [Rfc3339] in
theorem heldBy_insertVolunteer (s : World Uuid) (v : VolunteerState Uuid) (key : Uuid) :
    heldBy (s.insertVolunteer v) key = if key = v.id then v.assignedService else heldBy s key := by
  simp only [heldBy, World.insertVolunteer, Table.lookup_insert_if]
  split_ifs
  · rfl
  · rfl

omit [UuidFormat Uuid] [Rfc3339] in
theorem services_insertVolunteer (s : World Uuid) (v : VolunteerState Uuid) :
    (s.insertVolunteer v).services + servicesOf (heldBy s v.id) =
      s.services + servicesOf v.assignedService := by
  have hold : ((s.volunteers.lookup v.id).map VolunteerState.held).getD 0 =
      servicesOf (heldBy s v.id) := by
    rw [heldBy]
    cases s.volunteers.lookup v.id with
    | none => rfl
    | some w => rfl
  rw [services_eq s v.id, hold, services_insert (rfl : (s.insertVolunteer v).volunteers = _)]
  change (s.pendingServices.map (·.service) : Multiset Service) +
    (servicesOf v.assignedService + _) + _ = _
  abel

theorem InHand.enter {id : Uuid} {held written : Option ServiceAssignment} {carried : Option Service}
    (h : InHand s hands (.hand id held written carried ::ₘ γs)) {v : VolunteerState Uuid}
    (hid : v.id = id) (hfits : Fits v.assignedService held written carried) :
    InHand (s.insertVolunteer v) ⟨hands.taken.erase id⟩ (.idle ::ₘ γs) := by
  subst hid
  obtain ⟨hissued, hheld, hwritten⟩ := h.head
  refine h.step ⟨keyed_insert h.drawn.keyed rfl, fun key hkey => ?_, h.drawn.rows⟩
    (h.taken.release rfl rfl) (fun _ hmem => hmem) (fun key hkey => (AList.mem_insert _).2 (Or.inr hkey))
    (fun key hkey => ⟨?_, rfl⟩) (fun key hkey _ a ha => ?_) (fun key hmem hkey => ?_) ?_ trivial
  · rcases (AList.mem_insert _).1 hkey with rfl | hkey
    · exact hissued
    · exact h.drawn.known key hkey
  · rw [heldBy_insertVolunteer, if_neg]
    rintro rfl
    exact hkey rfl
  · obtain rfl : v.id = key := Option.some.inj hkey
    rw [heldBy_insertVolunteer, if_pos rfl]
    exact hfits.entered a (hwritten a ha)
  · refine (Multiset.mem_erase_of_ne ?_).2 hmem
    rintro rfl
    exact hkey rfl
  · have hservices := services_insertVolunteer s v
    rw [hheld, hfits.services] at hservices
    have hbalance : (s.insertVolunteer v).services = s.services + (carried.toList : List Service) := by
      refine Multiset.add_right_inj.1 (?_ : servicesOf held + _ = servicesOf held + _)
      calc servicesOf held + (s.insertVolunteer v).services
          = (s.insertVolunteer v).services + servicesOf held := add_comm _ _
        _ = s.services + (servicesOf held + (carried.toList : List Service)) := hservices
        _ = servicesOf held + (s.services + (carried.toList : List Service)) := by abel
    rw [hbalance]
    simp only [Load.carried, Load.owed, add_zero]

theorem carries_entered (body : EnrollRequest) :
    Carries handing (fun _ δ => δ = .idle) (signed (Hands Uuid) q (enroll body)) .idle := by
  have hclock : Uses aloof (own .utcNow : Async Uuid DateTime) := uses_perform trivial
  refine carries_signed_bind ((carries_aloof hclock).mono ?_)
  rintro now _ rfl
  refine carries_signed_bind ((carries_aloof
    (uses_serviceAddrFor trivial (fun _ => trivial) _)).mono ?_)
  rintro addr _ rfl
  refine carries_signed_bind ((carries_found body.info.hostname).mono ?_)
  rintro existingId _ rfl
  refine carries_signed_bind ((carries_held existingId).mono ?_)
  rintro existing _ ⟨rfl, hnone⟩
  refine carries_signed_bind ((carries_drawn hnone).mono ?_)
  rintro id _ rfl
  refine carries_signed_bind ((carries_attached id addr now existing).mono ?_)
  rintro assigned _ ⟨written, carried, rfl, hfits⟩
  refine carries_signed_bind (carries_signed_perform fun e s hands γs hinv _ =>
    ⟨trivial, fun _ s' he => ⟨_, InHand.writeRow hinv rfl he, ?_⟩⟩)
  refine carries_signed_bind (carries_signed_perform fun e s hands γs hinv _ =>
    ⟨trivial, fun _ s' he => ?_⟩)
  obtain ⟨-, rfl⟩ := Prod.mk.inj (exec_own he)
  refine ⟨.idle, InHand.enter hinv rfl hfits, ?_⟩
  refine carries_signed_bind ((carries_call _).mono ?_)
  rintro _ _ rfl
  exact carries_signed_pure rfl

theorem InHand.aim (h : InHand s hands (.idle ::ₘ γs)) {v : VolunteerState Uuid}
    (hv : s.volunteers.lookup v.id = some v) (hnone : v.assignedService = none)
    (hfree : v.id ∉ hands.taken) :
    InHand s ⟨v.id ::ₘ hands.taken⟩ (.aimed v.id none ::ₘ γs) := by
  have hheld : heldBy s v.id = none := by
    rw [heldBy, hv]
    exact hnone
  refine h.step h.drawn (h.taken.take rfl rfl hfree) (fun _ hmem => hmem) (fun _ hmem => hmem)
    (fun _ _ => ⟨rfl, rfl⟩) (fun _ hmine => by simp [Load.taken] at hmine)
    (fun _ hmem _ => Multiset.mem_cons_of_mem hmem) rfl
    ⟨AList.lookup_isSome.1 (by rw [hv]; rfl), hheld, fun a ha => ?_⟩
  exact hheld.symm.trans (h.recorded v.id hfree a ha)

theorem InHand.queue (h : InHand s hands (.idle ::ₘ γs)) (S : Service) (now : DateTime) :
    InHand { s with pendingServices := s.pendingServices ++ [S.pending now] } hands
      (.accepted S ::ₘ γs) := by
  refine h.step ⟨h.drawn.keyed, h.drawn.known, h.drawn.rows⟩ (h.taken.keep rfl) (fun _ hmem => hmem)
    (fun _ hmem => hmem) (fun _ _ => ⟨rfl, rfl⟩) (fun _ hmine => by simp [Load.taken] at hmine)
    (fun _ hmem _ => hmem) ?_ trivial
  have hcoe : ((s.pendingServices ++ [S.pending now]).map (·.service) : Multiset Service) =
      (s.pendingServices.map (·.service) : List Service) + {S} := by
    rw [List.map_append, ← Multiset.coe_add]
    rfl
  rw [World.services, World.services, hcoe]
  simp only [Load.carried, Load.owed, add_zero]
  abel

theorem InHand.place {id : Uuid} {a : ServiceAssignment}
    (h : InHand s hands (.aimed id (some a) ::ₘ γs)) :
    InHand (s.alterVolunteer id (·.assign a)) ⟨hands.taken.erase id⟩ (.accepted a.service ::ₘ γs) := by
  obtain ⟨hmem, hheld, hwritten⟩ := h.head
  obtain ⟨v, hv⟩ := Option.isSome_iff_exists.1 (AList.lookup_isSome.2 hmem)
  obtain rfl : v.id = id := h.drawn.keyed id v hv
  have hinsert : s.alterVolunteer v.id (·.assign a) = s.insertVolunteer (v.assign a) :=
    World.alterVolunteer_of_lookup hv _
  rw [hinsert]
  refine h.step ⟨keyed_insert h.drawn.keyed rfl, fun key hkey => ?_, h.drawn.rows⟩
    (h.taken.release rfl rfl) (fun _ hmem => hmem) (fun key hkey => (AList.mem_insert _).2 (Or.inr hkey))
    (fun key hkey => ⟨?_, rfl⟩) (fun key hkey _ a' ha => ?_) (fun key hmem hkey => ?_) ?_ trivial
  · rcases (AList.mem_insert _).1 hkey with rfl | hkey
    · exact h.drawn.known _ hmem
    · exact h.drawn.known key hkey
  · rw [heldBy_insertVolunteer, if_neg]
    rintro rfl
    exact hkey rfl
  · obtain rfl : v.id = key := Option.some.inj hkey
    rw [heldBy_insertVolunteer]
    exact (if_pos rfl).trans (hwritten a' ha)
  · refine (Multiset.mem_erase_of_ne ?_).2 hmem
    rintro rfl
    exact hkey rfl
  · have hservices : (s.insertVolunteer (v.assign a)).services + servicesOf (heldBy s v.id) =
        s.services + {a.service} := services_insertVolunteer s (v.assign a)
    rw [hheld] at hservices
    simp only [Load.carried, Load.owed, add_zero]
    exact (add_zero _).symm.trans hservices

/-- What a task has of services when it is done: what its answer says. -/
def Load.settles (q : Request Uuid) (r : Reply Uuid) (γ : Load Uuid) : Prop :=
  γ.carried = 0 ∧ γ.owed = registeredBy (q, r)

theorem carries_registered (body : Service) :
    Carries handing (fun r δ => δ.settles (.registerService body) (.registered r))
      (signed (Hands Uuid) q (registerService body)) .idle := by
  refine carries_signed_bind (carries_signed_perform fun e s hands γs hinv hg =>
    ⟨trivial, fun active s' he => ?_⟩)
  obtain ⟨hactive, hs'⟩ := Prod.mk.inj (exec_own he)
  obtain rfl : s = s' := hs'
  have hanswer : activeVolunteers e.volunteers e.clock s.volunteers = active := hactive
  cases hfind : active.find? (·.assignedService.isNone) with
  | none =>
      have hnote : Observer.note q e (RegistrarOp.own .activeVolunteers) active hands = hands := by
        change hands.after ((active.find? (·.assignedService.isNone)).map (·.id)) none = _
        rw [hfind]
        rfl
      rw [hnote]
      refine ⟨.idle, hinv, ?_⟩
      refine carries_signed_bind (carries_signed_perform fun e s hands γs hinv _ =>
        ⟨trivial, fun _ s' he => ?_⟩)
      obtain ⟨-, rfl⟩ := Prod.mk.inj (exec_own he)
      exact ⟨.accepted body, InHand.queue hinv body e.now, carries_signed_pure ⟨rfl, rfl⟩⟩
  | some v =>
      have hnote : Observer.note q e (RegistrarOp.own .activeVolunteers) active hands =
          ⟨v.id ::ₘ hands.taken⟩ := by
        change hands.after ((active.find? (·.assignedService.isNone)).map (·.id)) none = _
        rw [hfind]
        rfl
      have hmem := List.mem_of_find?_eq_some hfind
      rw [← hanswer, mem_activeVolunteers] at hmem
      obtain ⟨⟨key, hkey⟩, -⟩ := hmem
      have hv : s.volunteers.lookup v.id = some v := by
        rw [hinv.drawn.keyed key v hkey]
        exact hkey
      have hnone : v.assignedService = none := by simpa using List.find?_some hfind
      have hfree : v.id ∉ hands.taken := by
        refine hg.1 v.id ?_
        change ((activeVolunteers e.volunteers e.clock s.volunteers).find? _).map _ = _
        rw [hanswer, hfind]
        rfl
      rw [hnote]
      refine ⟨_, InHand.aim hinv hv hnone hfree, ?_⟩
      refine carries_signed_bind ((carries_call _).mono ?_)
      rintro r _ rfl
      cases r with
      | error err => exact carries_signed_pure ⟨rfl, rfl⟩
      | ok u =>
          have hclock : Uses aloof (own .utcNow : Async Uuid DateTime) := uses_perform trivial
          refine carries_signed_bind ((carries_aloof hclock).mono ?_)
          rintro now _ rfl
          refine carries_signed_bind (carries_signed_perform fun e s hands γs hinv _ =>
            ⟨trivial, fun _ s' he => ?_⟩)
          obtain ⟨hmem, hheld, hwritten⟩ := InHand.head hinv
          refine ⟨.aimed v.id (some (Service.assignment body now)),
            InHand.record hinv rfl rfl rfl rfl he fun s₁ hmap _ hrow => ⟨?_, ?_, fun a' ha => ?_⟩, ?_⟩
          · rw [hmap]
            exact hmem
          · rw [heldBy, hmap]
            exact hheld
          · rcases hrow a' ha with hold | rfl
            · simpa using hwritten a' hold
            · rfl
          · refine carries_signed_bind (carries_signed_perform fun e s hands γs hinv _ =>
              ⟨trivial, fun _ s' he => ?_⟩)
            obtain ⟨-, rfl⟩ := Prod.mk.inj (exec_own he)
            exact ⟨_, InHand.place hinv, carries_signed_pure ⟨rfl, rfl⟩⟩

def attend (q : Assigning Uuid) : Future (Handing Uuid) (Reply Uuid) :=
  signed (Hands Uuid) q (handle q.1)

theorem carries_attend (q : Assigning Uuid) :
    Carries handing (fun r δ => δ.settles q.1 r) (attend q) .idle := by
  obtain ⟨q, hq⟩ := q
  cases q with
  | enroll body =>
      refine carries_signed_map ((carries_entered body).mono ?_)
      rintro r _ rfl
      exact ⟨rfl, rfl⟩
  | registerService body => exact carries_signed_map (carries_registered body)
  | _ => exact hq.elim

/-- The services that the finished requests were told are accepted. -/
def accepted (tasks : List (Assigning Uuid × Future (Handing Uuid) (Reply Uuid))) :
    Multiset Service :=
  (tasks.map fun task => ((answer task.2).map fun r => registeredBy (task.1.1, r)).getD 0).sum

theorem accepted_eq {tasks : List (Assigning Uuid × Future (Handing Uuid) (Reply Uuid))}
    {γs : List (Load Uuid)} (hquiet : Quiet tasks)
    (h : List.Forall₂ (fun task γ => Carries handing (fun r δ => δ.settles task.1.1 r) task.2 γ)
      tasks γs) : (γs.map Load.carried).sum = 0 ∧ (γs.map Load.owed).sum = accepted tasks := by
  induction h with
  | nil => exact ⟨rfl, rfl⟩
  | @cons task γ tasks γs hγ _ ih =>
      obtain ⟨hcarried, howed⟩ := ih fun t ht => hquiet t (List.mem_cons_of_mem _ ht)
      obtain ⟨q, t⟩ := task
      cases t with
      | await op next => exact absurd (hquiet _ List.mem_cons_self) (by simp)
      | ready r =>
          obtain ⟨hzero, hsettled⟩ : γ.settles q.1 r := hγ
          rw [accepted, List.map_cons, List.sum_cons, List.map_cons, List.sum_cons, List.map_cons,
            List.sum_cons, hzero, hcarried, hsettled, howed]
          exact ⟨rfl, rfl⟩

omit [UuidFormat Uuid] [Rfc3339] in
theorem mem_total_held {S : Service} {map : Table Uuid (VolunteerState Uuid)} :
    S ∈ Table.total VolunteerState.held map ↔
      ∃ id v, map.lookup id = some v ∧ v.holds = some S := by
  have hheld : ∀ v : VolunteerState Uuid, S ∈ v.held ↔ v.holds = some S := by
    intro v
    rw [VolunteerState.held, VolunteerState.holds]
    cases v.assignedService with
    | none => simp
    | some a => simp [eq_comm]
  have hsum : ∀ vs : List (VolunteerState Uuid),
      S ∈ (vs.map VolunteerState.held).sum ↔ ∃ v ∈ vs, v.holds = some S := by
    intro vs
    induction vs with
    | nil => simp
    | cons v vs ih =>
        rw [List.map_cons, List.sum_cons, Multiset.mem_add, hheld, ih]
        simp
  rw [Table.total, hsum]
  constructor
  · rintro ⟨v, hv, hS⟩
    obtain ⟨id, hid⟩ := Table.mem_values.1 hv
    exact ⟨id, v, hid, hS⟩
  · rintro ⟨id, v, hid, hS⟩
    exact ⟨v, Table.mem_values.2 ⟨id, hid⟩, hS⟩

omit [UuidFormat Uuid] [Rfc3339] in
/-- What occurs once among the services is in the queue or held by exactly one volunteer. -/
theorem one_place {S : Service} {s : World Uuid} (h : s.services.count S = 1) :
    S ∈ s.pendingServices.map (·.service) ∨
      ∃! id, ∃ v, s.volunteers.lookup id = some v ∧ v.holds = some S := by
  by_cases hpending : S ∈ s.pendingServices.map (·.service)
  · exact Or.inl hpending
  right
  rw [World.services, Multiset.count_add,
    Multiset.count_eq_zero_of_notMem (Multiset.mem_coe.not.2 hpending), zero_add] at h
  obtain ⟨id, v, hv, hS⟩ := mem_total_held.1 (Multiset.count_pos.1 (by rw [h]; exact zero_lt_one))
  refine ⟨id, ⟨v, hv, hS⟩, ?_⟩
  rintro id' ⟨v', hv', hS'⟩
  by_contra hne
  have hmine : S ∈ v.held := by
    obtain ⟨a, ha, rfl⟩ := Option.map_eq_some_iff.1 hS
    rw [VolunteerState.held, ha]
    simp
  have hother : S ∈ Table.total VolunteerState.held (s.volunteers.erase id) := by
    refine mem_total_held.2 ⟨id', v', ?_, hS'⟩
    rw [AList.lookup_erase_ne hne]
    exact hv'
  rw [Table.total_split VolunteerState.held s.volunteers id, hv, Option.map_some, Option.getD_some,
    Multiset.count_add] at h
  have hfirst := Multiset.count_pos.2 hmine
  have hsecond := Multiset.count_pos.2 hother
  omega

/-- However registrations and enrollments are interleaved: as long as no volunteer is taken in hand
while another request has it, the services that were accepted are those in the queue and in the map
once all requests are served, each as often as it was accepted; and one that was accepted once is in
the queue or held by exactly one volunteer. -/
theorem services_settle {h : Haproxy} {s : World Uuid} {hands : Hands Uuid}
    {tasks : List (Assigning Uuid × Future (Handing Uuid) (Reply Uuid))}
    (hrun : Interleaving oneHand attend (World.initial h, ⟨0⟩) tasks (s, hands))
    (hquiet : Quiet tasks) :
    accepted tasks = s.services ∧
      ∀ S, (accepted tasks).count S = 1 → S ∈ s.pendingServices.map (·.service) ∨
        ∃! id, ∃ v, s.volunteers.lookup id = some v ∧ v.holds = some S := by
  have hinit : handing.inv (World.initial h, (⟨0⟩ : Hands Uuid)) 0 := by
    refine ⟨⟨fun key v hv => ?_, fun id hid => ?_, fun key r hr => ?_⟩, exclusive_zero,
      fun id _ a ha => ?_, rfl, by simp⟩
    · simp [World.initial] at hv
    · simp [World.initial] at hid
    · simp [World.initial] at hr
    · simp [World.initial, Db.getAssignment] at ha
  have harrive : ∀ (q : Assigning Uuid) (st : World Uuid × Hands Uuid) (γs : Multiset (Load Uuid)),
      handing.inv st γs → ∃ γ, handing.inv st (γ ::ₘ γs) ∧
        Carries handing (fun r δ => δ.settles q.1 r) (attend q) γ :=
    fun q st γs hinv => ⟨.idle, InHand.arrive hinv, carries_attend q⟩
  obtain ⟨γs, hcarry, hinv⟩ := Interleaving.disciplined hinit harrive hrun
  obtain ⟨hcarried, howed⟩ := accepted_eq hquiet hcarry
  have hbalance : s.services + (γs.map Load.carried).sum = (γs.map Load.owed).sum := by
    have hcoe := InHand.balance hinv
    rwa [Multiset.map_coe, Multiset.map_coe, Multiset.sum_coe, Multiset.sum_coe] at hcoe
  have hservices : accepted tasks = s.services := by
    rw [← howed, ← hbalance, hcarried, add_zero]
  exact ⟨hservices, fun S hS => one_place (hservices ▸ hS)⟩

end Carriers

section Schedules

instance (β : Type) (e : RegistrarEnv Node) (op : Handing Node β) (s : World Node × Hands Node) :
    Decidable (oneHand β e op s) :=
  inferInstanceAs (Decidable ((∀ id ∈ takes e s.1 op.op, id ∉ s.2.taken) ∧ _))

def unguarded : Guard (Handing Node) (RegistrarEnv Node) (World Node × Hands Node) :=
  fun β e op s => answering β e op.op s.1

instance (β : Type) (e : RegistrarEnv Node) (op : Handing Node β) (s : World Node × Hands Node) :
    Decidable (unguarded β e op s) := inferInstanceAs (Decidable (answering β e op.op s.1))

abbrev Handovers := List (Move (Assigning Node) (World Node × Hands Node) (RegistrarEnv Node))

def calmly (s : World Node × Hands Node) : RegistrarEnv Node := calmEnv 0 0 s.1

def enrolling (hostname : Text) (port : UInt16) : Assigning Node :=
  ⟨.enroll (joins hostname port), trivial⟩

def registering (S : Service) : Assigning Node := ⟨.registerService S, trivial⟩

/-- Two registrations pick the only volunteer before either of them gives it its service. -/
def pickedTwice : Handovers :=
  [.arrive (enrolling "volunteer-101" 7001), .advance 0 40 calmly,
    .arrive (registering blog), .advance 0 1 calmly,
    .arrive (registering wiki), .advance 0 60 calmly, .advance 1 60 calmly]

/-- A registration goes on while another volunteer enrolls, and the next one waits for both. -/
def pickedInTurn : Handovers :=
  [.arrive (enrolling "volunteer-101" 7001), .advance 0 40 calmly,
    .arrive (registering blog), .advance 0 3 calmly,
    .arrive (enrolling "volunteer-102" 7002), .advance 0 40 calmly, .advance 1 60 calmly,
    .arrive (registering wiki), .advance 0 60 calmly]

variable (g : Guard (Handing Node) (RegistrarEnv Node) (World Node × Hands Node))
  [∀ β e op s, Decidable (g β e op s)]

def handedOver (moves : Handovers) :
    List (Assigning Node × Future (Handing Node) (Reply Node)) × World Node × Hands Node :=
  play g attend moves [] (World.initial smallHaproxy, ⟨0⟩)

theorem interleaving_handedOver (moves : Handovers) :
    Interleaving g attend (World.initial smallHaproxy, ⟨0⟩) (handedOver g moves).1
      ((handedOver g moves).2.1, (handedOver g moves).2.2) := Interleaving.start.play moves

/-- A service that is given to a volunteer while another one is on its way to it is lost. -/
theorem service_lost :
    ¬ ∀ (h : Haproxy) (s : World Node) (hands : Hands Node)
      (tasks : List (Assigning Node × Future (Handing Node) (Reply Node))),
      Interleaving unguarded attend (World.initial h, ⟨0⟩) tasks (s, hands) → Quiet tasks →
      ∀ S ∈ accepted tasks, S ∈ s.pendingServices.map (·.service) ∨
        ∃! id, ∃ v, s.volunteers.lookup id = some v ∧ v.holds = some S := by
  intro hclaim
  have hquiet : Quiet (handedOver unguarded pickedTwice).1 := by
    decide +kernel
  have haccepted : wiki ∈ accepted (handedOver unguarded pickedTwice).1 := by
    decide +kernel
  have hlost : wiki ∉ (handedOver unguarded pickedTwice).2.1.pendingServices.map (·.service) ∧
      ∀ id ∈ [Node.a, .b, .c], ((handedOver unguarded pickedTwice).2.1.volunteers.lookup id).bind
        VolunteerState.holds ≠ some wiki := by
    decide +kernel
  obtain hqueued | ⟨id, ⟨v, hv, hholds⟩, -⟩ := hclaim _ _ _ _
    (interleaving_handedOver unguarded pickedTwice) hquiet wiki haccepted
  · exact hlost.1 hqueued
  · refine hlost.2 id (by cases id <;> simp) ?_
    rw [hv]
    exact hholds

theorem services_settle_in_turn :
    (accepted (handedOver oneHand pickedInTurn).1 = {blog, wiki}) ∧
      (wiki ∈ (handedOver oneHand pickedInTurn).2.1.pendingServices.map (·.service) ∨
        ∃! id, ∃ v, (handedOver oneHand pickedInTurn).2.1.volunteers.lookup id = some v ∧
          v.holds = some wiki) := by
  have hquiet : Quiet (handedOver oneHand pickedInTurn).1 := by
    decide +kernel
  have haccepted : accepted (handedOver oneHand pickedInTurn).1 = {blog, wiki} := by
    decide +kernel
  refine ⟨haccepted,
    (services_settle (interleaving_handedOver oneHand pickedInTurn) hquiet).2 wiki ?_⟩
  rw [haccepted]
  decide

end Schedules

end OpenShard.Registrar
