import OpenShard.Consistency

/-!
# The port of a volunteer's address

Only an enrollment and a report of a new tunnel port set the address of a volunteer, and no operation
but these looks at a port. So as long as the registrar is not restarted, the port of an address is the
one that the registrar was told last.
-/

namespace OpenShard

/-- The port of an address, as it is read where the address is sent to HAProxy. -/
def addrPort (addr : Text) : Option Text := (Text.rsplitOnce ':' addr).map Prod.snd

theorem addrPort_append (ip : Text) (n : ℕ) :
    addrPort (ip ++ ":" ++ Text.ofNat n) = some (Text.ofNat n) := by
  have haddr : ip ++ ":" ++ Text.ofNat n = ip ++ ':' :: Text.ofNat n := by
    rw [List.append_assoc]
    rfl
  rw [addrPort, haddr]
  exact Text.rsplitOnce_append ip (Text.not_mem_ofNat (by decide) n)

namespace Registrar

open UuidFormat

variable {Uuid : Type} [DecidableEq Uuid] [UuidFormat Uuid]

def toldBy (id : Uuid) : Event Uuid → Option UInt16
  | (.enroll body, .enrolled r) =>
    if r.volunteerId = toText id then some body.tunnelPublicPort else none
  | (.updateTunnelPort idStr port, .volunteer (.ok _)) =>
    if parseStr idStr = some id then some port else none
  | _ => none

/-- The port that was reported last for a volunteer. -/
def lastTold (id : Uuid) (events : List (Event Uuid)) : Option UInt16 := events.findSome? (toldBy id)

/-- The ports of the addresses are those that were reported last. -/
def Told (events : List (Event Uuid)) (s : World Uuid) : Prop :=
  ∀ id v, s.volunteers.lookup id = some v → v.id = id ∧
    ∃ p, lastTold id events = some p ∧ addrPort v.info.serviceAddr = some (Text.ofNat p.toNat)

variable [Rfc3339] {g : Guard (RegistrarOp Uuid) (RegistrarEnv Uuid) (World Uuid)}
  {s s' : World Uuid} {events : List (Event Uuid)}

theorem serviceAddrFor_port {port : UInt16} {addr : Text}
    (h : Runs g (serviceAddrFor port) s addr s') : addrPort addr = some (Text.ofNat port.toNat) := by
  rw [serviceAddrFor, runs_bind] at h
  obtain ⟨host, s₁, -, h⟩ := h
  rw [runs_bind] at h
  obtain ⟨ip, s₂, -, h⟩ := h
  obtain ⟨rfl, -⟩ := (runs_pure _ _ _ _).1 h
  exact addrPort_append ip port.toNat

section Kept

/-- The entries were there before, under the same identifiers and with the same addresses. -/
def Kept (s s' : World Uuid) : Prop :=
  ∀ id v', s'.volunteers.lookup id = some v' → ∃ v, s.volunteers.lookup id = some v ∧
    v'.id = v.id ∧ v'.info.serviceAddr = v.info.serviceAddr

omit [UuidFormat Uuid] [Rfc3339] in
theorem kept_of_volunteers (h : s'.volunteers = s.volunteers) : Kept s s' := by
  intro id v' hv'
  rw [h] at hv'
  exact ⟨v', hv', rfl, rfl⟩

omit [UuidFormat Uuid] [Rfc3339] in
theorem Kept.trans {s₁ : World Uuid} (hfst : Kept s s₁) (hsnd : Kept s₁ s') : Kept s s' := by
  intro id v' hv'
  obtain ⟨v₁, hv₁, hid₁, haddr₁⟩ := hsnd id v' hv'
  obtain ⟨v, hv, hid, haddr⟩ := hfst id v₁ hv₁
  exact ⟨v, hv, hid₁.trans hid, haddr₁.trans haddr⟩

omit [UuidFormat Uuid] [Rfc3339] in
theorem kept_insert {id : Uuid} {v w : VolunteerState Uuid}
    (h : s'.volunteers = s.volunteers.insert id w) (hv : s.volunteers.lookup id = some v)
    (hid : w.id = v.id) (haddr : w.info.serviceAddr = v.info.serviceAddr) : Kept s s' := by
  intro id' v' hv'
  rw [h, Table.lookup_insert_if] at hv'
  split_ifs at hv' with hsame
  · obtain rfl := Option.some.inj hv'
    exact ⟨v, hsame ▸ hv, hid, haddr⟩
  · exact ⟨v', hv', rfl, rfl⟩

omit [UuidFormat Uuid] [Rfc3339] in
theorem kept_erase {id : Uuid} (h : s'.volunteers = s.volunteers.erase id) : Kept s s' := by
  intro id' v' hv'
  rw [h, Table.lookup_erase_if] at hv'
  split_ifs at hv' with hsame
  exact ⟨v', hv', rfl, rfl⟩

theorem Beaten.kept {body : HeartbeatRequest Uuid} {r : HeartbeatReply} (h : Beaten g s body r s') :
    Kept s s' := by
  cases h with
  | unknown hno => exact kept_of_volunteers rfl
  | @known v now db h hv hq hw =>
      exact @kept_insert Uuid _ s _ body.volunteerId v (v.beat now body) rfl hv rfl rfl

theorem Removed.kept {id : Uuid} (h : Removed g s id s') : Kept s s' := by
  cases h with
  | mk hg hq hh => exact kept_erase rfl

theorem Departed.kept {idStr : Text} {r : VolunteerReply} (h : Departed g s idStr r s') :
    Kept s s' := by
  cases h with
  | badRequest hparse => exact kept_of_volunteers rfl
  | unknown hparse hno hs' =>
      subst hs'
      exact kept_erase rfl
  | gone hparse hv hremoved => exact hremoved.kept

theorem Evicted.kept {id : Uuid} {a : Option ServiceAssignment} (h : Evicted g s id a s') :
    Kept s s' := by
  cases h with
  | free hremoved => exact hremoved.kept
  | serving hremoved hq => exact hremoved.kept.trans (kept_of_volunteers rfl)

theorem EvictedAll.kept {dead : List (Uuid × Option ServiceAssignment)}
    (h : EvictedAll g dead s s') : Kept s s' := by
  induction h with
  | nil s => exact kept_of_volunteers rfl
  | cons hd _ ih => exact hd.kept.trans ih

theorem Registered.kept {body : Service} {r : RegisterReply} (h : Registered g s body r s') :
    Kept s s' := by
  cases h with
  | @assigned key v now h db hv hfree hh hq =>
      rw [World.alterVolunteer]
      cases hentry : s.volunteers.lookup v.id with
      | none => exact kept_of_volunteers rfl
      | some w =>
          exact @kept_insert Uuid _ s _ v.id w (w.assign (Service.assignment body now)) rfl hentry
            rfl rfl
  | refused hv hfree hh => exact kept_of_volunteers rfl
  | queued => exact kept_of_volunteers rfl

end Kept

section Told

omit [Rfc3339] in
theorem lastTold_cons (id : Uuid) (e : Event Uuid) (events : List (Event Uuid)) :
    lastTold id (e :: events) = (toldBy id e).or (lastTold id events) := by
  rw [lastTold, List.findSome?_cons]
  cases toldBy id e with
  | none => rfl
  | some p => rfl

omit [Rfc3339] in
theorem Told.kept {e : Event Uuid} (hs : Told events s) (hkept : Kept s s')
    (hnone : ∀ id, toldBy id e = none) : Told (e :: events) s' := by
  intro id v' hv'
  obtain ⟨v, hv, hid, haddr⟩ := hkept id v' hv'
  obtain ⟨hkey, p, htold, hport⟩ := hs id v hv
  refine ⟨hid.trans hkey, p, ?_, haddr ▸ hport⟩
  rw [lastTold_cons, hnone, Option.none_or, htold]

omit [Rfc3339] in
theorem Told.insert {e : Event Uuid} {v : VolunteerState Uuid} {port : UInt16} (hs : Told events s)
    (h : s'.volunteers = s.volunteers.insert v.id v)
    (hport : addrPort v.info.serviceAddr = some (Text.ofNat port.toNat))
    (htold : toldBy v.id e = some port) (hother : ∀ id ≠ v.id, toldBy id e = none) :
    Told (e :: events) s' := by
  intro id v' hv'
  rw [h, Table.lookup_insert_if] at hv'
  rw [lastTold_cons]
  split_ifs at hv' with hid
  · obtain rfl := Option.some.inj hv'
    subst hid
    exact ⟨rfl, port, by rw [htold, Option.some_or], hport⟩
  · obtain ⟨hkey, p, hlast, hp⟩ := hs id v' hv'
    exact ⟨hkey, p, by rw [hother id hid, Option.none_or, hlast], hp⟩

theorem enroll_enters {body : EnrollRequest} {r : EnrollResponse} (h : Runs g (enroll body) s r s') :
    ∃ v, r.volunteerId = toText v.id ∧ s'.volunteers = s.volunteers.insert v.id v ∧
      addrPort v.info.serviceAddr = some (Text.ofNat body.tunnelPublicPort.toNat) := by
  obtain ⟨-, v, hid, hinsert, haddr⟩ := enroll_stores h
  exact ⟨v, hid, hinsert, serviceAddrFor_port haddr⟩

theorem updateTunnelPort_enters {idStr : Text} {port : UInt16} {r : VolunteerReply}
    (h : Runs g (updateTunnelPort idStr port) s r s') :
    ((∀ status, r ≠ .ok status) ∧ s' = s) ∨
      ∃ id v addr, parseStr idStr = some id ∧ r = .ok "ok" ∧ s.volunteers.lookup id = some v ∧
        s'.volunteers = s.volunteers.insert id (v.moveTo addr) ∧
        addrPort addr = some (Text.ofNat port.toNat) := by
  obtain ⟨-, hsame | ⟨id, v, addr, hparse, hr, hv, hinsert, haddr⟩⟩ := updateTunnelPort_stores h
  · exact Or.inl hsame
  · exact Or.inr ⟨id, v, addr, hparse, hr, hv, hinsert, serviceAddrFor_port haddr⟩

theorem Told.step {q : Request Uuid} {r : Reply Uuid} (hs : Told events s) (hq : q ≠ .restart)
    (h : Runs g (handle q) s r s') : Told ((q, r) :: events) s' := by
  cases q with
  | enroll body =>
      obtain ⟨r, run, rfl⟩ := (runs_map _ _ _ _ _).1 h
      obtain ⟨v, hid, hinsert, hport⟩ := enroll_enters run
      refine hs.insert hinsert hport ?_ fun id hne => ?_
      · rw [toldBy, if_pos hid]
      · rw [toldBy, if_neg fun h => hne (toText_injective (h.symm.trans hid))]
  | updateTunnelPort idStr port =>
      obtain ⟨r, run, rfl⟩ := (runs_map _ _ _ _ _).1 h
      rcases updateTunnelPort_enters run with ⟨hr, rfl⟩ | ⟨id, v, addr, hparse, rfl, hv, hinsert, hport⟩
      · refine hs.kept (kept_of_volunteers rfl) fun id => ?_
        cases r with
        | badRequest e => rfl
        | notFound e => rfl
        | ok status => exact absurd rfl (hr status)
      · obtain rfl := (hs id v hv).1
        have hinsert' : s'.volunteers =
            s.volunteers.insert (v.moveTo addr).id (v.moveTo addr) := hinsert
        refine hs.insert hinsert' hport ?_ fun id hne => ?_
        · exact if_pos hparse
        · exact if_neg fun h => hne (Option.some.inj (h.symm.trans hparse))
  | heartbeat body =>
      obtain ⟨r, run, rfl⟩ := (runs_map _ _ _ _ _).1 h
      exact hs.kept (heartbeat_run run).kept fun id => rfl
  | disconnect idStr =>
      obtain ⟨r, run, rfl⟩ := (runs_map _ _ _ _ _).1 h
      exact hs.kept (disconnect_run run).kept fun id => rfl
  | registerService body =>
      obtain ⟨r, run, rfl⟩ := (runs_map _ _ _ _ _).1 h
      exact hs.kept (registerService_run run).kept fun id => rfl
  | churn =>
      obtain ⟨dead, run, rfl⟩ := (runs_map _ _ _ _ _).1 h
      exact hs.kept (churnPass_run run).2.kept fun id => rfl
  | restart => exact absurd rfl hq

omit [Rfc3339] in
/-- The port of a volunteer's address is `p` exactly if `p` was reported last for the volunteer. -/
theorem Told.addrPort_iff (hs : Told events s) {id : Uuid} {v : VolunteerState Uuid}
    (hv : s.volunteers.lookup id = some v) (p : UInt16) :
    addrPort v.info.serviceAddr = some (Text.ofNat p.toNat) ↔ lastTold id events = some p := by
  obtain ⟨-, p', htold, hport⟩ := hs id v hv
  rw [htold, hport]
  constructor
  · intro h
    rw [UInt16.toNat_inj.1 (Text.ofNat_injective (Option.some.inj h))]
  · intro h
    rw [Option.some.inj h]

end Told

end Registrar
end OpenShard
