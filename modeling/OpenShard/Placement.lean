import OpenShard.Completion
import OpenShard.Consistency
import OpenShard.Healing

/-!
# Which volunteer a service is routed to

A service is routed to the one server of its own backend. Assigning a service sets that server, and
moving its volunteer moves it; removing the volunteer leaves it where it is, and a reload drops it.
So a service goes to a volunteer that does not hold it once such a volunteer is removed, and nowhere
once the first assignment of another service reloads HAProxy.
-/

namespace OpenShard

namespace Config

variable {h : Haproxy} {name : Text}

/-- The file has the service, or a line that shows where to insert it. -/
def Installable (content name : Text) : Prop :=
  serviceExists content name ∨ ∃ l ∈ Text.lines content, routing l = true

theorem added_cases (h : Haproxy) (name domain : Text) :
    (added h name domain = (.error .frontendNotFound, h) ∧ ¬ Installable h.file name) ∨
      (added h name domain = (.ok (), h) ∧ serviceExists h.file name) ∨
      ∃ newContent, addedContent h.file name domain = some newContent ∧
        (∃ l ∈ Text.lines h.file, routing l = true) ∧
        added h name domain = (.ok (), { h with file := newContent }.reload) := by
  rw [added]
  by_cases hex : serviceExists h.file name
  · rw [if_pos hex]
    exact Or.inr (Or.inl ⟨rfl, hex⟩)
  · rw [if_neg hex]
    by_cases hrouting : (Text.lines h.file).any routing
    · obtain ⟨newContent, hadded⟩ : ∃ c, addedContent h.file name domain = some c := by
        rw [addedContent, if_pos hrouting]
        exact ⟨_, rfl⟩
      rw [hadded]
      exact Or.inr (Or.inr ⟨newContent, rfl, List.any_eq_true.1 hrouting, rfl⟩)
    · have hadded : addedContent h.file name domain = none := by
        rw [addedContent, if_neg hrouting]
      rw [hadded]
      refine Or.inl ⟨rfl, ?_⟩
      rintro (hknown | hline)
      · exact hex hknown
      · exact hrouting (List.any_eq_true.2 hline)

theorem Installable.addedContent {content other domain newContent : Text}
    (hi : Installable content name) (hadded : addedContent content other domain = some newContent) :
    Installable newContent name := by
  rcases hi with ⟨l, hl, hmarker⟩ | ⟨l, hl, hrouting⟩
  · obtain ⟨l', hl', heq⟩ := List.mem_map.1 (trim_mem_addedContent hadded hl)
    exact Or.inl ⟨l', hl', heq ▸ hmarker⟩
  · obtain ⟨l', hl', heq⟩ := List.mem_map.1 (trim_mem_addedContent hadded hl)
    exact Or.inr ⟨l', hl', by rw [routing, heq]; exact hrouting⟩

end Config

namespace HaproxyManager

open Config Future

variable {h : Haproxy} {serviceName domain addr : Text}

/-- Every server is in a backend that HAProxy runs, and the file takes every service that has one. -/
structure Sourced (h : Haproxy) : Prop where
  backend : ∀ k sv, h.servers.lookup k = some sv → hasBackend h.loaded k.1
  service : ∀ name sv, h.servers.lookup (serviceBackend name, primary) = some sv →
    Installable h.file (serviceBackend name)

theorem sourced_of_empty (hnone : ∀ k, h.servers.lookup k = none) : Sourced h where
  backend k sv hsv := by
    rw [hnone] at hsv
    simp at hsv
  service name sv hsv := by
    rw [hnone] at hsv
    simp at hsv

theorem Sourced.setServer (hs : Sourced h) {k : ServerKey} (hb : hasBackend h.loaded k.1)
    (hi : ∀ name, k = (serviceBackend name, primary) → Installable h.file (serviceBackend name))
    (sv : Server) : Sourced (h.setServer k sv) where
  backend k' sv' hsv' := by
    rw [Haproxy.lookup_setServer] at hsv'
    split_ifs at hsv' with hk
    · rw [hk]
      exact hb
    · exact hs.backend k' sv' hsv'
  service name sv' hsv' := by
    rw [Haproxy.lookup_setServer] at hsv'
    split_ifs at hsv' with hk
    · exact hi name hk.symm
    · exact hs.service name sv' hsv'

/-- What assigning a service does: nothing, or setting its server, HAProxy reloaded before or not. -/
inductive Assigned (h : Haproxy) (serviceName addr : Text) : Except Error Unit → Haproxy → Prop
  | unknown {e : Error} (hi : ¬ Installable h.file (serviceBackend serviceName)) :
      Assigned h serviceName addr (.error e) h
  | unbacked {e : Error} {h' : Haproxy} (hfrom : h' = h ∨ ∃ c, h' = { h with file := c }.reload)
      (hsourced : Sourced h → Sourced h')
      (hb : ¬ hasBackend h'.loaded (serviceBackend serviceName)) :
      Assigned h serviceName addr (.error e) h'
  | set {h' : Haproxy} (hfrom : h' = h ∨ ∃ c, h' = { h with file := c }.reload)
      (hsourced : Sourced h → Sourced h')
      (hi : Installable h'.file (serviceBackend serviceName))
      (hb : hasBackend h'.loaded (serviceBackend serviceName)) :
      Assigned h serviceName addr (.ok ())
        (h'.setServer (serviceBackend serviceName, primary) ⟨addr, 100, .ready⟩)

theorem assigned_spec (h : Haproxy) (serviceName domain addr : Text) :
    Assigned h serviceName addr (assigned h serviceName domain addr).1
      (assigned h serviceName domain addr).2 := by
  have hupserted : ∀ h' : Haproxy, (h' = h ∨ ∃ c, h' = { h with file := c }.reload) →
      (Sourced h → Sourced h') → Installable h'.file (serviceBackend serviceName) →
      Assigned h serviceName addr (upserted h' serviceName addr).1
        (upserted h' serviceName addr).2 := by
    intro h' hfrom hsourced hi
    rw [upserted]
    split_ifs with hb
    · exact .set hfrom hsourced hi hb
    · exact .unbacked hfrom hsourced hb
  rw [assigned]
  rcases added_cases h (serviceBackend serviceName) domain with
    ⟨heq, hi⟩ | ⟨heq, hex⟩ | ⟨c, hadded, hline, heq⟩
  · rw [heq]
    exact .unknown hi
  · rw [heq]
    exact hupserted h (Or.inl rfl) id (Or.inl hex)
  · rw [heq]
    have hi : Installable h.file (serviceBackend serviceName) := Or.inr hline
    exact hupserted _ (Or.inr ⟨c, rfl⟩) (fun _ => sourced_of_empty fun _ => rfl)
      (hi.addedContent hadded)

variable {r : Except Error Unit} {h' : Haproxy}

theorem Assigned.sourced (ha : Assigned h serviceName addr r h') (hs : Sourced h) : Sourced h' := by
  cases ha with
  | unknown hi => exact hs
  | unbacked _ hsourced _ => exact hsourced hs
  | @set h₁ _ hsourced hi hb =>
      refine (hsourced hs).setServer hb (fun name hk => ?_) _
      rw [← (Prod.mk.inj hk).1]
      exact hi

theorem Assigned.other (ha : Assigned h serviceName addr r h') {k : ServerKey}
    (hk : k ≠ (serviceBackend serviceName, primary)) :
    h'.servers.lookup k = h.servers.lookup k ∨ h'.servers.lookup k = none := by
  have hlookup : ∀ {h₁ : Haproxy}, (h₁ = h ∨ ∃ c, h₁ = { h with file := c }.reload) →
      h₁.servers.lookup k = h.servers.lookup k ∨ h₁.servers.lookup k = none := by
    rintro h₁ (rfl | ⟨c, rfl⟩)
    · exact Or.inl rfl
    · exact Or.inr rfl
  cases ha with
  | unknown hi => exact Or.inl rfl
  | unbacked hfrom _ _ => exact hlookup hfrom
  | set hfrom _ _ _ =>
      rw [Haproxy.lookup_setServer, if_neg hk]
      exact hlookup hfrom

theorem Assigned.own (ha : Assigned h serviceName addr r h') (hs : Sourced h) {sv : Server}
    (hsv : h'.servers.lookup (serviceBackend serviceName, primary) = some sv) : sv.addr = addr := by
  cases ha with
  | unknown hi => exact absurd (hs.service _ _ hsv) hi
  | unbacked _ hsourced hb => exact absurd ((hsourced hs).backend _ _ hsv) hb
  | set _ _ _ _ =>
      rw [Haproxy.lookup_setServer_self] at hsv
      rw [← Option.some.inj hsv]

/-- A call that fails leaves no server of the service. -/
theorem Assigned.refused {e : Error} (ha : Assigned h serviceName addr (.error e) h')
    (hs : Sourced h) : h'.servers.lookup (serviceBackend serviceName, primary) = none := by
  cases hsv : h'.servers.lookup (serviceBackend serviceName, primary) with
  | none => rfl
  | some sv =>
      cases ha with
      | unknown hi => exact absurd (hs.service _ _ hsv) hi
      | unbacked _ hsourced hb => exact absurd ((hsourced hs).backend _ _ hsv) hb

structure Elsewhere (backend : Text) (h h' : Haproxy) : Prop where
  file : h'.file = h.file
  loaded : h'.loaded = h.loaded
  servers : ∀ k, k.1 ≠ backend → h'.servers.lookup k = h.servers.lookup k
  backed : hasBackend h.loaded backend ∨ h'.servers = h.servers

variable {backend : Text}

theorem elsewhere_refl (h : Haproxy) : Elsewhere backend h h :=
  ⟨rfl, rfl, fun _ _ => rfl, Or.inr rfl⟩

theorem Elsewhere.trans {h'' : Haproxy} (hfst : Elsewhere backend h h')
    (hsnd : Elsewhere backend h' h'') : Elsewhere backend h h'' where
  file := hsnd.file.trans hfst.file
  loaded := hsnd.loaded.trans hfst.loaded
  servers k hk := (hsnd.servers k hk).trans (hfst.servers k hk)
  backed := by
    rcases hfst.backed with hb | hsame
    · exact Or.inl hb
    · rcases hsnd.backed with hb | hsame'
      · exact Or.inl (hfst.loaded ▸ hb)
      · exact Or.inr (hsame'.trans hsame)

theorem elsewhere_setServer (hb : hasBackend h.loaded backend) (n : Text) (sv : Server) :
    Elsewhere backend h (h.setServer (backend, n) sv) where
  file := rfl
  loaded := rfl
  servers k hk := by
    rw [Haproxy.lookup_setServer, if_neg]
    rintro rfl
    exact hk rfl
  backed := Or.inl hb

theorem elsewhere_alter (h : Haproxy) (n : Text) (f : Server → Server) :
    Elsewhere backend h (h.alter (backend, n) f).2 := by
  rw [Haproxy.alter]
  split_ifs with hb
  · cases h.servers.lookup (backend, n) with
    | none => exact elsewhere_refl h
    | some sv => exact elsewhere_setServer hb n (f sv)
  · exact elsewhere_refl h

theorem elsewhere_command {cmd : Command} (hcmd : commandTo backend _ (.command cmd)) :
    Elsewhere backend h (h.command cmd).2 := by
  cases cmd with
  | addServer b n addr =>
      obtain rfl : b = backend := hcmd
      rw [Haproxy.command]
      split_ifs with hb
      · split
        · exact elsewhere_setServer hb n _
        · exact elsewhere_refl h
      · exact elsewhere_refl h
  | delServer b n =>
      obtain rfl : b = backend := hcmd
      rw [Haproxy.command]
      split_ifs with hb
      · split
        · exact elsewhere_refl h
        · split_ifs
          · refine ⟨rfl, rfl, fun k hk => ?_, Or.inl hb⟩
            refine AList.lookup_erase_ne fun heq => hk ?_
            rw [heq]
          · exact elsewhere_refl h
      · exact elsewhere_refl h
  | setWeight b n weight =>
      obtain rfl : b = backend := hcmd
      exact elsewhere_alter h n _
  | setState b n state =>
      obtain rfl : b = backend := hcmd
      exact elsewhere_alter h n _
  | setAddr b n ip port =>
      obtain rfl : b = backend := hcmd
      exact elsewhere_alter h n _

theorem elsewhere_of_commands {α : Type} {t : Future HaproxyOp α} (ht : t.Uses (commandTo backend))
    {g : Guard HaproxyOp HaproxyEnv Haproxy} {a : α} (run : Runs g t h a h') :
    Elsewhere backend h h' := by
  induction run with
  | ready a s => exact elsewhere_refl s
  | @await γ op next e k k' k'' c a hg he _ ih =>
      refine Elsewhere.trans ?_ (ih (ht.2 _))
      cases op with
      | command cmd =>
          simp only [Machine.exec] at he
          split at he
          · rw [← (Prod.mk.inj (Option.some.inj he)).2]
            exact elsewhere_command ht.1
          · rw [← (Prod.mk.inj (Option.some.inj he)).2]
            exact elsewhere_refl k
      | _ => exact ht.1.elim

theorem Sourced.elsewhere (hs : Sourced h) (helse : Elsewhere volunteers h h') : Sourced h' where
  backend k sv hsv := by
    rw [helse.loaded]
    by_cases hk : k.1 = volunteers
    · rcases helse.backed with hb | hsame
      · rw [hk]
        exact hb
      · rw [hsame] at hsv
        exact hs.backend k sv hsv
    · rw [helse.servers k hk] at hsv
      exact hs.backend k sv hsv
  service name sv hsv := by
    rw [helse.file]
    rw [helse.servers _ (serviceBackend_ne_volunteers name)] at hsv
    exact hs.service name sv hsv

end HaproxyManager

namespace Registrar

open HaproxyManager UuidFormat

section Routing

variable {Uuid : Type}

def routedTo (h : Haproxy) (name addr : Text) : Prop :=
  ∃ sv ∈ h.servers.lookup (serviceBackend name, primary), sv.state = .ready ∧ sv.addr = addr

instance (h : Haproxy) (name addr : Text) : Decidable (routedTo h name addr) :=
  inferInstanceAs (Decidable (∃ sv ∈ h.servers.lookup _, _))

def Holds (v : VolunteerState Uuid) (name : Text) : Prop :=
  ∃ a ∈ v.assignedService, a.serviceName = name

variable [DecidableEq Uuid]

def HeldAt (map : Table Uuid (VolunteerState Uuid)) (name addr : Text) : Prop :=
  ∃ id, ∃ v ∈ map.lookup id, Holds v name ∧ v.info.serviceAddr = addr

variable [UuidFormat Uuid]

def leaver : {β : Type} → RegistrarOp Uuid β → Option Uuid
  | _, .own (.removeVolunteer id) => some id
  | _, _ => none

def mover : {β : Type} → RegistrarOp Uuid β → Option (Uuid × Text)
  | _, .own (.setServiceAddr id addr) => some (id, addr)
  | _, _ => none

/-- No volunteer is removed while its service is routed to it, and none is moved then, unless HAProxy
has its server in `volunteers` too. -/
def leavesNothing {β : Type} (s : World Uuid) (op : RegistrarOp Uuid β) : Prop :=
  (∀ id ∈ leaver op, ∀ v ∈ s.volunteers.lookup id, ∀ a ∈ v.assignedService,
    ¬ routedTo s.haproxy a.serviceName v.info.serviceAddr) ∧
  ∀ m ∈ mover op, ∀ v ∈ s.volunteers.lookup m.1, ∀ a ∈ v.assignedService,
    routedTo s.haproxy a.serviceName v.info.serviceAddr →
      v.info.serviceAddr = m.2 ∨
        (s.haproxy.servers.lookup (volunteers, serverNameFor m.1)).isSome

instance {β : Type} (s : World Uuid) (op : RegistrarOp Uuid β) : Decidable (leavesNothing s op) :=
  inferInstanceAs (Decidable (_ ∧ _))

/-- HAProxy answers every call, identifiers are fresh, and no step leaves a service behind. -/
def parting : Guard (RegistrarOp Uuid) (RegistrarEnv Uuid) (World Uuid) :=
  fun β e op s => haproxyAnswers β e op s ∧ freshIds β e op s ∧ leavesNothing s op

instance (β : Type) (e : RegistrarEnv Uuid) (op : RegistrarOp Uuid β) (s : World Uuid) :
    Decidable (parting β e op s) :=
  inferInstanceAs (Decidable (e.haproxy = .calm ∧ (op.drawsId → e.uuid ∉ s.issued) ∧
    leavesNothing s op))

variable [Rfc3339]

def RowsIssued (db : Db) (issued : List Uuid) : Prop :=
  ∀ key r, db.volunteers.lookup key = some r → ∃ id ∈ issued, r.id = toText id

/-- Every entry has an issued identifier and an address, and the rows have issued identifiers. -/
structure Listed (s : World Uuid) : Prop where
  keyed : ∀ key v, s.volunteers.lookup key = some v → v.id = key
  addressed : ∀ key v, s.volunteers.lookup key = some v → ':' ∈ v.info.serviceAddr
  known : ∀ key v, s.volunteers.lookup key = some v → key ∈ s.issued
  rows : RowsIssued s.db s.issued

/-- Where a service is routed to, a volunteer holds it. -/
structure Current (s : World Uuid) : Prop extends Listed s where
  sourced : Sourced s.haproxy
  held : ∀ name addr, routedTo s.haproxy name addr → HeldAt s.volunteers name addr

variable {s s' : World Uuid} {h : Haproxy}

omit [Rfc3339] in
theorem Listed.write (hs : Listed s) {id : Uuid} {v : VolunteerState Uuid} (hid : v.id = id)
    (haddr : ':' ∈ v.info.serviceAddr) {ps : List PendingService} {db : Db} {issued : List Uuid}
    (hkeep : ∀ x ∈ s.issued, x ∈ issued) (hnew : id ∈ issued) (hrows : RowsIssued db issued) :
    Listed ⟨s.volunteers.insert id v, ps, db, h, issued⟩ where
  keyed key w hw := by
    have hlookup : (s.volunteers.insert id v).lookup key = some w := hw
    rw [Table.lookup_insert_if] at hlookup
    split_ifs at hlookup with hkey
    · rw [hkey, ← hid, Option.some.inj hlookup]
    · exact hs.keyed key w hlookup
  addressed key w hw := by
    have hlookup : (s.volunteers.insert id v).lookup key = some w := hw
    rw [Table.lookup_insert_if] at hlookup
    split_ifs at hlookup with hkey
    · rw [← Option.some.inj hlookup]
      exact haddr
    · exact hs.addressed key w hlookup
  known key w hw := by
    have hlookup : (s.volunteers.insert id v).lookup key = some w := hw
    rw [Table.lookup_insert_if] at hlookup
    split_ifs at hlookup with hkey
    · rw [hkey]
      exact hnew
    · exact hkeep key (hs.known key w hlookup)
  rows := hrows

omit [Rfc3339] in
theorem Current.write (hs : Current s) {id : Uuid} {v : VolunteerState Uuid} (hid : v.id = id)
    (haddr : ':' ∈ v.info.serviceAddr) {ps : List PendingService} {db : Db} {issued : List Uuid}
    (hkeep : ∀ x ∈ s.issued, x ∈ issued) (hnew : id ∈ issued) (hrows : RowsIssued db issued)
    (hsourced : Sourced h)
    (hrouted : ∀ name addr, routedTo h name addr →
      (Holds v name ∧ v.info.serviceAddr = addr) ∨ (routedTo s.haproxy name addr ∧
        ∀ w ∈ s.volunteers.lookup id, Holds w name → w.info.serviceAddr ≠ addr)) :
    Current ⟨s.volunteers.insert id v, ps, db, h, issued⟩ where
  toListed := hs.toListed.write hid haddr hkeep hnew hrows
  sourced := hsourced
  held name addr hserver := by
    rcases hrouted name addr hserver with ⟨hholds, hat⟩ | ⟨hbefore, hnot⟩
    · exact ⟨id, v, AList.lookup_insert _, hholds, hat⟩
    · obtain ⟨key, w, hw, hheld, hat⟩ := hs.held name addr hbefore
      have hne : key ≠ id := fun heq => hnot w (heq ▸ hw) hheld hat
      exact ⟨key, w, (AList.lookup_insert_ne hne).trans hw, hheld, hat⟩

omit [Rfc3339] in
theorem Current.dropped (hs : Current s) (hsourced : Sourced h)
    (hless : ∀ name addr, routedTo h name addr → routedTo s.haproxy name addr)
    {ps : List PendingService} {db : Db} (hrows : RowsIssued db s.issued) :
    Current ⟨s.volunteers, ps, db, h, s.issued⟩ where
  keyed := hs.keyed
  addressed := hs.addressed
  known := hs.known
  rows := hrows
  sourced := hsourced
  held name addr hrouted := hs.held name addr (hless name addr hrouted)

omit [Rfc3339] in
theorem Current.erase (hs : Current s) (hsourced : Sourced h)
    (hless : ∀ name addr, routedTo h name addr → routedTo s.haproxy name addr) {id : Uuid}
    (hfree : ∀ v ∈ s.volunteers.lookup id, ∀ a ∈ v.assignedService,
      ¬ routedTo s.haproxy a.serviceName v.info.serviceAddr)
    {ps : List PendingService} {db : Db} (hrows : RowsIssued db s.issued) :
    Current ⟨s.volunteers.erase id, ps, db, h, s.issued⟩ where
  keyed key v hv := by
    have hlookup : (s.volunteers.erase id).lookup key = some v := hv
    rw [Table.lookup_erase_if] at hlookup
    split_ifs at hlookup
    exact hs.keyed key v hlookup
  addressed key v hv := by
    have hlookup : (s.volunteers.erase id).lookup key = some v := hv
    rw [Table.lookup_erase_if] at hlookup
    split_ifs at hlookup
    exact hs.addressed key v hlookup
  known key v hv := by
    have hlookup : (s.volunteers.erase id).lookup key = some v := hv
    rw [Table.lookup_erase_if] at hlookup
    split_ifs at hlookup
    exact hs.known key v hlookup
  rows := hrows
  sourced := hsourced
  held name addr hrouted := by
    have hbefore := hless name addr hrouted
    obtain ⟨key, v, hv, hheld, hat⟩ := hs.held name addr hbefore
    have hne : key ≠ id := by
      rintro rfl
      obtain ⟨a, ha, rfl⟩ := hheld
      exact hfree v hv a ha (hat ▸ hbefore)
    exact ⟨key, v, (AList.lookup_erase_ne hne).trans hv, hheld, hat⟩

end Routing

section Routes

variable {h h' : Haproxy} {serviceName domain addr : Text} {r : Except Error Unit}

theorem routed_other (ha : Assigned h serviceName addr r h') {name x : Text}
    (hne : name ≠ serviceName) (hrouted : routedTo h' name x) : routedTo h name x := by
  obtain ⟨sv, hsv, hready⟩ := hrouted
  have hk : (serviceBackend name, primary) ≠ (serviceBackend serviceName, primary) :=
    fun heq => hne (serviceBackend_injective (Prod.mk.inj heq).1)
  rcases ha.other hk with hsame | hnone
  · exact ⟨sv, hsame ▸ hsv, hready⟩
  · rw [hnone] at hsv
    simp at hsv

theorem routed_own (ha : Assigned h serviceName addr r h') (hs : Sourced h) {x : Text}
    (hrouted : routedTo h' serviceName x) : x = addr := by
  obtain ⟨sv, hsv, -, rfl⟩ := hrouted
  exact ha.own hs hsv

theorem routed_refused {e : Error} (ha : Assigned h serviceName addr (.error e) h')
    (hs : Sourced h) {name x : Text} (hrouted : routedTo h' name x) : routedTo h name x := by
  by_cases hname : name = serviceName
  · subst hname
    obtain ⟨sv, hsv, -⟩ := hrouted
    rw [ha.refused hs] at hsv
    simp at hsv
  · exact routed_other ha hname hrouted

theorem routed_elsewhere (helse : Elsewhere volunteers h h') {name x : Text}
    (hrouted : routedTo h' name x) : routedTo h name x := by
  obtain ⟨sv, hsv, hready⟩ := hrouted
  rw [helse.servers _ (serviceBackend_ne_volunteers name)] at hsv
  exact ⟨sv, hsv, hready⟩

theorem retargeted_of_sourced (hs : Sourced h) (k : ServerKey) (addr : Text) :
    (∃ sv, hasBackend h.loaded k.1 ∧ h.servers.lookup k = some sv ∧
      retargeted h k addr = (.ok (), h.setServer k ⟨addr, sv.weight, .ready⟩)) ∨
    h.servers.lookup k = none ∧ ∃ e, retargeted h k addr = (.error e, h) := by
  cases hsv : h.servers.lookup k with
  | none =>
      refine Or.inr ⟨rfl, ?_⟩
      by_cases hb : hasBackend h.loaded k.1
      · exact ⟨_, by rw [retargeted, if_pos hb, hsv]⟩
      · exact ⟨_, by rw [retargeted, if_neg hb]⟩
  | some sv =>
      have hb := hs.backend k sv hsv
      exact Or.inl ⟨sv, hb, rfl, by rw [retargeted, if_pos hb, hsv]⟩

/-- A move that finds the volunteer's server takes the service along, if its server is there, and
leaves it without a route otherwise. -/
theorem routes_of_move {Uuid : Type} [UuidFormat Uuid] {id : Uuid} {addr : Text}
    {svc : Option (Text × Text)} {r : Except Error Unit} (hs : Sourced h) (haddr : ':' ∈ addr)
    (hsvc : ∀ x ∈ svc, ':' ∈ x.2)
    (hcalm : calm (updateVolunteerAddr id addr svc).run h = some (r, h')) :
    (h' = h ∧ h.servers.lookup (volunteers, serverNameFor id) = none) ∨
      Sourced h' ∧ ∀ name x, routedTo h' name x →
        (name, x) ∈ svc ∨ routedTo h name x ∧ ∀ p ∈ svc, p.1 ≠ name := by
  rw [calm_updateVolunteerAddr _ _ haddr hsvc] at hcalm
  rcases retargeted_of_sourced hs (volunteers, serverNameFor id) addr with
    ⟨sv, hb, -, hok⟩ | ⟨hno, e, herr⟩
  · have helse : Elsewhere volunteers h
        (h.setServer (volunteers, serverNameFor id) ⟨addr, sv.weight, .ready⟩) :=
      elsewhere_setServer hb _ _
    rw [hok] at hcalm
    generalize h.setServer (volunteers, serverNameFor id) ⟨addr, sv.weight, .ready⟩ = h₁
      at hcalm helse
    have hs₁ := hs.elsewhere helse
    refine Or.inr ?_
    cases svc with
    | none =>
        obtain ⟨-, rfl⟩ := Prod.mk.inj (Option.some.inj hcalm)
        exact ⟨hs₁, fun name x hrouted => Or.inr ⟨routed_elsewhere helse hrouted, by simp⟩⟩
    | some svc =>
        obtain ⟨serviceName, tunnelAddr⟩ := svc
        simp only at hcalm
        rcases retargeted_of_sourced hs₁ (serviceBackend serviceName, primary) tunnelAddr with
          ⟨sv', hb', hsv', hok'⟩ | ⟨hno', e, herr'⟩
        · rw [hok'] at hcalm
          obtain ⟨-, rfl⟩ := Prod.mk.inj (Option.some.inj hcalm)
          refine ⟨hs₁.setServer hb' (fun name hk => ?_) _, fun name x hrouted => ?_⟩
          · obtain rfl := serviceBackend_injective (Prod.mk.inj hk).1
            exact hs₁.service _ _ hsv'
          · obtain ⟨sv'', hserver, hready, hat⟩ := hrouted
            rw [Haproxy.lookup_setServer] at hserver
            split_ifs at hserver with hk
            · obtain rfl := serviceBackend_injective (Prod.mk.inj hk).1
              rw [← Option.some.inj hserver] at hat
              subst hat
              exact Or.inl rfl
            · refine Or.inr ⟨routed_elsewhere helse ⟨sv'', hserver, hready, hat⟩, ?_⟩
              rintro p hp rfl
              obtain rfl := Option.some.inj hp
              exact hk rfl
        · rw [herr'] at hcalm
          obtain ⟨-, rfl⟩ := Prod.mk.inj (Option.some.inj hcalm)
          refine ⟨hs₁, fun name x hrouted => Or.inr ⟨routed_elsewhere helse hrouted, ?_⟩⟩
          rintro p hp rfl
          obtain rfl := Option.some.inj hp
          obtain ⟨sv', hserver, -⟩ := hrouted
          rw [hno'] at hserver
          simp at hserver
  · rw [herr] at hcalm
    obtain ⟨-, rfl⟩ := Prod.mk.inj (Option.some.inj hcalm)
    exact Or.inl ⟨rfl, hno⟩

variable {Uuid : Type} {g : Guard (RegistrarOp Uuid) (RegistrarEnv Uuid) (World Uuid)}
  {s₀ : World Uuid}

theorem assigned_of_run
    (hcalm : ∀ β e (op : RegistrarOp Uuid β) s, g β e op s → e.haproxy = .calm)
    (ha : ':' ∈ addr) (hl : h.configLocked = false)
    (run : Runs (haproxyPart g s₀) (assignService serviceName domain addr).run h r h') :
    Assigned h serviceName addr r h' := by
  have hall := haproxyPart_calm hcalm run
  rw [calm_assignService _ _ _ ha hl] at hall
  have hspec := assigned_spec h serviceName domain addr
  rw [Option.some.inj hall] at hspec
  exact hspec

end Routes

section Rows

variable {Uuid : Type} [DecidableEq Uuid] [UuidFormat Uuid] [Rfc3339]
  {g : Guard (RegistrarOp Uuid) (RegistrarEnv Uuid) (World Uuid)} {s : World Uuid} {db : Db}
  {ids : List Uuid}

theorem Queried.cases {α : Type} {op : DbOp Uuid α} {a : α} (hq : Queried g s op a db) :
    (a = op.failed ∧ db = s.db) ∨ ∃ e, op.answered e s.db = (a, db) := by
  obtain ⟨e, -, hexec⟩ := hq
  simp only [Machine.exec] at hexec
  split_ifs at hexec
  · obtain ⟨rfl, rfl⟩ := Prod.mk.inj (Option.some.inj hexec)
    exact Or.inl ⟨rfl, rfl⟩
  · exact Or.inr ⟨e.db, Option.some.inj hexec⟩

theorem Queried.rows_upsert {v : VolunteerState Uuid}
    (hq : Queried g s (.upsertVolunteer v) () db) (hrows : RowsIssued s.db ids) (hv : v.id ∈ ids) :
    RowsIssued db ids := by
  rcases hq.cases with ⟨-, rfl⟩ | ⟨e, heq⟩
  · exact hrows
  · obtain ⟨-, rfl⟩ := Prod.mk.inj heq
    intro key r hr
    have hlookup : (s.db.volunteers.insert (toText v.id) (.ofVolunteer v)).lookup key = some r := hr
    rw [Table.lookup_insert_if] at hlookup
    split_ifs at hlookup
    · exact ⟨v.id, hv, by rw [← Option.some.inj hlookup]; rfl⟩
    · exact hrows key r hlookup

theorem Queried.rows_remove {id : Uuid} (hq : Queried g s (.removeVolunteer id) () db)
    (hrows : RowsIssued s.db ids) : RowsIssued db ids := by
  rcases hq.cases with ⟨-, rfl⟩ | ⟨e, heq⟩
  · exact hrows
  · obtain ⟨-, rfl⟩ := Prod.mk.inj heq
    intro key r hr
    have hlookup : (s.db.volunteers.erase (toText id)).lookup key = some r := hr
    rw [Table.lookup_erase_if] at hlookup
    split_ifs at hlookup
    exact hrows key r hlookup

theorem Queried.rows_kept {op : DbOp Uuid Unit} (hq : Queried g s op () db)
    (hrows : RowsIssued s.db ids)
    (hop : ∀ e, (op.answered e s.db).2.volunteers = s.db.volunteers) : RowsIssued db ids := by
  rcases hq.cases with ⟨-, rfl⟩ | ⟨e, heq⟩
  · exact hrows
  · intro key r hr
    have hsame := hop e
    rw [heq] at hsame
    exact hrows key r (hsame ▸ hr)

theorem FoundBy.issued {nodeKey : Text} {id : Uuid} (hs : Listed s)
    (hfound : FoundBy g s nodeKey (some id)) : id ∈ s.issued := by
  cases hfound with
  | inMemory _ hv _ =>
      rw [hs.keyed _ _ hv]
      exact hs.known _ _ hv
  | inDatabase _ _ hq =>
      rcases hq.cases with ⟨hfailed, -⟩ | ⟨e, heq⟩
      · simp [DbOp.failed] at hfailed
      · obtain ⟨hrow, -⟩ := Prod.mk.inj heq
        obtain ⟨key, r, hkey, -, hparse⟩ := Db.row_of_findByHostname hrow
        obtain ⟨id', hid', hname⟩ := hs.rows key r hkey
        rw [hname, parseStr_toText] at hparse
        rw [← Option.some.inj hparse]
        exact hid'

end Rows

section Steps

variable {Uuid : Type} [DecidableEq Uuid] [UuidFormat Uuid] [Rfc3339]
  {g : Guard (RegistrarOp Uuid) (RegistrarEnv Uuid) (World Uuid)} {s s' : World Uuid}

/-- What HAProxy routes after a service was attached to an enrolling volunteer: the service it now has
goes to its address, and it had no other. -/
structure Handed (s s' : World Uuid) (id : Uuid) (addr : Text) (a : Option ServiceAssignment) :
    Prop where
  volunteers : s'.volunteers = s.volunteers
  issued : s'.issued = s.issued
  rows : s'.db.volunteers = s.db.volunteers
  sourced : Sourced s'.haproxy
  own : ∀ b ∈ a, ∀ x, routedTo s'.haproxy b.serviceName x → x = addr
  other : ∀ name x, (∀ b ∈ a, b.serviceName ≠ name) → routedTo s'.haproxy name x →
    routedTo s.haproxy name x ∧ ∀ w ∈ s.volunteers.lookup id, ¬ Holds w name

theorem Attached.handed
    (hcalm : ∀ β e (op : RegistrarOp Uuid β) s, g β e op s → e.haproxy = .calm)
    {id : Uuid} {addr : Text} {now : DateTime} {existing a : Option ServiceAssignment}
    (haddr : ':' ∈ addr) (hs : Sourced s.haproxy) (hl : s.haproxy.configLocked = false)
    (hold : ∀ w ∈ s.volunteers.lookup id, ∀ name, Holds w name →
      ∃ b ∈ existing, b.serviceName = name)
    (hattached : Attached g s id addr now existing a s') : Handed s s' id addr a := by
  have hkept : ∀ {s₁ : World Uuid} {b : ServiceAssignment} {db : Db},
      Queried g s₁ (.upsertAssignment id b) () db → db.volunteers = s₁.db.volunteers := by
    intro s₁ b db hq
    rcases hq.cases with ⟨-, rfl⟩ | ⟨e, heq⟩
    · rfl
    · rw [← (Prod.mk.inj heq).2]
      rfl
  cases hattached with
  | @reattached b r h db hh hq =>
      have ha := assigned_of_run hcalm haddr hl hh
      have hrows := hkept hq
      refine ⟨rfl, rfl, hrows, ha.sourced hs, ?_, fun name x hno hrouted => ?_⟩
      · rintro _ ⟨⟩ x hrouted
        exact routed_own ha hs hrouted
      · have hne : name ≠ b.serviceName := fun heq => hno b rfl heq.symm
        refine ⟨routed_other ha hne hrouted, fun w hw hholds => ?_⟩
        obtain ⟨_, ⟨⟩, heq⟩ := hold w hw name hholds
        exact hne heq.symm
  | @taken p ps h db hp hh hq =>
      have ha := assigned_of_run hcalm haddr hl hh
      have hrows := hkept hq
      refine ⟨rfl, rfl, hrows, ha.sourced hs, ?_, fun name x hno hrouted => ?_⟩
      · rintro _ ⟨⟩ x hrouted
        exact routed_own ha hs hrouted
      · have hne : name ≠ p.name := fun heq => hno (assignmentFor p now) rfl heq.symm
        refine ⟨routed_other ha hne hrouted, fun w hw hholds => ?_⟩
        obtain ⟨b, hb, -⟩ := hold w hw name hholds
        simp at hb
  | @refused p ps e h hp hh =>
      have ha := assigned_of_run hcalm haddr hl hh
      refine ⟨rfl, rfl, rfl, ha.sourced hs, by simp, fun name x _ hrouted => ?_⟩
      refine ⟨routed_refused ha hs hrouted, fun w hw hholds => ?_⟩
      obtain ⟨b, hb, -⟩ := hold w hw name hholds
      simp at hb
  | nothingPending hp =>
      refine ⟨rfl, rfl, rfl, hs, by simp, fun name x _ hrouted => ⟨hrouted, fun w hw hholds => ?_⟩⟩
      obtain ⟨b, hb, -⟩ := hold w hw name hholds
      simp at hb

theorem identified_issued (hfresh : ∀ e s, g Uuid e (.own .newV4) s → e.uuid ∉ s.issued)
    (hs : Listed s) {nodeKey : Text} {existingId : Option Uuid}
    {existing : Option ServiceAssignment} {id : Uuid} {s₁ : World Uuid}
    (hid : FoundBy g s nodeKey existingId) (hexisting : AssignmentFound g s existingId existing)
    (hident : Identified g s existingId id s₁) :
    s₁ = { s with issued := s₁.issued } ∧ (∀ x ∈ s.issued, x ∈ s₁.issued) ∧ id ∈ s₁.issued ∧
      ∀ w ∈ s.volunteers.lookup id, ∀ name, Holds w name → ∃ b ∈ existing, b.serviceName = name := by
  cases hident with
  | known id =>
      refine ⟨rfl, fun x hx => hx, hid.issued hs, fun w hw name hholds => ?_⟩
      cases hexisting with
      | inMemory hv ha =>
          obtain rfl := Option.some.inj (hv.symm.trans hw)
          obtain ⟨b, hb, hname⟩ := hholds
          exact ⟨b, ha ▸ hb, hname⟩
      | inDatabase hno _ =>
          obtain ⟨b, hb, -⟩ := hholds
          rw [hno w hw] at hb
          simp at hb
  | @issued e hg =>
      refine ⟨rfl, fun x hx => List.mem_cons_of_mem _ hx, List.mem_cons_self, fun w hw => ?_⟩
      exact absurd (hs.known _ w hw) (hfresh e s hg)

omit [Rfc3339] in
theorem parting_calm {β : Type} (e : RegistrarEnv Uuid) (op : RegistrarOp Uuid β) (s : World Uuid)
    (hg : parting β e op s) : e.haproxy = .calm := hg.1

omit [Rfc3339] in
theorem parting_fresh (e : RegistrarEnv Uuid) (s : World Uuid)
    (hg : parting Uuid e (.own .newV4) s) : e.uuid ∉ s.issued := hg.2.1 rfl

theorem Enrolled.current {body : EnrollRequest} {r : EnrollResponse} (hs : Current s)
    (hl : s.haproxy.configLocked = false) (henrolled : Enrolled parting s body r s') :
    Current s' := by
  cases henrolled with
  | @mk existingId existing a id addr now s₁ s₂ db res h haddr hid hexisting hident hattached hq hh =>
    obtain ⟨hs₁, hkeep, hnew, hold⟩ := identified_issued parting_fresh hs.toListed hid hexisting hident
    have hsame : s₁.haproxy = s.haproxy := by rw [hs₁]
    have hmap : s₁.volunteers = s.volunteers := by rw [hs₁]
    have hdb : s₁.db = s.db := by rw [hs₁]
    have hhanded := hattached.handed (fun _ => parting_calm) haddr (hsame ▸ hs.sourced)
      (hsame ▸ hl) (hmap ▸ hold)
    have helse := elsewhere_of_commands (uses_upsertServer _ _ _ _) hh
    have hrows : RowsIssued s₂.db s₂.issued := by
      intro key r hr
      rw [hhanded.rows, hdb] at hr
      obtain ⟨id', hid', hr'⟩ := hs.rows key r hr
      exact ⟨id', hhanded.issued ▸ hkeep id' hid', hr'⟩
    have hissued : id ∈ s₂.issued := hhanded.issued ▸ hnew
    have hwrite := @Current.write Uuid _ _ s h hs id (enrolled body id addr now a) rfl haddr
      s₂.pendingServices db s₂.issued (fun x hx => hhanded.issued ▸ hkeep x hx) hissued
      (hq.rows_upsert hrows hissued) (hhanded.sourced.elsewhere helse) (fun name x hrouted => ?_)
    · have hfinal : ({ { s₂ with db }.insertVolunteer (enrolled body id addr now a) with
          haproxy := h } : World Uuid) =
          ⟨s.volunteers.insert id (enrolled body id addr now a), s₂.pendingServices, db, h,
            s₂.issued⟩ := by
        rw [World.insertVolunteer, ← hmap, ← hhanded.volunteers]
        rfl
      rw [hfinal]
      exact hwrite
    · have hbefore := routed_elsewhere helse hrouted
      by_cases hheld : ∃ b ∈ a, b.serviceName = name
      · obtain ⟨b, hb, rfl⟩ := hheld
        exact Or.inl ⟨⟨b, hb, rfl⟩, (hhanded.own b hb x hbefore).symm⟩
      · have hno : ∀ b ∈ a, b.serviceName ≠ name := fun b hb heq => hheld ⟨b, hb, heq⟩
        obtain ⟨hrouted', hfree⟩ := hhanded.other name x hno hbefore
        rw [hsame] at hrouted'
        rw [hmap] at hfree
        exact Or.inr ⟨hrouted', fun w hw hholds => absurd hholds (hfree w hw)⟩

omit [Rfc3339] in
theorem Current.unmoved {h : Haproxy} (hs : Current s) {id : Uuid} {v w : VolunteerState Uuid}
    (hv : s.volunteers.lookup id = some v) (hid : w.id = v.id)
    (hheld : w.assignedService = v.assignedService)
    (haddr : w.info.serviceAddr = v.info.serviceAddr) (helse : Elsewhere volunteers s.haproxy h)
    {db : Db} (hrows : RowsIssued db s.issued) :
    Current ⟨s.volunteers.insert id w, s.pendingServices, db, h, s.issued⟩ := by
  refine hs.write (hid.trans (hs.keyed id v hv)) (haddr ▸ hs.addressed id v hv) (fun _ hx => hx)
    (hs.known id v hv) hrows (hs.sourced.elsewhere helse) (fun name x hrouted => ?_)
  by_cases hown : Holds w name ∧ w.info.serviceAddr = x
  · exact Or.inl hown
  · refine Or.inr ⟨routed_elsewhere helse hrouted, fun w' hw' hholds hat => hown ⟨?_, ?_⟩⟩
    · obtain rfl := Option.some.inj (hv.symm.trans hw')
      rw [Holds, hheld]
      exact hholds
    · obtain rfl := Option.some.inj (hv.symm.trans hw')
      rw [haddr]
      exact hat

theorem Beaten.current {body : HeartbeatRequest Uuid} {r : HeartbeatReply} (hs : Current s)
    (hbeaten : Beaten parting s body r s') : Current s' := by
  cases hbeaten with
  | unknown hno => exact hs
  | @known v now db h hv hq hw =>
      have helse : Elsewhere volunteers s.haproxy h := by
        cases hw with
        | weighed hh => exact elsewhere_of_commands (uses_setWeight _ _ _) hh
        | readded hh hadd =>
            exact (elsewhere_of_commands (uses_setWeight _ _ _) hh).trans
              (elsewhere_of_commands (uses_addVolunteer _ _ _ _) hadd)
      have hid : (v.beat now body).id ∈ s.issued := by
        have hkey : (v.beat now body).id = body.volunteerId := hs.keyed _ v hv
        rw [hkey]
        exact hs.known _ v hv
      have hrows : RowsIssued db s.issued := hq.rows_upsert hs.rows hid
      exact @Current.unmoved Uuid _ _ s h hs body.volunteerId v (v.beat now body) hv rfl rfl rfl
        helse db hrows

theorem Moved.current {idStr : Text} {r : VolunteerReply} (hs : Current s)
    (hmoved : Moved parting s idStr r s') : Current s' := by
  cases hmoved with
  | badRequest => exact hs
  | unknown => exact hs
  | @known id v addr db r h _ haddr hv e hg hq hh =>
      have hid : (v.moveTo addr).id = id := hs.keyed id v hv
      have hissued : id ∈ s.issued := hs.known id v hv
      have hrows : RowsIssued db s.issued := hq.rows_upsert hs.rows (hid ▸ hissued)
      have hsvc : ∀ x ∈ svcInfo v addr, ':' ∈ x.2 := by
        intro x hx
        obtain ⟨a, -, rfl⟩ := Option.map_eq_some_iff.1 hx
        exact haddr
      have hstays : ∀ name x, routedTo s.haproxy name x →
          (Holds v name → v.info.serviceAddr = x → addr = x) →
          (Holds (v.moveTo addr) name ∧ (v.moveTo addr).info.serviceAddr = x) ∨
            (routedTo s.haproxy name x ∧
              ∀ w ∈ s.volunteers.lookup id, Holds w name → w.info.serviceAddr ≠ x) := by
        intro name x hrouted hhome
        by_cases hown : Holds v name ∧ v.info.serviceAddr = x
        · exact Or.inl ⟨hown.1, hhome hown.1 hown.2⟩
        · refine Or.inr ⟨hrouted, fun w hw hholds hat => hown ?_⟩
          obtain rfl := Option.some.inj (hv.symm.trans hw)
          exact ⟨hholds, hat⟩
      rcases routes_of_move hs.sourced haddr hsvc (haproxyPart_calm (fun _ => parting_calm) hh) with
        ⟨rfl, hno⟩ | ⟨hsourced, hroutes⟩
      · refine hs.write hid haddr (fun _ hx => hx) hissued hrows hs.sourced fun name x hrouted => ?_
        refine hstays name x hrouted fun hholds hat => ?_
        obtain ⟨a, ha, rfl⟩ := hholds
        rcases hg.2.2.2 (id, addr) rfl v hv a ha (hat.symm ▸ hrouted) with hsame | hpresent
        · exact hsame.symm.trans hat
        · rw [hno] at hpresent
          simp at hpresent
      · refine hs.write hid haddr (fun _ hx => hx) hissued hrows hsourced fun name x hrouted => ?_
        rcases hroutes name x hrouted with hmoved | ⟨hbefore, hother⟩
        · obtain ⟨a, ha, heq⟩ := Option.map_eq_some_iff.1 hmoved
          obtain ⟨rfl, rfl⟩ := Prod.mk.inj heq
          exact Or.inl ⟨⟨a, ha, rfl⟩, rfl⟩
        · refine hstays name x hbefore fun hholds => ?_
          obtain ⟨a, ha, hname⟩ := hholds
          exact absurd hname (hother _ (Option.map_eq_some_iff.2 ⟨a, ha, rfl⟩))

theorem Removed.current {id : Uuid} (hs : Current s) (hremoved : Removed parting s id s') :
    Current s' := by
  cases hremoved with
  | @mk db r h e hg hq hh =>
      have helse := elsewhere_of_commands (uses_removeVolunteer _ _) hh
      exact @Current.erase Uuid _ _ s h hs (hs.sourced.elsewhere helse)
        (fun name x => routed_elsewhere helse) id (hg.2.2.1 id rfl) s.pendingServices db
        (hq.rows_remove hs.rows)

theorem Departed.current {idStr : Text} {r : VolunteerReply} (hs : Current s)
    (hdeparted : Departed parting s idStr r s') : Current s' := by
  cases hdeparted with
  | badRequest => exact hs
  | unknown _ hno hs' =>
      rw [Table.erase_of_lookup_none hno] at hs'
      exact hs' ▸ hs
  | gone _ _ hremoved => exact hremoved.current hs

theorem Evicted.current {id : Uuid} {a : Option ServiceAssignment} (hs : Current s)
    (hevicted : Evicted parting s id a s') : Current s' := by
  cases hevicted with
  | free hremoved => exact hremoved.current hs
  | serving hremoved hq =>
      have hs₁ := hremoved.current hs
      exact hs₁.dropped hs₁.sourced (fun _ _ h => h) (hq.rows_kept hs₁.rows fun _ => rfl)

theorem EvictedAll.current {dead : List (Uuid × Option ServiceAssignment)} (hs : Current s)
    (hall : EvictedAll parting dead s s') : Current s' := by
  induction hall with
  | nil s => exact hs
  | cons hd _ ih => exact ih (hd.current hs)

theorem Registered.current {body : Service} {r : RegisterReply} (hs : Current s)
    (hl : s.haproxy.configLocked = false) (hregistered : Registered parting s body r s') :
    Current s' := by
  cases hregistered with
  | @assigned key v now h db hv hfree hh hq =>
      have ha := assigned_of_run (fun _ => parting_calm) (hs.addressed key v hv) hl hh
      have hkey := hs.keyed key v hv
      have hlookup : ({ s with haproxy := h, db := db } : World Uuid).volunteers.lookup v.id =
          some v := by
        rw [hkey]
        exact hv
      rw [World.alterVolunteer_of_lookup hlookup]
      refine @Current.write Uuid _ _ s h hs v.id (v.assign (Service.assignment body now)) rfl
        (hs.addressed key v hv) s.pendingServices db s.issued (fun _ hx => hx)
        (hkey ▸ hs.known key v hv) (hq.rows_kept hs.rows fun _ => rfl) (ha.sourced hs.sourced)
        (fun name x hrouted => ?_)
      by_cases hname : name = body.name
      · subst hname
        exact Or.inl ⟨⟨_, rfl, rfl⟩, (routed_own ha hs.sourced hrouted).symm⟩
      · refine Or.inr ⟨routed_other ha hname hrouted, fun w hw hholds => ?_⟩
        obtain rfl := Option.some.inj (hlookup.symm.trans hw)
        obtain ⟨a, ha', -⟩ := hholds
        rw [hfree] at ha'
        simp at ha'
  | @refused key v e h hv hfree hh =>
      have ha := assigned_of_run (fun _ => parting_calm) (hs.addressed key v hv) hl hh
      exact hs.dropped (ha.sourced hs.sourced) (fun _ _ => routed_refused ha hs.sourced) hs.rows
  | queued => exact hs.dropped hs.sourced (fun _ _ h => h) hs.rows

theorem Effect.current {q : Request Uuid} {r : Reply Uuid} (hs : Current s)
    (hl : s.haproxy.configLocked = false) (hq : q ≠ .restart) (heffect : Effect parting s q r s') :
    Current s' := by
  cases heffect with
  | enroll h => exact h.current hs hl
  | heartbeat h => exact h.current hs
  | updateTunnelPort h => exact h.current hs
  | disconnect h => exact h.current hs
  | registerService h => exact h.current hs hl
  | churn _ h => exact h.current hs
  | restart _ => exact absurd rfl hq

end Steps

section Runs

variable {Uuid : Type} [DecidableEq Uuid] [UuidFormat Uuid] [Rfc3339] [Inhabited Uuid]

omit [Rfc3339] [Inhabited Uuid] in
theorem current_initial {h : Haproxy} (hnone : ∀ k, h.servers.lookup k = none) :
    Current (World.initial h : World Uuid) where
  keyed _ _ hv := by simp [World.initial] at hv
  addressed _ _ hv := by simp [World.initial] at hv
  known _ _ hv := by simp [World.initial] at hv
  rows _ _ hr := by simp [World.initial] at hr
  sourced := sourced_of_empty hnone
  held name addr hrouted := by
    obtain ⟨sv, hsv, -⟩ := hrouted
    have hlookup : h.servers.lookup (serviceBackend name, primary) = some sv := hsv
    rw [hnone] at hlookup
    simp at hlookup

theorem History.current {h : Haproxy} (hnone : ∀ k, h.servers.lookup k = none)
    {events : List (Event Uuid)} {s : World Uuid}
    (hrun : History parting (World.initial h) events s) (hevents : ∀ e ∈ events, e.1 ≠ .restart) :
    Current s := by
  induction hrun with
  | nil => exact current_initial hnone
  | step past run ih =>
      have hpast := ih fun e he => hevents e (List.mem_cons_of_mem _ he)
      exact (handle_run run).current hpast past.lockFree (hevents _ List.mem_cons_self)

/-- While no volunteer is removed that a service is routed to, and none is moved behind HAProxy's
back, a service is only routed to a volunteer that holds it. -/
theorem services_routed_to_holders {h : Haproxy} (hnone : ∀ k, h.servers.lookup k = none)
    {events : List (Event Uuid)} {s : World Uuid}
    (hrun : History parting (World.initial h) events s) (hevents : ∀ e ∈ events, e.1 ≠ .restart) :
    ∀ name addr, routedTo s.haproxy name addr → HeldAt s.volunteers name addr :=
  (hrun.current hnone hevents).held

end Runs

/-- Nothing fails: a volunteer that a service was assigned to leaves, and the service is still routed to
it. -/
theorem service_routed_to_nobody :
    ¬ ∀ (h : Haproxy) (events : List (Event Node)) (s : World Node),
      (∀ k, h.servers.lookup k = none) → History answering (World.initial h) events s →
      (∀ e ∈ events, e.1 ≠ .restart) →
      ∀ name addr, routedTo s.haproxy name addr → HeldAt s.volunteers name addr := by
  intro hclaim
  have hbad : (replay answering (calmEnv 0 0) [.disconnect (toText Node.a), .registerService blog,
      .enroll (joins "volunteer-101" 7001)] (World.initial smallHaproxy)).any fun r =>
        (r.2.haproxy.servers.lookup (serviceBackend blog.name, primary)).any (·.state = .ready) &&
          r.2.volunteers.entries.isEmpty := by
    decide +kernel
  obtain ⟨⟨events, s⟩, hreplay, hleft⟩ := (Option.any_eq_true _ _).1 hbad
  rw [Bool.and_eq_true] at hleft
  obtain ⟨sv, hsv, hready⟩ := (Option.any_eq_true _ _).1 hleft.1
  have hevents : ∀ e ∈ events, e.1 ≠ .restart :=
    @requests_all Node (· ≠ .restart) _ _ (requests_of_replay answering hreplay) (by simp)
  obtain ⟨id, v, hv, -⟩ := hclaim smallHaproxy events s (fun k => rfl)
    (history_of_replay answering hreplay) hevents blog.name sv.addr
    ⟨sv, hsv, of_decide_eq_true hready, rfl⟩
  have hnone : s.volunteers.lookup id = none := by
    rw [AList.lookup_eq_none]
    intro hmem
    have hkey : id ∈ s.volunteers.entries.keys := hmem
    rw [List.isEmpty_iff.1 hleft.2] at hkey
    simp at hkey
  rw [hnone] at hv
  simp at hv

/-- A volunteer that a service was assigned to enrolls, moves, and another one leaves. -/
theorem services_routed_to_holders_moved :
    ∃ events s, History parting (World.initial smallHaproxy : World Node) events s ∧
      events.map Prod.fst = [.disconnect (toText Node.b), .updateTunnelPort (toText Node.a) 7003,
        .enroll (joins "volunteer-102" 7002), .enroll (joins "volunteer-101" 7001),
        .registerService blog] ∧
      ∀ name addr, routedTo s.haproxy name addr → HeldAt s.volunteers name addr := by
  have hsome : (replay parting (calmEnv 0 0) [.disconnect (toText Node.b),
      .updateTunnelPort (toText Node.a) 7003, .enroll (joins "volunteer-102" 7002),
      .enroll (joins "volunteer-101" 7001), .registerService blog]
      (World.initial smallHaproxy)).isSome := by
    decide +kernel
  obtain ⟨⟨events, s⟩, hreplay⟩ := Option.isSome_iff_exists.1 hsome
  have hrequests := requests_of_replay parting hreplay
  have hevents : ∀ e ∈ events, e.1 ≠ .restart :=
    @requests_all Node (· ≠ .restart) _ _ hrequests (by simp)
  have hrun := history_of_replay parting hreplay
  exact ⟨events, s, hrun, hrequests, services_routed_to_holders (fun k => rfl) hrun hevents⟩

end Registrar
end OpenShard
