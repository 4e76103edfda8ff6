import OpenShard.Completion
import OpenShard.Reload

/-!
# The volunteers' servers heal

A reload drops every server of the backend `volunteers`, and nothing puts them back at once: a
volunteer is routed to again after its next heartbeat, which finds its server missing and adds it.
What makes this enough is that no server is ever left behind: each one that is present belongs to a
volunteer in the map and is ready at its present address.
-/

namespace OpenShard

namespace HaproxyManager

open Future

section Commands

def commandTo (backend : Text) : (β : Type) → HaproxyOp β → Prop
  | _, .command (.addServer b _ _) => b = backend
  | _, .command (.delServer b _) => b = backend
  | _, .command (.setWeight b _ _) => b = backend
  | _, .command (.setState b _ _) => b = backend
  | _, .command (.setAddr b _ _ _) => b = backend
  | _, _ => False

theorem isCommand_of_commandTo {backend : Text} (β : Type) (op : HaproxyOp β)
    (hop : commandTo backend β op) : isCommand β op := by
  cases op with
  | command cmd => trivial
  | _ => exact hop

theorem uses_send {P : (β : Type) → HaproxyOp β → Prop} {cmd : Command} (hcmd : P _ (.command cmd)) :
    Uses P (Runtime.sendCommand cmd).run := by
  refine Uses.bind (uses_perform hcmd) fun r => ?_
  cases r with
  | error message => exact uses_pure _
  | ok response =>
      dsimp only
      split_ifs
      · exact uses_pure _
      · exact uses_pure _

theorem uses_call {P : (β : Type) → HaproxyOp β → Prop} {α : Type} {call : Runtime.Call α}
    (hcall : Uses P call.run) : Uses P (runtime call).run := hcall.bind fun _ => uses_pure _

theorem uses_setState (backend serverName : Text) (state : AdminState) :
    Uses (commandTo backend) (runtime (Runtime.setState backend serverName state)).run :=
  uses_call (Uses.runBind (uses_send rfl) fun _ => uses_pure _)

theorem uses_setAddr (backend serverName addr : Text) :
    Uses (commandTo backend) (Runtime.setAddr backend serverName addr).run := by
  rw [Runtime.setAddr]
  cases Text.rsplitOnce ':' addr with
  | none => exact uses_pure _
  | some split => exact Uses.runBind (uses_send rfl) fun _ => uses_pure _

theorem uses_upsertServer (backend serverName addr : Text) (weight : UInt32) :
    Uses (commandTo backend) (upsertServer backend serverName addr weight).run := by
  have hfinish : Uses (commandTo backend) (do
      runtime (Runtime.setWeight backend serverName weight)
      runtime (Runtime.setState backend serverName .ready) : Call Unit).run :=
    Uses.runBind (uses_call (Uses.runBind (uses_send rfl) fun _ => uses_pure _)) fun _ =>
      uses_setState _ _ _
  refine Uses.runBind ((uses_setAddr backend serverName addr).map _) fun r => ?_
  cases r with
  | ok u => exact hfinish
  | error e =>
      dsimp only
      split_ifs
      · exact Uses.runBind (uses_call (Uses.runBind (uses_send rfl) fun _ => uses_pure _))
          fun _ => hfinish
      · exact Uses.runBind (uses_pure _) fun _ => hfinish

variable {Uuid : Type} [UuidFormat Uuid]

theorem uses_setWeight (backend : Text) (id : Uuid) (weight : UInt32) :
    Uses (commandTo backend) (setWeight backend id weight).run :=
  uses_call (Uses.runBind (uses_send rfl) fun _ => uses_pure _)

theorem uses_addVolunteer (backend : Text) (id : Uuid) (addr : Text) (weight : UInt32) :
    Uses (commandTo backend) (addVolunteer backend id addr weight).run := by
  refine Uses.runBind (uses_call (Uses.runBind (uses_send rfl) fun _ => uses_pure _))
    fun _ => ?_
  exact Uses.runBind (uses_setWeight backend id weight) fun _ => uses_setState _ _ _

theorem uses_removeVolunteer (backend : Text) (id : Uuid) :
    Uses (commandTo backend) (removeVolunteer backend id).run :=
  Uses.runBind (uses_setState _ _ _) fun _ =>
    uses_call (Uses.runBind (uses_send rfl) fun _ => uses_pure _)

theorem uses_updateVolunteerAddr (id : Uuid) (addr : Text) (svc : Option (Text × Text)) :
    Uses isCommand (updateVolunteerAddr id addr svc).run := by
  have hstate : ∀ backend serverName state,
      Uses isCommand (runtime (Runtime.setState backend serverName state)).run :=
    fun _ _ _ => (uses_setState _ _ _).mono isCommand_of_commandTo
  have haddr : ∀ backend serverName addr,
      Uses isCommand (runtime (Runtime.setAddr backend serverName addr)).run :=
    fun _ _ _ => uses_call ((uses_setAddr _ _ _).mono isCommand_of_commandTo)
  unfold updateVolunteerAddr
  refine Uses.runBind (hstate _ _ _) fun _ => ?_
  refine Uses.runBind (haddr _ _ _) fun _ => ?_
  refine Uses.runBind (hstate _ _ _) fun _ => ?_
  cases svc with
  | none => exact uses_pure _
  | some svc =>
      refine Uses.runBind (hstate _ _ _) fun _ => ?_
      exact Uses.runBind (haddr _ _ _) fun _ => hstate _ _ _

end Commands

end HaproxyManager

namespace Registrar

open HaproxyManager Future UuidFormat

section Calls

variable {Uuid : Type}

/-- HAProxy answers its socket, and what is written to its file arrives there; reading the file,
validating it and reloading may fail. -/
def commandsAnswered : Guard (RegistrarOp Uuid) (RegistrarEnv Uuid) (World Uuid) :=
  fun _ e _ _ => e.haproxy.socket = none ∧ e.haproxy.writeFault = none

variable {s : World Uuid} {h h' : Haproxy} {α : Type}

theorem calm_of_answers {g : Guard HaproxyOp HaproxyEnv Haproxy}
    (hg : ∀ β e (op : HaproxyOp β) h, g β e op h → e.socket = none) {t : Future HaproxyOp α}
    (ht : t.Uses isCommand) {a : α} (run : Runs g t h a h') : calm t h = some (a, h') := by
  refine (runs_calm _ _ _ _).1 ?_
  induction run with
  | ready a s => exact .ready a s
  | @await γ op next e k k' k'' c a hop he _ ih =>
      have hsocket := hg _ _ _ _ hop
      refine .await rfl ?_ (ih (ht.2 _))
      cases op with
      | command cmd =>
          simp only [Machine.exec, hsocket] at he
          exact he
      | _ => exact ht.1.elim

theorem calm_of_commands {t : Future HaproxyOp α} (ht : t.Uses isCommand) {a : α}
    (run : Runs (haproxyPart commandsAnswered s) t h a h') : calm t h = some (a, h') := by
  refine calm_of_answers (fun β e op h hpart => ?_) ht run
  obtain ⟨e', rfl, hsocket, -⟩ := hpart
  exact hsocket

/-- An operation that is no command leaves the servers alone or drops them all. -/
theorem servers_kept {t : Future HaproxyOp α} (ht : t.Uses fun β op => ¬ isCommand β op) {a : α}
    {g : Guard HaproxyOp HaproxyEnv Haproxy} (run : Runs g t h a h') :
    h'.servers = h.servers ∨ h'.servers = ∅ := by
  induction run with
  | ready a s => exact Or.inl rfl
  | @await γ op next e k k' k'' c a hg he _ ih =>
      have hstep : k'.servers = k.servers ∨ k'.servers = ∅ := by
        cases op with
        | command cmd => exact absurd trivial ht.1
        | lockConfig =>
            simp only [Machine.exec] at he
            split_ifs at he
            exact Or.inl (by rw [← (Prod.mk.inj (Option.some.inj he)).2])
        | readConfig =>
            simp only [Machine.exec] at he
            split at he
            · exact Or.inl (by rw [← (Prod.mk.inj (Option.some.inj he)).2])
            · exact Or.inl (by rw [← (Prod.mk.inj (Option.some.inj he)).2])
        | writeConfig content =>
            simp only [Machine.exec] at he
            split at he
            · exact Or.inl (by rw [← (Prod.mk.inj (Option.some.inj he)).2])
            · exact Or.inl (by rw [← (Prod.mk.inj (Option.some.inj he)).2])
        | reloadHaproxy =>
            simp only [Machine.exec] at he
            split at he
            · exact Or.inr (by rw [← (Prod.mk.inj (Option.some.inj he)).2]; rfl)
            · exact Or.inl (by rw [← (Prod.mk.inj (Option.some.inj he)).2])
        | unlockConfig => exact Or.inl (by rw [← (Prod.mk.inj (Option.some.inj he)).2])
        | validateConfig => exact Or.inl (by rw [← (Prod.mk.inj (Option.some.inj he)).2])
        | sleep ms => exact Or.inl (by rw [← (Prod.mk.inj (Option.some.inj he)).2])
      rcases ih (ht.2 _) with hrest | hrest
      · rw [hrest]
        exact hstep
      · exact Or.inr hrest

/-- What a change of the configuration may do: backends stay, and the servers of `volunteers` stay as
they are or are all gone. -/
structure Shaken (h h' : Haproxy) : Prop where
  file : ∀ backend, hasBackend h.file backend → hasBackend h'.file backend
  loaded : ∀ backend, hasBackend h.file backend → hasBackend h.loaded backend →
    hasBackend h'.loaded backend
  servers : (∀ n, h'.servers.lookup (volunteers, n) = h.servers.lookup (volunteers, n)) ∨
    ∀ n, h'.servers.lookup (volunteers, n) = none

theorem shaken_reload (h : Haproxy) : Shaken h h.reload :=
  ⟨fun _ hb => hb, fun _ hb _ => hb, Or.inr fun _ => rfl⟩

theorem Shaken.trans {h'' : Haproxy} (hfst : Shaken h h') (hsnd : Shaken h' h'') : Shaken h h'' where
  file backend hb := hsnd.file backend (hfst.file backend hb)
  loaded backend hb hl := hsnd.loaded backend (hfst.file backend hb) (hfst.loaded backend hb hl)
  servers := by
    rcases hsnd.servers with hkept | hgone
    · rcases hfst.servers with hkept' | hgone'
      · exact Or.inl fun n => (hkept n).trans (hkept' n)
      · exact Or.inr fun n => (hkept n).trans (hgone' n)
    · exact Or.inr hgone

theorem shaken_setServer (h : Haproxy) {k : ServerKey} (hk : k.1 ≠ volunteers) (sv : Server) :
    Shaken h (h.setServer k sv) := by
  refine ⟨fun _ hb => hb, fun _ _ hb => hb, Or.inl fun n => ?_⟩
  rw [Haproxy.lookup_setServer, if_neg]
  rintro rfl
  exact hk rfl

theorem config_run {g : Guard HaproxyOp HaproxyEnv Haproxy} {call : Config.Manager α}
    {r : Except Error α} (run : Runs g (config call).run h r h') :
    ∃ r₁, Runs g call.run h r₁ h' ∧ r = r₁.mapError .config := by
  obtain ⟨r₁, h₁, hrun, hr⟩ := (runs_bind _ _ _ _ _).1 run
  obtain ⟨rfl, rfl⟩ := (runs_pure _ _ _ _).1 hr
  exact ⟨r₁, hrun, rfl⟩

theorem assignService_steps {g : Guard HaproxyOp HaproxyEnv Haproxy} {name domain addr : Text}
    {r : Except Error Unit} (run : Runs g (assignService name domain addr).run h r h') :
    ∃ r₁ h₁, Runs g (Config.addService (serviceBackend name) domain).run h r₁ h₁ ∧
      ((r₁ = .ok () ∧ Runs g (upsertSvcServer name addr).run h₁ r h') ∨
        ((∃ e, r = .error e) ∧ h' = h₁)) := by
  rw [assignService, runs_run_bind] at run
  rcases run with ⟨u, h₁, hadd, run⟩ | ⟨e, hadd, rfl⟩
  swap
  · obtain ⟨r₁, hrun, -⟩ := config_run hadd
    exact ⟨r₁, h', hrun, Or.inr ⟨⟨e, rfl⟩, rfl⟩⟩
  obtain ⟨r₁, hrun, hok⟩ := config_run hadd
  refine ⟨r₁, h₁, hrun, ?_⟩
  have hsleep : ∀ {r₂ : Except Error Unit} {h₂ : Haproxy},
      Runs g (config (Config.sleep 500)).run h₁ r₂ h₂ → h₂ = h₁ := by
    intro r₂ h₂ hrun
    obtain ⟨r₃, hrun, -⟩ := config_run hrun
    obtain ⟨v, h₃, hop, hret⟩ := (runs_bind _ _ _ _ _).1 hrun
    obtain ⟨-, rfl⟩ := (runs_pure _ _ _ _).1 hret
    obtain ⟨e, -, he⟩ := (runs_perform _ _ _ _).1 hop
    exact (Prod.mk.inj (Option.some.inj he)).2.symm
  rw [runs_run_bind] at run
  rcases run with ⟨u', h₂, hwait, run⟩ | ⟨e, hwait, rfl⟩
  · obtain rfl := hsleep hwait
    refine Or.inl ⟨?_, run⟩
    cases r₁ with
    | error e => simp [Except.mapError] at hok
    | ok u₁ => rfl
  · exact Or.inr ⟨⟨e, rfl⟩, hsleep hwait⟩

theorem uses_addService (name domain : Text) :
    Uses (fun β op => ¬ isCommand β op) (Config.addService name domain).run := by
  have hwrite : ∀ content, Uses (fun β op => ¬ isCommand β op) (Config.writeConfig content).run :=
    fun content => Uses.bind (uses_perform not_false) fun _ => uses_pure _
  refine Uses.bind (uses_perform not_false) fun _ => ?_
  refine Uses.bind ?_ fun r => Uses.bind (uses_perform not_false) fun _ => uses_pure _
  refine Uses.runBind (Uses.bind (uses_perform not_false) fun _ => uses_pure _) fun content => ?_
  split_ifs
  · exact uses_pure _
  · cases Config.addedContent content name domain with
    | none => exact uses_pure _
    | some newContent =>
        refine (hwrite newContent).runBind fun _ => ?_
        refine Uses.runBind (Uses.map (uses_perform not_false) _) fun r => ?_
        cases r with
        | error e => exact (hwrite content).runBind fun _ => uses_pure _
        | ok u =>
            refine Uses.runBind (Uses.bind (uses_perform not_false) fun _ => uses_pure _) fun _ => ?_
            exact Uses.bind (uses_perform not_false) fun _ => uses_pure _

theorem addService_shaken {name domain : Text} {r : Except ConfigError Unit}
    (run : Runs (haproxyPart (commandsAnswered : Guard (RegistrarOp Uuid) _ _) s)
      (Config.addService name domain).run h r h') : Shaken h h' := by
  have hservers := servers_kept (uses_addService name domain) run
  have hout := @Config.call_run h h' (.addService name domain) r (run.mono fun β e op k hpart => by
    obtain ⟨e', rfl, -, hwrites⟩ := hpart
    exact hwrites)
  have hedit : ∀ newContent, Config.edited h.file (.addService name domain) = some newContent →
      ∀ backend, hasBackend h.file backend → hasBackend newContent backend :=
    fun _ hadded _ hb => Config.hasBackend_addedContent hadded hb
  refine ⟨fun backend hb => ?_, fun backend hb hl => ?_, ?_⟩
  · cases hout with
    | nothing _ hfile _ => exact hfile ▸ hb
    | kept hfile _ => exact hfile ▸ hb
    | loaded _ hadded hfile _ => exact hfile ▸ hedit _ hadded backend hb
    | unloaded _ hadded hfile _ => exact hfile ▸ hedit _ hadded backend hb
  · cases hout with
    | nothing _ _ hloaded => exact hloaded ▸ hl
    | kept _ hloaded => exact hloaded ▸ hl
    | loaded _ hadded _ hloaded => exact hloaded ▸ hedit _ hadded backend hb
    | unloaded _ _ _ hloaded => exact hloaded ▸ hl
  · rcases hservers with hkept | hgone
    · exact Or.inl fun n => by rw [hkept]
    · exact Or.inr fun n => by rw [hgone]; rfl

theorem assignService_shaken {name domain addr : Text} (ha : ':' ∈ addr) {r : Except Error Unit}
    (run : Runs (haproxyPart (commandsAnswered : Guard (RegistrarOp Uuid) _ _) s)
      (assignService name domain addr).run h r h') : Shaken h h' := by
  obtain ⟨r₁, h₁, hadd, ⟨-, run⟩ | ⟨-, rfl⟩⟩ := assignService_steps run
  swap
  · exact addService_shaken hadd
  have hfirst := addService_shaken hadd
  have hcalm := calm_of_commands ((uses_upsertServer _ _ _ _).mono isCommand_of_commandTo) run
  rw [calm_upsertServer _ _ _ ha] at hcalm
  split_ifs at hcalm
  · obtain ⟨-, rfl⟩ := Prod.mk.inj (Option.some.inj hcalm)
    exact hfirst.trans (shaken_setServer _ (serviceBackend_ne_volunteers name) _)
  · obtain ⟨-, rfl⟩ := Prod.mk.inj (Option.some.inj hcalm)
    exact hfirst

end Calls

section Steps

variable {Uuid : Type} [DecidableEq Uuid] [UuidFormat Uuid]

/-- The backend `volunteers` is there, and each of its servers belongs to a volunteer in the map and is
ready at its address. -/
structure Healthy (s : World Uuid) : Prop where
  keyed : ∀ key v, s.volunteers.lookup key = some v → v.id = key
  addressed : ∀ key v, s.volunteers.lookup key = some v → ':' ∈ v.info.serviceAddr
  file : hasBackend s.haproxy.file volunteers
  loaded : hasBackend s.haproxy.loaded volunteers
  servers : ∀ n sv, s.haproxy.servers.lookup (volunteers, n) = some sv →
    ∃ id v, n = serverNameFor id ∧ s.volunteers.lookup id = some v ∧ sv.state = .ready ∧
      sv.addr = v.info.serviceAddr

variable {s s' : World Uuid} {h h' : Haproxy}

theorem Healthy.shaken (hs : Healthy s) (hshaken : Shaken s.haproxy h) :
    Healthy { s with haproxy := h } where
  keyed := hs.keyed
  addressed := hs.addressed
  file := hshaken.file _ hs.file
  loaded := hshaken.loaded _ hs.file hs.loaded
  servers n sv hsv := by
    have hsame : h.servers.lookup (volunteers, n) = some sv := hsv
    rcases hshaken.servers with hkept | hgone
    · rw [hkept] at hsame
      exact hs.servers n sv hsame
    · rw [hgone] at hsame
      simp at hsame

theorem Healthy.write (hs : Healthy s) (h : Haproxy) {id : Uuid} {v : VolunteerState Uuid}
    (hid : v.id = id) (haddr : ':' ∈ v.info.serviceAddr) (hfile : h.file = s.haproxy.file)
    (hloaded : h.loaded = s.haproxy.loaded)
    (hother : ∀ n, n ≠ serverNameFor id →
      h.servers.lookup (volunteers, n) = s.haproxy.servers.lookup (volunteers, n))
    (hown : ∀ sv, h.servers.lookup (volunteers, serverNameFor id) = some sv →
      sv.state = .ready ∧ sv.addr = v.info.serviceAddr) {db : Db} :
    Healthy { s with volunteers := s.volunteers.insert id v, db := db, haproxy := h } where
  keyed key w hw := by
    have hlookup : (s.volunteers.insert id v).lookup key = some w := hw
    rw [Table.lookup_insert_if] at hlookup
    split_ifs at hlookup with hkey
    · rw [hkey, ← hid, Option.some.inj hlookup]
    · exact hs.keyed key w hlookup
  addressed key w hw := by
    have hlookup : (s.volunteers.insert id v).lookup key = some w := hw
    rw [Table.lookup_insert_if] at hlookup
    split_ifs at hlookup with hkey
    · rw [← Option.some.inj hlookup]
      exact haddr
    · exact hs.addressed key w hlookup
  file := hfile ▸ hs.file
  loaded := hloaded ▸ hs.loaded
  servers n sv hsv := by
    have hserver : h.servers.lookup (volunteers, n) = some sv := hsv
    by_cases hn : n = serverNameFor id
    · subst hn
      obtain ⟨hready, hat⟩ := hown sv hserver
      exact ⟨id, v, rfl, AList.lookup_insert _, hready, hat⟩
    · rw [hother n hn] at hserver
      obtain ⟨key, w, rfl, hw, hready⟩ := hs.servers n sv hserver
      have hne : key ≠ id := fun heq => hn (by rw [heq])
      exact ⟨key, w, rfl, (AList.lookup_insert_ne hne).trans hw, hready⟩

theorem Healthy.erase (hs : Healthy s) {id : Uuid} {db : Db} :
    Healthy { s with
      volunteers := s.volunteers.erase id
      db := db
      haproxy := { s.haproxy with
        servers := s.haproxy.servers.erase (volunteers, serverNameFor id) } } where
  keyed key v hv := by
    have hlookup : (s.volunteers.erase id).lookup key = some v := hv
    rw [Table.lookup_erase_if] at hlookup
    split_ifs at hlookup
    exact hs.keyed key v hlookup
  addressed key v hv := by
    have hlookup : (s.volunteers.erase id).lookup key = some v := hv
    rw [Table.lookup_erase_if] at hlookup
    split_ifs at hlookup
    exact hs.addressed key v hlookup
  file := hs.file
  loaded := hs.loaded
  servers n sv hsv := by
    have hserver : (s.haproxy.servers.erase (volunteers, serverNameFor id)).lookup (volunteers, n) =
      some sv := hsv
    rw [Table.lookup_erase_if] at hserver
    split_ifs at hserver with hn
    obtain ⟨key, v, rfl, hv, hready⟩ := hs.servers n sv hserver
    have hne : key ≠ id := fun heq => hn (by rw [heq])
    exact ⟨key, v, rfl, (AList.lookup_erase_ne hne).trans hv, hready⟩

omit [DecidableEq Uuid] in
theorem serverNameFor_injective {id id' : Uuid} (heq : serverNameFor id = serverNameFor id') :
    id = id' := simple_injective heq

theorem weighed_of_lookup {k : ServerKey} {sv : Server} (hb : hasBackend h.loaded k.1)
    (hsv : h.servers.lookup k = some sv) (weight : UInt32) :
    weighed h k weight = (.ok (), h.setServer k { sv with weight }) := by
  rw [weighed, altered_of_lookup hb hsv]
  rfl

theorem weighed_of_absent {k : ServerKey} (hb : hasBackend h.loaded k.1)
    (hno : h.servers.lookup k = none) (weight : UInt32) :
    weighed h k weight = (.error (.runtime (.response Haproxy.noSuchServer)), h) := by
  rw [weighed, altered_of_absent hb hno]
  rfl

theorem Healthy.server (hs : Healthy s) {id : Uuid} {v : VolunteerState Uuid}
    (hv : s.volunteers.lookup id = some v) {sv : Server}
    (hsv : s.haproxy.servers.lookup (volunteers, serverNameFor id) = some sv) :
    sv.state = .ready ∧ sv.addr = v.info.serviceAddr := by
  obtain ⟨key, w, hname, hw, hready, haddr⟩ := hs.servers _ sv hsv
  obtain rfl := serverNameFor_injective hname
  obtain rfl := Option.some.inj (hv.symm.trans hw)
  exact ⟨hready, haddr⟩

theorem Healthy.setServer (hs : Healthy s) {id : Uuid} {v : VolunteerState Uuid} (hid : v.id = id)
    (haddr : ':' ∈ v.info.serviceAddr) (weight : UInt32) {db : Db} :
    Healthy { s with
      volunteers := s.volunteers.insert id v
      db := db
      haproxy := s.haproxy.setServer (volunteers, serverNameFor id)
        ⟨v.info.serviceAddr, weight, .ready⟩ } := by
  refine hs.write (s.haproxy.setServer (volunteers, serverNameFor id)
    ⟨v.info.serviceAddr, weight, .ready⟩) hid haddr rfl rfl (fun n hn => ?_) (fun sv hsv => ?_)
  · rw [Haproxy.lookup_setServer, if_neg]
    exact fun heq => hn (Prod.mk.inj heq).2
  · rw [Haproxy.lookup_setServer_self] at hsv
    obtain rfl := Option.some.inj hsv
    exact ⟨rfl, rfl⟩

theorem Healthy.unserved (hs : Healthy s) {id : Uuid} {v : VolunteerState Uuid} (hid : v.id = id)
    (haddr : ':' ∈ v.info.serviceAddr)
    (hno : s.haproxy.servers.lookup (volunteers, serverNameFor id) = none) {db : Db} :
    Healthy { s with volunteers := s.volunteers.insert id v, db := db } := by
  refine hs.write s.haproxy hid haddr rfl rfl (fun _ _ => rfl) (fun sv hsv => ?_)
  rw [hno] at hsv
  simp at hsv

theorem Healthy.altered (hs : Healthy s) {id : Uuid} {v : VolunteerState Uuid}
    (w : VolunteerState Uuid) (hv : s.volunteers.lookup id = some v) (hid : w.id = v.id)
    (haddr : w.info.serviceAddr = v.info.serviceAddr) {db : Db} :
    Healthy { s with volunteers := s.volunteers.insert id w, db := db } := by
  refine hs.write s.haproxy (hid.trans (hs.keyed id v hv)) (haddr ▸ hs.addressed id v hv) rfl rfl
    (fun _ _ => rfl) (fun sv hsv => ?_)
  rw [haddr]
  exact hs.server hv hsv

variable [Rfc3339]

theorem Attached.healthy {id : Uuid} {addr : Text} {now : DateTime}
    {existing a : Option ServiceAssignment} (hs : Healthy s) (haddr : ':' ∈ addr)
    (hattached : Attached commandsAnswered s id addr now existing a s') : Healthy s' := by
  have hframe : ∀ {s₁ : World Uuid} {ps : List PendingService} {db : Db}, Healthy s₁ →
      Healthy { s₁ with pendingServices := ps, db := db } :=
    fun hs₁ => ⟨hs₁.keyed, hs₁.addressed, hs₁.file, hs₁.loaded, hs₁.servers⟩
  cases hattached with
  | reattached hh _ => exact hframe (hs.shaken (assignService_shaken haddr hh))
  | taken _ hh _ => exact hframe (hs.shaken (assignService_shaken haddr hh))
  | refused _ hh => exact hs.shaken (assignService_shaken haddr hh)
  | nothingPending _ => exact hs

theorem Enrolled.healthy {body : EnrollRequest} {r : EnrollResponse} (hs : Healthy s)
    (henrolled : Enrolled commandsAnswered s body r s') : Healthy s' := by
  cases henrolled with
  | @mk existingId existing a id addr now s₁ s₂ db res hap haddr _ _ hident hattached _ hh =>
    have hs₁ : Healthy s₁ := by
      cases hident with
      | known id => exact hs
      | issued _ => exact ⟨hs.keyed, hs.addressed, hs.file, hs.loaded, hs.servers⟩
    have hs₂ := hattached.healthy hs₁ haddr
    have hcalm := calm_of_commands ((uses_upsertServer _ _ _ _).mono isCommand_of_commandTo) hh
    rw [calm_upsertServer _ _ _ haddr, if_pos hs₂.loaded] at hcalm
    obtain ⟨-, rfl⟩ := Prod.mk.inj (Option.some.inj hcalm)
    exact @Healthy.setServer Uuid _ _ s₂ hs₂ id (enrolled body id addr now a) rfl haddr 100 db

omit [DecidableEq Uuid] [Rfc3339] in
theorem Weighted.eq {v : VolunteerState Uuid} {weight : UInt32}
    (hw : Weighted commandsAnswered s v weight h) (hb : hasBackend s.haproxy.loaded volunteers) :
    h = s.haproxy ∨
      (∃ sv, s.haproxy.servers.lookup (volunteers, serverNameFor v.id) = some sv ∧
        h = s.haproxy.setServer (volunteers, serverNameFor v.id) { sv with weight }) ∨
      h = s.haproxy.setServer (volunteers, serverNameFor v.id)
        ⟨v.info.serviceAddr, weight, .ready⟩ := by
  cases hsv : s.haproxy.servers.lookup (volunteers, serverNameFor v.id) with
  | some sv =>
      cases hw with
      | weighed hh =>
          have hcalm := calm_of_commands ((uses_setWeight _ _ _).mono isCommand_of_commandTo) hh
          rw [calm_setWeight, weighed_of_lookup hb hsv] at hcalm
          obtain ⟨-, rfl⟩ := Prod.mk.inj (Option.some.inj hcalm)
          exact Or.inr (Or.inl ⟨sv, rfl, rfl⟩)
      | readded hh _ =>
          have hcalm := calm_of_commands ((uses_setWeight _ _ _).mono isCommand_of_commandTo) hh
          rw [calm_setWeight, weighed_of_lookup hb hsv] at hcalm
          simp at hcalm
  | none =>
      cases hw with
      | weighed hh =>
          have hcalm := calm_of_commands ((uses_setWeight _ _ _).mono isCommand_of_commandTo) hh
          rw [calm_setWeight, weighed_of_absent hb hsv] at hcalm
          exact Or.inl (Prod.mk.inj (Option.some.inj hcalm)).2.symm
      | readded hh hadd =>
          have hcalm := calm_of_commands ((uses_setWeight _ _ _).mono isCommand_of_commandTo) hh
          rw [calm_setWeight, weighed_of_absent hb hsv] at hcalm
          obtain ⟨-, rfl⟩ := Prod.mk.inj (Option.some.inj hcalm)
          have hcalm' := calm_of_commands ((uses_addVolunteer _ _ _ _).mono isCommand_of_commandTo) hadd
          rw [calm_addVolunteer hb hsv] at hcalm'
          obtain ⟨-, rfl⟩ := Prod.mk.inj (Option.some.inj hcalm')
          exact Or.inr (Or.inr rfl)

theorem Beaten.healthy {body : HeartbeatRequest Uuid} {r : HeartbeatReply} (hs : Healthy s)
    (hbeaten : Beaten commandsAnswered s body r s') : Healthy s' := by
  cases hbeaten with
  | unknown hno => exact hs
  | @known v now db h hv _ hw =>
      have hid : (v.beat now body).id = body.volunteerId := hs.keyed _ v hv
      have haddr : ':' ∈ (v.beat now body).info.serviceAddr := hs.addressed _ v hv
      rcases hw.eq hs.loaded with rfl | ⟨sv, hsv, rfl⟩ | rfl
      · exact hs.altered (v.beat now body) hv rfl rfl
      · have hserver : s.haproxy.servers.lookup
            (volunteers, serverNameFor (v.beat now body).id) = some sv := hsv
        rw [hid] at hserver ⊢
        obtain ⟨hready, hat⟩ := hs.server hv hserver
        have hsame : (⟨sv.addr, (v.beat now body).metrics.weight, sv.state⟩ : Server) =
            ⟨(v.beat now body).info.serviceAddr, (v.beat now body).metrics.weight, .ready⟩ := by
          rw [hready, hat]
          rfl
        rw [hsame]
        exact hs.setServer hid haddr _
      · rw [hid]
        exact hs.setServer hid haddr _

theorem Moved.healthy {idStr : Text} {r : VolunteerReply} (hs : Healthy s)
    (hmoved : Moved commandsAnswered s idStr r s') : Healthy s' := by
  cases hmoved with
  | badRequest => exact hs
  | unknown => exact hs
  | @known id v addr db r h _ haddr hv _ _ _ hh =>
      have hid : (v.moveTo addr).id = id := hs.keyed id v hv
      have hsvc : ∀ x ∈ svcInfo v addr, ':' ∈ x.2 := by
        intro x hx
        obtain ⟨a, -, rfl⟩ := Option.map_eq_some_iff.1 hx
        exact haddr
      have hcalm := calm_of_commands (uses_updateVolunteerAddr _ _ _) hh
      rw [calm_updateVolunteerAddr _ _ haddr hsvc, retargeted, if_pos hs.loaded] at hcalm
      cases hsv : s.haproxy.servers.lookup (volunteers, serverNameFor id) with
      | none =>
          simp only [hsv] at hcalm
          obtain ⟨-, rfl⟩ := Prod.mk.inj (Option.some.inj hcalm)
          exact hs.unserved hid haddr hsv
      | some sv =>
          simp only [hsv] at hcalm
          have hmain := @Healthy.setServer Uuid _ _ s hs id (v.moveTo addr) hid haddr sv.weight db
          generalize svcInfo v addr = svc at hsvc hcalm
          cases svc with
          | none =>
              obtain ⟨-, rfl⟩ := Prod.mk.inj (Option.some.inj hcalm)
              exact hmain
          | some x =>
              simp only [retargeted] at hcalm
              split_ifs at hcalm
              · split at hcalm
                · obtain ⟨-, rfl⟩ := Prod.mk.inj (Option.some.inj hcalm)
                  exact hmain
                · obtain ⟨-, rfl⟩ := Prod.mk.inj (Option.some.inj hcalm)
                  exact hmain.shaken (shaken_setServer _ (serviceBackend_ne_volunteers _) _)
              · obtain ⟨-, rfl⟩ := Prod.mk.inj (Option.some.inj hcalm)
                exact hmain

theorem Removed.healthy {id : Uuid} (hs : Healthy s) (hremoved : Removed commandsAnswered s id s') :
    Healthy s' := by
  cases hremoved with
  | mk _ _ hh =>
      have hcalm := calm_of_commands ((uses_removeVolunteer _ _).mono isCommand_of_commandTo) hh
      obtain ⟨r', hr'⟩ := @calm_removeVolunteer Uuid _ s.haproxy volunteers id hs.loaded
      obtain ⟨-, rfl⟩ := Prod.mk.inj (Option.some.inj (hr'.symm.trans hcalm))
      exact hs.erase

theorem Departed.healthy {idStr : Text} {r : VolunteerReply} (hs : Healthy s)
    (hdeparted : Departed commandsAnswered s idStr r s') : Healthy s' := by
  cases hdeparted with
  | badRequest => exact hs
  | unknown _ hno hs' =>
      rw [Table.erase_of_lookup_none hno] at hs'
      exact hs' ▸ hs
  | gone _ _ hremoved => exact hremoved.healthy hs

theorem Evicted.healthy {id : Uuid} {a : Option ServiceAssignment} (hs : Healthy s)
    (hevicted : Evicted commandsAnswered s id a s') : Healthy s' := by
  cases hevicted with
  | free hremoved => exact hremoved.healthy hs
  | serving hremoved _ =>
      have hs₁ := hremoved.healthy hs
      exact ⟨hs₁.keyed, hs₁.addressed, hs₁.file, hs₁.loaded, hs₁.servers⟩

theorem EvictedAll.healthy {dead : List (Uuid × Option ServiceAssignment)} (hs : Healthy s)
    (hall : EvictedAll commandsAnswered dead s s') : Healthy s' := by
  induction hall with
  | nil s => exact hs
  | cons hd _ ih => exact ih (hd.healthy hs)

theorem Registered.healthy {body : Service} {r : RegisterReply} (hs : Healthy s)
    (hregistered : Registered commandsAnswered s body r s') : Healthy s' := by
  cases hregistered with
  | @assigned key v now h db hv _ hh _ =>
      have hs₁ : Healthy { s with haproxy := h } :=
        hs.shaken (assignService_shaken (hs.addressed key v hv) hh)
      have hlookup : ({ s with haproxy := h, db := db } : World Uuid).volunteers.lookup v.id =
          some v := by
        rw [hs.keyed key v hv]
        exact hv
      rw [World.alterVolunteer_of_lookup hlookup]
      exact @Healthy.altered _ _ _ _ hs₁ v.id v (v.assign (Service.assignment body now)) hlookup rfl
        rfl db
  | refused hv _ hh => exact hs.shaken (assignService_shaken (hs.addressed _ _ hv) hh)
  | queued => exact ⟨hs.keyed, hs.addressed, hs.file, hs.loaded, hs.servers⟩

theorem Effect.healthy {q : Request Uuid} {r : Reply Uuid} (hs : Healthy s) (hq : q ≠ .restart)
    (heffect : Effect commandsAnswered s q r s') : Healthy s' := by
  cases heffect with
  | enroll h => exact h.healthy hs
  | heartbeat h => exact h.healthy hs
  | updateTunnelPort h => exact h.healthy hs
  | disconnect h => exact h.healthy hs
  | registerService h => exact h.healthy hs
  | churn _ h => exact h.healthy hs
  | restart _ => exact absurd rfl hq

omit [DecidableEq Uuid] [Rfc3339] in
theorem lookup_setServer_volunteer {id : Uuid} {v : VolunteerState Uuid} (hid : v.id = id)
    (sv : Server) :
    (h.setServer (volunteers, serverNameFor v.id) sv).servers.lookup (volunteers, serverNameFor id) =
      some sv := by
  rw [hid]
  exact Haproxy.lookup_setServer_self _ _ _

omit [Rfc3339] in
theorem noSuchServer_error :
    Error.noSuchServer (Error.runtime (.response Haproxy.noSuchServer)).toText = true := by
  decide +kernel

/-- A heartbeat that finds its volunteer leaves the server of that volunteer ready. -/
theorem heartbeat_heals {body : HeartbeatRequest Uuid} {a : Option AssignmentPayload}
    (hs : Healthy s) (run : Runs commandsAnswered (heartbeat body) s (.ok a) s') :
    ∃ v, s'.volunteers.lookup body.volunteerId = some v ∧ v.id = body.volunteerId ∧
      v.metrics = ⟨body.cpuPct, body.memPct, body.loadAvg, body.activeRequests⟩ ∧
      s'.haproxy.servers.lookup (volunteers, serverNameFor body.volunteerId) =
        some ⟨v.info.serviceAddr, v.metrics.weight, .ready⟩ := by
  rw [heartbeat, runs_bind] at run
  obtain ⟨found, s₁, hown, run⟩ := run
  obtain ⟨e, -, heq⟩ := (runs_own _).1 hown
  obtain ⟨rfl, rfl⟩ := Prod.mk.inj heq
  cases hv : s.volunteers.lookup body.volunteerId with
  | none =>
      simp only [hv, Option.map_none] at run
      obtain ⟨hreply, -⟩ := (runs_pure _ _ _ _).1 run
      simp at hreply
  | some v =>
      simp only [hv, Option.map_some, World.alterVolunteer_of_lookup hv] at run
      rw [runs_bind] at run
      obtain ⟨u, s₂, hquery, run⟩ := run
      obtain ⟨db, hq, rfl⟩ := (runs_query _).1 hquery
      rw [runs_bind] at run
      obtain ⟨res, s₃, hcall, run⟩ := run
      obtain ⟨h₁, hh, rfl⟩ := (runs_haproxy _ _).1 hcall
      have hid : (v.beat e.now body).id = body.volunteerId := hs.keyed _ v hv
      have hcalm := calm_of_commands ((uses_setWeight _ _ _).mono isCommand_of_commandTo) hh
      rw [calm_setWeight] at hcalm
      refine ⟨v.beat e.now body, ?_, hid, rfl, ?_⟩
      · cases res with
        | ok u =>
            obtain ⟨-, rfl⟩ := (runs_pure _ _ _ _).1 run
            exact AList.lookup_insert _
        | error err =>
            simp only at run
            split_ifs at run with hno
            · rw [runs_bind] at run
              obtain ⟨res', s₄, hcall', run⟩ := run
              obtain ⟨h₂, hadd, rfl⟩ := (runs_haproxy _ _).1 hcall'
              obtain ⟨-, rfl⟩ := (runs_pure _ _ _ _).1 run
              exact AList.lookup_insert _
            · obtain ⟨-, rfl⟩ := (runs_pure _ _ _ _).1 run
              exact AList.lookup_insert _
      · cases hsv : s.haproxy.servers.lookup (volunteers, serverNameFor (v.beat e.now body).id) with
        | some sv =>
            rw [weighed_of_lookup hs.loaded hsv] at hcalm
            obtain ⟨rfl, rfl⟩ := Prod.mk.inj (Option.some.inj hcalm)
            obtain ⟨-, rfl⟩ := (runs_pure _ _ _ _).1 run
            rw [hid] at hsv
            obtain ⟨hready, hat⟩ := hs.server hv hsv
            refine (lookup_setServer_volunteer hid _).trans (congrArg some ?_)
            rw [hready, hat]
            rfl
        | none =>
            rw [weighed_of_absent hs.loaded hsv] at hcalm
            obtain ⟨rfl, rfl⟩ := Prod.mk.inj (Option.some.inj hcalm)
            simp only at run
            rw [if_pos noSuchServer_error, runs_bind] at run
            obtain ⟨res', s₄, hcall', run⟩ := run
            obtain ⟨h₂, hadd, rfl⟩ := (runs_haproxy _ _).1 hcall'
            obtain ⟨-, rfl⟩ := (runs_pure _ _ _ _).1 run
            have hadded := calm_of_commands ((uses_addVolunteer _ _ _ _).mono isCommand_of_commandTo) hadd
            rw [calm_addVolunteer hs.loaded hsv] at hadded
            obtain ⟨-, rfl⟩ := Prod.mk.inj (Option.some.inj hadded)
            exact lookup_setServer_volunteer hid _

end Steps

section Courses

variable {Uuid : Type} [DecidableEq Uuid] [UuidFormat Uuid] [Rfc3339]

/-- Completed operations, the latest first, with restarts of HAProxy at any points between them. -/
inductive Course (g : Guard (RegistrarOp Uuid) (RegistrarEnv Uuid) (World Uuid)) (s : World Uuid) :
    List (Event Uuid) → World Uuid → Prop
  | nil : Course g s [] s
  | step {events : List (Event Uuid)} {s₁ s₂ : World Uuid} {q : Request Uuid} {r : Reply Uuid}
      (past : Course g s events s₁) (run : Runs g (handle q) s₁ r s₂) :
      Course g s ((q, r) :: events) s₂
  | haproxyRestart {events : List (Event Uuid)} {s₁ : World Uuid} (past : Course g s events s₁) :
      Course g s events { s₁ with haproxy := s₁.haproxy.reload }

omit [Rfc3339] in
theorem healthy_initial {h : Haproxy} (hfile : hasBackend h.file volunteers)
    (hloaded : hasBackend h.loaded volunteers)
    (hnone : ∀ n, h.servers.lookup (volunteers, n) = none) :
    Healthy (World.initial h : World Uuid) where
  keyed _ _ hv := by simp [World.initial] at hv
  addressed _ _ hv := by simp [World.initial] at hv
  file := hfile
  loaded := hloaded
  servers n sv hsv := by
    have hlookup : h.servers.lookup (volunteers, n) = some sv := hsv
    rw [hnone] at hlookup
    simp at hlookup

theorem Course.healthy {s₀ s : World Uuid} {events : List (Event Uuid)} (hs : Healthy s₀)
    (course : Course commandsAnswered s₀ events s) (hevents : ∀ e ∈ events, e.1 ≠ .restart) :
    Healthy s := by
  induction course with
  | nil => exact hs
  | step past run ih =>
      have hpast := ih fun e he => hevents e (List.mem_cons_of_mem _ he)
      exact (handle_run run).healthy hpast (hevents _ List.mem_cons_self)
  | haproxyRestart past ih => exact (ih hevents).shaken (shaken_reload _)

theorem Course.lockFree [Inhabited Uuid]
    {g : Guard (RegistrarOp Uuid) (RegistrarEnv Uuid) (World Uuid)} {h : Haproxy}
    {events : List (Event Uuid)} {s : World Uuid} (course : Course g (World.initial h) events s) :
    s.haproxy.configLocked = false := by
  induction course with
  | nil => rfl
  | step past run ih => exact handle_lockFree run ih
  | haproxyRestart past ih => exact ih

/-- The heartbeat of a volunteer in the map is answered, and always with status 200. -/
theorem heartbeat_answered {g : Guard (RegistrarOp Uuid) (RegistrarEnv Uuid) (World Uuid)}
    (hg : Permits g) {s : World Uuid} (hlock : s.haproxy.configLocked = false)
    {body : HeartbeatRequest Uuid} {v : VolunteerState Uuid}
    (hv : s.volunteers.lookup body.volunteerId = some v) :
    (∃ a s', Runs g (heartbeat body) s (.ok a) s') ∧
      ∀ r s', Runs g (heartbeat body) s r s' → ∃ a, r = .ok a := by
  have : Inhabited Uuid := ⟨body.volunteerId⟩
  have hok : ∀ r s', Runs g (heartbeat body) s r s' → ∃ a, r = .ok a := by
    intro r s' run
    cases heartbeat_run run with
    | unknown hno => exact absurd (hno.symm.trans hv) (Option.some_ne_none v).symm
    | known _ _ _ => exact ⟨_, rfl⟩
  obtain ⟨r, s', run⟩ := (ends_heartbeat hg body).ends hlock
  obtain ⟨a, rfl⟩ := hok r s' run
  exact ⟨⟨a, s', run⟩, hok⟩

omit [DecidableEq Uuid] [UuidFormat Uuid] [Rfc3339] in
theorem permits_commandsAnswered : Permits (commandsAnswered : Guard (RegistrarOp Uuid) _ _) := by
  intro β e op s _ he _
  rw [commandsAnswered, he]
  exact ⟨rfl, rfl⟩

/-- Every server of `volunteers` belongs to a volunteer in the map and is ready at its address; after
its heartbeat a volunteer has its server, with the weight of that heartbeat; and the heartbeat of a
volunteer in the map is answered 200. -/
theorem volunteers_heal {h : Haproxy} (hfile : hasBackend h.file volunteers)
    (hloaded : hasBackend h.loaded volunteers)
    (hnone : ∀ n, h.servers.lookup (volunteers, n) = none) {events : List (Event Uuid)}
    {s : World Uuid} (course : Course commandsAnswered (World.initial h) events s)
    (hevents : ∀ e ∈ events, e.1 ≠ .restart) :
    (∀ n sv, s.haproxy.servers.lookup (volunteers, n) = some sv →
      ∃ v, s.volunteers.lookup v.id = some v ∧ n = serverNameFor v.id ∧ sv.state = .ready ∧
        sv.addr = v.info.serviceAddr) ∧
    (∀ body a s', Runs commandsAnswered (heartbeat body) s (.ok a) s' →
      ∃ v, s'.volunteers.lookup body.volunteerId = some v ∧ v.id = body.volunteerId ∧
        s'.haproxy.servers.lookup (volunteers, serverNameFor v.id) = some
          ⟨v.info.serviceAddr,
            (Metrics.mk body.cpuPct body.memPct body.loadAvg body.activeRequests).weight, .ready⟩) ∧
    ∀ (body : HeartbeatRequest Uuid) v, s.volunteers.lookup body.volunteerId = some v →
      (∃ a s', Runs commandsAnswered (heartbeat body) s (.ok a) s') ∧
        ∀ r s', Runs commandsAnswered (heartbeat body) s r s' → ∃ a, r = .ok a := by
  have hs := course.healthy (healthy_initial hfile hloaded hnone) hevents
  refine ⟨fun n sv hsv => ?_, fun body a s' run => ?_, fun body v hv => ?_⟩
  · obtain ⟨key, v, rfl, hv, hready, hat⟩ := hs.servers n sv hsv
    obtain rfl := hs.keyed key v hv
    exact ⟨v, hv, rfl, hready, hat⟩
  · obtain ⟨v, hv, hid, hmetrics, hserver⟩ := heartbeat_heals hs run
    refine ⟨v, hv, hid, ?_⟩
    rw [hid, hserver, hmetrics]
  · have : Inhabited Uuid := ⟨body.volunteerId⟩
    exact heartbeat_answered permits_commandsAnswered course.lockFree hv

end Courses

instance : ∀ β e (op : RegistrarOp Node β) s, Decidable (commandsAnswered β e op s) :=
  fun _ _ _ _ => inferInstanceAs (Decidable (_ ∧ _))

theorem course_of_history {g : Guard (RegistrarOp Node) (RegistrarEnv Node) (World Node)}
    {s₀ s : World Node} {events : List (Event Node)} (hrun : History g s₀ events s) :
    Course g s₀ events s := by
  induction hrun with
  | nil => exact .nil
  | step past run ih => exact .step ih run

def idle (id : Node) : HeartbeatRequest Node := ⟨id, 10.0, 20.0, 0.5, 3, some true, none⟩

/-- A volunteer enrolls and is given a service, HAProxy restarts, and the volunteer's heartbeat is
answered 200 and adds its server again. -/
theorem volunteers_heal_restarted :
    ∃ (events : List (Event Node)) (s s' : World Node) (a : Option AssignmentPayload),
      Course commandsAnswered (World.initial smallHaproxy) events
        { s with haproxy := s.haproxy.reload } ∧
      events.map Prod.fst = [.registerService blog, .enroll (joins "volunteer-101" 7001)] ∧
      s.haproxy.reload.servers.lookup (volunteers, serverNameFor Node.a) = none ∧
      Runs commandsAnswered (heartbeat (idle .a)) { s with haproxy := s.haproxy.reload } (.ok a) s' ∧
      ∃ v, s'.volunteers.lookup .a = some v ∧ s'.haproxy.servers.lookup
        (volunteers, serverNameFor v.id) = some
          ⟨v.info.serviceAddr, (Metrics.mk 10.0 20.0 0.5 3).weight, .ready⟩ := by
  have hsome : (replay commandsAnswered (calmEnv 0 0)
      [.registerService blog, .enroll (joins "volunteer-101" 7001)]
      (World.initial smallHaproxy)).any fun r => (r.2.volunteers.lookup .a).isSome := by
    decide +kernel
  obtain ⟨⟨events, s⟩, hreplay, hmember⟩ := (Option.any_eq_true _ _).1 hsome
  obtain ⟨v, hv⟩ := Option.isSome_iff_exists.1 hmember
  have hrequests := requests_of_replay commandsAnswered hreplay
  have hcourse := (course_of_history (history_of_replay commandsAnswered hreplay)).haproxyRestart
  have hevents : ∀ e ∈ events, e.1 ≠ .restart :=
    @requests_all Node (· ≠ .restart) _ _ hrequests (by simp)
  obtain ⟨-, hheals, hanswers⟩ := volunteers_heal (by decide) (by decide) (fun n => rfl) hcourse hevents
  obtain ⟨⟨a, s', hrun⟩, -⟩ := hanswers (idle .a) v hv
  obtain ⟨v', hv', -, hserver⟩ := hheals (idle .a) a s' hrun
  exact ⟨events, s, s', a, hcourse, hrequests, rfl, hrun, v', hv', hserver⟩

end Registrar
end OpenShard
