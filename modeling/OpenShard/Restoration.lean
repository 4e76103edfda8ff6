import OpenShard.Completion
import OpenShard.Registry

/-!
# Recovery restores the routing

The first pass of recovery edits the configuration and may reload HAProxy, which drops every runtime
server; the second only adds servers. So what the second pass adds is there at the end, and it adds
every server whose backend the first pass left in the loaded configuration.
-/

namespace OpenShard

namespace Haproxy

def setServers (h : Haproxy) (es : List (ServerKey × Server)) : Haproxy :=
  es.foldl (fun h e => h.setServer e.1 e.2) h

@[simp] theorem setServers_loaded (h : Haproxy) (es : List (ServerKey × Server)) :
    (h.setServers es).loaded = h.loaded := by
  induction es generalizing h with
  | nil => rfl
  | cons e es ih => exact ih _

theorem lookup_setServers_of_notMem (h : Haproxy) {es : List (ServerKey × Server)} {k : ServerKey}
    (hk : k ∉ es.map Prod.fst) : (h.setServers es).servers.lookup k = h.servers.lookup k := by
  induction es generalizing h with
  | nil => rfl
  | cons e es ih =>
      rw [List.map_cons, List.mem_cons, not_or] at hk
      refine (ih (h.setServer e.1 e.2) hk.2).trans ?_
      rw [lookup_setServer, if_neg hk.1]

theorem lookup_setServers (h : Haproxy) {es : List (ServerKey × Server)}
    (hkeys : (es.map Prod.fst).Nodup) {e : ServerKey × Server} (he : e ∈ es) :
    (h.setServers es).servers.lookup e.1 = some e.2 := by
  induction es generalizing h with
  | nil => simp at he
  | cons e' es ih =>
      rw [List.map_cons, List.nodup_cons] at hkeys
      rcases List.mem_cons.1 he with rfl | he
      · refine (lookup_setServers_of_notMem (h.setServer e.1 e.2) hkeys.1).trans ?_
        rw [lookup_setServer_self]
      · exact ih (h.setServer e'.1 e'.2) hkeys.2 he

end Haproxy

namespace Registrar

open HaproxyManager Registry Text

section Servers

variable {Uuid : Type}

/-- The servers that the second pass upserts for one survivor. -/
def entries [UuidFormat Uuid] (r : Recovered Uuid) : List (ServerKey × Server) :=
  ((volunteers, serverNameFor r.1), ⟨r.2.1, 1, .ready⟩) ::
    r.2.2.toList.map fun svc => ((serviceBackend svc.1, primary), ⟨r.2.1, 100, .ready⟩)

def backed (loaded : Text) (e : ServerKey × Server) : Bool := decide (hasBackend loaded e.1.1)

def unbacked (loaded : Text) (es : List (ServerKey × Server)) : List Error :=
  (es.filter fun e => !backed loaded e).map fun _ => .runtime (.response Haproxy.noSuchBackend)

def upsertAll (h : Haproxy) (es : List (ServerKey × Server)) : Haproxy :=
  h.setServers (es.filter (backed h.loaded))

theorem upsertAll_loaded (h : Haproxy) (es : List (ServerKey × Server)) :
    (upsertAll h es).loaded = h.loaded := Haproxy.setServers_loaded _ _

theorem unbacked_append (loaded : Text) (es es' : List (ServerKey × Server)) :
    unbacked loaded (es ++ es') = unbacked loaded es ++ unbacked loaded es' := by
  rw [unbacked, List.filter_append, List.map_append]
  rfl

theorem upsertAll_append (h : Haproxy) (es es' : List (ServerKey × Server)) :
    upsertAll h (es ++ es') = upsertAll (upsertAll h es) es' := by
  rw [upsertAll, upsertAll, upsertAll_loaded, upsertAll, List.filter_append, Haproxy.setServers,
    List.foldl_append]
  rfl

theorem unbacked_eq_nil {loaded : Text} {es : List (ServerKey × Server)} :
    unbacked loaded es = [] ↔ ∀ e ∈ es, hasBackend loaded e.1.1 := by
  simp [unbacked, backed]

theorem lookup_upsertAll {h : Haproxy} {es : List (ServerKey × Server)}
    (hb : ∀ e ∈ es, hasBackend h.loaded e.1.1) (hkeys : (es.map Prod.fst).Nodup)
    {e : ServerKey × Server} (he : e ∈ es) : (upsertAll h es).servers.lookup e.1 = some e.2 := by
  have hall : es.filter (backed h.loaded) = es :=
    List.filter_eq_self.2 fun e he => by simpa [backed] using hb e he
  rw [upsertAll, hall]
  exact h.lookup_setServers hkeys he

end Servers

section Passes

variable {Uuid : Type} [DecidableEq Uuid] [UuidFormat Uuid] [Rfc3339]

variable {g : Guard (RegistrarOp Uuid) (RegistrarEnv Uuid) (World Uuid)} {s s' : World Uuid}

variable (hg : ∀ β e (op : RegistrarOp Uuid β) s, g β e op s → e.haproxy = .calm)

include hg

theorem upsert_run {backend serverName addr : Text} (ha : ':' ∈ addr) {weight : UInt32}
    {r : Except Error Unit}
    (h : Runs g (haproxy (upsertServer backend serverName addr weight)) s r s') :
    logged r = unbacked s.haproxy.loaded [((backend, serverName), ⟨addr, weight, .ready⟩)] ∧
      s' = { s with
        haproxy := upsertAll s.haproxy [((backend, serverName), ⟨addr, weight, .ready⟩)] } := by
  obtain ⟨h', hrun, rfl⟩ := (runs_haproxy _ _).1 h
  have hcalm := haproxyPart_calm hg hrun
  rw [calm_upsertServer _ _ _ ha, Option.some.injEq] at hcalm
  by_cases hb : hasBackend s.haproxy.loaded backend
  · rw [if_pos hb] at hcalm
    obtain ⟨rfl, rfl⟩ := Prod.mk.inj hcalm
    simp [logged, unbacked, upsertAll, backed, hb, Haproxy.setServers]
  · rw [if_neg hb] at hcalm
    obtain ⟨rfl, rfl⟩ := Prod.mk.inj hcalm
    simp [logged, unbacked, upsertAll, backed, hb, Haproxy.setServers]

theorem restoreServers_calm {rs : List (Recovered Uuid)} (ha : ∀ r ∈ rs, ':' ∈ r.2.1)
    {errors : List Error} (h : Runs g (restoreServers rs) s errors s') :
    errors = unbacked s.haproxy.loaded (rs.flatMap entries) ∧
      s' = { s with haproxy := upsertAll s.haproxy (rs.flatMap entries) } := by
  induction rs generalizing s errors with
  | nil =>
      obtain ⟨rfl, rfl⟩ := (runs_pure _ _ _ _).1 h
      exact ⟨rfl, rfl⟩
  | cons r rs ih =>
      obtain ⟨id, addr, svc⟩ := r
      have haddr : ':' ∈ addr := ha (id, addr, svc) (by simp)
      have ha' : ∀ r ∈ rs, ':' ∈ r.2.1 := fun r hr => ha r (List.mem_cons_of_mem _ hr)
      rw [restoreServers, runs_bind] at h
      obtain ⟨res, s₁, hcall, h⟩ := h
      obtain ⟨hlogged, rfl⟩ := upsert_run hg haddr hcall
      rw [List.flatMap_cons, unbacked_append, upsertAll_append]
      cases svc with
      | none =>
          obtain ⟨rest, s₂, hrest, h⟩ := (runs_bind _ _ _ _ _).1 h
          obtain ⟨rfl, rfl⟩ := (runs_pure _ _ _ _).1 h
          obtain ⟨rfl, rfl⟩ := ih ha' hrest
          rw [hlogged, upsertAll_loaded]
          exact ⟨rfl, rfl⟩
      | some svc =>
          obtain ⟨res', s₂, hcall', h⟩ := (runs_bind _ _ _ _ _).1 h
          obtain ⟨hlogged', rfl⟩ := upsert_run hg haddr hcall'
          obtain ⟨rest, s₃, hrest, h⟩ := (runs_bind _ _ _ _ _).1 h
          obtain ⟨rfl, rfl⟩ := (runs_pure _ _ _ _).1 h
          obtain ⟨rfl, rfl⟩ := ih ha' hrest
          have hentries : entries (id, addr, some svc) =
              [((volunteers, serverNameFor id), ⟨addr, 1, .ready⟩)] ++
                [((serviceBackend svc.1, primary), ⟨addr, 100, .ready⟩)] := rfl
          rw [hlogged, hlogged', hentries, unbacked_append, upsertAll_append]
          refine ⟨?_, rfl⟩
          simp only [upsertAll_loaded]

theorem restoreConfigs_calm {rs : List (Recovered Uuid)} {c₀ : Text} {R : Entries} (hb : Base c₀)
    (hR : Refines c₀ R s.haproxy) (hloaded : s.haproxy.loaded = s.haproxy.file)
    (hsvc : ∀ r ∈ rs, ∀ svc, r.2.2 = some svc → NoWhitespace svc.1 ∧ NoWhitespace svc.2)
    {errors : List Error} (h : Runs g (restoreConfigs rs) s errors s') :
    errors = [] ∧ s'.haproxy.loaded = s'.haproxy.file ∧ ∃ R', Refines c₀ R' s'.haproxy ∧
      (∀ name ∈ R.map Prod.fst, name ∈ R'.map Prod.fst) ∧
      ∀ r ∈ rs, ∀ svc, r.2.2 = some svc → serviceBackend svc.1 ∈ R'.map Prod.fst := by
  induction rs generalizing s R errors with
  | nil =>
      obtain ⟨rfl, rfl⟩ := (runs_pure _ _ _ _).1 h
      exact ⟨rfl, hloaded, R, hR, fun _ hn => hn, by simp⟩
  | cons r rs ih =>
      obtain ⟨id, addr, svc⟩ := r
      have hsvc' := fun r hr => hsvc r (List.mem_cons_of_mem _ hr)
      cases svc with
      | none =>
          obtain ⟨herr, hl, R', hR', hkept, hall⟩ := ih hR hloaded hsvc' h
          exact ⟨herr, hl, R', hR', hkept, by simpa using hall⟩
      | some svc =>
          obtain ⟨hname, hdomain⟩ := hsvc (id, addr, some svc) (by simp) svc rfl
          have hservice : ServiceName (serviceBackend svc.1) :=
            ⟨List.prefix_append _ _, (by decide : NoWhitespace "svc_").append hname⟩
          obtain ⟨h₁, hadd, hR₁⟩ := hR.add hb hservice hdomain
          rw [restoreConfigs, runs_bind] at h
          obtain ⟨res, s₁, hcall, h⟩ := h
          obtain ⟨h', hrun, rfl⟩ := (runs_haproxy _ _).1 hcall
          have hcalm := haproxyPart_calm hg hrun
          rw [ensureServiceConfig, calm_config, hadd] at hcalm
          obtain ⟨rfl, rfl⟩ := Prod.mk.inj (Option.some.inj hcalm)
          obtain ⟨rest, s₂, hrest, h⟩ := (runs_bind _ _ _ _ _).1 h
          obtain ⟨rfl, rfl⟩ := (runs_pure _ _ _ _).1 h
          rw [Config.calm_addService _ _ _ hR.unlocked] at hadd
          have hl₁ := Config.added_loaded hloaded (serviceBackend svc.1) svc.2
          rw [Option.some.inj hadd] at hl₁
          obtain ⟨rfl, hl, R', hR', hkept, hall⟩ := ih hR₁ hl₁ hsvc' hrest
          refine ⟨rfl, hl, R', hR', fun name hn => hkept name (mem_add hn), fun r hr svc' hr' => ?_⟩
          rcases List.mem_cons.1 hr with rfl | hr
          · obtain rfl := Option.some.inj hr'
            exact hkept _ (mem_add_self _ _ _)
          · exact hall r hr svc' hr'

end Passes

section Survivors

/-- The configuration that edits made of the shipped file, loaded by the running process. -/
structure FromShipped (h : Haproxy) : Prop where
  edited : ∃ calls h₀ h₁, (∀ c ∈ calls, Call.Admissible c) ∧ h₀.file = Config.shipped ∧
    h₀.configLocked = false ∧ Edits calls h₀ h₁ ∧ h.file = h₁.file
  loaded : h.loaded = h.file

theorem FromShipped.refines {h : Haproxy} (hfrom : FromShipped h) (hl : h.configLocked = false) :
    ∃ R, Refines Config.shipped R h := by
  obtain ⟨calls, h₀, h₁, hcalls, hfile, hl₀, hedits, hsame⟩ := hfrom.edited
  have hR := (edits_refine base_shipped hcalls (refines_base hfile hl₀)).2 h₁ hedits
  exact ⟨_, by rw [hsame]; exact hR.file, hR.valid, hR.nodup, hl⟩

theorem hasBackend_volunteers {R : Entries} {h : Haproxy} (hR : Refines Config.shipped R h) :
    hasBackend h.file volunteers := by
  have hbase : ("backend volunteers" : Text) ∈ lines Config.shipped := by decide +kernel
  have hline : ("backend volunteers" : Text) ∈ lines h.file := by
    rw [hR.file]
    exact mem_fileLines hbase
  exact List.mem_map.2 ⟨_, hline, by decide⟩

variable {Uuid : Type} [UuidFormat Uuid]

/-- HAProxy routes to every survivor, and to the service of every survivor that holds one. -/
def Routed (survivors : List (VolunteerState Uuid)) (h : Haproxy) : Prop :=
  ∀ v ∈ survivors,
    (∃ sv, h.servers.lookup (volunteers, serverNameFor v.id) = some sv ∧
      sv.addr = v.info.serviceAddr ∧ sv.state = .ready) ∧
    ∀ a, v.assignedService = some a →
      hasBackend h.loaded (serviceBackend a.serviceName) ∧
      ∃ sv, h.servers.lookup (serviceBackend a.serviceName, primary) = some sv ∧
        sv.addr = v.info.serviceAddr ∧ sv.state = .ready

/-- The survivors that recovery is given: they differ, they have addresses, their services differ. -/
structure Survivors (survivors : List (VolunteerState Uuid)) : Prop where
  ids : survivors.Pairwise fun v w => v.id ≠ w.id
  services : survivors.Pairwise fun v w => ∀ a b, v.assignedService = some a →
    w.assignedService = some b → a.serviceName ≠ b.serviceName
  addresses : ∀ v ∈ survivors, ':' ∈ v.info.serviceAddr
  names : ∀ v ∈ survivors, ∀ a, v.assignedService = some a → NoWhitespace a.serviceName

theorem mem_keys {v : VolunteerState Uuid} {k : ServerKey} :
    k ∈ (entries (recovered v)).map Prod.fst ↔ k = (volunteers, serverNameFor v.id) ∨
      ∃ a, v.assignedService = some a ∧ k = (serviceBackend a.serviceName, primary) := by
  cases ha : v.assignedService with
  | none => simp [entries, recovered, ha]
  | some a => simp [entries, recovered, ha]

theorem Survivors.keys {survivors : List (VolunteerState Uuid)} (hs : Survivors survivors) :
    (((survivors.map recovered).flatMap entries).map Prod.fst).Nodup := by
  rw [List.map_flatMap, List.flatMap_map, List.nodup_flatMap]
  constructor
  · intro v _
    cases ha : v.assignedService with
    | none => simp [entries, recovered, ha]
    | some a => simp [entries, recovered, ha, (serviceBackend_ne_volunteers a.serviceName).symm]
  · refine (hs.ids.and hs.services).imp fun {v w} hne => ?_
    intro k hv hw
    rcases mem_keys.1 hv with rfl | ⟨a, ha, rfl⟩
    · rcases mem_keys.1 hw with hid | ⟨b, -, hkey⟩
      · exact hne.1 (UuidFormat.simple_injective (Prod.mk.inj hid).2)
      · exact serviceBackend_ne_volunteers b.serviceName (Prod.mk.inj hkey).1.symm
    · rcases mem_keys.1 hw with hkey | ⟨b, hb, hkey⟩
      · exact serviceBackend_ne_volunteers a.serviceName (Prod.mk.inj hkey).1
      · exact hne.2 a b ha hb (serviceBackend_injective (Prod.mk.inj hkey).1)

/-- When every backend is loaded, the second pass leaves every survivor routed. -/
theorem routed_upsertAll {survivors : List (VolunteerState Uuid)} (hs : Survivors survivors)
    {h : Haproxy}
    (hb : ∀ e ∈ (survivors.map recovered).flatMap entries, hasBackend h.loaded e.1.1) :
    Routed survivors (upsertAll h ((survivors.map recovered).flatMap entries)) := by
  intro v hv
  have hmem : ∀ e ∈ entries (recovered v), e ∈ (survivors.map recovered).flatMap entries :=
    fun e he => List.mem_flatMap.2 ⟨recovered v, List.mem_map_of_mem hv, he⟩
  have hown : ((volunteers, serverNameFor v.id), ⟨v.info.serviceAddr, 1, .ready⟩) ∈
      entries (recovered v) := List.mem_cons_self
  refine ⟨⟨_, lookup_upsertAll hb hs.keys (hmem _ hown), rfl, rfl⟩, fun a ha => ?_⟩
  have hsvc : ((serviceBackend a.serviceName, primary), ⟨v.info.serviceAddr, 100, .ready⟩) ∈
      entries (recovered v) := by
    simp [entries, recovered, ha]
  rw [upsertAll_loaded]
  exact ⟨hb _ (hmem _ hsvc), _, lookup_upsertAll hb hs.keys (hmem _ hsvc), rfl, rfl⟩

end Survivors

section Recovery

variable {Uuid : Type} [DecidableEq Uuid] [UuidFormat Uuid] [Rfc3339]

variable {g : Guard (RegistrarOp Uuid) (RegistrarEnv Uuid) (World Uuid)} {s s' : World Uuid}

/-- What the two passes of recovery leave. -/
theorem recoverFrom_calm (hg : ∀ β e (op : RegistrarOp Uuid β) s, g β e op s → e.haproxy = .calm)
    {survivors : List (VolunteerState Uuid)} (hs : Survivors survivors) {errors : List Error}
    (h : Runs g (recoverFrom survivors) s errors s') :
    ∃ (s₀ s₁ : World Uuid) (configErrors : List Error), s₀.haproxy = s.haproxy ∧
      Runs g (restoreConfigs (survivors.map recovered)) s₀ configErrors s₁ ∧
      errors = configErrors ++
        unbacked s₁.haproxy.loaded ((survivors.map recovered).flatMap entries) ∧
      s'.haproxy = upsertAll s₁.haproxy ((survivors.map recovered).flatMap entries) := by
  rw [recoverFrom] at h
  split_ifs at h with hnil
  · obtain ⟨rfl, rfl⟩ := (runs_pure _ _ _ _).1 h
    subst hnil
    exact ⟨s', s', [], rfl, .ready _ _, rfl, rfl⟩
  · rw [runs_bind] at h
    obtain ⟨u, s₀, hown, h⟩ := h
    obtain ⟨e, -, heq⟩ := (runs_own _).1 hown
    obtain ⟨-, rfl⟩ := Prod.mk.inj heq
    rw [runs_bind] at h
    obtain ⟨configErrors, s₁, hconfigs, h⟩ := h
    rw [runs_bind] at h
    obtain ⟨u', s₂, hsleep, h⟩ := h
    obtain rfl := settle_run hsleep
    rw [runs_bind] at h
    obtain ⟨serverErrors, s₃, hservers, h⟩ := h
    obtain ⟨rfl, rfl⟩ := (runs_pure _ _ _ _).1 h
    have haddr : ∀ r ∈ survivors.map recovered, ':' ∈ r.2.1 := by
      intro r hr
      obtain ⟨v, hv, rfl⟩ := List.mem_map.1 hr
      exact hs.addresses v hv
    obtain ⟨rfl, rfl⟩ := restoreServers_calm hg haddr hservers
    refine ⟨_, s₂, configErrors, ?_, hconfigs, rfl, rfl⟩
    rfl

/-- Recovery completes; where it logs no error every survivor is routed, and it logs none when the
configuration came from the shipped one and the domains are words. -/
theorem recovery_restores_routing [Inhabited Uuid] {survivors : List (VolunteerState Uuid)}
    (hs : Survivors survivors) {s : World Uuid} (hlock : s.haproxy.configLocked = false) :
    (∃ errors s', Runs haproxyAnswers (recoverFrom survivors) s errors s') ∧
    ∀ errors s', Runs haproxyAnswers (recoverFrom survivors) s errors s' →
      (errors = [] → Routed survivors s'.haproxy) ∧
      (FromShipped s.haproxy →
        (∀ v ∈ survivors, ∀ a, v.assignedService = some a → NoWhitespace a.domain) →
        errors = [] ∧ Routed survivors s'.haproxy) := by
  have hpermits : Permits (haproxyAnswers : Guard (RegistrarOp Uuid) _ _) :=
    fun _ _ _ _ _ hcalm _ => hcalm
  refine ⟨(ends_recoverFrom hpermits survivors).ends hlock, fun errors s' run => ?_⟩
  obtain ⟨s₀, s₁, configErrors, hsame, hconfigs, rfl, hend⟩ :=
    recoverFrom_calm (fun _ _ _ _ h => h) hs run
  rw [hend]
  refine ⟨fun hnone => ?_, fun hfrom hdomains => ?_⟩
  · exact routed_upsertAll hs (unbacked_eq_nil.1 (List.append_eq_nil_iff.1 hnone).2)
  · obtain ⟨R, hR⟩ := hfrom.refines hlock
    rw [← hsame] at hR
    have hservices : ∀ r ∈ survivors.map recovered, ∀ svc, r.2.2 = some svc →
        NoWhitespace svc.1 ∧ NoWhitespace svc.2 := by
      intro r hr svc hsvc
      obtain ⟨v, hv, rfl⟩ := List.mem_map.1 hr
      obtain ⟨a, ha, rfl⟩ := Option.map_eq_some_iff.1 hsvc
      exact ⟨hs.names v hv a ha, hdomains v hv a ha⟩
    have hloaded : s₀.haproxy.loaded = s₀.haproxy.file := by
      rw [hsame]
      exact hfrom.loaded
    obtain ⟨rfl, hl, R', hR', -, hall⟩ :=
      restoreConfigs_calm (fun _ _ _ _ h => h) base_shipped hR hloaded hservices hconfigs
    have hbacked : ∀ e ∈ (survivors.map recovered).flatMap entries,
        hasBackend s₁.haproxy.loaded e.1.1 := by
      intro e he
      obtain ⟨r, hr, he⟩ := List.mem_flatMap.1 he
      obtain ⟨v, hv, rfl⟩ := List.mem_map.1 hr
      rw [hl]
      rcases mem_keys.1 (List.mem_map_of_mem he) with hkey | ⟨a, ha, hkey⟩
      · rw [hkey]
        exact hasBackend_volunteers hR'
      · have hreg := hall (recovered v) hr (a.serviceName, a.domain) (by simp [recovered, ha])
        obtain ⟨entry, hentry, hname⟩ := List.mem_map.1 hreg
        have hb := hasBackend_fileLines hR'.valid hR'.file hentry
        rw [hname] at hb
        rw [hkey]
        exact hb
    rw [unbacked_eq_nil.2 hbacked]
    exact ⟨rfl, routed_upsertAll hs hbacked⟩

end Recovery

/-- A volunteer with a service and one without, recovered over a stale server table. -/
theorem recovery_restores_routing_shipped :
    let survivors : List (VolunteerState Node) :=
      [newVolunteer .a 0 ⟨"volunteer-101", "Linux", "x86_64", 4, "i5", 8192, 100, "27.0", "1.0",
          "10.0.0.5:7001"⟩ (some (Service.assignment blog 0)),
        newVolunteer .b 0 ⟨"volunteer-102", "Linux", "x86_64", 4, "i5", 8192, 100, "27.0", "1.0",
          "10.0.0.5:7002"⟩ none]
    let h : Haproxy := ⟨Config.shipped, Config.shipped,
      (∅ : Table ServerKey Server).insert (serviceBackend "wiki", primary)
        ⟨"10.0.0.5:7001", 100, .ready⟩, 0, false⟩
    ∃ errors s', Runs haproxyAnswers (recoverFrom survivors) (World.initial h) errors s' ∧
      errors = [] ∧ Routed survivors s'.haproxy := by
  intro survivors h
  have hs : Survivors survivors := by
    refine ⟨?_, ?_, ?_, ?_⟩
    · simp [survivors, newVolunteer]
    · simp [survivors, newVolunteer]
    · simp [survivors, newVolunteer]
    · simp only [survivors, List.mem_cons, List.not_mem_nil, or_false, newVolunteer]
      rintro v (rfl | rfl) a ha
      · obtain rfl := Option.some.inj ha
        decide
      · simp at ha
  have hfrom : FromShipped (World.initial h : World Node).haproxy :=
    ⟨⟨[], h, h, by simp, rfl, rfl, .nil h, rfl⟩, rfl⟩
  obtain ⟨⟨errors, s', hrun⟩, hall⟩ :=
    recovery_restores_routing hs (@rfl _ (World.initial h : World Node).haproxy.configLocked)
  refine ⟨errors, s', hrun, (hall errors s' hrun).2 hfrom ?_⟩
  simp only [survivors, List.mem_cons, List.not_mem_nil, or_false, newVolunteer]
  rintro v (rfl | rfl) a ha
  · obtain rfl := Option.some.inj ha
    decide
  · simp at ha

end Registrar
end OpenShard
