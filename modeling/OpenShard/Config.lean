import OpenShard.Haproxy

/-!
# Editing the configuration file

`config.rs`: the text of a service's rules and backend, the test whether a service is there, the
two edits, and the asynchronous functions that apply an edit under the config lock, validate the
result, put the old text back when it is refused, and reload HAProxy.
-/

namespace OpenShard.Config

open Text

def reloadSettleMs : ℕ := 750

def backendHeader (serviceName : Text) : Text := "backend " ++ serviceName

def backendDirectives : List Text :=
  ["    balance leastconn", "    option http-server-close", "    option httpchk GET /",
    "    http-check expect rstatus 2[0-9][0-9]",
    "    http-response set-header X-Served-By %[srv_name]"]

def backendBlock (serviceName : Text) : Text :=
  "\n" ++ backendHeader serviceName ++ "\n" ++ (join backendDirectives ++ "\n")

def aclLine (serviceName domain : Text) : Text :=
  "    acl host_" ++ serviceName ++ " hdr(host) -i " ++ domain

def useLine (serviceName : Text) : Text :=
  "    use_backend " ++ serviceName ++ " if host_" ++ serviceName

def aclMarker (serviceName : Text) : Text := "acl host_" ++ serviceName ++ " "

def serviceExists (content serviceName : Text) : Prop :=
  ∃ l ∈ lines content, aclMarker serviceName <+: trim l

instance (content serviceName : Text) : Decidable (serviceExists content serviceName) :=
  inferInstanceAs (Decidable (∃ l ∈ lines content, _))

/-- A line of the form `default_backend …` or `use_backend …`. -/
def routing (l : Text) : Bool :=
  decide (("default_backend" : Text) <+: trim l) || decide (("use_backend" : Text) <+: trim l)

/-- The text `add_service` writes; `none` where no routing line shows where to insert. -/
def addedContent (content serviceName domain : Text) : Option Text :=
  let ls := lines content
  if ls.any routing then
    let before := ls.takeWhile fun l => !routing l
    let after := ls.dropWhile fun l => !routing l
    some (join (before ++ [aclLine serviceName domain, useLine serviceName] ++ after ++
      [backendBlock serviceName]))
  else none

/-- A line that is neither indented nor empty opens a section. -/
def opensSection (l : Text) : Bool :=
  match l with
  | [] => false
  | c :: _ => c != ' ' && c != '\t'

def aclPrefix (serviceName : Text) : Text := "    acl host_" ++ serviceName ++ " "

def usePrefix (serviceName : Text) : Text := "    use_backend " ++ serviceName ++ " "

/-- The loop of `remove_service`: whether the current line is in the service's backend section is
carried from line to line. -/
def removeLoop (serviceName : Text) : Bool → List Text → List Text
  | _, [] => []
  | inTarget, l :: ls =>
    let inTarget := if opensSection l then trim l == backendHeader serviceName else inTarget
    if inTarget then removeLoop serviceName inTarget ls
    else if aclPrefix serviceName <+: l ∨ usePrefix serviceName <+: l then
      removeLoop serviceName inTarget ls
    else l :: removeLoop serviceName inTarget ls

def removedContent (content serviceName : Text) : Text :=
  join (removeLoop serviceName false (lines content))

def serviceNames (content : Text) : List Text :=
  (lines content).filterMap fun l =>
    if ("backend svc_" : Text) <+: trim l then some ((trim l).drop "backend ".toList.length)
    else none

def shippedLines : List Text :=
  ["global", "    stats socket /run/haproxy/admin.sock mode 660 level admin",
    "    stats timeout 30s", "", "resolvers docker", "    nameserver dns 127.0.0.11:53",
    "    resolve_retries 3", "    timeout resolve 1s", "    timeout retry   1s",
    "    hold valid      10s", "", "defaults", "    mode http", "    timeout connect 5s",
    "    timeout client 30s", "    timeout server 30s", "", "frontend openshrd",
    "    bind *:80", "    http-after-response del-header X-Served-By",
    "    default_backend volunteers", "", "frontend prometheus", "    bind *:8405",
    "    http-request use-service prometheus-exporter if \x7b path /metrics \x7d",
    "    no log", "", "backend volunteers", "    balance leastconn",
    "    option http-server-close", "    http-response set-header X-Served-By %[srv_name]", ""]

def shipped : Text := join shippedLines ++ "\n"

open Future

abbrev Manager (α : Type) := ExceptT ConfigError (Future HaproxyOp) α

def readConfig : Manager Text := ExceptT.mk do
  return (← perform .readConfig).mapError .io

def writeConfig (content : Text) : Manager Unit := ExceptT.mk do
  return (← perform (.writeConfig content)).mapError .io

def validateConfig : Manager Unit := ExceptT.mk (perform .validateConfig)

def reloadHaproxy : Manager Unit := ExceptT.mk do
  return (← perform .reloadHaproxy).mapError .reloadFailed

def sleep (ms : ℕ) : Manager Unit := ExceptT.mk do
  return .ok (← perform (.sleep ms))

/-- Hold the config lock while the body runs, on whatever path it ends. -/
def withConfigLock {α : Type} (body : Manager α) : Manager α := ExceptT.mk do
  perform .lockConfig
  let r ← body.run
  perform .unlockConfig
  return r

/-- Write the new text, validate it, put the old text back if it is refused, reload. -/
def install (content newContent : Text) : Manager Unit := do
  writeConfig newContent
  match ← (ExceptT.mk (Except.ok <$> validateConfig.run) : Manager (Except ConfigError Unit)) with
  | .error e =>
    writeConfig content
    throw e
  | .ok () =>
    reloadHaproxy
    sleep reloadSettleMs

def addService (serviceName domain : Text) : Manager Unit := withConfigLock do
  let content ← readConfig
  if serviceExists content serviceName then
    return
  match addedContent content serviceName domain with
  | none => throw .frontendNotFound
  | some newContent => install content newContent

def removeService (serviceName : Text) : Manager Unit := withConfigLock do
  let content ← readConfig
  if ¬ serviceExists content serviceName then
    return
  install content (removedContent content serviceName)

def listServices : Manager (List Text) := do
  let content ← readConfig
  return serviceNames content

section Calm

variable (h : Haproxy)

theorem calm_install (content newContent : Text) :
    calm (install content newContent).run h =
      some (.ok (), { h with file := newContent }.reload) := by
  simp [install, writeConfig, validateConfig, reloadHaproxy, sleep, Except.mapError]

theorem calm_withConfigLock {α : Type} (body : Manager α) (hl : h.configLocked = false) :
    calm (withConfigLock body).run h =
      (calm body.run { h with configLocked := true }).map fun r =>
        (r.1, { r.2 with configLocked := false }) := by
  simp only [withConfigLock, ExceptT.run_mk, calm_bind, calm_lockConfig h hl, Option.bind_some]
  cases calm body.run { h with configLocked := true } with
  | none => rfl
  | some r => simp

theorem calm_withConfigLock_locked {α : Type} (body : Manager α) (hl : h.configLocked = true) :
    calm (withConfigLock body).run h = none := by
  rw [withConfigLock, ExceptT.run_mk, calm_bind, calm_perform]
  simp [Machine.exec, hl]

def added (serviceName domain : Text) : Except ConfigError Unit × Haproxy :=
  if serviceExists h.file serviceName then (.ok (), h)
  else match addedContent h.file serviceName domain with
    | none => (.error .frontendNotFound, h)
    | some newContent => (.ok (), { h with file := newContent }.reload)

theorem added_loaded {h : Haproxy} (hload : h.loaded = h.file) (serviceName domain : Text) :
    (added h serviceName domain).2.loaded = (added h serviceName domain).2.file := by
  rw [added]
  split_ifs
  · exact hload
  · split
    · exact hload
    · rfl

theorem calm_addService (serviceName domain : Text) (hl : h.configLocked = false) :
    calm (addService serviceName domain).run h = some (added h serviceName domain) := by
  obtain ⟨file, loaded, servers, generation, locked⟩ := h
  obtain rfl : locked = false := hl
  rw [addService, calm_withConfigLock _ _ rfl, added]
  by_cases hex : serviceExists file serviceName
  · simp [readConfig, Except.mapError, hex]
  · cases hadd : addedContent file serviceName domain with
    | none => simp [readConfig, Except.mapError, hex, hadd]
    | some newContent =>
        simp [readConfig, Except.mapError, hex, hadd, calm_install, Haproxy.reload]

theorem calm_removeService (serviceName : Text) (hl : h.configLocked = false) :
    calm (removeService serviceName).run h =
      some (if serviceExists h.file serviceName then
        (.ok (), { h with file := removedContent h.file serviceName }.reload) else (.ok (), h)) := by
  obtain ⟨file, loaded, servers, generation, locked⟩ := h
  obtain rfl : locked = false := hl
  rw [removeService, calm_withConfigLock _ _ rfl]
  by_cases hex : serviceExists file serviceName
  · simp [readConfig, Except.mapError, hex, calm_install, Haproxy.reload]
  · simp [readConfig, Except.mapError, hex]

theorem calm_listServices :
    calm listServices.run h = some (.ok (serviceNames h.file), h) := by
  simp [listServices, readConfig, Except.mapError]

end Calm

section Added

/-- Adding a service leaves every line of the configuration in it. -/
theorem trim_mem_addedContent {content name domain newContent : Text}
    (h : addedContent content name domain = some newContent) {l : Text} (hl : l ∈ lines content) :
    trim l ∈ (lines newContent).map trim := by
  rw [addedContent] at h
  split_ifs at h
  obtain rfl := Option.some.inj h
  rw [join_append_singleton]
  refine trim_mem_lines_written ?_ (newline_notMem_lines l hl) _
  rw [← @List.takeWhile_append_dropWhile _ (fun l => !routing l) (lines content)] at hl
  simp only [List.mem_append] at hl ⊢
  tauto

theorem hasBackend_addedContent {content name domain newContent backend : Text}
    (h : addedContent content name domain = some newContent) (hb : hasBackend content backend) :
    hasBackend newContent backend := by
  obtain ⟨l, hl, heq⟩ := List.mem_map.1 hb
  rw [hasBackend, ← heq]
  exact trim_mem_addedContent h hl

end Added

end OpenShard.Config
