import OpenShard.Text
import OpenShard.Table
import OpenShard.Future

/-!
# The running HAProxy

HAProxy is seen through its configuration file, the configuration its process loaded last, and the
table of servers added at run time. A reload loads the file and drops every runtime server. The
runtime commands answer with a text: on an absent server it starts with `No such server`, on an
unknown backend with `No such backend`, and `add server` on a present server is declined without
any of the prefixes that the client takes for an error. `HaproxyOp` lists what the manager awaits;
each step's environment decides whether files, validation, reload and socket fail.
-/

namespace OpenShard

inductive AdminState
  | ready
  | maint
  deriving DecidableEq

structure Server where
  addr : Text
  weight : UInt32
  state : AdminState
  deriving DecidableEq

/-- A runtime server is addressed as `backend/name`. -/
abbrev ServerKey := Text × Text

/-- `generation` counts the reloads; `configLocked` is the manager's lock on the file. -/
structure Haproxy where
  file : Text
  loaded : Text
  servers : Table ServerKey Server
  generation : ℕ
  configLocked : Bool

inductive Command
  | addServer (backend server addr : Text)
  | delServer (backend server : Text)
  | setWeight (backend server : Text) (weight : UInt32)
  | setState (backend server : Text) (state : AdminState)
  | setAddr (backend server ip port : Text)
  deriving DecidableEq

def hasBackend (content backend : Text) : Prop :=
  "backend " ++ backend ∈ (Text.lines content).map Text.trim

instance (content backend : Text) : Decidable (hasBackend content backend) :=
  inferInstanceAs (Decidable (_ ∈ List.map _ _))

namespace Haproxy

def noSuchServer : Text := "No such server."

def noSuchBackend : Text := "No such backend."

def newServer : Text := "New server registered."

def duplicateServer : Text := "Already exists a server with the same name in backend."

def serverDeleted : Text := "Server deleted."

def notInMaintenance : Text := "Only servers in maintenance mode can be deleted."

def setServer (h : Haproxy) (k : ServerKey) (s : Server) : Haproxy :=
  { h with servers := h.servers.insert k s }

/-- Start a new worker on the file; the servers added at run time are gone. -/
def reload (h : Haproxy) : Haproxy :=
  { h with loaded := h.file, servers := ∅, generation := h.generation + 1 }

def alter (h : Haproxy) (k : ServerKey) (f : Server → Server) : Text × Haproxy :=
  if hasBackend h.loaded k.1 then
    match h.servers.lookup k with
    | none => (noSuchServer, h)
    | some s => ([], h.setServer k (f s))
  else (noSuchBackend, h)

def command (h : Haproxy) : Command → Text × Haproxy
  | .addServer backend server addr =>
    if hasBackend h.loaded backend then
      match h.servers.lookup (backend, server) with
      | none => (newServer, h.setServer (backend, server) ⟨addr, 1, .maint⟩)
      | some _ => (duplicateServer, h)
    else (noSuchBackend, h)
  | .delServer backend server =>
    if hasBackend h.loaded backend then
      match h.servers.lookup (backend, server) with
      | none => (noSuchServer, h)
      | some s =>
        if s.state = .maint then
          (serverDeleted, { h with servers := h.servers.erase (backend, server) })
        else (notInMaintenance, h)
    else (noSuchBackend, h)
  | .setWeight backend server weight => h.alter (backend, server) fun s => { s with weight }
  | .setState backend server state => h.alter (backend, server) fun s => { s with state }
  | .setAddr backend server ip port =>
    h.alter (backend, server) fun s => { s with addr := ip ++ ":" ++ port }

section SetServer

variable (h : Haproxy) (k k' : ServerKey) (s s' : Server)

@[simp] theorem setServer_file : (h.setServer k s).file = h.file := rfl

@[simp] theorem setServer_loaded : (h.setServer k s).loaded = h.loaded := rfl

@[simp] theorem setServer_generation : (h.setServer k s).generation = h.generation := rfl

@[simp] theorem setServer_configLocked : (h.setServer k s).configLocked = h.configLocked := rfl

theorem lookup_setServer :
    (h.setServer k s).servers.lookup k' = if k' = k then some s else h.servers.lookup k' :=
  Table.lookup_insert_if _ _ _ _

@[simp] theorem lookup_setServer_self : (h.setServer k s).servers.lookup k = some s := by
  rw [lookup_setServer, if_pos rfl]

@[simp] theorem setServer_setServer : (h.setServer k s).setServer k s' = h.setServer k s' := by
  simp only [setServer, AList.insert_insert]

end SetServer

end Haproxy

inductive ConfigError
  | io (message : Text)
  | frontendNotFound
  | validationFailed (stderr : Text)
  | reloadFailed (reason : Text)
  deriving DecidableEq

inductive HaproxyOp : Type → Type
  | lockConfig : HaproxyOp Unit
  | unlockConfig : HaproxyOp Unit
  | readConfig : HaproxyOp (Except Text Text)
  | writeConfig (content : Text) : HaproxyOp (Except Text Unit)
  | validateConfig : HaproxyOp (Except ConfigError Unit)
  | reloadHaproxy : HaproxyOp (Except Text Unit)
  | sleep (ms : ℕ) : HaproxyOp Unit
  | command (cmd : Command) : HaproxyOp (Except Text Text)

/-- How the outside world answers one step. A failed write may leave anything in the file, and a
forced socket answer stands for an answer that HAProxy did not give. -/
structure HaproxyEnv where
  readFault : Option Text
  writeFault : Option (Text × Text)
  validation : Except ConfigError Unit
  reload : Except Text Unit
  socket : Option (Except Text Text)
  deriving DecidableEq

def HaproxyEnv.calm : HaproxyEnv := ⟨none, none, .ok (), .ok (), none⟩

instance : Machine HaproxyOp HaproxyEnv Haproxy where
  exec
    | _, .lockConfig, h => if h.configLocked then none else some ((), { h with configLocked := true })
    | _, .unlockConfig, h => some ((), { h with configLocked := false })
    | e, .readConfig, h =>
      match e.readFault with
      | none => some (.ok h.file, h)
      | some message => some (.error message, h)
    | e, .writeConfig content, h =>
      match e.writeFault with
      | none => some (.ok (), { h with file := content })
      | some (message, left) => some (.error message, { h with file := left })
    | e, .validateConfig, h => some (e.validation, h)
    | e, .reloadHaproxy, h =>
      match e.reload with
      | .ok () => some (.ok (), h.reload)
      | .error reason => some (.error reason, h)
    | _, .sleep _, h => some ((), h)
    | e, .command cmd, h =>
      match e.socket with
      | none => some (.ok (h.command cmd).1, (h.command cmd).2)
      | some answer => some (answer, h)

/-- Every step is answered by the HAProxy of this model and no file, validation or reload fails. -/
def haproxySucceeds : Guard HaproxyOp HaproxyEnv Haproxy := fun _ e _ _ => e = .calm

instance (β : Type) (e : HaproxyEnv) (op : HaproxyOp β) (h : Haproxy) :
    Decidable (haproxySucceeds β e op h) := inferInstanceAs (Decidable (e = .calm))

section Calm

variable {α β : Type}

/-- What a function of the manager returns and leaves when nothing fails. -/
def calm (t : Future HaproxyOp α) (h : Haproxy) : Option (α × Haproxy) :=
  runBy haproxySucceeds (fun _ => .calm) t h

theorem runs_calm (t : Future HaproxyOp α) (h h' : Haproxy) (a : α) :
    Runs haproxySucceeds t h a h' ↔ calm t h = some (a, h') :=
  runs_iff_runBy (fun _ _ _ _ he => he) t h h' a

@[simp] theorem calm_pure (a : α) (h : Haproxy) : calm (pure a) h = some (a, h) := rfl

@[simp] theorem calm_bind (t : Future HaproxyOp α) (f : α → Future HaproxyOp β) (h : Haproxy) :
    calm (t >>= f) h = (calm t h).bind fun r => calm (f r.1) r.2 := runBy_bind _ t f h

@[simp] theorem calm_map (t : Future HaproxyOp α) (f : α → β) (h : Haproxy) :
    calm (f <$> t) h = (calm t h).map fun r => (f r.1, r.2) := by
  rw [map_eq_pure_bind, calm_bind]
  cases calm t h with
  | none => rfl
  | some r => rfl

@[simp] theorem calm_run_bind {ε : Type} (t : ExceptT ε (Future HaproxyOp) α)
    (f : α → ExceptT ε (Future HaproxyOp) β) (h : Haproxy) :
    calm (t >>= f).run h = (calm t.run h).bind fun r =>
      match r.1 with
      | .ok a => calm (f a).run r.2
      | .error e => some (.error e, r.2) := by
  rw [ExceptT.run_bind, calm_bind]
  congr 1
  funext r
  cases r.1 with
  | ok a => rfl
  | error e => rfl

theorem calm_perform (op : HaproxyOp α) (h : Haproxy) :
    calm (.perform op) h = Machine.exec HaproxyEnv.calm op h := by
  simp only [calm, Future.perform, runBy, haproxySucceeds, if_true]
  cases Machine.exec HaproxyEnv.calm op h with
  | none => rfl
  | some r => rfl

variable (h : Haproxy)

@[simp] theorem calm_lockConfig (hl : h.configLocked = false) :
    calm (.perform .lockConfig) h = some ((), { h with configLocked := true }) := by
  rw [calm_perform]
  simp [Machine.exec, hl]

@[simp] theorem calm_unlockConfig :
    calm (.perform .unlockConfig) h = some ((), { h with configLocked := false }) :=
  calm_perform _ h

@[simp] theorem calm_readConfig : calm (.perform .readConfig) h = some (.ok h.file, h) :=
  calm_perform _ h

@[simp] theorem calm_writeConfig (content : Text) :
    calm (.perform (.writeConfig content)) h = some (.ok (), { h with file := content }) :=
  calm_perform _ h

@[simp] theorem calm_validateConfig : calm (.perform .validateConfig) h = some (.ok (), h) :=
  calm_perform _ h

@[simp] theorem calm_reloadHaproxy :
    calm (.perform .reloadHaproxy) h = some (.ok (), h.reload) := calm_perform _ h

@[simp] theorem calm_sleep (ms : ℕ) : calm (.perform (.sleep ms)) h = some ((), h) :=
  calm_perform _ h

@[simp] theorem calm_command (cmd : Command) :
    calm (.perform (.command cmd)) h = some (.ok (h.command cmd).1, (h.command cmd).2) :=
  calm_perform _ h

end Calm

end OpenShard
