import OpenShard.Config

/-!
# The runtime API

`runtime.rs`: one command, one answer. An answer that begins like an error is one; everything else
is success, whatever it says.
-/

namespace OpenShard

inductive RuntimeError
  | io (message : Text)
  | response (text : Text)
  deriving DecidableEq

namespace RuntimeError

def toText : RuntimeError → Text
  | io message => "io error: " ++ message
  | response text => "haproxy returned an error response: " ++ text

end RuntimeError

namespace Runtime

open Future

abbrev Call (α : Type) := ExceptT RuntimeError (Future HaproxyOp) α

def errorPrefixes : List Text :=
  ["Can't", "No such", "Unknown", "Invalid", "Alert", "error"]

def isError (response : Text) : Bool := errorPrefixes.any fun p => decide (p <+: response)

def sendCommand (cmd : Command) : Call Text := ExceptT.mk do
  match ← perform (.command cmd) with
  | .error message => return .error (.io message)
  | .ok response =>
    let response := Text.trim response
    if isError response then return .error (.response response) else return .ok response

def addServer (backend serverName addr : Text) : Call Unit := do
  let _ ← sendCommand (.addServer backend serverName addr)

def removeServer (backend serverName : Text) : Call Unit := do
  let _ ← sendCommand (.delServer backend serverName)

def setWeight (backend serverName : Text) (weight : UInt32) : Call Unit := do
  let _ ← sendCommand (.setWeight backend serverName weight)

def setState (backend serverName : Text) (state : AdminState) : Call Unit := do
  let _ ← sendCommand (.setState backend serverName state)

def setAddr (backend serverName addr : Text) : Call Unit := do
  match Text.rsplitOnce ':' addr with
  | none => throw (.response ("invalid addr (expected ip:port): " ++ addr))
  | some (ip, port) =>
    let _ ← sendCommand (.setAddr backend serverName ip port)

section Calm

variable (h : Haproxy) (b s : Text)

/-- What one command returns and does when HAProxy answers. -/
theorem calm_sendCommand (cmd : Command) :
    calm (sendCommand cmd).run h =
      some (if isError (Text.trim (h.command cmd).1) then
        .error (.response (Text.trim (h.command cmd).1)) else .ok (Text.trim (h.command cmd).1),
        (h.command cmd).2) := by
  simp only [sendCommand, ExceptT.run_mk, calm_bind, calm_command, Option.bind_some]
  split_ifs <;> rfl

open Haproxy

theorem trim_noSuchServer : Text.trim noSuchServer = noSuchServer := by decide

theorem trim_noSuchBackend : Text.trim noSuchBackend = noSuchBackend := by decide

theorem isError_noSuchServer : isError noSuchServer = true := by decide

theorem isError_noSuchBackend : isError noSuchBackend = true := by decide

theorem isError_newServer : isError (Text.trim newServer) = false := by decide

theorem isError_duplicateServer : isError (Text.trim duplicateServer) = false := by decide

theorem isError_serverDeleted : isError (Text.trim serverDeleted) = false := by decide

def outcome (h : Haproxy) (cmd : Command) : Except RuntimeError Unit × Haproxy :=
  (if isError (Text.trim (h.command cmd).1) then
    .error (.response (Text.trim (h.command cmd).1)) else .ok (), (h.command cmd).2)

theorem calm_discard (cmd : Command) :
    calm (do let _ ← sendCommand cmd : Call Unit).run h = some (outcome h cmd) := by
  rw [calm_run_bind, calm_sendCommand, outcome, Option.bind_some]
  by_cases he : isError (Text.trim (h.command cmd).1)
  · simp only [if_pos he]
  · simp only [if_neg he]
    rfl

def altered (k : ServerKey) (f : Server → Server) : Except RuntimeError Unit × Haproxy :=
  if hasBackend h.loaded k.1 then
    match h.servers.lookup k with
    | none => (.error (.response noSuchServer), h)
    | some sv => (.ok (), h.setServer k (f sv))
  else (.error (.response noSuchBackend), h)

theorem outcome_alter {cmd : Command} {k : ServerKey} {f : Server → Server}
    (hcmd : h.command cmd = h.alter k f) : outcome h cmd = altered h k f := by
  rw [outcome, hcmd, Haproxy.alter, altered]
  by_cases hb : hasBackend h.loaded k.1
  · simp only [if_pos hb]
    cases h.servers.lookup k with
    | none => simp only [trim_noSuchServer, isError_noSuchServer, if_true]
    | some sv => rfl
  · simp only [if_neg hb, trim_noSuchBackend, isError_noSuchBackend, if_true]

theorem calm_setWeight (weight : UInt32) :
    calm (setWeight b s weight).run h = some (altered h (b, s) fun sv => { sv with weight }) := by
  rw [setWeight, calm_discard, outcome_alter h rfl]

theorem calm_setState (state : AdminState) :
    calm (setState b s state).run h = some (altered h (b, s) fun sv => { sv with state }) := by
  rw [setState, calm_discard, outcome_alter h rfl]

theorem calm_setAddr {addr : Text} (ha : ':' ∈ addr) :
    calm (setAddr b s addr).run h = some (altered h (b, s) fun sv => { sv with addr }) := by
  obtain ⟨ip, port, hsplit, hjoin⟩ := Text.rsplitOnce_of_mem ha
  have haddr : ip ++ ":" ++ port = addr := by
    rw [← hjoin]
    simp
  rw [setAddr, hsplit]
  refine (calm_discard h _).trans (congrArg some (outcome_alter h ?_))
  rw [Haproxy.command, haddr]

theorem calm_addServer (addr : Text) :
    calm (addServer b s addr).run h =
      some (if hasBackend h.loaded b then
        (.ok (), if h.servers.lookup (b, s) = none then h.setServer (b, s) ⟨addr, 1, .maint⟩ else h)
        else (.error (.response noSuchBackend), h)) := by
  rw [addServer, calm_discard, outcome, Haproxy.command]
  by_cases hb : hasBackend h.loaded b
  · simp only [if_pos hb]
    cases h.servers.lookup (b, s) with
    | none => simp only [isError_newServer, if_true, Bool.false_eq_true, if_false]
    | some sv => simp [isError_duplicateServer]
  · simp only [if_neg hb, trim_noSuchBackend, isError_noSuchBackend, if_true]

theorem calm_removeServer {sv : Server} (hb : hasBackend h.loaded b)
    (hs : h.servers.lookup (b, s) = some sv) (hm : sv.state = .maint) :
    calm (removeServer b s).run h = some (.ok (), { h with servers := h.servers.erase (b, s) }) := by
  rw [removeServer, calm_discard, outcome, Haproxy.command]
  simp only [if_pos hb, hs, if_pos hm, isError_serverDeleted, Bool.false_eq_true, if_false]

end Calm

end Runtime
end OpenShard
