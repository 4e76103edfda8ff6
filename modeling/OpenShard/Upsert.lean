import OpenShard.Healing

/-!
# Upserting a server

Nothing is asked of HAProxy's answers but how they begin: a text that starts with `No such server`
for a server that is absent, one of the error prefixes for a backend that is unknown, and none of
them otherwise. Whatever the texts are, and however they change from one command to the next, an
upsert leaves the server ready at its address with its weight, or says that it could not.
-/

namespace OpenShard

namespace Haproxy

def target : Command → ServerKey
  | .addServer backend server _ => (backend, server)
  | .delServer backend server => (backend, server)
  | .setWeight backend server _ => (backend, server)
  | .setState backend server _ => (backend, server)
  | .setAddr backend server _ _ => (backend, server)

def sets : Command → Prop
  | .setWeight _ _ _ => True
  | .setState _ _ _ => True
  | .setAddr _ _ _ _ => True
  | _ => False

/-- How HAProxy answers its socket, and the weight it gives to a server that is added. -/
structure Api where
  answer : Command → Haproxy → Text
  weight : UInt32

namespace Api

/-- What a command does: an added server is in maintenance. -/
def effect (api : Api) (h : Haproxy) : Command → Haproxy
  | .addServer backend server addr =>
    if hasBackend h.loaded backend ∧ h.servers.lookup (backend, server) = none then
      h.setServer (backend, server) ⟨addr, api.weight, .maint⟩
    else h
  | cmd => (h.command cmd).2

def refuses (api : Api) (h : Haproxy) (cmd : Command) : Prop :=
  Runtime.isError (Text.trim (api.answer cmd h))

structure Lawful (api : Api) : Prop where
  unknown : ∀ h cmd, ¬ hasBackend h.loaded (target cmd).1 → api.refuses h cmd
  absent : ∀ h cmd, sets cmd → hasBackend h.loaded (target cmd).1 →
    h.servers.lookup (target cmd) = none → ("No such server" : Text) <+: api.answer cmd h
  present : ∀ h cmd, sets cmd → hasBackend h.loaded (target cmd).1 →
    h.servers.lookup (target cmd) ≠ none → ¬ api.refuses h cmd
  add : ∀ h backend server addr, hasBackend h.loaded backend →
    ¬ api.refuses h (.addServer backend server addr)

def standard : Api := ⟨fun cmd h => (h.command cmd).1, 1⟩

theorem standard_answer (h : Haproxy) (cmd : Command) :
    standard.answer cmd h = (h.command cmd).1 := rfl

theorem standard_effect (h : Haproxy) (cmd : Command) : standard.effect h cmd = (h.command cmd).2 := by
  cases cmd with
  | addServer backend server addr =>
      rw [effect, command]
      by_cases hb : hasBackend h.loaded backend
      · rw [if_pos hb]
        cases hs : h.servers.lookup (backend, server) with
        | none => rw [if_pos ⟨hb, rfl⟩, standard]
        | some sv => rw [if_neg (by simp)]
      · rw [if_neg fun hboth => hb hboth.1, if_neg hb]
  | _ => rfl

theorem alter_answer (h : Haproxy) (k : ServerKey) (f : Server → Server) :
    (¬ hasBackend h.loaded k.1 → (h.alter k f).1 = noSuchBackend) ∧
      (hasBackend h.loaded k.1 → h.servers.lookup k = none → (h.alter k f).1 = noSuchServer) ∧
        (hasBackend h.loaded k.1 → h.servers.lookup k ≠ none → (h.alter k f).1 = []) := by
  rw [alter]
  refine ⟨fun hb => by rw [if_neg hb], fun hb hs => by rw [if_pos hb, hs], fun hb hs => ?_⟩
  obtain ⟨sv, hsv⟩ := Option.ne_none_iff_exists'.1 hs
  rw [if_pos hb, hsv]

theorem alter_of_sets {cmd : Command} (hset : sets cmd) :
    ∃ f, ∀ h : Haproxy, h.command cmd = h.alter (target cmd) f := by
  cases cmd with
  | addServer backend server addr => exact hset.elim
  | delServer backend server => exact hset.elim
  | setWeight backend server weight => exact ⟨_, fun _ => rfl⟩
  | setState backend server state => exact ⟨_, fun _ => rfl⟩
  | setAddr backend server ip port => exact ⟨_, fun _ => rfl⟩

theorem answer_unknown {h : Haproxy} {cmd : Command} (hb : ¬ hasBackend h.loaded (target cmd).1) :
    (h.command cmd).1 = noSuchBackend := by
  cases cmd with
  | addServer backend server addr => exact congrArg Prod.fst (if_neg hb)
  | delServer backend server => exact congrArg Prod.fst (if_neg hb)
  | setWeight backend server weight => exact (alter_answer h _ _).1 hb
  | setState backend server state => exact (alter_answer h _ _).1 hb
  | setAddr backend server ip port => exact (alter_answer h _ _).1 hb

theorem standard_lawful : standard.Lawful where
  unknown h cmd hb := by
    rw [refuses, standard_answer, answer_unknown hb]
    decide
  absent h cmd hset hb hs := by
    obtain ⟨f, hf⟩ := alter_of_sets hset
    rw [standard_answer, hf, (alter_answer h _ _).2.1 hb hs]
    decide
  present h cmd hset hb hs := by
    obtain ⟨f, hf⟩ := alter_of_sets hset
    rw [refuses, standard_answer, hf, (alter_answer h _ _).2.2 hb hs]
    decide
  add h backend server addr hb := by
    rw [refuses, standard_answer, command]
    simp only [if_pos hb]
    cases h.servers.lookup (backend, server) with
    | none => simp only [Runtime.isError_newServer, Bool.false_eq_true, not_false_eq_true]
    | some sv => simp only [Runtime.isError_duplicateServer, Bool.false_eq_true, not_false_eq_true]

end Api

end Haproxy

open Haproxy Future

/-- The manager's operations, answered by a HAProxy of which only its `Api` is known. -/
inductive ApiOp : Type → Type
  | call {β : Type} (op : HaproxyOp β) : ApiOp β

/-- Commands are answered by the API, and the rest succeeds. -/
def Haproxy.Api.exec (api : Api) : {β : Type} → HaproxyOp β → Haproxy → Option (β × Haproxy)
  | _, .command cmd, h => some (.ok (api.answer cmd h), api.effect h cmd)
  | _, op, h => Machine.exec HaproxyEnv.calm op h

instance : Machine ApiOp Api Haproxy where
  exec
    | api, .call op, h => api.exec op h

/-- Each command is answered by a lawful API, not always by the same one. -/
def lawful : Guard ApiOp Api Haproxy := fun _ api _ _ => api.Lawful

/-- What a future of the manager may return and leave. -/
def RunsLawful {α : Type} (t : Future HaproxyOp α) (h : Haproxy) (a : α) (h' : Haproxy) : Prop :=
  Runs lawful (t.hoist ApiOp.call) h a h'

section RunsLawful

variable {α β ε : Type} {h h' : Haproxy}

theorem runsLawful_pure (a b : α) :
    RunsLawful (pure a : Future HaproxyOp α) h b h' ↔ b = a ∧ h' = h :=
  runs_ready a b h h'

theorem runsLawful_bind (t : Future HaproxyOp α) (f : α → Future HaproxyOp β) (b : β) :
    RunsLawful (t >>= f) h b h' ↔ ∃ a h₁, RunsLawful t h a h₁ ∧ RunsLawful (f a) h₁ b h' := by
  rw [RunsLawful, hoist_bind, runs_bind]
  rfl

theorem runsLawful_run_bind (t : ExceptT ε (Future HaproxyOp) α)
    (f : α → ExceptT ε (Future HaproxyOp) β) (r : Except ε β) :
    RunsLawful (t >>= f).run h r h' ↔
      (∃ a h₁, RunsLawful t.run h (.ok a) h₁ ∧ RunsLawful (f a).run h₁ r h') ∨
        ∃ e, RunsLawful t.run h (.error e) h' ∧ r = .error e := by
  rw [ExceptT.run_bind, runsLawful_bind]
  constructor
  · rintro ⟨r₁, h₁, ht, hrest⟩
    cases r₁ with
    | ok a => exact Or.inl ⟨a, h₁, ht, hrest⟩
    | error e =>
        obtain ⟨rfl, rfl⟩ := (runsLawful_pure _ _).1 hrest
        exact Or.inr ⟨e, ht, rfl⟩
  · rintro (⟨a, h₁, ht, hf⟩ | ⟨e, ht, rfl⟩)
    · exact ⟨.ok a, h₁, ht, hf⟩
    · exact ⟨.error e, h', ht, (runsLawful_pure _ _).2 ⟨rfl, rfl⟩⟩

theorem runsLawful_command (cmd : Command) (r : Except Text Text) :
    RunsLawful (perform (.command cmd)) h r h' ↔
      ∃ api : Api, api.Lawful ∧ r = .ok (api.answer cmd h) ∧ h' = api.effect h cmd := by
  have hperform : RunsLawful (perform (.command cmd)) h r h' ↔
      Runs lawful (perform (ApiOp.call (.command cmd))) h r h' := Iff.rfl
  rw [hperform, runs_perform]
  constructor
  · rintro ⟨api, hapi, he⟩
    obtain ⟨rfl, rfl⟩ := Prod.mk.inj (Option.some.inj he)
    exact ⟨api, hapi, rfl, rfl⟩
  · rintro ⟨api, hapi, rfl, rfl⟩
    exact ⟨api, hapi, rfl⟩

theorem runsLawful_of_calm {t : Future HaproxyOp α} (ht : t.Uses HaproxyManager.isCommand) {a : α}
    (hcalm : calm t h = some (a, h')) : RunsLawful t h a h' := by
  have run := (runs_calm _ _ _ _).2 hcalm
  clear hcalm
  induction run with
  | ready a s => exact .ready a s
  | @await γ op next e k k' k'' c a hg he _ ih =>
      obtain rfl : e = .calm := hg
      cases op with
      | command cmd =>
          obtain ⟨rfl, rfl⟩ := Prod.mk.inj (Option.some.inj he)
          refine .await Api.standard_lawful ?_ (ih (ht.2 _))
          rw [← Api.standard_effect]
          rfl
      | _ => exact ht.1.elim

end RunsLawful

namespace HaproxyManager

open Text

section Commands

variable {h h' : Haproxy} {cmd : Command}

inductive Answered (h : Haproxy) (k : ServerKey) (f : Server → Server) :
    Except RuntimeError Unit → Haproxy → Prop
  | done {sv : Server} (hb : hasBackend h.loaded k.1) (hs : h.servers.lookup k = some sv) :
      Answered h k f (.ok ()) (h.setServer k (f sv))
  | absent {text : Text} (hb : hasBackend h.loaded k.1) (hs : h.servers.lookup k = none)
      (htext : ("No such server" : Text) <+: text) : Answered h k f (.error (.response text)) h
  | unknown {e : RuntimeError} (hb : ¬ hasBackend h.loaded k.1) : Answered h k f (.error e) h

theorem sendCommand_lawful {r : Except RuntimeError Text}
    (run : RunsLawful (Runtime.sendCommand cmd).run h r h') :
    ∃ api : Api, api.Lawful ∧ h' = api.effect h cmd ∧
      (api.refuses h cmd → r = .error (.response (trim (api.answer cmd h)))) ∧
      (¬ api.refuses h cmd → r = .ok (trim (api.answer cmd h))) := by
  obtain ⟨a, h₁, hop, hret⟩ := (runsLawful_bind _ _ _).1 run
  obtain ⟨api, hapi, rfl, rfl⟩ := (runsLawful_command cmd a).1 hop
  refine ⟨api, hapi, ?_⟩
  dsimp only at hret
  split_ifs at hret with hrefuses
  · obtain ⟨rfl, rfl⟩ := (runsLawful_pure _ _).1 hret
    exact ⟨rfl, fun _ => rfl, fun hok => absurd hrefuses hok⟩
  · obtain ⟨rfl, rfl⟩ := (runsLawful_pure _ _).1 hret
    exact ⟨rfl, fun hno => absurd hno hrefuses, fun _ => rfl⟩

theorem discard_lawful {r : Except RuntimeError Unit}
    (run : RunsLawful (do let _ ← Runtime.sendCommand cmd : Runtime.Call Unit).run h r h') :
    ∃ api : Api, api.Lawful ∧ h' = api.effect h cmd ∧
      (api.refuses h cmd → r = .error (.response (trim (api.answer cmd h)))) ∧
      (¬ api.refuses h cmd → r = .ok ()) := by
  rw [runsLawful_run_bind] at run
  rcases run with ⟨a, h₁, hrun, hret⟩ | ⟨e, hrun, rfl⟩
  · obtain ⟨api, hapi, rfl, hrefused, -⟩ := sendCommand_lawful hrun
    obtain ⟨rfl, rfl⟩ := (runsLawful_pure _ _).1 hret
    refine ⟨api, hapi, rfl, fun hrefuses => ?_, fun _ => rfl⟩
    simpa using hrefused hrefuses
  · obtain ⟨api, hapi, rfl, hrefused, hdone⟩ := sendCommand_lawful hrun
    refine ⟨api, hapi, rfl, fun hrefuses => ?_, fun hok => ?_⟩
    · rw [Except.error.inj (hrefused hrefuses)]
    · simpa using hdone hok

theorem runtime_lawful {α : Type} {call : Runtime.Call α} {r : Except Error α}
    (run : RunsLawful (runtime call).run h r h') :
    ∃ r₁, RunsLawful call.run h r₁ h' ∧ r = r₁.mapError .runtime := by
  obtain ⟨r₁, h₁, hrun, hret⟩ := (runsLawful_bind _ _ _).1 run
  obtain ⟨rfl, rfl⟩ := (runsLawful_pure _ _).1 hret
  exact ⟨r₁, hrun, rfl⟩

theorem set_lawful {f : Server → Server} (hset : sets cmd)
    (hf : h.command cmd = h.alter (target cmd) f) {r : Except RuntimeError Unit}
    (run : RunsLawful (do let _ ← Runtime.sendCommand cmd : Runtime.Call Unit).run h r h') :
    Answered h (target cmd) f r h' := by
  obtain ⟨api, hapi, heffect, hrefused, hdone⟩ := discard_lawful run
  have halter : h' = (h.alter (target cmd) f).2 := by
    rw [heffect, ← hf]
    cases cmd with
    | addServer backend server addr => exact hset.elim
    | _ => rfl
  rw [alter] at halter
  by_cases hb : hasBackend h.loaded (target cmd).1
  · rw [if_pos hb] at halter
    cases hs : h.servers.lookup (target cmd) with
    | some sv =>
        rw [hs] at halter
        rw [halter, hdone (hapi.present h cmd hset hb (by rw [hs]; simp))]
        exact .done hb hs
    | none =>
        have htext := hapi.absent h cmd hset hb hs
        have htrim : ("No such server" : Text) <+: trim (api.answer cmd h) := by
          obtain ⟨rest, hrest⟩ := htext
          rw [← hrest]
          exact @prefix_trim [] "No such server" (by simp) (by decide) rest
        have herror : api.refuses h cmd := by
          have hstart : ("No such" : Text) <+: "No such server" := by decide
          exact List.any_eq_true.2 ⟨"No such", by decide, decide_eq_true (hstart.trans htrim)⟩
        rw [hs] at halter
        rw [halter, hrefused herror]
        exact .absent hb hs htrim
  · rw [if_neg hb] at halter
    rw [halter, hrefused (hapi.unknown h cmd hb)]
    exact .unknown hb

theorem set_present {f : Server → Server} (hset : sets cmd)
    (hf : ∀ h, Haproxy.command h cmd = h.alter (target cmd) f)
    (hb : hasBackend h.loaded (target cmd).1) (sv : Server) {r : Except Error Unit}
    (run : RunsLawful (runtime (do let _ ← Runtime.sendCommand cmd)).run
      (h.setServer (target cmd) sv) r h') :
    r = .ok () ∧ h' = h.setServer (target cmd) (f sv) := by
  obtain ⟨r₁, hrun, rfl⟩ := runtime_lawful run
  cases set_lawful hset (hf _) hrun with
  | done hb' hs =>
      rw [lookup_setServer_self, Option.some.injEq] at hs
      rw [hs, setServer_setServer]
      exact ⟨rfl, rfl⟩
  | absent hb' hs htext => simp at hs
  | unknown hb' => exact absurd hb hb'

theorem addServer_lawful {backend server addr : Text} {r : Except Error Unit}
    (hs : hasBackend h.loaded backend → h.servers.lookup (backend, server) = none)
    (run : RunsLawful (runtime (Runtime.addServer backend server addr)).run h r h') :
    (hasBackend h.loaded backend → r = .ok () ∧
      ∃ weight, h' = h.setServer (backend, server) ⟨addr, weight, .maint⟩) ∧
    (¬ hasBackend h.loaded backend → (∃ e, r = .error e) ∧ h' = h) := by
  obtain ⟨r₁, hrun, rfl⟩ := runtime_lawful run
  obtain ⟨api, hapi, heffect, hrefused, hdone⟩ := discard_lawful hrun
  rw [Api.effect] at heffect
  constructor
  · intro hb
    rw [if_pos ⟨hb, hs hb⟩] at heffect
    rw [hdone (hapi.add h backend server addr hb)]
    exact ⟨rfl, api.weight, heffect⟩
  · intro hb
    rw [if_neg fun hboth => hb hboth.1] at heffect
    rw [hrefused (hapi.unknown h _ hb)]
    exact ⟨⟨_, rfl⟩, heffect⟩

end Commands

section Upsert

variable {h h' : Haproxy} {backend serverName addr : Text} {weight : UInt32}

theorem noSuchServer_of_start {text : Text} (htext : ("No such server" : Text) <+: text) :
    Error.noSuchServer (RuntimeError.response text).toText := by
  refine decide_eq_true (htext.isInfix.trans ?_)
  exact (List.suffix_append _ _).isInfix

theorem finish_lawful (hb : hasBackend h.loaded backend) (sv : Server) {r : Except Error Unit}
    (run : RunsLawful (do
      runtime (Runtime.setWeight backend serverName weight)
      runtime (Runtime.setState backend serverName .ready) : Call Unit).run
        (h.setServer (backend, serverName) sv) r h') :
    r = .ok () ∧ h' = h.setServer (backend, serverName) ⟨sv.addr, weight, .ready⟩ := by
  rw [runsLawful_run_bind] at run
  rcases run with ⟨u, h₁, hweight, hstate⟩ | ⟨e, hweight, -⟩
  · obtain ⟨-, rfl⟩ := @set_present _ _ (.setWeight backend serverName weight) _ trivial
      (fun _ => rfl) hb sv _ hweight
    exact @set_present _ _ (.setState backend serverName .ready) _ trivial (fun _ => rfl) hb _ _ hstate
  · obtain ⟨hr, -⟩ := @set_present _ _ (.setWeight backend serverName weight) _ trivial
      (fun _ => rfl) hb sv _ hweight
    simp at hr

/-- What an upsert returns and leaves, whatever the texts of the answers. -/
theorem upsertServer_lawful (ha : ':' ∈ addr) {r : Except Error Unit}
    (run : RunsLawful (upsertServer backend serverName addr weight).run h r h') :
    (hasBackend h.loaded backend → r = .ok () ∧
      h' = h.setServer (backend, serverName) ⟨addr, weight, .ready⟩) ∧
    (¬ hasBackend h.loaded backend → (∃ e, r = .error e) ∧ h' = h) := by
  obtain ⟨ip, port, hsplit, hjoin⟩ := rsplitOnce_of_mem ha
  have haddr : ip ++ ":" ++ port = addr := by
    rw [← hjoin]
    simp
  have hset : ∀ h : Haproxy, h.command (.setAddr backend serverName ip port) =
      h.alter (backend, serverName) fun s => { s with addr } := by
    intro h
    rw [Haproxy.command, haddr]
  rw [upsertServer, runsLawful_run_bind] at run
  rcases run with ⟨r₁, h₁, haddress, run⟩ | ⟨e, haddress, -⟩
  swap
  · rw [ExceptT.run_mk, map_eq_pure_bind, runsLawful_bind] at haddress
    obtain ⟨a, h₂, -, hret⟩ := haddress
    simpa using ((runsLawful_pure _ _).1 hret).1
  rw [ExceptT.run_mk, map_eq_pure_bind, runsLawful_bind] at haddress
  obtain ⟨a, h₂, haddress, hret⟩ := haddress
  obtain ⟨heq, rfl⟩ := (runsLawful_pure _ _).1 hret
  obtain rfl := Except.ok.inj heq
  rw [Runtime.setAddr, hsplit] at haddress
  cases @set_lawful _ _ (.setAddr backend serverName ip port) _ trivial (hset h) _ haddress with
  | done hb hs => exact ⟨fun _ => finish_lawful hb _ run, fun hno => absurd hb hno⟩
  | absent hb hs htext =>
      simp only [noSuchServer_of_start htext, if_true] at run
      rw [runsLawful_run_bind] at run
      refine ⟨fun _ => ?_, fun hno => absurd hb hno⟩
      rcases run with ⟨u, h₂, hadd, run⟩ | ⟨e, hadd, -⟩
      · obtain ⟨-, added, rfl⟩ := (addServer_lawful (fun _ => hs) hadd).1 hb
        exact finish_lawful hb _ run
      · simpa using ((addServer_lawful (fun _ => hs) hadd).1 hb).1
  | @unknown e hb =>
      refine ⟨fun hyes => absurd hyes hb, fun _ => ?_⟩
      dsimp only at run
      split_ifs at run
      · rw [runsLawful_run_bind] at run
        rcases run with ⟨u, h₂, hadd, -⟩ | ⟨e, hadd, rfl⟩
        · obtain ⟨e', he'⟩ := ((addServer_lawful (fun hyes => absurd hyes hb) hadd).2 hb).1
          simp at he'
        · exact ⟨⟨e, rfl⟩, ((addServer_lawful (fun hyes => absurd hyes hb) hadd).2 hb).2⟩
      · obtain ⟨rfl, rfl⟩ := (runsLawful_pure _ _).1 run
        exact ⟨⟨_, rfl⟩, rfl⟩

/-- An upsert into a backend that is there leaves the server at its address with its weight, ready,
and every other server as it was, and a second one changes nothing; an upsert into an unknown backend
fails and changes nothing. -/
theorem upsert_is_upsert (h : Haproxy) (backend serverName ip port : Text) (weight : UInt32) :
    (hasBackend h.loaded backend →
      (∃ h', RunsLawful (upsertServer backend serverName (ip ++ ':' :: port) weight).run h (.ok ()) h') ∧
      ∀ r h', RunsLawful (upsertServer backend serverName (ip ++ ':' :: port) weight).run h r h' →
        r = .ok () ∧
        h'.servers.lookup (backend, serverName) = some ⟨ip ++ ':' :: port, weight, .ready⟩ ∧
        (∀ k, k ≠ (backend, serverName) → h'.servers.lookup k = h.servers.lookup k) ∧
        ∀ r' h'',
          RunsLawful (upsertServer backend serverName (ip ++ ':' :: port) weight).run h' r' h'' →
            r' = .ok () ∧ h'' = h') ∧
    (¬ hasBackend h.loaded backend →
      (∃ e h', RunsLawful (upsertServer backend serverName (ip ++ ':' :: port) weight).run h
        (.error e) h') ∧
      ∀ r h', RunsLawful (upsertServer backend serverName (ip ++ ':' :: port) weight).run h r h' →
        (∃ e, r = .error e) ∧ h' = h) := by
  have ha : ':' ∈ ip ++ ':' :: port := by simp
  have hcommands := (uses_upsertServer backend serverName (ip ++ ':' :: port) weight).mono
    isCommand_of_commandTo
  have hcalm := calm_upsertServer h backend serverName ha weight
  constructor
  · intro hb
    rw [if_pos hb] at hcalm
    refine ⟨⟨_, runsLawful_of_calm hcommands hcalm⟩, fun r h' run => ?_⟩
    obtain ⟨rfl, rfl⟩ := (upsertServer_lawful ha run).1 hb
    refine ⟨rfl, lookup_setServer_self _ _ _, fun k hk => ?_, fun r' h'' run' => ?_⟩
    · rw [lookup_setServer, if_neg hk]
    · obtain ⟨hr, hsame⟩ := (upsertServer_lawful ha run').1 hb
      rw [setServer_setServer] at hsame
      exact ⟨hr, hsame⟩
  · intro hb
    rw [if_neg hb] at hcalm
    exact ⟨⟨_, _, runsLawful_of_calm hcommands hcalm⟩,
      fun r h' run => (upsertServer_lawful ha run).2 hb⟩

end Upsert

end HaproxyManager

end OpenShard
