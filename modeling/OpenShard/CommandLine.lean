import OpenShard.Runtime

/-!
# Command lines

What `send_command` writes is a line of text. HAProxy reads the line up to its end, takes the commands
in it to be separated by semicolons, their words by blanks, and the third word to name the server. With
names made of letters, digits, dots, dashes, underscores and colons a line is the command that was
meant; with other names it may be several, about other servers.
-/

namespace OpenShard

def AdminState.toText : AdminState → Text
  | .ready => "ready"
  | .maint => "maint"

/-- The texts that `runtime.rs` formats. -/
def Command.line : Command → Text
  | .addServer backend server addr => "add server " ++ backend ++ "/" ++ server ++ " " ++ addr
  | .delServer backend server => "del server " ++ backend ++ "/" ++ server
  | .setWeight backend server weight =>
    "set weight " ++ backend ++ "/" ++ server ++ " " ++ Text.ofNat weight.toNat
  | .setState backend server state =>
    "set server " ++ backend ++ "/" ++ server ++ " state " ++ state.toText
  | .setAddr backend server ip port =>
    "set server " ++ backend ++ "/" ++ server ++ " addr " ++ ip ++ " port " ++ port

namespace Command

def backendOf (target : Text) : Text := target.takeWhile (· ≠ '/')

def serverOf (target : Text) : Text := (target.dropWhile (· ≠ '/')).drop 1

def stateOf (value : Text) : Option AdminState :=
  if value = "ready" then some .ready else if value = "maint" then some .maint else none

def ofWords : List Text → Option Command
  | [verb, object, target] =>
    if verb = "del" ∧ object = "server" then
      some (.delServer (backendOf target) (serverOf target))
    else none
  | [verb, object, target, value] =>
    if verb = "add" ∧ object = "server" then
      some (.addServer (backendOf target) (serverOf target) value)
    else if verb = "set" ∧ object = "weight" then
      some (.setWeight (backendOf target) (serverOf target)
        (UInt32.ofNat (Nat.ofDigitChars 10 value 0)))
    else none
  | [verb, object, target, field, value] =>
    if verb = "set" ∧ object = "server" ∧ field = "state" then
      (stateOf value).map fun state => .setState (backendOf target) (serverOf target) state
    else none
  | [verb, object, target, field, ip, keyword, port] =>
    if verb = "set" ∧ object = "server" ∧ field = "addr" ∧ keyword = "port" then
      some (.setAddr (backendOf target) (serverOf target) ip port)
    else none
  | _ => none

/-- The commands of a line; nothing stands for one that is not understood. -/
def read (line : Text) : List (Option Command) :=
  ((line.takeWhile (· ≠ '\n')).splitOn ';').map fun part => ofWords (Text.words part)

end Command

namespace Haproxy

def unknownCommand : Text := "Unknown command."

def answer (r : Text × Haproxy) : Option Command → Text × Haproxy
  | some cmd => (r.1 ++ (r.2.command cmd).1, (r.2.command cmd).2)
  | none => (r.1 ++ unknownCommand, r.2)

def execute (h : Haproxy) (line : Text) : Text × Haproxy :=
  (Command.read line).foldl answer ([], h)

end Haproxy

section Plain

namespace Text

/-- Letters and digits, dots, dashes, underscores and colons. -/
def plainChar (c : Char) : Bool :=
  let n := c.toNat
  (48 ≤ n && n ≤ 58) || (65 ≤ n && n ≤ 90) || (97 ≤ n && n ≤ 122) || n == 45 || n == 46 || n == 95

def Plain (t : Text) : Prop := t ≠ [] ∧ ∀ c ∈ t, plainChar c

instance (t : Text) : Decidable (Plain t) :=
  @instDecidableAnd _ _ _ (List.decidableBAll (fun c => plainChar c) t)

def Word (t : Text) : Prop := t ≠ [] ∧ ∀ c ∈ t, isWhitespace c = false ∧ c ≠ ';'

instance (t : Text) : Decidable (Word t) :=
  @instDecidableAnd _ _ _ (List.decidableBAll (fun c => isWhitespace c = false ∧ c ≠ ';') t)

theorem word_of_plainChar {c : Char} (hc : plainChar c) : isWhitespace c = false ∧ c ≠ ';' := by
  refine ⟨?_, fun hsemi => ?_⟩
  · simp only [plainChar, isWhitespace, Bool.or_eq_true, Bool.and_eq_true, decide_eq_true_eq,
      beq_iff_eq] at hc ⊢
    simp only [Bool.or_eq_false_iff, Bool.and_eq_false_iff, decide_eq_false_iff_not,
      beq_eq_false_iff_ne]
    omega
  · rw [hsemi] at hc
    exact absurd hc (by decide)

theorem Plain.word {t : Text} (h : Plain t) : Word t :=
  ⟨h.1, fun c hc => word_of_plainChar (h.2 c hc)⟩

theorem Plain.ne_slash {t : Text} (h : Plain t) : ∀ c ∈ t, decide (c ≠ '/') = true := by
  intro c hc
  refine decide_eq_true ?_
  rintro rfl
  exact absurd (h.2 _ hc) (by decide)

theorem plain_ofNat (n : ℕ) : Plain (ofNat n) := by
  refine ⟨Nat.toDigits_ne_nil, fun c hc => ?_⟩
  have hdigit := Char.isDigit_iff_toNat.1 (Nat.isDigit_of_mem_toDigits (by decide) (by decide) hc)
  have hlow : 48 ≤ c.toNat := hdigit.1
  have hhigh : c.toNat ≤ 57 := hdigit.2
  have hdigits : c.toNat ≤ 58 := by omega
  simp [plainChar, hlow, hdigits]

theorem Word.append {s t : Text} {c : Char} (hs : Word s) (ht : Word t)
    (hc : isWhitespace c = false ∧ c ≠ ';') : Word (s ++ [c] ++ t) := by
  refine ⟨by simp, fun d hd => ?_⟩
  rcases List.mem_append.1 hd with hd | hd
  · rcases List.mem_append.1 hd with hd | hd
    · exact hs.2 d hd
    · rw [List.mem_singleton.1 hd]
      exact hc
  · exact ht.2 d hd

def spaced (ws : List Text) : Text := [' '].intercalate ws

theorem spaced_cons (w w' : Text) (ws : List Text) :
    spaced (w :: w' :: ws) = w ++ ' ' :: spaced (w' :: ws) := by
  simp [spaced, List.intercalate]

theorem spaced_singleton (w : Text) : spaced [w] = w := by simp [spaced, List.intercalate]

theorem words_spaced {ws : List Text} (hws : ∀ w ∈ ws, Word w) : words (spaced ws) = ws := by
  induction ws with
  | nil => rfl
  | cons w ws ih =>
      have hword := hws w List.mem_cons_self
      have hw := words_of_noWhitespace (fun c hc => (hword.2 c hc).1) hword.1
      have hrest := ih fun w' hw' => hws w' (List.mem_cons_of_mem _ hw')
      cases ws with
      | nil => simpa [spaced] using hw
      | cons w' ws =>
          rw [spaced_cons, words_append_space (by decide), hrest, hw]
          rfl

theorem spaced_quiet {ws : List Text} (hws : ∀ w ∈ ws, Word w) :
    ∀ c ∈ spaced ws, c ≠ '\n' ∧ c ≠ ';' := by
  have hquiet : ∀ {w : Text}, Word w → ∀ c ∈ w, c ≠ '\n' ∧ c ≠ ';' := by
    intro w hw c hc
    refine ⟨fun hnewline => ?_, (hw.2 c hc).2⟩
    rw [hnewline] at hc
    exact absurd (hw.2 _ hc).1 (by decide)
  induction ws with
  | nil => simp [spaced]
  | cons w ws ih =>
      have hrest := ih fun w' hw' => hws w' (List.mem_cons_of_mem _ hw')
      cases ws with
      | nil => simpa [spaced] using hquiet (hws w List.mem_cons_self)
      | cons w' ws =>
          rw [spaced_cons]
          intro c hc
          rcases List.mem_append.1 hc with hc | hc
          · exact hquiet (hws w List.mem_cons_self) c hc
          · rcases List.mem_cons.1 hc with rfl | hc
            · decide
            · exact hrest c hc

end Text

namespace Command

def Plain : Command → Prop
  | .addServer backend server addr => Text.Plain backend ∧ Text.Plain server ∧ Text.Plain addr
  | .delServer backend server => Text.Plain backend ∧ Text.Plain server
  | .setWeight backend server _ => Text.Plain backend ∧ Text.Plain server
  | .setState backend server _ => Text.Plain backend ∧ Text.Plain server
  | .setAddr backend server ip port =>
    Text.Plain backend ∧ Text.Plain server ∧ Text.Plain ip ∧ Text.Plain port

instance : (cmd : Command) → Decidable cmd.Plain
  | .addServer _ _ _ => inferInstanceAs (Decidable (_ ∧ _))
  | .delServer _ _ => inferInstanceAs (Decidable (_ ∧ _))
  | .setWeight _ _ _ => inferInstanceAs (Decidable (_ ∧ _))
  | .setState _ _ _ => inferInstanceAs (Decidable (_ ∧ _))
  | .setAddr _ _ _ _ => inferInstanceAs (Decidable (_ ∧ _))

def target (backend server : Text) : Text := backend ++ ['/'] ++ server

def words : Command → List Text
  | .addServer backend server addr => ["add", "server", target backend server, addr]
  | .delServer backend server => ["del", "server", target backend server]
  | .setWeight backend server weight =>
    ["set", "weight", target backend server, Text.ofNat weight.toNat]
  | .setState backend server state =>
    ["set", "server", target backend server, "state", state.toText]
  | .setAddr backend server ip port =>
    ["set", "server", target backend server, "addr", ip, "port", port]

variable {cmd : Command} {backend server : Text}

theorem line_eq_spaced (cmd : Command) : cmd.line = Text.spaced cmd.words := by
  have hadd : ("add server " : Text) = "add" ++ ' ' :: ("server" ++ [' ']) := by decide
  have hdel : ("del server " : Text) = "del" ++ ' ' :: ("server" ++ [' ']) := by decide
  have hweight : ("set weight " : Text) = "set" ++ ' ' :: ("weight" ++ [' ']) := by decide
  have hset : ("set server " : Text) = "set" ++ ' ' :: ("server" ++ [' ']) := by decide
  have hstate : (" state " : Text) = ' ' :: ("state" ++ [' ']) := by decide
  have haddr : (" addr " : Text) = ' ' :: ("addr" ++ [' ']) := by decide
  have hport : (" port " : Text) = ' ' :: ("port" ++ [' ']) := by decide
  have hslash : ("/" : Text) = ['/'] := by decide
  have hblank : (" " : Text) = [' '] := by decide
  cases cmd with
  | addServer | delServer | setWeight | setState | setAddr =>
      unfold line words target
      simp only [Text.spaced_cons, Text.spaced_singleton, hadd, hdel, hweight, hset, hstate, haddr,
        hport, hslash, hblank, List.append_assoc, List.cons_append, List.nil_append]

theorem word_target (hbackend : Text.Plain backend) (hserver : Text.Plain server) :
    Text.Word (target backend server) := hbackend.word.append hserver.word (by decide)

theorem backendOf_target (hbackend : Text.Plain backend) :
    backendOf (target backend server) = backend := by
  rw [backendOf, target, List.append_assoc, List.takeWhile_append_of_pos hbackend.ne_slash]
  simp

theorem serverOf_target (hbackend : Text.Plain backend) :
    serverOf (target backend server) = server := by
  rw [serverOf, target, List.append_assoc, List.dropWhile_append_of_pos hbackend.ne_slash]
  simp

theorem Plain.words (h : cmd.Plain) : ∀ w ∈ cmd.words, Text.Word w := by
  cases cmd with
  | addServer backend server addr =>
      simp only [Command.words, List.forall_mem_cons]
      exact ⟨by decide, by decide, word_target h.1 h.2.1, h.2.2.word, by simp⟩
  | delServer backend server =>
      simp only [Command.words, List.forall_mem_cons]
      exact ⟨by decide, by decide, word_target h.1 h.2, by simp⟩
  | setWeight backend server weight =>
      simp only [Command.words, List.forall_mem_cons]
      exact ⟨by decide, by decide, word_target h.1 h.2, (Text.plain_ofNat _).word, by simp⟩
  | setState backend server state =>
      simp only [Command.words, List.forall_mem_cons]
      refine ⟨by decide, by decide, word_target h.1 h.2, by decide, ?_, by simp⟩
      cases state <;> decide
  | setAddr backend server ip port =>
      simp only [Command.words, List.forall_mem_cons]
      exact ⟨by decide, by decide, word_target h.1 h.2.1, by decide, h.2.2.1.word, by decide,
        h.2.2.2.word, by simp⟩

theorem ofWords_words (h : cmd.Plain) : ofWords cmd.words = some cmd := by
  cases cmd with
  | addServer backend server addr =>
      simp [Command.words, ofWords, backendOf_target h.1, serverOf_target h.1]
  | delServer backend server =>
      simp [Command.words, ofWords, backendOf_target h.1, serverOf_target h.1]
  | setWeight backend server weight =>
      simp [Command.words, ofWords, backendOf_target h.1, serverOf_target h.1, Text.ofNat]
  | setState backend server state =>
      cases state <;>
        simp [Command.words, ofWords, backendOf_target h.1, serverOf_target h.1, stateOf,
          AdminState.toText]
  | setAddr backend server ip port =>
      simp [Command.words, ofWords, backendOf_target h.1, serverOf_target h.1]

/-- A line with plain names is the one command that was meant. -/
theorem read_line (h : cmd.Plain) : read (cmd.line ++ ['\n']) = [some cmd] := by
  have hquiet := Text.spaced_quiet h.words
  rw [← line_eq_spaced] at hquiet
  have hline : (cmd.line ++ ['\n']).takeWhile (· ≠ '\n') = cmd.line := by
    rw [List.takeWhile_append_of_pos fun c hc => decide_eq_true (hquiet c hc).1]
    simp
  have hone : cmd.line.splitOn ';' = [cmd.line] := by
    rw [List.splitOn_eq_splitOnP]
    refine List.splitOnP_eq_singleton fun c hc => ?_
    simpa using (hquiet c hc).2
  rw [read, hline, hone, List.map_singleton, line_eq_spaced, Text.words_spaced h.words,
    ofWords_words h]

end Command

example : Command.read ((Command.setState "svc_blog/primary state maint;set server svc_wiki" "primary"
    .ready).line ++ ['\n']) =
    [some (.setState "svc_blog" "primary" .maint), some (.setState "svc_wiki" "primary" .ready)] := by
  decide +kernel

theorem Haproxy.execute_line (h : Haproxy) {cmd : Command} (hplain : cmd.Plain) :
    h.execute (cmd.line ++ ['\n']) = h.command cmd := by
  rw [execute, Command.read_line hplain]
  rfl

end Plain

end OpenShard
