import Mathlib

/-!
# Byte streams that arrive in chunks

What a connection delivers is a list of chunks and then the end. A read returns some bytes of one
chunk; `readExact` reads until it has what was asked for and fails where the stream ends before. It
does not depend on where the chunks are cut.
-/

namespace OpenShard.ByteStream

variable {α : Type}

/-- `read_exact` into a buffer of `n` bytes, and what is left to read. -/
def readExact : ℕ → List (List α) → Option (List α × List (List α))
  | 0, chunks => some ([], chunks)
  | _ + 1, [] => none
  | n + 1, chunk :: chunks =>
    if n + 1 ≤ chunk.length then some (chunk.take (n + 1), chunk.drop (n + 1) :: chunks)
    else (readExact (n + 1 - chunk.length) chunks).map fun r => (chunk ++ r.1, r.2)

theorem readExact_eq_some {n : ℕ} {chunks rest : List (List α)} {bytes : List α}
    (h : readExact n chunks = some (bytes, rest)) :
    chunks.flatten = bytes ++ rest.flatten ∧ bytes.length = n := by
  induction chunks generalizing n bytes with
  | nil =>
      cases n with
      | zero =>
          obtain ⟨rfl, rfl⟩ := Prod.mk.inj (Option.some.inj h)
          exact ⟨rfl, rfl⟩
      | succ n => simp [readExact] at h
  | cons chunk chunks ih =>
      cases n with
      | zero =>
          obtain ⟨rfl, rfl⟩ := Prod.mk.inj (Option.some.inj h)
          exact ⟨rfl, rfl⟩
      | succ n =>
          rw [readExact] at h
          split_ifs at h with hlength
          · obtain ⟨rfl, rfl⟩ := Prod.mk.inj (Option.some.inj h)
            refine ⟨?_, by rw [List.length_take, Nat.min_eq_left hlength]⟩
            rw [List.flatten_cons, List.flatten_cons, ← List.append_assoc, List.take_append_drop]
          · obtain ⟨⟨bytes', rest'⟩, hread, heq⟩ := Option.map_eq_some_iff.1 h
            obtain ⟨rfl, rfl⟩ := Prod.mk.inj heq
            obtain ⟨hbytes, hcount⟩ := ih hread
            refine ⟨?_, ?_⟩
            · rw [List.flatten_cons, hbytes, List.append_assoc]
            · rw [List.length_append, hcount]
              omega

theorem readExact_eq_none {n : ℕ} {chunks : List (List α)} (h : readExact n chunks = none) :
    chunks.flatten.length < n := by
  induction chunks generalizing n with
  | nil =>
      cases n with
      | zero => simp [readExact] at h
      | succ n => exact Nat.succ_pos n
  | cons chunk chunks ih =>
      cases n with
      | zero => simp [readExact] at h
      | succ n =>
          rw [readExact] at h
          split_ifs at h with hlength
          have hrest := ih (Option.map_eq_none_iff.1 h)
          rw [List.flatten_cons, List.length_append]
          omega

/-- Whatever the chunks, the next bytes are read if there are so many. -/
theorem readExact_of_flatten {n : ℕ} {chunks : List (List α)} {bytes later : List α}
    (hn : bytes.length = n) (h : chunks.flatten = bytes ++ later) :
    ∃ rest, readExact n chunks = some (bytes, rest) ∧ rest.flatten = later := by
  cases hread : readExact n chunks with
  | none =>
      have hshort := readExact_eq_none hread
      rw [h, List.length_append, hn] at hshort
      omega
  | some r =>
      obtain ⟨hflatten, hlength⟩ := readExact_eq_some hread
      rw [h] at hflatten
      obtain ⟨hbytes, hlater⟩ := List.append_inj hflatten (hn.trans hlength.symm)
      exact ⟨r.2, by rw [hbytes], hlater.symm⟩

end OpenShard.ByteStream
