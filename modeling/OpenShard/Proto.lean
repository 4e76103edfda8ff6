import OpenShard.ByteStream
import OpenShard.Table
import OpenShard.Tunnel

/-!
# The control channel

`proto.rs`, of which the server and the client have the same text: a frame is a tag and a stream
identifier in three bytes. The client reads the two ports and then frames until a read or an answer
fails; the server's `control_reader` reads frames until a read fails. Each gets the frames that the
other one wrote, up to the last one that arrived whole.
-/

namespace OpenShard.Tunnel

open ByteStream

def tagPing : UInt8 := 0x01

def tagPong : UInt8 := 0x02

def tagOpen : UInt8 := 0x03

def tagClose : UInt8 := 0x04

def frameLen : ℕ := 3

abbrev Frame := UInt8 × UInt16

/-- `u16::to_be_bytes`. -/
def toBeBytes (n : UInt16) : List UInt8 := [(n >>> 8).toUInt8, n.toUInt8]

/-- `u16::from_be_bytes`. -/
def fromBeBytes (hi lo : UInt8) : UInt16 := UInt16.ofNat (hi.toNat * 256 + lo.toNat)

def encode (f : Frame) : List UInt8 := f.1 :: toBeBytes f.2

def decode (tag hi lo : UInt8) : Frame := (tag, fromBeBytes hi lo)

/-- `read_exact` of one frame, decoded. -/
def readFrame (chunks : List (List UInt8)) : Option (Frame × List (List UInt8)) :=
  match readExact frameLen chunks with
  | some ([tag, hi, lo], rest) => some (decode tag hi lo, rest)
  | _ => none

theorem fromBeBytes_toBeBytes (n : UInt16) : fromBeBytes (n >>> 8).toUInt8 n.toUInt8 = n := by
  refine UInt16.toNat_inj.1 ?_
  have hn := n.toNat_lt
  have height : (8 : UInt16).toNat % 16 = 8 := rfl
  simp only [fromBeBytes, UInt16.toNat_ofNat', UInt16.toNat_toUInt8, UInt16.toNat_shiftRight, height,
    Nat.shiftRight_eq_div_pow]
  omega

theorem decode_encode (f : Frame) : decode f.1 (f.2 >>> 8).toUInt8 f.2.toUInt8 = f := by
  rw [decode, fromBeBytes_toBeBytes]

/-- The server masks where `to_be_bytes` truncates. -/
theorem handshake_eq (publicPort dataPort : UInt16) :
    handshake publicPort dataPort = toBeBytes publicPort ++ toBeBytes dataPort := by
  have hmask : ∀ n : UInt16, (n &&& 0xff).toUInt8 = n.toUInt8 := by
    intro n
    refine UInt8.toNat_inj.1 ?_
    have hmod : n.toNat &&& (0xff : UInt16).toNat = n.toNat % 2 ^ 8 :=
      Nat.and_two_pow_sub_one_eq_mod n.toNat 8
    rw [UInt16.toNat_toUInt8, UInt16.toNat_toUInt8, UInt16.toNat_and, hmod, Nat.mod_mod]
  simp only [handshake, toBeBytes, hmask, List.cons_append, List.nil_append]

theorem readFrame_shorter {chunks rest : List (List UInt8)} {f : Frame}
    (h : readFrame chunks = some (f, rest)) : rest.flatten.length < chunks.flatten.length := by
  rw [readFrame] at h
  split at h
  · rename_i tag hi lo rest' hread
    obtain ⟨hflatten, -⟩ := readExact_eq_some hread
    obtain ⟨-, rfl⟩ := Prod.mk.inj (Option.some.inj h)
    rw [hflatten, List.length_append]
    simp
  · simp at h

theorem readFrame_encode {chunks : List (List UInt8)} {f : Frame} {later : List UInt8}
    (h : chunks.flatten = encode f ++ later) :
    ∃ rest, readFrame chunks = some (f, rest) ∧ rest.flatten = later := by
  obtain ⟨rest, hread, hrest⟩ := @readExact_of_flatten UInt8 frameLen chunks (encode f) later rfl h
  refine ⟨rest, ?_, hrest⟩
  have hbytes : encode f = [f.1, (f.2 >>> 8).toUInt8, f.2.toUInt8] := rfl
  rw [readFrame, hread, hbytes]
  exact congrArg (fun f => some (f, rest)) (decode_encode f)

section Sessions

inductive Reaction
  | pong
  | openStream (streamId : UInt16)
  | closeStream (streamId : UInt16)
  | ignore
  deriving DecidableEq

def reaction (f : Frame) : Reaction :=
  if f.1 = tagPing then .pong
  else if f.1 = tagOpen then .openStream f.2
  else if f.1 = tagClose then .closeStream f.2
  else .ignore

inductive SessionEnd
  | readError
  | writeError
  | fileError
  deriving DecidableEq

/-- The loop of the client's `run_session`: the frames it gets, and how it ends. The answer to the
`k`-th PING can be written if `pong k`. -/
def clientLoop (pong : ℕ → Bool) (k : ℕ) (chunks : List (List UInt8)) : List Frame × SessionEnd :=
  match _hread : readFrame chunks with
  | none => ([], .readError)
  | some (f, rest) =>
    match reaction f with
    | .pong =>
      if pong k then
        let (frames, ending) := clientLoop pong (k + 1) rest
        (f :: frames, ending)
      else ([f], .writeError)
    | _ =>
      let (frames, ending) := clientLoop pong k rest
      (f :: frames, ending)
termination_by chunks.flatten.length
decreasing_by all_goals exact readFrame_shorter _hread

/-- What the client gets from one connection: the ports and what comes after them, where they arrive.
The port file is written in between. -/
def client (written : Bool) (pong : ℕ → Bool) (chunks : List (List UInt8)) :
    Option (UInt16 × UInt16 × List Frame × SessionEnd) :=
  match readExact 4 chunks with
  | some ([b₀, b₁, b₂, b₃], rest) =>
    if written then some (fromBeBytes b₀ b₁, fromBeBytes b₂ b₃, clientLoop pong 0 rest)
    else some (fromBeBytes b₀ b₁, fromBeBytes b₂ b₃, [], .fileError)
  | _ => none

/-- The loop of `control_reader`: the frames it gets, and the visitors that still wait. -/
def controlReader {V : Type} (chunks : List (List UInt8)) (pending : Table UInt16 V) :
    List Frame × Table UInt16 V :=
  match _hread : readFrame chunks with
  | none => ([], pending)
  | some (f, rest) =>
    let (frames, pending) := controlReader rest (if f.1 = tagClose then pending.erase f.2 else pending)
    (f :: frames, pending)
termination_by chunks.flatten.length
decreasing_by exact readFrame_shorter _hread

section Loops

variable {pong : ℕ → Bool} {k : ℕ} {chunks rest : List (List UInt8)} {f : Frame} {V : Type}

theorem clientLoop_none (h : readFrame chunks = none) :
    clientLoop pong k chunks = ([], .readError) := by
  rw [clientLoop]
  split
  · rfl
  · rename_i hread
    rw [h] at hread
    simp at hread

theorem clientLoop_some (h : readFrame chunks = some (f, rest)) :
    clientLoop pong k chunks =
      match reaction f with
      | .pong =>
        if pong k then (f :: (clientLoop pong (k + 1) rest).1, (clientLoop pong (k + 1) rest).2)
        else ([f], .writeError)
      | _ => (f :: (clientLoop pong k rest).1, (clientLoop pong k rest).2) := by
  rw [clientLoop]
  split
  · rename_i hread
    rw [h] at hread
    simp at hread
  · rename_i f' rest' hread
    obtain ⟨rfl, rfl⟩ := Prod.mk.inj (Option.some.inj (h.symm.trans hread))
    cases reaction f with
    | pong => rfl
    | openStream => rfl
    | closeStream => rfl
    | ignore => rfl

theorem controlReader_none {pending : Table UInt16 V} (h : readFrame chunks = none) :
    controlReader chunks pending = ([], pending) := by
  rw [controlReader]
  split
  · rfl
  · rename_i hread
    rw [h] at hread
    simp at hread

theorem controlReader_some {pending : Table UInt16 V} (h : readFrame chunks = some (f, rest)) :
    controlReader chunks pending =
      (f :: (controlReader rest (if f.1 = tagClose then pending.erase f.2 else pending)).1,
        (controlReader rest (if f.1 = tagClose then pending.erase f.2 else pending)).2) := by
  rw [controlReader]
  split
  · rename_i hread
    rw [h] at hread
    simp at hread
  · rename_i f' rest' hread
    obtain ⟨rfl, rfl⟩ := Prod.mk.inj (Option.some.inj (h.symm.trans hread))
    rfl

end Loops

/-- The frames that a client takes note of, and how its session ends, if these arrive. -/
def noted (pong : ℕ → Bool) : ℕ → List Frame → List Frame × SessionEnd
  | _, [] => ([], .readError)
  | k, f :: frames =>
    match reaction f with
    | .pong =>
      if pong k then (f :: (noted pong (k + 1) frames).1, (noted pong (k + 1) frames).2)
      else ([f], .writeError)
    | _ => (f :: (noted pong k frames).1, (noted pong k frames).2)

theorem noted_answered (k : ℕ) (frames : List Frame) :
    noted (fun _ => true) k frames = (frames, .readError) := by
  induction frames generalizing k with
  | nil => rfl
  | cons f frames ih =>
      rw [noted]
      cases reaction f with
      | pong => simp [ih]
      | openStream => simp [ih]
      | closeStream => simp [ih]
      | ignore => simp [ih]

section Received

variable {chunks : List (List UInt8)} {frames : List Frame}

theorem readFrame_of_short (h : chunks.flatten.length < frameLen) : readFrame chunks = none := by
  cases hread : readFrame chunks with
  | none => rfl
  | some r =>
      obtain ⟨f, rest⟩ := r
      rw [readFrame] at hread
      split at hread
      · rename_i hbytes
        obtain ⟨hflatten, hlength⟩ := readExact_eq_some hbytes
        rw [hflatten, List.length_append, hlength] at h
        omega
      · simp at hread

theorem readFrame_first {f : Frame} (h : chunks.flatten <+: (f :: frames).flatMap encode) :
    (readFrame chunks = none ∧ chunks.flatten.length < frameLen) ∨
      ∃ rest, readFrame chunks = some (f, rest) ∧ rest.flatten <+: frames.flatMap encode ∧
        chunks.flatten.length = rest.flatten.length + frameLen := by
  by_cases hshort : chunks.flatten.length < frameLen
  · exact Or.inl ⟨readFrame_of_short hshort, hshort⟩
  · refine Or.inr ?_
    have hlength : (encode f).length = frameLen := rfl
    rw [List.flatMap_cons] at h
    have hfirst : encode f <+: chunks.flatten :=
      List.prefix_of_prefix_length_le (List.prefix_append _ _) h (by omega)
    obtain ⟨later, hlater⟩ := hfirst
    obtain ⟨rest, hread, hrest⟩ := readFrame_encode hlater.symm
    refine ⟨rest, hread, ?_, ?_⟩
    · rw [hrest]
      rw [← hlater] at h
      exact (List.prefix_append_right_inj _).1 h
    · rw [hrest, ← hlater, List.length_append, hlength]
      exact Nat.add_comm _ _

theorem take_arrived {n m : ℕ} (f : Frame) (h : n = m + frameLen) :
    (f :: frames).take (n / frameLen) = f :: frames.take (m / frameLen) := by
  rw [h, frameLen, Nat.add_div_right _ (by decide), List.take_succ_cons]

theorem take_unarrived {n : ℕ} (h : n < frameLen) : frames.take (n / frameLen) = [] := by
  rw [Nat.div_eq_of_lt h, List.take_zero]

/-- The server's reader gets the frames that arrived whole. -/
theorem controlReader_frames {V : Type} (pending : Table UInt16 V)
    (h : chunks.flatten <+: frames.flatMap encode) :
    (controlReader chunks pending).1 = frames.take (chunks.flatten.length / frameLen) := by
  induction frames generalizing chunks pending with
  | nil =>
      have hnil : chunks.flatten = [] := List.prefix_nil.1 h
      have hnone := @readFrame_of_short chunks (by rw [hnil]; decide)
      rw [controlReader_none hnone, List.take_nil]
  | cons f frames ih =>
      rcases readFrame_first h with ⟨hread, hshort⟩ | ⟨rest, hread, hrest, hlength⟩
      · rw [controlReader_none hread, take_unarrived hshort]
      · rw [controlReader_some hread, take_arrived f hlength, ih _ hrest]

/-- The client takes note of the frames that arrived whole. -/
theorem clientLoop_frames (pong : ℕ → Bool) (k : ℕ)
    (h : chunks.flatten <+: frames.flatMap encode) :
    clientLoop pong k chunks = noted pong k (frames.take (chunks.flatten.length / frameLen)) := by
  induction frames generalizing chunks k with
  | nil =>
      have hnil : chunks.flatten = [] := List.prefix_nil.1 h
      have hnone := @readFrame_of_short chunks (by rw [hnil]; decide)
      rw [clientLoop_none hnone, List.take_nil]
      rfl
  | cons f frames ih =>
      rcases readFrame_first h with ⟨hread, hshort⟩ | ⟨rest, hread, hrest, hlength⟩
      · rw [clientLoop_none hread, take_unarrived hshort]
        rfl
      · rw [clientLoop_some hread, take_arrived f hlength, noted, ih k hrest, ih (k + 1) hrest]

/-- However the two byte streams of a control channel are cut, and wherever they are cut off, each
side gets exactly what the other one wrote and what arrived whole. -/
theorem control_channel_lossless {V : Type} (publicPort dataPort : UInt16)
    (sent answered : List Frame) (toClient toServer : List (List UInt8)) (pong : ℕ → Bool)
    (pending : Table UInt16 V)
    (hclient : toClient.flatten <+: handshake publicPort dataPort ++ sent.flatMap encode)
    (hserver : toServer.flatten <+: answered.flatMap encode) :
    client true pong toClient =
        (if toClient.flatten.length < 4 then none
        else some (publicPort, dataPort,
          noted pong 0 (sent.take ((toClient.flatten.length - 4) / frameLen)))) ∧
      client true (fun _ => true) toClient =
        (if toClient.flatten.length < 4 then none
        else some (publicPort, dataPort, sent.take ((toClient.flatten.length - 4) / frameLen),
          .readError)) ∧
      (controlReader toServer pending).1 = answered.take (toServer.flatten.length / frameLen) := by
  have hall : ∀ pong : ℕ → Bool, client true pong toClient =
      (if toClient.flatten.length < 4 then none
      else some (publicPort, dataPort,
        noted pong 0 (sent.take ((toClient.flatten.length - 4) / frameLen)))) := by
    intro pong
    have hlength : (handshake publicPort dataPort).length = 4 := rfl
    split_ifs with hshort
    · cases hread : readExact 4 toClient with
      | none => rw [client, hread]
      | some r =>
          obtain ⟨hflatten, hcount⟩ := readExact_eq_some hread
          rw [hflatten, List.length_append, hcount] at hshort
          omega
    · have hfirst : handshake publicPort dataPort <+: toClient.flatten :=
        List.prefix_of_prefix_length_le (List.prefix_append _ _) hclient (by omega)
      obtain ⟨later, hlater⟩ := hfirst
      obtain ⟨rest, hread, hrest⟩ := readExact_of_flatten hlength hlater.symm
      have hbytes : handshake publicPort dataPort =
          [(publicPort >>> 8).toUInt8, publicPort.toUInt8, (dataPort >>> 8).toUInt8,
            dataPort.toUInt8] := handshake_eq publicPort dataPort
      have hlater' : rest.flatten <+: sent.flatMap encode := by
        rw [← hlater] at hclient
        rw [hrest]
        exact (List.prefix_append_right_inj _).1 hclient
      have hremaining : toClient.flatten.length - 4 = rest.flatten.length := by
        rw [← hlater, List.length_append, hlength, hrest, Nat.add_sub_cancel_left]
      rw [hbytes] at hread
      simp only [client, hread, if_true, fromBeBytes_toBeBytes, hremaining,
        clientLoop_frames pong 0 hlater']
  refine ⟨hall pong, ?_, controlReader_frames pending hserver⟩
  rw [hall, noted_answered]

/-- The client's last frame is cut off, and the server's stream is cut in the middle of a frame. -/
theorem control_channel_cut :
    client true (fun _ => true) [[117, 48, 117], [49, 1, 0], [0, 3, 0]] =
        some (30000, 30001, [(tagPing, 0)], .readError) ∧
      (controlReader [[2], [0, 0, 4, 1], [2]] (∅ : Table UInt16 ℕ)).1 =
        [(tagPong, 0), (tagClose, 258)] := by
  obtain ⟨-, hclient, hserver⟩ := @control_channel_lossless ℕ 30000 30001 [(tagPing, 0), (tagOpen, 0)]
    [(tagPong, 0), (tagClose, 258)] [[117, 48, 117], [49, 1, 0], [0, 3, 0]] [[2], [0, 0, 4, 1], [2]]
    (fun _ => true) ∅ (by decide) (by decide)
  exact ⟨hclient, hserver⟩

end Received

end Sessions

end OpenShard.Tunnel
