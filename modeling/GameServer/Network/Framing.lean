import GameServer.Lib.Stream
import GameServer.Network.Receive

/-! The byte stream of a TCP connection: `AddLength` on the sending side against the
read loop of `tcp_connection` on the receiving side. The socket stays open, and a
read gets all the bytes it asks for or fails. -/

namespace GameServer

open Lib BufferUtils

/-- What fits one frame. -/
structure Payload where
  bytes : List UInt8
  nonempty : 1 ≤ bytes.length
  fits : bytes.length ≤ 65535

def Payload.frame (p : Payload) : List UInt8 := addLength p.bytes

/-- The bytes that `ProcessReceiveBuffer` made a command of. -/
def ThreadCommand.received (c : ThreadCommand) : List UInt8 := addFirst c.command c.buffer

/-- One turn of the read loop: the length read and `handle_read`. The result is what
went to `ProcessReceiveBuffer`, with the rest of the stream; `none` when reading ends. -/
def readFrame (user : Token) : List UInt8 → Option (List UInt8 × List UInt8)
  | lo :: hi :: stream =>
    match handleRead user none true (lo, hi) stream with
    | (.delivered (some command), rest) => some (command.received, rest)
    | _ => none
  | _ => none

/-! ### One frame -/

/-- A frame that is delivered is its length, and that many bytes of which the first is
the command. -/
theorem handleRead_delivered {user : Token} {lo hi : UInt8} {stream rest : List UInt8}
    {command : Option ThreadCommand}
    (h : handleRead user none true (lo, hi) stream = (.delivered command, rest)) :
    ∃ c body, command = some (threadCommand user c body .tcp) ∧ stream = c :: body ++ rest ∧
      (word16 lo hi).toNat = body.length + 1 := by
  simp only [handleRead, Bool.not_true, Bool.false_eq_true, if_false] at h
  split_ifs at h with hzero hshort
  · cases h
  · cases h
  obtain ⟨hcommand, hrest⟩ := Prod.mk.inj h
  have hpos : (word16 lo hi).toNat ≠ 0 := fun h0 => hzero (UInt16.toNat_inj.mp h0)
  have hlen : (stream.take (word16 lo hi).toNat).length = (word16 lo hi).toNat := by
    rw [List.length_take]
    omega
  have hsplit := List.take_append_drop (word16 lo hi).toNat stream
  cases htake : stream.take (word16 lo hi).toNat with
  | nil =>
    rw [htake] at hlen
    exact absurd hlen.symm hpos
  | cons c body =>
    rw [htake] at hcommand hlen hsplit
    rw [hrest] at hsplit
    cases hcommand
    refine ⟨c, body, ?_, hsplit.symm, hlen.symm⟩
    rw [processReceiveBuffer, removeFront_one_cons]

theorem addLength_eq {lo hi : UInt8} {bytes : List UInt8}
    (h : bytes.length = (word16 lo hi).toNat) : addLength bytes = lo :: hi :: bytes := by
  rw [addLength, add, h, UInt16.ofNat_toNat, bytes16_word16]
  rfl

theorem readFrame_frame (user : Token) (p : Payload) (rest : List UInt8) :
    readFrame user (p.frame ++ rest) = some (p.bytes, rest) := by
  obtain ⟨bytes, hpos, hfits⟩ := p
  cases bytes with
  | nil => cases hpos
  | cons command body =>
    have hlen : (UInt16.ofNat (command :: body).length).toNat = body.length + 1 := by
      rw [UInt16.toNat_ofNat', List.length_cons] at *
      omega
    have hread := handleRead_frame user _ _ command body rest ((congrArg UInt16.toNat
      (word16_bytes16 (UInt16.ofNat (command :: body).length))).trans hlen)
    simp only [Payload.frame, addLength, add, bytes16_eq, List.cons_append, List.nil_append,
      readFrame]
    rw [List.cons_append] at hread
    rw [hread]
    rfl

/-- What is read is a frame at the front of the stream. -/
theorem readFrame_some {user : Token} {stream bytes rest : List UInt8}
    (h : readFrame user stream = some (bytes, rest)) :
    ∃ p : Payload, p.bytes = bytes ∧ stream = p.frame ++ rest := by
  unfold readFrame at h
  split at h
  · next lo hi stream =>
    split at h
    · next command rest' hread =>
      cases h
      obtain ⟨c, body, hcommand, hstream, hlen⟩ := handleRead_delivered hread
      cases hcommand
      have hlt := (word16 lo hi).toNat_lt
      refine ⟨⟨c :: body, Nat.le_add_left 1 _, ?_⟩, rfl, ?_⟩
      · rw [List.length_cons]
        omega
      · have hsize : (c :: body).length = (word16 lo hi).toNat := hlen.symm
        rw [Payload.frame, addLength_eq hsize, hstream]
        rfl
    · cases h
  · cases h

/-! ### What is left of a stream -/

/-- A frame of which the last bytes are missing. -/
def IncompleteFrame (l : List UInt8) : Prop :=
  ∃ p : Payload, ∃ missing, l ≠ [] ∧ missing ≠ [] ∧ l ++ missing = p.frame

/-- Bytes behind a length that they do not reach. -/
theorem incompleteFrame_of_short {lo hi : UInt8} {l rest : List UInt8}
    (hshort : rest.length < (word16 lo hi).toNat) (hl : l ≠ []) (hrest : l <+: lo :: hi :: rest) :
    IncompleteFrame l := by
  obtain ⟨more, hmore⟩ := hrest
  have hlt := (word16 lo hi).toNat_lt
  have hlen : (rest ++ List.replicate ((word16 lo hi).toNat - rest.length) 0).length =
      (word16 lo hi).toNat := by
    rw [List.length_append, List.length_replicate]
    omega
  refine ⟨⟨rest ++ List.replicate ((word16 lo hi).toNat - rest.length) 0, ?_, ?_⟩,
    more ++ List.replicate ((word16 lo hi).toNat - rest.length) 0, hl, ?_, ?_⟩
  · rw [hlen]
    omega
  · rw [hlen]
    omega
  · have hne : (word16 lo hi).toNat - rest.length ≠ 0 := by omega
    simp [hne]
  · rw [Payload.frame, addLength_eq hlen, ← List.append_assoc, hmore]
    rfl

/-- Where no frame can be read, the stream is at its end, inside a frame, or at a zero
length. -/
theorem readFrame_none {user : Token} {stream : List UInt8} (h : readFrame user stream = none) :
    stream = [] ∨ IncompleteFrame stream ∨ [0, 0] <+: stream := by
  rcases stream with _ | ⟨lo, _ | ⟨hi, rest⟩⟩
  · exact Or.inl rfl
  · have hshort : ([] : List UInt8).length < (word16 lo 1).toNat := by
      rw [word16_toNat]
      simp [ofLe]
    exact Or.inr (Or.inl (incompleteFrame_of_short hshort (by simp) ⟨[1], rfl⟩))
  · by_cases hzero : word16 lo hi = 0
    · have hbytes : [0, 0] = [lo, hi] := by
        rw [← bytes16_word16 lo hi, hzero]
        rfl
      refine Or.inr (Or.inr ⟨rest, ?_⟩)
      rw [hbytes]
      rfl
    · by_cases hshort : rest.length < (word16 lo hi).toNat
      · exact Or.inr (Or.inl (incompleteFrame_of_short hshort (by simp) (List.prefix_refl _)))
      · simp only [readFrame, handleRead, if_neg hzero, Bool.not_true, Bool.false_eq_true,
          if_false, if_neg hshort] at h
        have hpos : (word16 lo hi).toNat ≠ 0 := fun h0 => hzero (UInt16.toNat_inj.mp h0)
        cases htake : rest.take (word16 lo hi).toNat with
        | nil =>
          have hlen := congrArg List.length htake
          rw [List.length_take, List.length_nil] at hlen
          omega
        | cons c body =>
          rw [htake] at h
          cases h

/-! ### The read loop -/

def frameReader (user : Token) : Reader UInt8 (List UInt8) where
  read := readFrame user
  shorter := by
    intro l bytes rest h
    obtain ⟨p, -, rfl⟩ := readFrame_some h
    simp only [Payload.frame, addLength, add, List.length_append, bytes16_length]
    omega

/-- The read loop: what it hands to `ProcessReceiveBuffer`, and what is left of the
stream when it ends. -/
def readLoop (user : Token) (stream : List UInt8) : List (List UInt8) × List UInt8 :=
  (frameReader user).readAll stream

/-- Frames come out of the read loop as they were put in, and whatever stream it gets,
it takes frames off its front until nothing, an incomplete frame or a zero length is left. -/
theorem readLoop_lossless (user : Token) :
    (∀ payloads : List Payload, readLoop user (payloads.flatMap fun p => addLength p.bytes) =
      (payloads.map fun p => p.bytes, [])) ∧
    ∀ stream : List UInt8, ∃ rest, (readLoop user stream).2 = rest ∧
      (readLoop user stream).1.flatMap addLength ++ rest = stream ∧
      (rest = [] ∨ IncompleteFrame rest ∨ [0, 0] <+: rest) := by
  constructor
  · intro payloads
    have hend : (frameReader user).readAll [] = ([], []) := Reader.readAll_of_none rfl
    have hread : ∀ bytes ∈ payloads.map (fun p => p.bytes), ∀ rest,
        (frameReader user).read (addLength bytes ++ rest) = some (bytes, rest) := by
      intro bytes hbytes rest
      obtain ⟨p, -, rfl⟩ := List.mem_map.mp hbytes
      exact readFrame_frame user p rest
    have hall := Reader.readAll_flatMap addLength _ hread []
    rw [hend, List.append_nil, List.append_nil, List.flatMap_map] at hall
    exact hall
  · intro stream
    obtain ⟨hfront, hnone⟩ := Reader.flatMap_readAll (r := frameReader user) addLength
      (fun l bytes rest h => by
        obtain ⟨p, rfl, hl⟩ := readFrame_some h
        exact hl) stream
    exact ⟨_, rfl, hfront, readFrame_none hnone⟩

end GameServer
