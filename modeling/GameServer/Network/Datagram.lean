import GameServer.Network.Receive

/-! What the datagram handler reads. The size that it copies is the header field
of the datagram, less nothing: neither the number of received bytes nor the three
bytes of id and command are taken off. -/

namespace GameServer

open Lib BufferUtils

/-! ### The bytes a handler reads -/

/-- The length field of a datagram. -/
def Datagram.size (d : Datagram) : UInt16 := word16 (d.bytes.getD 0 0) (d.bytes.getD 1 0)

/-- The session id field of a datagram. -/
def Datagram.udpId (d : Datagram) : UInt16 := word16 (d.bytes.getD 2 0) (d.bytes.getD 3 0)

/-- `m_recv_buff` after a history of datagrams. -/
def RecvBuff.after (b : RecvBuff) (history : List Datagram) : RecvBuff :=
  history.foldl RecvBuff.receive b

/-- A receive buffer of zeros. -/
def zeroBuff : RecvBuff := ⟨List.replicate maxUdpSize 0, List.length_replicate⟩

/-- Whatever came before, handling `d` reads bytes of `d` only, stays inside the
buffer, and has the same outcome. -/
def Contained (udpIdMap : UInt16 → Option Token) (d : Datagram) : Prop :=
  ∀ (ep : Address) (b : RecvBuff) (history history' : List Datagram),
    let p := handleDatagram udpIdMap ep d
    (∀ i ∈ p.reads ((b.after history).receive d).memory, i < d.bytes.length ∧ i < maxUdpSize) ∧
    p.run ((b.after history).receive d).memory = p.run ((b.after history').receive d).memory

/-- The headers are there, and the size field is either too small for `Receive_UDP`
to go on, or belongs to an unknown session, or leaves three bytes unused. -/
def WithinDatagram (udpIdMap : UInt16 → Option Token) (d : Datagram) : Prop :=
  2 ≤ d.bytes.length ∧
    (d.size < 3 ∨ (5 ≤ d.bytes.length ∧
      (udpIdMap d.udpId = none ∨ 5 + d.size.toNat ≤ d.bytes.length)))

instance (udpIdMap : UInt16 → Option Token) (d : Datagram) :
    Decidable (WithinDatagram udpIdMap d) := by
  unfold WithinDatagram
  infer_instance

section Reads

variable {udpIdMap : UInt16 → Option Token} {ep : Address} {d : Datagram}
  {m : ℕ → Option UInt8} (hm : ∀ i < d.bytes.length, m i = d.bytes[i]?)

include hm

theorem memory_byte {i : ℕ} (hi : i < d.bytes.length) : m i = some (d.bytes.getD i 0) := by
  rw [hm i hi, List.getD_eq_getElem?_getD, List.getElem?_eq_getElem hi]
  rfl

/-- The copy that `Process` makes reads past the datagram unless the datagram is
longer than its size field says. -/
theorem range_reads_within (size : ℕ) (h5 : 5 ≤ d.bytes.length) (hs : 0 < size) :
    (∀ i ∈ (ReadProgram.range 5 size).reads m, i < d.bytes.length) ↔
      5 + size ≤ d.bytes.length := by
  have hcells : 5 + size ≤ d.bytes.length →
      (ReadProgram.range 5 size).reads m = List.range' 5 size := by
    intro hle
    have hlen : ((d.bytes.drop 5).take size).length = size := by
      rw [List.length_take, List.length_drop]
      omega
    have := ReadProgram.range_of_cells m ((d.bytes.drop 5).take size) 5 fun j hj => by
      rw [hlen] at hj
      rw [hm (5 + j) (by omega), List.getElem_take, List.getElem_drop]
      exact List.getElem?_eq_getElem _
    rw [hlen] at this
    exact this.2
  refine ⟨fun h => ?_, fun hle i hi => ?_⟩
  · have hrun : ((ReadProgram.range 5 size).run m).isSome := by
      rw [ReadProgram.run_isSome]
      intro i hi
      rw [memory_byte hm (h i hi)]
      rfl
    rw [ReadProgram.range_reads 5 size hrun] at h
    have := h (5 + size - 1) (List.mem_range'_1.mpr (by omega))
    omega
  · rw [hcells hle] at hi
    have := List.mem_range'_1.mp hi
    omega

theorem receiveUdp_reads_within (h5 : 5 ≤ d.bytes.length) (hs : 3 ≤ d.size) :
    (∀ i ∈ (receiveUdp udpIdMap 2 d.size ep).reads m, i < d.bytes.length) ↔
      udpIdMap d.udpId = none ∨ 5 + d.size.toNat ≤ d.bytes.length := by
  have h2 := memory_byte hm (i := 2) (by omega)
  have h3 := memory_byte hm (i := 3) (by omega)
  have h4 := memory_byte hm (i := 4) (by omega)
  have hpos : 0 < d.size.toNat := by
    have := UInt16.le_iff_toNat_le.mp hs
    exact lt_of_lt_of_le (by decide) this
  rw [receiveUdp, if_pos hs]
  simp only [ReadProgram.reads, h2, h3, h4]
  cases hid : udpIdMap d.udpId with
  | none =>
    have hid' : udpIdMap (word16 (d.bytes.getD 2 0) (d.bytes.getD 3 0)) = none := hid
    simp only [hid', ReadProgram.reads, List.mem_cons, List.not_mem_nil, or_false, true_or,
      iff_true]
    omega
  | some user =>
    have hid' : udpIdMap (word16 (d.bytes.getD 2 0) (d.bytes.getD 3 0)) = some user := hid
    rw [← range_reads_within hm d.size.toNat h5 hpos]
    simp only [hid', ReadProgram.reads_bind_done, Nat.reduceAdd, List.mem_cons, reduceCtorEq,
      false_or]
    refine ⟨fun h i hi => h i (Or.inr (Or.inr (Or.inr hi))), fun h i hi => ?_⟩
    rcases hi with rfl | rfl | rfl | hi
    · omega
    · omega
    · omega
    · exact h i hi

/-- Of a datagram with two to four bytes, one of the bytes 2, 3 and 4 is not there. -/
theorem receiveUdp_reads_past (h2 : 2 ≤ d.bytes.length) (h5 : ¬ 5 ≤ d.bytes.length)
    (hs : 3 ≤ d.size) :
    ∃ i ∈ (receiveUdp udpIdMap 2 d.size ep).reads m, ¬ i < d.bytes.length := by
  rw [receiveUdp, if_pos hs]
  rcases (by omega : d.bytes.length = 2 ∨ d.bytes.length = 3 ∨ d.bytes.length = 4) with hl | hl | hl
  · refine ⟨2, ?_, by omega⟩
    simp only [ReadProgram.reads]
    split <;> simp
  · have hb2 := memory_byte hm (i := 2) (by omega)
    refine ⟨3, ?_, by omega⟩
    simp only [ReadProgram.reads, hb2]
    split <;> simp
  · have hb2 := memory_byte hm (i := 2) (by omega)
    have hb3 := memory_byte hm (i := 3) (by omega)
    refine ⟨4, ?_, by omega⟩
    simp only [ReadProgram.reads, hb2, hb3]
    split <;> simp

/-- The handler reads bytes of the datagram only, exactly when the datagram is
within its header. -/
theorem handleDatagram_reads_within :
    (∀ i ∈ (handleDatagram udpIdMap ep d).reads m, i < d.bytes.length) ↔
      WithinDatagram udpIdMap d := by
  have hpos : 0 < d.bytes.length := List.length_pos_iff.mpr d.nonempty
  have h0 := memory_byte hm hpos
  rw [handleDatagram_eq, WithinDatagram]
  simp only [ReadProgram.reads, h0]
  by_cases h2 : 2 ≤ d.bytes.length
  · have h1 := memory_byte hm (i := 1) (by omega)
    have hsize : word16 (d.bytes.getD 0 0) (d.bytes.getD 1 0) = d.size := rfl
    simp only [h1, hsize, List.mem_cons, h2, true_and]
    have hhead : (∀ i, i = 0 ∨ i = 1 ∨ i ∈ (receiveUdp udpIdMap 2 d.size ep).reads m →
        i < d.bytes.length) ↔
        ∀ i ∈ (receiveUdp udpIdMap 2 d.size ep).reads m, i < d.bytes.length := by
      refine ⟨fun h i hi => h i (Or.inr (Or.inr hi)), fun h i hi => ?_⟩
      rcases hi with rfl | rfl | hi
      · omega
      · omega
      · exact h i hi
    rw [hhead]
    by_cases hs : 3 ≤ d.size
    · have hs' : ¬ d.size < 3 := UInt16.not_lt.mpr hs
      by_cases h5 : 5 ≤ d.bytes.length
      · rw [receiveUdp_reads_within hm h5 hs]
        simp [hs', h5]
      · obtain ⟨i, hi, hpast⟩ := receiveUdp_reads_past hm h2 h5 hs
        simp only [hs', h5, false_and, or_self, iff_false]
        exact fun hall => hpast (hall i hi)
    · have hs' : d.size < 3 := UInt16.not_le.mp hs
      rw [receiveUdp, if_neg hs]
      simp [ReadProgram.reads, hs']
  · simp only [h2, false_and, iff_false, not_forall]
    refine ⟨1, ?_, by omega⟩
    split <;> simp

end Reads

/-- A handler that stays within its datagram cannot tell two histories apart; one
that does not reads bytes left by an earlier datagram, or leaves the buffer. -/
theorem contained_iff_withinDatagram (udpIdMap : UInt16 → Option Token) (d : Datagram) :
    Contained udpIdMap d ↔ WithinDatagram udpIdMap d := by
  have hmem : ∀ b : RecvBuff, ∀ i < d.bytes.length, (b.receive d).memory i = d.bytes[i]? :=
    fun b i hi => b.receive_memory d hi
  refine ⟨fun h => ?_, fun h ep b history history' => ?_⟩
  · have hb := (h 0 zeroBuff [] []).1
    exact (handleDatagram_reads_within (hmem _)).mp fun i hi => (hb i hi).1
  · have hreads : ∀ i ∈ (handleDatagram udpIdMap ep d).reads ((b.after history).receive d).memory,
        i < d.bytes.length := (handleDatagram_reads_within (hmem _)).mpr h
    refine ⟨fun i hi => ⟨hreads i hi, lt_of_lt_of_le (hreads i hi) d.fits⟩, ?_⟩
    refine (ReadProgram.run_congr _ fun i hi => ?_).1.symm
    rw [hmem _ i (hreads i hi), hmem _ i (hreads i hi)]

/-- A well-formed datagram with one byte of body, for a session that is there. -/
def oneByteBodyDatagram : Datagram := ⟨[4, 0, 1, 0, 9, 42], by decide, by decide⟩

theorem oneByteBodyDatagram_not_contained :
    ¬ Contained (fun id => if id = 1 then some "A" else none) oneByteBodyDatagram := by
  intro h
  have hb := (h 0 zeroBuff [] []).1
  have hw := (handleDatagram_reads_within fun i hi => RecvBuff.receive_memory _ _ hi).mp
    fun i hi => (hb i hi).1
  exact absurd hw (by decide)

/-! ### The two receive paths side by side -/

/-- The datagram `[length][udp id][command][body]`, its length being that of the
part after the length. -/
def bodyDatagram (id : UInt16) (command : UInt8) (body : List UInt8)
    (hfit : body.length + 5 ≤ maxUdpSize) : Datagram where
  bytes := addLength (addUdpId id (command :: body))
  nonempty := by simp [addLength, add, bytes16_eq]
  fits := by
    simp only [addLength, addUdpId, add, List.length_append, bytes16_length, List.length_cons]
    omega

/-- `Data.Buffer` of the command that a datagram leads to. -/
def udpDelivered (udpIdMap : UInt16 → Option Token) (ep : Address) (b : RecvBuff)
    (d : Datagram) : Option (List UInt8) :=
  match (handleDatagram udpIdMap ep d).run (b.receive d).memory with
  | some (some c) => some c.data.buffer
  | _ => none

/-- `Data.Buffer` of the command that the frame `[length][command][body]` leads to. -/
def tcpDelivered (user : Token) (command : UInt8) (body : List UInt8) : Option (List UInt8) :=
  match addLength (command :: body) with
  | lo :: hi :: stream =>
    match (handleRead user none true (lo, hi) stream).1 with
    | .delivered (some c) => some c.data.buffer
    | _ => none
  | _ => none

theorem tcpDelivered_eq (user : Token) (command : UInt8) (body : List UInt8)
    (h : body.length + 1 ≤ 65535) : tcpDelivered user command body = some body := by
  have hw : (word16 (UInt8.ofNat (UInt16.ofNat (body.length + 1)).toNat)
      (UInt8.ofNat ((UInt16.ofNat (body.length + 1)).toNat / 256))).toNat = body.length + 1 := by
    rw [word16_bytes16, UInt16.toNat_ofNat']
    omega
  have hframe := handleRead_frame user _ _ command body [] hw
  rw [List.append_nil] at hframe
  simp only [tcpDelivered, addLength, add, bytes16_eq, List.length_cons, List.cons_append,
    List.nil_append, hframe, threadCommand, ThreadCommand.data]

theorem bodyDatagram_bytes (id : UInt16) (command : UInt8) (body : List UInt8)
    (hfit : body.length + 5 ≤ maxUdpSize) :
    (bodyDatagram id command body hfit).bytes =
      bytes16 (UInt16.ofNat (body.length + 3)) ++ bytes16 id ++ command :: body := by
  have hlen : (addUdpId id (command :: body)).length = body.length + 3 := by
    simp [addUdpId, add]
    omega
  simp only [bodyDatagram, addLength, hlen]
  simp [addUdpId, add]

theorem bodyDatagram_length (id : UInt16) (command : UInt8) (body : List UInt8)
    (hfit : body.length + 5 ≤ maxUdpSize) :
    (bodyDatagram id command body hfit).bytes.length = body.length + 5 := by
  simp [bodyDatagram_bytes]
  omega

/-- The five header bytes are read, then the copy runs three bytes too far. -/
theorem bodyDatagram_run (udpIdMap : UInt16 → Option Token) (ep : Address) (b : RecvBuff)
    (user : Token) (id : UInt16) (command : UInt8) (body : List UInt8)
    (hfit : body.length + 5 ≤ maxUdpSize) (hlive : udpIdMap id = some user) :
    (handleDatagram udpIdMap ep (bodyDatagram id command body hfit)).run
        (b.receive (bodyDatagram id command body hfit)).memory =
      ((ReadProgram.range 5 (body.length + 3)).run
        (b.receive (bodyDatagram id command body hfit)).memory).bind fun buffer =>
          some (some (threadCommand user command buffer .udp)) := by
  have hmax : maxUdpSize = 65535 := rfl
  have hlen := bodyDatagram_length id command body hfit
  have hm := fun i hi => b.receive_memory (bodyDatagram id command body hfit) (i := i) hi
  have hn : (UInt16.ofNat (body.length + 3)).toNat = body.length + 3 := by
    rw [UInt16.toNat_ofNat']
    omega
  have hge : 3 ≤ UInt16.ofNat (body.length + 3) := by
    rw [UInt16.le_iff_toNat_le, hn]
    exact Nat.le_add_left 3 _
  have h0 := hm 0 (by omega)
  have h1 := hm 1 (by omega)
  have h2 := hm 2 (by omega)
  have h3 := hm 3 (by omega)
  have h4 := hm 4 (by omega)
  simp only [bodyDatagram_bytes, bytes16_eq, List.cons_append, List.nil_append,
    List.getElem?_cons_zero, List.getElem?_cons_succ] at h0 h1 h2 h3 h4
  rw [← hn]
  generalize UInt16.ofNat (body.length + 3) = size at h0 h1 hge ⊢
  simp only [handleDatagram_eq, ReadProgram.run, h0, h1, word16_bytes16, receiveUdp, if_pos hge,
    h2, h3, h4, hlive, ReadProgram.run_bind, Nat.reduceAdd]

/-- What the copy finds behind the header. -/
theorem bodyDatagram_slice (b : RecvBuff) (id : UInt16) (command : UInt8) (body : List UInt8)
    (hfit : body.length + 5 ≤ maxUdpSize) :
    ((b.receive (bodyDatagram id command body hfit)).bytes.drop 5).take (body.length + 3) =
      body ++ ((b.receive (bodyDatagram id command body hfit)).bytes.drop
        (body.length + 5)).take 3 := by
  have hlen := bodyDatagram_length id command body hfit
  have hdrop : (bodyDatagram id command body hfit).bytes.drop 5 = body := by
    simp [bodyDatagram_bytes, bytes16_eq]
  have happ : (b.receive (bodyDatagram id command body hfit)).bytes.drop 5 =
      body ++ (b.receive (bodyDatagram id command body hfit)).bytes.drop (body.length + 5) := by
    rw [← hlen]
    simp only [RecvBuff.receive, List.drop_left]
    rw [List.drop_append_of_le_length (by omega), hdrop]
  rw [happ, List.take_append, List.take_of_length_le (by omega)]
  congr 2
  omega

/-- The datagram path delivers the body and the three bytes that follow it in the
receive buffer; where these are not inside, the copy leaves the buffer. -/
theorem udpDelivered_eq (udpIdMap : UInt16 → Option Token) (ep : Address) (b : RecvBuff)
    (user : Token) (id : UInt16) (command : UInt8) (body : List UInt8)
    (hfit : body.length + 5 ≤ maxUdpSize) (hlive : udpIdMap id = some user) :
    udpDelivered udpIdMap ep b (bodyDatagram id command body hfit) =
      if body.length + 8 ≤ maxUdpSize then
        some (body ++ ((b.receive (bodyDatagram id command body hfit)).bytes.drop
          (body.length + 5)).take 3)
      else none := by
  have hbsize := (b.receive (bodyDatagram id command body hfit)).size
  rw [udpDelivered, bodyDatagram_run udpIdMap ep b user id command body hfit hlive]
  split_ifs with h8
  · have hr : (ReadProgram.range 5 (body.length + 3)).run
        (b.receive (bodyDatagram id command body hfit)).memory = some _ :=
      ReadProgram.range_run_list _ 5 (body.length + 3) (by omega)
    rw [hr, bodyDatagram_slice]
    rfl
  · have hr : (ReadProgram.range 5 (body.length + 3)).run
        (b.receive (bodyDatagram id command body hfit)).memory = none :=
      ReadProgram.range_run_list_none _ 5 (body.length + 3) (by omega) (by omega)
    rw [hr]
    rfl

/-- For every session, command and body the TCP path delivers the body, and the
UDP path delivers something else, whatever the receive buffer held. -/
theorem udpDelivered_ne_tcpDelivered (udpIdMap : UInt16 → Option Token) (ep : Address)
    (b : RecvBuff) (user : Token) (id : UInt16) (command : UInt8) (body : List UInt8)
    (hfit : body.length + 5 ≤ maxUdpSize) (hlive : udpIdMap id = some user) :
    tcpDelivered user command body = some body ∧
      udpDelivered udpIdMap ep b (bodyDatagram id command body hfit) ≠
        tcpDelivered user command body := by
  have hmax : maxUdpSize = 65535 := rfl
  have htcp := tcpDelivered_eq user command body (by omega)
  refine ⟨htcp, ?_⟩
  rw [htcp, udpDelivered_eq udpIdMap ep b user id command body hfit hlive]
  split_ifs with h8
  · intro h
    have hlen := congrArg List.length (Option.some.inj h)
    have hbsize := (b.receive (bodyDatagram id command body hfit)).size
    simp only [List.length_append, List.length_take, List.length_drop] at hlen
    omega
  · simp

theorem udpDelivered_ne_tcpDelivered_one :
    tcpDelivered "A" 9 [42] = some [42] ∧
      udpDelivered (fun _ => some "A") 0 zeroBuff (bodyDatagram 1 9 [42] (by decide)) ≠
        tcpDelivered "A" 9 [42] :=
  udpDelivered_ne_tcpDelivered (fun _ => some "A") 0 zeroBuff "A" 1 9 [42] (by decide) rfl

/-- One byte of body comes out of the UDP path with three bytes of an earlier
datagram behind it. -/
theorem one_byte_body_delivered :
    udpDelivered (fun _ => some "A") 0 zeroBuff (bodyDatagram 1 9 [42] (by decide)) =
        some [42, 0, 0, 0] ∧ tcpDelivered "A" 9 [42] = some [42] := by
  refine ⟨?_, rfl⟩
  rw [udpDelivered_eq _ _ _ "A" _ _ _ _ rfl]
  rfl

end GameServer
