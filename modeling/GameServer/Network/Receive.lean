import GameServer.Lib.ReadProgram
import GameServer.Network.BufferUtils
import GameServer.Network.Dispatch

/-! The two receive paths. A TCP frame is read into a vector of its own; a UDP
datagram is parsed in place in `m_recv_buff`, with pointer arithmetic, so its
handler is a program that reads that buffer by index. -/

namespace GameServer

open Lib BufferUtils

/-! ### TCP -/

/-- `SocketUser::ProcessReceiveBuffer`; an empty buffer is only logged. -/
def processReceiveBuffer (user : Token) (buffer : List UInt8) (type : Protocal) :
    Option ThreadCommand :=
  match buffer with
  | [] => none
  | command :: _ => some (threadCommand user command (removeFront 1 buffer) type)

/-- How a call of `tcp_connection::handle_read` ends. -/
inductive ReadOutcome where
  /-- error 10054: `Close(false)` on the session -/
  | closed
  /-- any other error of the length read: logged, and reading ends -/
  | stopped
  /-- `RemovePlayer` for the session, and reading ends -/
  | removed
  /-- a frame was handed to `ProcessReceiveBuffer`, and the next length read started -/
  | delivered (command : Option ThreadCommand)
  deriving DecidableEq, Repr

/-- `tcp_connection::handle_read` after the length read ended with `error`. The
blocking body read takes its bytes from `stream` or throws; the result carries
what is left of the stream. -/
def handleRead (user : Token) (error : Option ℕ) (isOpen : Bool) (lengthBuff : UInt8 × UInt8)
    (stream : List UInt8) : ReadOutcome × List UInt8 :=
  match error with
  | some code => if code = 10054 then (.closed, stream) else (.stopped, stream)
  | none =>
    let size := word16 lengthBuff.1 lengthBuff.2
    if size = 0 then (.removed, stream)
    else if !isOpen then (.removed, stream)
    else if stream.length < size.toNat then (.removed, [])
    else
      (.delivered (processReceiveBuffer user (stream.take size.toNat) .tcp),
        stream.drop size.toNat)

/-! ### UDP -/

/-- `MAX_UDP_SIZE`, the size of `m_recv_buff`. -/
def maxUdpSize : ℕ := 65535

/-- `boost::asio::ip::address`. -/
abbrev Address := ℕ

/-- `AsyncServer::Receive_UDP(uint8_t*, uint16_t, address)` on the bytes that start
at index `data` of the receive buffer. `udpIdMap` gives the session token under
an id of `m_udp_id_map`. The command handed to `Process` has `size` bytes. -/
def receiveUdp (udpIdMap : UInt16 → Option Token) (data : ℕ) (size : UInt16)
    (_endpoint : Address) : ReadProgram UInt8 (Option ThreadCommand) :=
  if size ≥ 3 then
    .read data fun lo => .read (data + 1) fun hi => .read (data + 2) fun command =>
      match udpIdMap (word16 lo hi) with
      | some user =>
        (ReadProgram.range (data + 3) size.toNat).bind fun buffer =>
          .done (some (threadCommand user command buffer .udp))
      | none => .done none
  else .done none

/-- `udp_connection::handle_receive`; every exit starts the next receive. The size
comes from the buffer, not from `transfered`. -/
def handleReceive (udpIdMap : UInt16 → Option Token) (error : Option ℕ) (transfered : ℕ)
    (clientEndpoint : Address) : ReadProgram UInt8 (Option ThreadCommand) :=
  match error with
  | some _ => .done none
  | none =>
    if transfered ≤ 0 then .done none
    else .read 0 fun lo => .read 1 fun hi => receiveUdp udpIdMap 2 (word16 lo hi) clientEndpoint

/-- What `async_receive_from` can put in `m_recv_buff`. -/
structure Datagram where
  bytes : List UInt8
  nonempty : bytes ≠ []
  fits : bytes.length ≤ maxUdpSize

/-- `m_recv_buff`, all of it. -/
structure RecvBuff where
  bytes : List UInt8
  size : bytes.length = maxUdpSize

/-- A datagram overwrites the front of the buffer. -/
def RecvBuff.receive (b : RecvBuff) (d : Datagram) : RecvBuff where
  bytes := d.bytes ++ b.bytes.drop d.bytes.length
  size := by
    have := b.size
    have := d.fits
    simp only [List.length_append, List.length_drop]
    omega

/-- The buffer as the memory that the handler's indices refer to. -/
def RecvBuff.memory (b : RecvBuff) (i : ℕ) : Option UInt8 := b.bytes[i]?

/-- The handler of datagram `d`, in the buffer that held `b` before. -/
def handleDatagram (udpIdMap : UInt16 → Option Token) (clientEndpoint : Address) (d : Datagram) :
    ReadProgram UInt8 (Option ThreadCommand) :=
  handleReceive udpIdMap none d.bytes.length clientEndpoint

/-! ### Spec lemmas -/

theorem RecvBuff.receive_memory (b : RecvBuff) (d : Datagram) {i : ℕ} (h : i < d.bytes.length) :
    (b.receive d).memory i = d.bytes[i]? :=
  List.getElem?_append_left h

theorem handleDatagram_eq (udpIdMap : UInt16 → Option Token) (ep : Address) (d : Datagram) :
    handleDatagram udpIdMap ep d =
      .read 0 fun lo => .read 1 fun hi => receiveUdp udpIdMap 2 (word16 lo hi) ep := by
  have h : ¬ d.bytes.length ≤ 0 := by
    have := List.length_pos_iff.mpr d.nonempty
    omega
  rw [handleDatagram, handleReceive, if_neg h]

/-- A complete frame is delivered with its first byte as the command. -/
theorem handleRead_frame (user : Token) (lo hi command : UInt8) (body rest : List UInt8)
    (h : (word16 lo hi).toNat = body.length + 1) :
    handleRead user none true (lo, hi) (command :: body ++ rest) =
      (.delivered (some (threadCommand user command body .tcp)), rest) := by
  have h0 : word16 lo hi ≠ 0 := by
    intro h0
    rw [h0] at h
    simp at h
  have hlen : ¬ (command :: body ++ rest).length < (word16 lo hi).toNat := by
    simp only [List.length_append, List.length_cons]
    omega
  have htake : (command :: body ++ rest).take (word16 lo hi).toNat = command :: body := by
    rw [h, List.take_left' (by simp)]
  have hdrop : (command :: body ++ rest).drop (word16 lo hi).toNat = rest := by
    rw [h, List.drop_left' (by simp)]
  simp only [handleRead, if_neg h0, Bool.not_true, Bool.false_eq_true, if_false, if_neg hlen,
    htake, hdrop, processReceiveBuffer, removeFront_one_cons]

end GameServer
