import GameServer.Network.Datagram
import GameServer.Network.QueueStatistics

/-! Where the commands that `Receive_UDP` enqueues come from. The session is the
one that `m_udp_id_map` has under the id in the datagram; the address of the sender
is handed down to `Receive_UDP` and not compared with anything. -/

namespace GameServer

open Lib BufferUtils

namespace RecvBuff

/-- The length field at the front of the buffer. -/
def sizeField (b : RecvBuff) : UInt16 := word16 (b.bytes.getD 0 0) (b.bytes.getD 1 0)

/-- The session id behind it. -/
def udpId (b : RecvBuff) : UInt16 := word16 (b.bytes.getD 2 0) (b.bytes.getD 3 0)

theorem memory_of_lt (b : RecvBuff) {i : ℕ} (h : i < maxUdpSize) :
    b.memory i = some (b.bytes.getD i 0) := by
  have hlt : i < b.bytes.length := lt_of_lt_of_eq h b.size.symm
  rw [memory, List.getD_eq_getElem?_getD, List.getElem?_eq_getElem hlt]
  rfl

end RecvBuff

/-- The handler hands over a command exactly when the length field lets it go on and
the id is in use; the copy may leave the buffer. -/
theorem handleDatagram_run (udpIdMap : UInt16 → Option Token) (ep : Address) (d : Datagram)
    (b : RecvBuff) :
    (handleDatagram udpIdMap ep d).run b.memory =
      if 3 ≤ b.sizeField then
        match udpIdMap b.udpId with
        | some user => ((ReadProgram.range 5 b.sizeField.toNat).run b.memory).map fun buffer =>
            some (threadCommand user (b.bytes.getD 4 0) buffer .udp)
        | none => some none
      else some none := by
  have h0 := b.memory_of_lt (i := 0) (by decide)
  have h1 := b.memory_of_lt (i := 1) (by decide)
  have h2 := b.memory_of_lt (i := 2) (by decide)
  have h3 := b.memory_of_lt (i := 3) (by decide)
  have h4 := b.memory_of_lt (i := 4) (by decide)
  have hsize : word16 (b.bytes.getD 0 0) (b.bytes.getD 1 0) = b.sizeField := rfl
  have hid : word16 (b.bytes.getD 2 0) (b.bytes.getD 3 0) = b.udpId := rfl
  rw [handleDatagram_eq]
  simp only [ReadProgram.run, h0, h1, hsize, receiveUdp]
  split_ifs with hge
  · simp only [ReadProgram.run, h2, h3, h4, hid, Nat.reduceAdd]
    cases udpIdMap b.udpId with
    | none => rfl
    | some user =>
      rw [ReadProgram.run_bind]
      cases (ReadProgram.range 5 b.sizeField.toNat).run b.memory with
      | none => rfl
      | some buffer => rfl
  · rfl

/-! ### Datagrams on the connections of a server -/

/-- A command that `Receive_UDP` enqueued, with the session it is for and the datagram
it came with. A `udp_connection` is named by the session whose `EnableUdp` made it. -/
structure UdpCommand where
  user : SessionRef
  command : ThreadCommand
  connection : SessionRef
  source : Address

structure UdpReceiver where
  server : AsyncServer
  /-- the address of `TcpEndPoint` -/
  tcpEndPoint : SessionRef → Address
  mRecvBuff : SessionRef → RecvBuff
  /-- read by proofs only -/
  enqueued : List UdpCommand

namespace UdpReceiver

/-- The session under an id of `m_udp_id_map`, by its token. -/
def tokenOf (s : UdpReceiver) (udpId : UInt16) : Option Token :=
  (s.server.mUdpIdMap.lookup udpId).map fun u => (s.server.users u).sessionToken

/-- The receive buffer of a connection when it has taken in `d`. -/
def filled (s : UdpReceiver) (connection : SessionRef) (d : Datagram) : RecvBuff :=
  (s.mRecvBuff connection).receive d

/-- `handle_receive` of a datagram from `source`; `none` when it leaves the buffer. -/
def receive (s : UdpReceiver) (connection : SessionRef) (source : Address) (d : Datagram) :
    Option UdpReceiver :=
  let b := s.filled connection d
  ((handleDatagram s.tokenOf source d).run b.memory).map fun outcome =>
    { s with
      mRecvBuff := Function.update s.mRecvBuff connection b
      enqueued := s.enqueued ++
        match outcome, s.server.mUdpIdMap.lookup b.udpId with
        | some command, some user => [⟨user, command, connection, source⟩]
        | _, _ => [] }

inductive Event where
  /-- a handshake, `Update`, a handler or `Close` takes a step -/
  | server (e : AsyncServer.ConnectEvent)
  /-- a datagram is received and handled -/
  | receive (connection : SessionRef) (source : Address) (d : Datagram)

def Step (s : UdpReceiver) (e : Event) (s' : UdpReceiver) : Prop :=
  match e with
  | .server e => ∃ t, s.server.Step e t ∧ s' = { s with server := t }
  | .receive connection source d =>
    (s.server.users connection).udpConnectionClient.isSome = true ∧
      s.receive connection source d = some s'

/-- Buffers and addresses are arbitrary. -/
structure Init (s : UdpReceiver) : Prop where
  server : s.server.Init
  enqueued : s.enqueued = []

def system : System UdpReceiver Event := ⟨Init, Step⟩

/-- The command came from the address of its session, on the connection of its
session. -/
def FromOwner (s : UdpReceiver) (c : UdpCommand) : Prop :=
  c.source = s.tcpEndPoint c.user ∧ c.connection = c.user

/-- A datagram that is long enough by its length field and has the id of a session
came from the address of that session, on the connection of that session. -/
def Genuine (s : UdpReceiver) (e : Event) : Prop :=
  match e with
  | .server _ => True
  | .receive connection source d =>
    3 ≤ (s.filled connection d).sizeField →
      ∀ u, s.server.mUdpIdMap.lookup (s.filled connection d).udpId = some u →
        source = s.tcpEndPoint u ∧ connection = u

/-! ### One datagram -/

variable {s s' : UdpReceiver}

/-- What one datagram adds to the queues. -/
inductive Enqueues (s : UdpReceiver) (connection : SessionRef) (source : Address) (d : Datagram) :
    List UdpCommand → Prop where
  | nothing (hsize : ¬ 3 ≤ (s.filled connection d).sizeField) :
    Enqueues s connection source d []
  | unknown (hid : s.server.mUdpIdMap.lookup (s.filled connection d).udpId = none) :
    Enqueues s connection source d []
  | command {user : SessionRef} (hsize : 3 ≤ (s.filled connection d).sizeField)
    (hid : s.server.mUdpIdMap.lookup (s.filled connection d).udpId = some user)
    (c : ThreadCommand) (hc : c.user = (s.server.users user).sessionToken) :
    Enqueues s connection source d [⟨user, c, connection, source⟩]

theorem receive_enqueues {connection : SessionRef} {source : Address} {d : Datagram}
    (h : s.receive connection source d = some s') : ∃ added, Enqueues s connection source d added ∧
      s' = { s with
        mRecvBuff := Function.update s.mRecvBuff connection (s.filled connection d)
        enqueued := s.enqueued ++ added } := by
  obtain ⟨outcome, hrun, rfl⟩ := Option.map_eq_some_iff.mp h
  refine ⟨_, ?_, rfl⟩
  rw [handleDatagram_run, tokenOf] at hrun
  split_ifs at hrun with hsize
  · cases hid : s.server.mUdpIdMap.lookup (s.filled connection d).udpId with
    | none =>
      cases outcome with
      | none => exact .unknown hid
      | some c => exact .unknown hid
    | some user =>
      rw [hid] at hrun
      obtain ⟨buffer, -, rfl⟩ := Option.map_eq_some_iff.mp hrun
      exact .command hsize hid _ rfl
  · cases hrun
    exact .nothing hsize

theorem tcpEndPoint_step {e : Event} (h : Step s e s') : s'.tcpEndPoint = s.tcpEndPoint := by
  cases e with
  | server e =>
    obtain ⟨t, -, rfl⟩ := h
    rfl
  | receive connection source d =>
    obtain ⟨added, -, rfl⟩ := receive_enqueues h.2
    rfl

theorem fromOwner_step {e : Event} (h : Step s e s') (c : UdpCommand) :
    s'.FromOwner c ↔ s.FromOwner c := by
  rw [FromOwner, tcpEndPoint_step h]
  rfl

/-- What a datagram adds is from the owner exactly when the datagram is genuine. -/
theorem Enqueues.fromOwner_iff {connection : SessionRef} {source : Address} {d : Datagram}
    {added : List UdpCommand} (h : Enqueues s connection source d added) :
    (∀ c ∈ added, s.FromOwner c) ↔ Genuine s (.receive connection source d) := by
  cases h with
  | nothing hsize =>
    exact ⟨fun _ h => absurd h hsize, fun _ => List.forall_mem_nil _⟩
  | unknown hid =>
    refine ⟨fun _ _ u hu => ?_, fun _ => List.forall_mem_nil _⟩
    rw [hid] at hu
    cases hu
  | @command user hsize hid c hc =>
    rw [List.forall_mem_singleton]
    constructor
    · intro howner _ u hu
      obtain rfl := Option.some.inj (hid.symm.trans hu)
      exact howner
    · intro hgenuine
      exact hgenuine hsize user hid

theorem enqueued_step {e : Event} (h : Step s e s') :
    (∀ c ∈ s'.enqueued, s'.FromOwner c) ↔ (∀ c ∈ s.enqueued, s.FromOwner c) ∧ Genuine s e := by
  simp only [fromOwner_step h]
  cases e with
  | server e =>
    obtain ⟨t, -, rfl⟩ := h
    exact (and_iff_left trivial).symm
  | receive connection source d =>
    obtain ⟨added, hadded, rfl⟩ := receive_enqueues h.2
    dsimp only
    rw [List.forall_mem_append, hadded.fromOwner_iff]

/-! ### A run -/

/-- In a whole run every command that was enqueued came from the address and on the
connection of its session if and only if every datagram is genuine. -/
theorem enqueued_fromOwner_iff (tr : List (UdpReceiver × Event)) (s : UdpReceiver)
    (h : system.Exec tr s) :
    (∀ c ∈ s.enqueued, c.source = s.tcpEndPoint c.user ∧ c.connection = c.user) ↔
      ∀ x ∈ tr, Genuine x.1 x.2 := by
  induction h with
  | nil hi =>
    rw [Init.enqueued hi]
    exact ⟨fun _ => List.forall_mem_nil _, fun _ => List.forall_mem_nil _⟩
  | snoc _ hst ih =>
    rw [forall_trace_snoc, ← ih]
    exact enqueued_step hst

/-! ### One session and one datagram -/

/-- The length field is that of the body, so that the copy stays in the datagram. -/
def commandDatagram : Datagram := ⟨[3, 0, 5, 0, 2, 40, 41, 42], by decide, by decide⟩

def emptyReceiver : UdpReceiver := ⟨AsyncServer.emptyServer, fun _ => 7, fun _ => zeroBuff, []⟩

/-- The session 0 with id 5 is connected from address 7; a datagram with its id comes
from `source` on its connection. -/
theorem command_from (source : Address) : ∃ tr s, system.Exec tr s ∧
    s.enqueued = [⟨0, ⟨2, "A", [40, 41, 42], .udp⟩, 0, source⟩] ∧ s.tcpEndPoint = (fun _ => 7) ∧
    (source = 7 → ∀ x ∈ tr, Genuine x.1 x.2) := by
  have h0 : system.Exec [] emptyReceiver := .nil ⟨AsyncServer.emptyServer_init, rfl⟩
  have h1 := (h0.next (.server (.connect 0 5 51000)) _ ⟨_, rfl, rfl⟩)
  have h2 := (h1.next (.server (.connect 0 5 51000)) _ ⟨_, rfl, rfl⟩)
  have h3 := (h2.next (.server (.connect 0 5 51000)) _ ⟨_, rfl, rfl⟩)
  have h4 := (h3.next (.server (.connect 0 5 51000)) _ ⟨_, rfl, rfl⟩)
  have h5 := (h4.next (.server (.connect 0 5 51000)) _ ⟨_, rfl, rfl⟩)
  have h6 := h5.next (.receive 0 source commandDatagram) _ ⟨rfl, rfl⟩
  refine ⟨_, _, h6, rfl, rfl, ?_⟩
  rintro rfl
  refine (forall_trace_snoc Genuine _ _ _).mpr ⟨?_, fun _ u hu => ?_⟩
  · simp only [forall_trace_snoc Genuine]
    exact ⟨⟨⟨⟨⟨List.forall_mem_nil _, trivial⟩, trivial⟩, trivial⟩, trivial⟩, trivial⟩
  · obtain rfl : 0 = u := Option.some.inj hu
    exact ⟨rfl, rfl⟩

theorem command_from_owner : ∃ tr s, system.Exec tr s ∧ s.enqueued.length = 1 ∧
    ∀ c ∈ s.enqueued, c.source = s.tcpEndPoint c.user ∧ c.connection = c.user := by
  obtain ⟨tr, s, h, henq, -, hgenuine⟩ := command_from 7
  refine ⟨tr, s, h, ?_, (enqueued_fromOwner_iff tr s h).mpr (hgenuine rfl)⟩
  rw [henq]
  rfl

/-- The address 8 sends a command for the session of address 7. -/
theorem command_forged : ∃ tr s, system.Exec tr s ∧
    ¬ ∀ c ∈ s.enqueued, c.source = s.tcpEndPoint c.user ∧ c.connection = c.user := by
  obtain ⟨tr, s, h, henq, htcp, -⟩ := command_from 8
  refine ⟨tr, s, h, fun howner => ?_⟩
  rw [henq, htcp] at howner
  exact absurd (howner _ (List.mem_singleton.mpr rfl)).1 (by decide)

end UdpReceiver

end GameServer
