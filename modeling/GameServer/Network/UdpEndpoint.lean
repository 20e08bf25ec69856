import GameServer.Network.SenderSafety
import GameServer.Network.UdpServer

/-! Where a `udp_connection` sends its frames. `m_client_endpoint` is what
`start_send` sends to and what `start_receive` gives to `async_receive_from`;
`m_address` is stored and never read. -/

namespace GameServer

open Lib

/-- A `udp_connection` with its send path. -/
structure UdpLink where
  connection : UdpConnection
  sender : Sender
  /-- every frame handed to `async_send_to` so far, with its destination; read by proofs
  only -/
  sent : List (Endpoint × List UInt8)

namespace UdpLink

inductive Event where
  /-- a datagram from `source` is received -/
  | receive (source : Endpoint)
  /-- `Send` is called -/
  | send (remoteEndpoint : Endpoint) (sending : List UInt8)
  | call
  | thread
  | complete
  | stop
  deriving DecidableEq, Repr

/-- `async_send_to`, when `start_send` is at it. -/
def asyncSendTo (s : UdpLink) : List (Endpoint × List UInt8) :=
  match s.sender.thread with
  | .write msg => [(s.connection.mClientEndpoint, s.sender.bufferBytes msg.length)]
  | _ => []

def Step (s : UdpLink) (e : Event) (s' : UdpLink) : Prop :=
  match e with
  | .receive source =>
    s' = { s with connection := { s.connection with mClientEndpoint := source } }
  -- `msg.remote_endpoint = remote_endpoint` is commented out
  | .send _ sending => ∃ t, s.sender.Step (.send sending) t ∧ s' = { s with sender := t }
  | .call => ∃ t, s.sender.Step .call t ∧ s' = { s with sender := t }
  | .thread => ∃ t, s.sender.Step .thread t ∧
      s' = { s with sender := t, sent := s.sent ++ s.asyncSendTo }
  | .complete => ∃ t, s.sender.Step .complete t ∧ s' = { s with sender := t }
  | .stop => ∃ t, s.sender.Step .stop t ∧ s' = { s with sender := t }

/-- A connection as it is made for the address `a`. -/
structure Init (a : Address) (s : UdpLink) : Prop where
  connection : ∃ port, s.connection = .new a port
  sender : s.sender.Init
  type : s.sender.type = .udp
  sent : s.sent = []

def system (a : Address) : System UdpLink Event := ⟨Init a, Step⟩

/-! ### The last sender of a datagram -/

variable {s s' : UdpLink}

def source : UdpLink × Event → Option Endpoint
  | (_, .receive source) => some source
  | _ => none

/-- Where the last datagram of a run came from. -/
def lastSource (tr : List (UdpLink × Event)) : Option Endpoint := (tr.filterMap source).getLast?

theorem lastSource_receive (tr : List (UdpLink × Event)) (s : UdpLink) (src : Endpoint) :
    lastSource (tr ++ [(s, .receive src)]) = some src := by
  unfold lastSource
  rw [List.filterMap_append]
  exact List.getLast?_concat

theorem lastSource_other (tr : List (UdpLink × Event)) {x : UdpLink × Event}
    (h : source x = none) : lastSource (tr ++ [x]) = lastSource tr := by
  unfold lastSource
  rw [List.filterMap_append, List.filterMap_cons_none h, List.filterMap_nil, List.append_nil]

/-- The endpoint is the one the connection was made with, until a datagram comes. -/
def Follows (a : Address) (tr : List (UdpLink × Event)) (s : UdpLink) : Prop :=
  s.connection.mClientEndpoint.address = ((lastSource tr).map Endpoint.address).getD a

theorem follows_step {a : Address} {tr : List (UdpLink × Event)} {e : Event}
    (hs : Follows a tr s) (h : Step s e s') : Follows a (tr ++ [(s, e)]) s' := by
  unfold Follows at *
  cases e with
  | receive src =>
    cases h
    rw [lastSource_receive]
    rfl
  | send _ _ | call | thread | complete | stop =>
    obtain ⟨t, -, rfl⟩ := h
    rw [lastSource_other tr (by rfl)]
    exact hs

theorem exec_follows {a : Address} {tr : List (UdpLink × Event)} (h : (system a).Exec tr s) :
    Follows a tr s := by
  refine h.trace_inv (Follows a) (fun s hi => ?_) fun _ _ _ _ _ => follows_step
  obtain ⟨port, hport⟩ := hi.connection
  rw [Follows, hport]
  rfl

/-! ### Frames that reach the client -/

/-- The step hands a frame to `async_send_to`. -/
def HandsOver : UdpLink × Event → Prop
  | (s, .thread) => ∃ msg, s.sender.thread = .write msg
  | _ => False

/-- When the step hands a frame over, the last datagram received before it came from
the address `a`, or there was none. -/
def FromClient (a : Address) (past : List (UdpLink × Event)) (x : UdpLink × Event) : Prop :=
  HandsOver x → ∀ src, lastSource past = some src → src.address = a

theorem Follows.address_iff {a : Address} {tr : List (UdpLink × Event)} (hs : Follows a tr s) :
    s.connection.mClientEndpoint.address = a ↔
      ∀ src, lastSource tr = some src → src.address = a := by
  rw [hs]
  cases lastSource tr with
  | none => exact ⟨fun _ => nofun, fun _ => rfl⟩
  | some src => exact ⟨fun h _ hsrc => by rw [← Option.some.inj hsrc]; exact h, fun h => h src rfl⟩

/-- One step adds a frame for another address exactly when it is not `FromClient`. -/
theorem sent_step_iff {a : Address} {tr : List (UdpLink × Event)} {e : Event}
    (hs : Follows a tr s) (h : Step s e s') :
    (∀ f ∈ s'.sent, f.1.address = a) ↔
      (∀ f ∈ s.sent, f.1.address = a) ∧ FromClient a tr (s, e) := by
  cases e with
  | receive src =>
    cases h
    exact ⟨fun hsent => ⟨hsent, nofun⟩, fun hsent => hsent.1⟩
  | send _ _ | call | complete | stop =>
    obtain ⟨t, -, rfl⟩ := h
    exact ⟨fun hsent => ⟨hsent, nofun⟩, fun hsent => hsent.1⟩
  | thread =>
    obtain ⟨t, -, rfl⟩ := h
    dsimp only
    rw [List.forall_mem_append]
    refine and_congr_right fun _ => ?_
    rw [FromClient, ← hs.address_iff]
    constructor
    · rintro hframe ⟨msg, hmsg⟩
      refine hframe (s.connection.mClientEndpoint, s.sender.bufferBytes msg.length) ?_
      rw [asyncSendTo, hmsg]
      exact List.mem_singleton.mpr rfl
    · intro hclient f hf
      unfold asyncSendTo at hf
      split at hf
      · next msg hmsg =>
        rw [List.mem_singleton.mp hf]
        exact hclient ⟨msg, hmsg⟩
      · cases hf

/-- In a whole run every frame goes to the address the connection was made for if and
only if, whenever a frame is handed over, the last datagram received before it came
from that address. -/
theorem sent_to_client_iff (a : Address) (tr : List (UdpLink × Event)) (s : UdpLink)
    (h : (system a).Exec tr s) :
    (∀ f ∈ s.sent, f.1.address = a) ↔ AtEach (FromClient a) tr := by
  induction h with
  | nil hi =>
    rw [hi.sent]
    exact ⟨fun _ => atEach_nil _, fun _ => List.forall_mem_nil _⟩
  | snoc hr hst ih =>
    rw [sent_step_iff (exec_follows hr) hst, atEach_snoc, ih]

/-- So it does while nobody but the client sends datagrams. -/
theorem atEach_fromClient {a : Address} {tr : List (UdpLink × Event)}
    (h : ∀ src ∈ tr.filterMap source, src.address = a) : AtEach (FromClient a) tr := by
  rintro past x future rfl - src hsrc
  refine h src ?_
  rw [List.filterMap_append]
  exact List.mem_append_left _ (List.mem_of_getLast? hsrc)

/-! ### One frame after one datagram -/

def freshLink : UdpLink := ⟨.new 7 51003, { Sender.freshSender with type := .udp }, []⟩

theorem freshLink_exec : (system 7).Exec [] freshLink :=
  .nil ⟨⟨51003, rfl⟩, .mk rfl rfl rfl rfl rfl rfl rfl rfl rfl rfl rfl rfl rfl, rfl, rfl⟩

theorem next_call {a : Address} {tr : List (UdpLink × Event)} {connection : UdpConnection}
    {sender t : Sender} {pc : CallPc} {pc' : Option CallPc}
    {sent : List (Endpoint × List UInt8)} (h : (system a).Exec tr ⟨connection, sender, sent⟩)
    (hcalls : sender.calls = [pc]) (hcall : sender.callStep 1 pc = some (t, pc')) :
    (system a).Exec (tr ++ [(⟨connection, sender, sent⟩, .call)])
      ⟨connection, { t with calls := pc'.toList }, sent⟩ :=
  h.next .call _ ⟨_, Sender.step_onlyCall hcalls hcall, rfl⟩

theorem next_thread {a : Address} {tr : List (UdpLink × Event)} {connection : UdpConnection}
    {sender t : Sender} {sent : List (Endpoint × List UInt8)}
    (h : (system a).Exec tr ⟨connection, sender, sent⟩) (ht : sender.threadStep = some t) :
    (system a).Exec (tr ++ [(⟨connection, sender, sent⟩, .thread)])
      ⟨connection, t, sent ++ asyncSendTo ⟨connection, sender, sent⟩⟩ :=
  h.next .thread _ ⟨t, ht, rfl⟩

/-- A connection on which `Send` of the payload `[9]` has returned. -/
def queuedSender : Sender :=
  { Sender.freshSender with
    type := .udp
    mSendMessages := [[1, 0, 9]]
    mSendQueueLen := 1
    mNumTrySends := 1
    mSendsSemaphore2 := 1
    pushed := [[1, 0, 9]] }

/-- The same connection when the frame is in the send buffer. -/
def copiedSender : Sender :=
  { queuedSender with
    mSendMessages := []
    mSendQueueLen := 0
    mSendsSemaphore2 := 0
    mSendBuffer := fun i => if i < [1, 0, 9].length then [1, 0, 9].getD i 0 else 0
    thread := .write [1, 0, 9] }

/-- The connection once a datagram from `src` was received. -/
def strayed (src : Endpoint) : UdpConnection :=
  { UdpConnection.new 7 51003 with mClientEndpoint := src }

theorem queuedSender_exec (src : Endpoint) : ∃ tr,
    (system 7).Exec tr ⟨strayed src, queuedSender, []⟩ ∧ tr.filterMap source = [src] := by
  have h1 := freshLink_exec.next (.receive src) ⟨strayed src, _, _⟩ rfl
  have h2 := h1.next (.send ⟨7, 51004⟩ [9]) ⟨_, _, _⟩ ⟨_, rfl, rfl⟩
  have h3 := next_call (next_call (next_call h2 rfl rfl) rfl rfl) rfl rfl
  exact ⟨_, next_call (next_call (next_call h3 rfl rfl) rfl rfl) rfl rfl, rfl⟩

/-- A datagram from `src` is received, then the payload `[9]` is sent. -/
theorem frame_after (src : Endpoint) : ∃ tr s, (system 7).Exec tr s ∧
    tr.filterMap source = [src] ∧ s.sent = [(src, [1, 0, 9])] := by
  obtain ⟨tr, h, hsrc⟩ := queuedSender_exec src
  have h1 := next_thread (next_thread (next_thread h rfl) rfl) rfl
  have h2 := next_thread (next_thread (next_thread h1 rfl) rfl) rfl
  have h3 := next_thread (t := copiedSender) (next_thread h2 rfl) rfl
  refine ⟨_, _, next_thread h3 rfl, ?_, rfl⟩
  simp only [List.filterMap_append, hsrc]
  rfl

theorem frame_to_client : ∃ tr s, (system 7).Exec tr s ∧ s.sent ≠ [] ∧
    ∀ f ∈ s.sent, f.1.address = 7 := by
  obtain ⟨tr, s, h, hsrc, hsent⟩ := frame_after ⟨7, 61000⟩
  refine ⟨tr, s, h, ?_, (sent_to_client_iff 7 tr s h).mpr (atEach_fromClient ?_)⟩
  · rw [hsent]
    exact List.cons_ne_nil _ _
  · rw [hsrc]
    exact fun src hsrc => by rw [List.mem_singleton.mp hsrc]

/-- The frame goes to the stranger that sent the datagram. -/
theorem frame_redirected : ∃ tr s, (system 7).Exec tr s ∧ s.sent = [(⟨8, 4444⟩, [1, 0, 9])] ∧
    ¬ ∀ f ∈ s.sent, f.1.address = 7 := by
  obtain ⟨tr, s, h, -, hsent⟩ := frame_after ⟨8, 4444⟩
  refine ⟨tr, s, h, hsent, fun hclient => ?_⟩
  rw [hsent] at hclient
  exact absurd (hclient _ (List.mem_singleton.mpr rfl)) (by decide)

end UdpLink

end GameServer
