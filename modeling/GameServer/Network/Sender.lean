import GameServer.Lib.Execution
import GameServer.Network.Data
import GameServer.Network.BufferUtils

/-! The send path of `tcp_connection` and `udp_connection`: any number of `Send`
calls, the thread of `RunSend` and the completion handler, one statement at a
time. `m_lock` guards reads only and is left out. -/

namespace GameServer

open Lib

/-- Where a `Send` call stands. -/
inductive CallPc where
  | lock (sending : List UInt8)
  | push (sending : List UInt8)
  | queueLen
  /-- `m_numTrySends++`, on UDP only -/
  | numTrySends
  | unlock
  | release
  deriving DecidableEq, Repr

/-- Where the sender thread stands. -/
inductive SenderPc where
  /-- the loop test of `RunSend` -/
  | runSend
  /-- the entry of `start_send` -/
  | startSend
  | acquire2
  | lock
  | front
  | queueLen (msg : List UInt8)
  | unlock (msg : List UInt8)
  | unlockEmpty
  | copy (msg : List UInt8)
  | write (msg : List UInt8)
  /-- `m_numDoSends++`, on UDP only -/
  | numDoSends
  | acquire1
  | exited
  /-- the copy ran over the end of the buffer -/
  | crashed (msg : List UInt8)
  deriving DecidableEq, Repr

structure Sender where
  type : Protocal
  mRunning : Bool
  mSendMessages : List (List UInt8)
  /-- the three counters are whole numbers here; the getters return `int`s -/
  mSendQueueLen : ℤ
  mNumTrySends : ℤ
  mNumDoSends : ℤ
  /-- `m_send_lock` is held -/
  mSendLock : Bool
  mSendsSemaphore1 : ℕ
  mSendsSemaphore2 : ℕ
  mSendBuffer : ℕ → UInt8
  calls : List CallPc
  thread : SenderPc
  /-- the bytes of each write whose handler has not run -/
  writes : List (List UInt8)
  /-- every frame pushed so far; read by proofs only -/
  pushed : List (List UInt8)
  /-- every buffer handed to the socket so far; read by proofs only -/
  handed : List (List UInt8)

namespace Sender

/-- `UINT16_MAX`, the size of the send buffer. -/
def sendBufferSize : ℕ := 65535

/-- The first `n` bytes of the send buffer. -/
def bufferBytes (s : Sender) (n : ℕ) : List UInt8 := (List.range n).map s.mSendBuffer

/-- A release leaves a permit, and one more than before at most. -/
def Released (before after : ℕ) : Prop := 1 ≤ after ∧ after ≤ before + 1

/-- One step of a `Send` call, and where the call stands afterwards; `none` while it
waits. `permits` is what `m_sends_semaphore_2` holds after a release. -/
def callStep (permits : ℕ) (s : Sender) : CallPc → Option (Sender × Option CallPc)
  | .lock sending =>
    if s.mSendLock then none else some ({ s with mSendLock := true }, some (.push sending))
  | .push sending =>
    some ({ s with
      mSendMessages := s.mSendMessages ++ [sending], pushed := s.pushed ++ [sending] },
      some .queueLen)
  | .queueLen =>
    some ({ s with mSendQueueLen := s.mSendQueueLen + 1 },
      some (match s.type with
        | .tcp => .unlock
        | .udp => .numTrySends))
  | .numTrySends => some ({ s with mNumTrySends := s.mNumTrySends + 1 }, some .unlock)
  | .unlock => some ({ s with mSendLock := false }, some .release)
  | .release => some ({ s with mSendsSemaphore2 := permits }, none)

/-- One step of the sender thread; `none` while it waits and after its end. -/
def threadStep (s : Sender) : Option Sender :=
  match s.thread with
  | .runSend => some { s with thread := if s.mRunning then .startSend else .exited }
  | .startSend => some { s with thread := if s.mRunning then .acquire2 else .acquire1 }
  | .acquire2 =>
    if s.mSendsSemaphore2 = 0 then none
    else some { s with mSendsSemaphore2 := s.mSendsSemaphore2 - 1, thread := .lock }
  | .lock => if s.mSendLock then none else some { s with mSendLock := true, thread := .front }
  | .front =>
    match s.mSendMessages with
    | [] => some { s with thread := .unlockEmpty }
    | msg :: rest => some { s with mSendMessages := rest, thread := .queueLen msg }
  | .queueLen msg => some { s with mSendQueueLen := s.mSendQueueLen - 1, thread := .unlock msg }
  | .unlock msg => some { s with mSendLock := false, thread := .copy msg }
  | .unlockEmpty => some { s with mSendLock := false, thread := .acquire1 }
  | .copy msg =>
    if msg.length ≤ sendBufferSize then
      some { s with
        mSendBuffer := fun i => if i < msg.length then msg.getD i 0 else s.mSendBuffer i
        thread := .write msg }
    else some { s with thread := .crashed msg }
  | .write msg =>
    some { s with
      writes := s.writes ++ [s.bufferBytes msg.length]
      handed := s.handed ++ [s.bufferBytes msg.length]
      thread := match s.type with
        | .tcp => .acquire1
        | .udp => .numDoSends }
  | .numDoSends => some { s with mNumDoSends := s.mNumDoSends + 1, thread := .acquire1 }
  | .acquire1 =>
    if s.mSendsSemaphore1 = 0 then none
    else some { s with mSendsSemaphore1 := s.mSendsSemaphore1 - 1, thread := .runSend }
  | .exited => none
  | .crashed _ => none

inductive Event where
  /-- `Send` is called -/
  | send (sending : List UInt8)
  | call
  | thread
  /-- `handle_write` or `handle_send` runs for one started write -/
  | complete
  /-- `close` clears `m_running` -/
  | stop
  deriving DecidableEq, Repr

def Step (s : Sender) (e : Event) (s' : Sender) : Prop :=
  match e with
  | .send sending =>
    s' = { s with calls := s.calls ++ [.lock (BufferUtils.addLength sending)] }
  | .call => ∃ before pc after permits t pc', s.calls = before ++ pc :: after ∧
      Released s.mSendsSemaphore2 permits ∧ s.callStep permits pc = some (t, pc') ∧
      s' = { t with calls := before ++ pc'.toList ++ after }
  | .thread => s.threadStep = some s'
  | .complete => ∃ before w after permits, s.writes = before ++ w :: after ∧
      Released s.mSendsSemaphore1 permits ∧
      s' = { s with writes := before ++ after, mSendsSemaphore1 := permits }
  | .stop => s' = { s with mRunning := false }

/-- A connection as its constructor leaves it. -/
structure Init (s : Sender) : Prop where
  mRunning : s.mRunning = true
  mSendMessages : s.mSendMessages = []
  mSendQueueLen : s.mSendQueueLen = 0
  mNumTrySends : s.mNumTrySends = 0
  mNumDoSends : s.mNumDoSends = 0
  mSendLock : s.mSendLock = false
  mSendsSemaphore1 : s.mSendsSemaphore1 = 0
  mSendsSemaphore2 : s.mSendsSemaphore2 = 0
  calls : s.calls = []
  thread : s.thread = .runSend
  writes : s.writes = []
  pushed : s.pushed = []
  handed : s.handed = []

def system : System Sender Event := ⟨Init, Step⟩

end Sender

end GameServer
