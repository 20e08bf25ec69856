import GameServer.Lib.Execution
import GameServer.Network.Data

/-! The command pipeline of `AsyncServer`: the table `m_commands`, the receive
path `Process` on the I/O threads, and the two consumers `Update` (main thread)
and `Process_Async`. Every access to a shared container is one step, so an
execution is an interleaving of all threads. -/

namespace GameServer

open Lib

/-- `AsyncServer::NetCommand`; null pointers are `none`. `Cb` stands for
`CommandActionPtr`. -/
structure NetCommand (Cb : Type) where
  objPtr : Option ℕ
  callback : Option Cb
  isAsync : Bool
  deriving DecidableEq, Repr

/-- `NetCommand{}`: what `operator[]` stores under a missing key. -/
def NetCommand.zero (Cb : Type) : NetCommand Cb := ⟨none, none, false⟩

/-- `AsyncServer::ThreadCommand`, its buffer with its size as one list. -/
structure ThreadCommand where
  command : UInt8
  user : Token
  buffer : List UInt8
  type : Protocal
  deriving DecidableEq, Repr

/-- The `Data` that `Update` and `Process_Async` build from a popped command. -/
def ThreadCommand.data (c : ThreadCommand) : Data := ⟨c.type, c.command, c.buffer⟩

/-- The command that `Process` copies out of the receive buffer. -/
def threadCommand (user : Token) (command : UInt8) (data : List UInt8) (type : Protocal) :
    ThreadCommand :=
  ⟨command, user, data, type⟩

/-- A call that `DoProcess` has prepared: the entry it read and the arguments. -/
structure PendingCall (Cb : Type) where
  commandObj : NetCommand Cb
  user : Token
  data : Data
  deriving DecidableEq, Repr

/-- A consuming thread: its local `current_command_queue` and the call it is
about to make. -/
structure Consumer (Cb : Type) where
  currentCommandQueue : List ThreadCommand
  call : Option (PendingCall Cb)

inductive Thread where
  | main
  | async
  deriving DecidableEq, Repr

structure Dispatcher (Cb : Type) where
  mCommands : UInt8 → Option (NetCommand Cb)
  /-- the keys of `m_socket_users` -/
  mSocketUsers : List Token
  mRunAsyncCommands : Bool
  queue : Thread → List ThreadCommand
  /-- `Process` calls of the I/O threads that have read the table and not pushed yet -/
  receiving : List (NetCommand Cb × ThreadCommand)
  consumer : Thread → Consumer Cb
  /-- the callbacks called so far, in order -/
  called : List (PendingCall Cb)

namespace Dispatcher

variable {Cb : Type}

def hasCommand (s : Dispatcher Cb) (cmd : UInt8) : Bool := (s.mCommands cmd).isSome

/-- `m_commands[cmd]`: the entry, which a missing key gets first. -/
def commandAt (s : Dispatcher Cb) (cmd : UInt8) : NetCommand Cb × Dispatcher Cb :=
  match s.mCommands cmd with
  | some c => (c, s)
  | none =>
    (NetCommand.zero Cb,
      { s with mCommands := Function.update s.mCommands cmd (some (NetCommand.zero Cb)) })

def addCommand (s : Dispatcher Cb) (cmd : UInt8) (callback : Option Cb) (obj : Option ℕ)
    (async : Bool) : Dispatcher Cb :=
  if s.hasCommand cmd then s
  else { s with mCommands := Function.update s.mCommands cmd (some ⟨obj, callback, async⟩) }

/-- First half of `Process`: the table lookup and the copy of the buffer. -/
def processLookup (s : Dispatcher Cb) (user : Token) (command : UInt8) (data : List UInt8)
    (type : Protocal) : Dispatcher Cb :=
  let r := s.commandAt command
  { r.2 with receiving := r.2.receiving ++ [(r.1, threadCommand user command data type)] }

/-- Second half of `Process`: the push on the queue that the entry asks for. -/
def processPush (s : Dispatcher Cb) (commandObj : NetCommand Cb) (c : ThreadCommand) :
    Dispatcher Cb :=
  let t := if commandObj.isAsync && s.mRunAsyncCommands then Thread.async else Thread.main
  { s with queue := Function.update s.queue t (s.queue t ++ [c]) }

/-- `threadSafeCommandQueueDuplicate` into the consumer's local queue. -/
def duplicate (s : Dispatcher Cb) (t : Thread) : Dispatcher Cb :=
  let k := s.consumer t
  { s with
    queue := Function.update s.queue t []
    consumer := Function.update s.consumer t
      { k with currentCommandQueue := k.currentCommandQueue ++ s.queue t } }

/-- `DoProcess` up to the call: the guard, the table lookup and the session
lookup under `m_user_mtx`. -/
def doProcessLookup (s : Dispatcher Cb) (c : ThreadCommand) :
    Option (PendingCall Cb) × Dispatcher Cb :=
  if s.hasCommand c.command then
    let r := s.commandAt c.command
    if c.user ∈ r.2.mSocketUsers then (some ⟨r.1, c.user, c.data⟩, r.2) else (none, r.2)
  else (none, s)

inductive Event (Cb : Type) where
  | addCommand (cmd : UInt8) (callback : Cb) (obj : ℕ) (async : Bool)
  | receive (user : Token) (command : UInt8) (data : List UInt8) (type : Protocal)
  | push (i : ℕ)
  | startAsync
  | duplicate (t : Thread)
  | lookup (t : Thread)
  | call (t : Thread)
  | addSession (user : Token)
  | eraseSession (user : Token)

/-- One step of some thread. The callers of `AddCommand` all pass the address of
a function. -/
def Step (s : Dispatcher Cb) (e : Event Cb) (s' : Dispatcher Cb) : Prop :=
  match e with
  | .addCommand cmd callback obj async => s' = s.addCommand cmd (some callback) (some obj) async
  | .receive user command data type => s' = s.processLookup user command data type
  | .push i =>
    ∃ x, s.receiving[i]? = some x ∧
      s' = { s.processPush x.1 x.2 with receiving := s.receiving.eraseIdx i }
  | .startAsync => s' = { s with mRunAsyncCommands := true }
  | .duplicate t =>
    (s.consumer t).currentCommandQueue = [] ∧ (s.consumer t).call = none ∧ s' = s.duplicate t
  | .lookup t =>
    ∃ c rest, (s.consumer t).currentCommandQueue = c :: rest ∧ (s.consumer t).call = none ∧
      s' = { (s.doProcessLookup c).2 with
        consumer := Function.update s.consumer t ⟨rest, (s.doProcessLookup c).1⟩ }
  | .call t =>
    ∃ p, (s.consumer t).call = some p ∧
      s' = { s with
        consumer := Function.update s.consumer t { s.consumer t with call := none }
        called := s.called ++ [p] }
  | .addSession user => s' = { s with mSocketUsers := user :: s.mSocketUsers }
  | .eraseSession user => s' = { s with mSocketUsers := s.mSocketUsers.filter (· ≠ user) }

/-- A server that was just constructed: nothing is registered and nothing received. -/
structure Init (s : Dispatcher Cb) : Prop where
  mCommands : s.mCommands = fun _ => none
  receiving : s.receiving = []
  queue : ∀ t, s.queue t = []
  consumer : ∀ t, s.consumer t = ⟨[], none⟩
  called : s.called = []

def system (Cb : Type) : System (Dispatcher Cb) (Event Cb) := ⟨Init, Step⟩

end Dispatcher

end GameServer
