import GameServer.Lib.Heap
import GameServer.Network.CommandQueues

/-! The buffers of the commands. `Process` allocates one for each command and copies the
received bytes to it; the consumer that pops the command makes a vector of it and frees
it. Between the two only an address goes through the queues. -/

namespace GameServer

open Lib

/-- `AsyncServer::ThreadCommand`, its buffer by the address. -/
structure RawCommand where
  command : UInt8
  user : Token
  buffer : ℕ
  bufferSize : ℕ
  type : Protocal

/-- The next statement of a `Process` call, after the lookup. -/
inductive ProcessPc where
  | allocate
  | copy (buffer : ℕ)
  | push (buffer : ℕ)

structure ProcessCall (Cb : Type) where
  commandObj : NetCommand Cb
  /-- the arguments, with the `size` bytes at `data` -/
  input : ThreadCommand
  pc : ProcessPc

/-- The next statement of a consumer. -/
inductive ConsumerPc (Cb : Type) where
  | pop
  | makeData (c : RawCommand)
  | delete (buffer : ℕ) (user : Token) (data : Data)
  | doProcess (user : Token) (data : Data)
  | call (p : PendingCall Cb)

structure RawConsumer (Cb : Type) where
  currentCommandQueue : List RawCommand
  pc : ConsumerPc Cb

/-- `Dispatcher` with the buffers on the heap. -/
structure RawDispatcher (Cb : Type) where
  mCommands : UInt8 → Option (NetCommand Cb)
  mSocketUsers : List Token
  mRunAsyncCommands : Bool
  queue : Thread → List RawCommand
  receiving : List (ProcessCall Cb)
  consumer : Thread → RawConsumer Cb
  called : List (PendingCall Cb)
  heap : Heap (List UInt8)

def ProcessCall.rawCommand {Cb : Type} (x : ProcessCall Cb) (buffer : ℕ) : RawCommand :=
  ⟨x.input.command, x.input.user, buffer, x.input.buffer.length, x.input.type⟩

/-- The step is about the table of commands, the sessions or the async flag. -/
def Dispatcher.Event.ofTable {Cb : Type} : Dispatcher.Event Cb → Bool
  | .addCommand _ _ _ _ | .startAsync | .addSession _ | .eraseSession _ => true
  | _ => false

namespace RawDispatcher

variable {Cb : Type}

/-- The dispatcher without its commands. -/
def bare (s : RawDispatcher Cb) : Dispatcher Cb where
  mCommands := s.mCommands
  mSocketUsers := s.mSocketUsers
  mRunAsyncCommands := s.mRunAsyncCommands
  queue := fun _ => []
  receiving := []
  consumer := fun _ => ⟨[], none⟩
  called := []

def setTable (s : RawDispatcher Cb) (d : Dispatcher Cb) : RawDispatcher Cb :=
  { s with
    mCommands := d.mCommands
    mSocketUsers := d.mSocketUsers
    mRunAsyncCommands := d.mRunAsyncCommands }

def setConsumer (s : RawDispatcher Cb) (t : Thread) (k : RawConsumer Cb) : RawDispatcher Cb :=
  { s with consumer := Function.update s.consumer t k }

def setPc (s : RawDispatcher Cb) (t : Thread) (pc : ConsumerPc Cb) : RawDispatcher Cb :=
  s.setConsumer t { s.consumer t with pc := pc }

/-- After `DoProcess`'s lookup. -/
def afterLookup : Option (PendingCall Cb) → ConsumerPc Cb
  | some p => .call p
  | none => .pop

inductive Event (Cb : Type) where
  | table (e : Dispatcher.Event Cb)
  | receive (user : Token) (command : UInt8) (data : List UInt8) (type : Protocal)
  /-- `new` finds the address `buffer` for a block that holds `block` -/
  | allocate (i : ℕ) (buffer : ℕ) (block : List UInt8)
  | copy (i : ℕ)
  | push (i : ℕ)
  | duplicate (t : Thread)
  | pop (t : Thread)
  | makeData (t : Thread)
  | delete (t : Thread)
  | lookup (t : Thread)
  | call (t : Thread)

/-- One statement of some thread. It has to find the block that it uses, and as long as it
uses it. -/
def Step (s : RawDispatcher Cb) (e : Event Cb) (s' : RawDispatcher Cb) : Prop :=
  match e with
  | .table e => e.ofTable = true ∧ ∃ d, Dispatcher.Step s.bare e d ∧ s' = s.setTable d
  | .receive user command data type =>
    s' = { s with
      mCommands := (s.bare.commandAt command).2.mCommands
      receiving := s.receiving ++
        [⟨(s.bare.commandAt command).1, threadCommand user command data type, .allocate⟩] }
  | .allocate i buffer block =>
    ∃ x, s.receiving[i]? = some x ∧ x.pc = .allocate ∧ s.heap buffer = none ∧
      block.length = x.input.buffer.length ∧
      s' = { s with
        heap := s.heap.set buffer block
        receiving := s.receiving.set i { x with pc := .copy buffer } }
  | .copy i =>
    ∃ x buffer block, s.receiving[i]? = some x ∧ x.pc = .copy buffer ∧
      s.heap buffer = some block ∧ x.input.buffer.length ≤ block.length ∧
      s' = { s with
        heap := s.heap.set buffer (x.input.buffer ++ block.drop x.input.buffer.length)
        receiving := s.receiving.set i { x with pc := .push buffer } }
  | .push i =>
    ∃ x buffer, s.receiving[i]? = some x ∧ x.pc = .push buffer ∧
      s' = { s with
        queue := Function.update s.queue (s.bare.route x.commandObj)
          (s.queue (s.bare.route x.commandObj) ++ [x.rawCommand buffer])
        receiving := s.receiving.eraseIdx i }
  | .duplicate t =>
    (s.consumer t).currentCommandQueue = [] ∧ (s.consumer t).pc = .pop ∧
      s' = { s.setConsumer t ⟨s.queue t, .pop⟩ with queue := Function.update s.queue t [] }
  | .pop t =>
    ∃ c rest, (s.consumer t).currentCommandQueue = c :: rest ∧ (s.consumer t).pc = .pop ∧
      s' = s.setConsumer t ⟨rest, .makeData c⟩
  | .makeData t =>
    ∃ c block, (s.consumer t).pc = .makeData c ∧ s.heap c.buffer = some block ∧
      c.bufferSize ≤ block.length ∧
      s' = s.setPc t (.delete c.buffer c.user ⟨c.type, c.command, block.take c.bufferSize⟩)
  | .delete t =>
    ∃ buffer user data, (s.consumer t).pc = .delete buffer user data ∧
      (s.heap buffer).isSome = true ∧
      s' = { s.setPc t (.doProcess user data) with heap := s.heap.free buffer }
  | .lookup t =>
    ∃ user data, (s.consumer t).pc = .doProcess user data ∧
      s' = { s.setPc t (afterLookup (s.bare.doProcessLookup
          (threadCommand user data.command data.buffer data.type)).1) with
        mCommands := (s.bare.doProcessLookup
          (threadCommand user data.command data.buffer data.type)).2.mCommands }
  | .call t =>
    ∃ p, (s.consumer t).pc = .call p ∧
      s' = { s.setPc t .pop with called := s.called ++ [p] }

structure Init (s : RawDispatcher Cb) : Prop where
  mCommands : s.mCommands = fun _ => none
  receiving : s.receiving = []
  queue : ∀ t, s.queue t = []
  consumer : ∀ t, s.consumer t = ⟨[], .pop⟩
  called : s.called = []
  heap : s.heap = Heap.empty _

def system (Cb : Type) : System (RawDispatcher Cb) (Event Cb) := ⟨Init, Step⟩

end RawDispatcher

/-! ### Who has which buffer -/

/-- The buffer that the call has allocated. -/
def ProcessPc.buffer : ProcessPc → Option ℕ
  | .allocate => none
  | .copy buffer | .push buffer => some buffer

/-- What the buffer of the call is to hold. -/
def ProcessPc.Holds (h : Heap (List UInt8)) (data : List UInt8) : ProcessPc → Prop
  | .allocate => True
  | .copy buffer => ∃ block, h buffer = some block ∧ block.length = data.length
  | .push buffer => h buffer = some data

namespace ConsumerPc

variable {Cb : Type}

/-- The command whose buffer is still to be read. -/
def command : ConsumerPc Cb → Option RawCommand
  | .makeData c => some c
  | .pop | .delete _ _ _ | .doProcess _ _ | .call _ => none

/-- The buffer that was read and is not freed. -/
def deleting : ConsumerPc Cb → Option ℕ
  | .delete buffer _ _ => some buffer
  | .pop | .makeData _ | .doProcess _ _ | .call _ => none

/-- The command that was read and that `DoProcess` has not looked up. -/
def taken : ConsumerPc Cb → Option ThreadCommand
  | .delete _ user data | .doProcess user data =>
    some (threadCommand user data.command data.buffer data.type)
  | .pop | .makeData _ | .call _ => none

def made : ConsumerPc Cb → Option (PendingCall Cb)
  | .call p => some p
  | .pop | .makeData _ | .delete _ _ _ | .doProcess _ _ => none

end ConsumerPc

/-- The command with the bytes that its buffer holds. -/
def RawCommand.read (h : Heap (List UInt8)) (c : RawCommand) : ThreadCommand :=
  threadCommand c.user c.command (((h c.buffer).getD []).take c.bufferSize) c.type

/-- The buffer is there and as long as the command says. -/
def RawCommand.Stored (h : Heap (List UInt8)) (c : RawCommand) : Prop :=
  ∃ block, h c.buffer = some block ∧ block.length = c.bufferSize

/-- The commands that the consumer has taken over and not read. -/
def RawConsumer.commands {Cb : Type} (k : RawConsumer Cb) : List RawCommand :=
  k.pc.command.toList ++ k.currentCommandQueue

/-- The buffers that the consumer has taken over and not freed. -/
def RawConsumer.buffers {Cb : Type} (k : RawConsumer Cb) : List ℕ :=
  k.pc.deleting.toList ++ k.commands.map (·.buffer)

def RawConsumer.abs {Cb : Type} (h : Heap (List UInt8)) (k : RawConsumer Cb) : Consumer Cb :=
  ⟨k.pc.taken.toList ++ k.commands.map (RawCommand.read h), k.pc.made⟩

namespace RawDispatcher

variable {Cb : Type}

/-- The same dispatcher with lists of bytes for the buffers. -/
def abs (s : RawDispatcher Cb) : Dispatcher Cb :=
  { s.bare with
    queue := fun t => (s.queue t).map (RawCommand.read s.heap)
    receiving := s.receiving.map fun x => (x.commandObj, x.input)
    consumer := fun t => (s.consumer t).abs s.heap
    called := s.called }

/-- The step as one of the dispatcher. -/
def dispatch : RawDispatcher Cb × Event Cb → Option (Dispatcher Cb × Dispatcher.Event Cb)
  | (s, .table e) => some (s.abs, e)
  | (s, .receive user command data type) => some (s.abs, .receive user command data type)
  | (s, .push i) => some (s.abs, .push i)
  | (s, .duplicate t) => some (s.abs, .duplicate t)
  | (s, .lookup t) => some (s.abs, .lookup t)
  | (s, .call t) => some (s.abs, .call t)
  | (_, .allocate _ _ _) | (_, .copy _) | (_, .pop _) | (_, .makeData _) | (_, .delete _) => none

/-- The commands on their way to the consumer `t`. -/
def commands (s : RawDispatcher Cb) (t : Thread) : List RawCommand :=
  (s.consumer t).commands ++ s.queue t

/-- The buffers that the consumer and its queue have. -/
def held (s : RawDispatcher Cb) (t : Thread) : List ℕ :=
  (s.consumer t).buffers ++ (s.queue t).map (·.buffer)

/-- The buffers that something has. -/
def buffers (s : RawDispatcher Cb) : List ℕ :=
  s.receiving.filterMap (·.pc.buffer) ++ (s.held .main ++ s.held .async)

/-- Whatever the threads do next with a buffer, it is there. -/
structure BuffersThere (s : RawDispatcher Cb) : Prop where
  /-- the buffers are with one call, queue or consumer each, and none is lost -/
  owned : s.heap.Owned s.buffers
  copy : ∀ x ∈ s.receiving, ∀ buffer, x.pc = .copy buffer →
    ∃ block, s.heap buffer = some block ∧ block.length = x.input.buffer.length
  read : ∀ t c, (s.consumer t).pc = .makeData c →
    ∃ block, s.heap c.buffer = some block ∧ block.length = c.bufferSize
  delete : ∀ t buffer user data, (s.consumer t).pc = .delete buffer user data →
    (s.heap buffer).isSome = true

/-- The invariant: what the buffers hold. -/
structure Inv (s : RawDispatcher Cb) : Prop where
  owned : s.heap.Owned s.buffers
  calls : ∀ x ∈ s.receiving, x.pc.Holds s.heap x.input.buffer
  stored : ∀ t, ∀ c ∈ s.commands t, c.Stored s.heap

variable {s s' : RawDispatcher Cb} {t : Thread}

theorem Inv.buffersThere (hs : s.Inv) : s.BuffersThere := by
  refine ⟨hs.owned, fun x hx buffer hpc => ?_, fun t c hpc => ?_, fun t buffer user data hpc => ?_⟩
  · have hholds := hs.calls x hx
    rw [hpc] at hholds
    exact hholds
  · exact hs.stored t c (by simp [commands, RawConsumer.commands, ConsumerPc.command, hpc])
  · refine hs.owned.isSome (List.mem_append_right _ ?_)
    cases t with
    | main => exact List.mem_append_left _ (by simp [held, RawConsumer.buffers, ConsumerPc.deleting, hpc])
    | async => exact List.mem_append_right _ (by simp [held, RawConsumer.buffers, ConsumerPc.deleting, hpc])

/-! ### Blocks that are left alone -/

variable {h h' : Heap (List UInt8)}

theorem stored_of_eq {c : RawCommand} (hc : c.Stored h) (he : h' c.buffer = h c.buffer) :
    c.Stored h' := by
  unfold RawCommand.Stored
  rwa [he]

theorem read_of_eq {c : RawCommand} (he : h' c.buffer = h c.buffer) : c.read h' = c.read h := by
  rw [RawCommand.read, he, RawCommand.read]

theorem holds_of_eq {pc : ProcessPc} {data : List UInt8} (hp : pc.Holds h data)
    (he : ∀ buffer, pc.buffer = some buffer → h' buffer = h buffer) : pc.Holds h' data := by
  cases pc with
  | allocate => trivial
  | copy buffer =>
    obtain ⟨block, hblock, hlen⟩ := hp
    exact ⟨block, (he buffer rfl).trans hblock, hlen⟩
  | push buffer => exact (he buffer rfl).trans hp

theorem abs_of_eq {r : List (ProcessCall Cb)}
    (he : ∀ t, ∀ c ∈ s.commands t, h' c.buffer = s.heap c.buffer)
    (hr : r.map (fun x => (x.commandObj, x.input)) =
      s.receiving.map fun x => (x.commandObj, x.input)) :
    ({ s with heap := h', receiving := r } : RawDispatcher Cb).abs = s.abs := by
  have hread : ∀ t, ∀ c ∈ s.commands t, c.read h' = c.read s.heap :=
    fun t c hc => read_of_eq (he t c hc)
  have hqueue : ∀ t, (s.queue t).map (RawCommand.read h') = (s.queue t).map (RawCommand.read s.heap) :=
    fun t => List.map_congr_left fun c hc => hread t c (List.mem_append_right _ hc)
  have hconsumer : ∀ t, (s.consumer t).abs h' = (s.consumer t).abs s.heap := by
    intro t
    rw [RawConsumer.abs, RawConsumer.abs,
      List.map_congr_left fun c hc => hread t c (List.mem_append_left _ hc)]
  simp only [abs, bare, hqueue, hconsumer, hr]

/-! ### One owner more or less -/

/-- The buffers of all but one call. -/
def otherBuffers (s : RawDispatcher Cb) (before after : List (ProcessCall Cb)) : List ℕ :=
  (before ++ after).filterMap (·.pc.buffer) ++ (s.held .main ++ s.held .async)

theorem buffers_call {before after : List (ProcessCall Cb)} {x : ProcessCall Cb}
    (hx : s.receiving = before ++ x :: after) :
    s.buffers.Perm (x.pc.buffer.toList ++ s.otherBuffers before after) := by
  rw [buffers, otherBuffers, hx, List.filterMap_append, List.filterMap_append, List.filterMap_cons]
  cases x.pc.buffer with
  | none => exact .refl _
  | some b => simp [List.perm_middle]

def otherThread : Thread → Thread
  | .main => .async
  | .async => .main

theorem otherThread_ne (t : Thread) : otherThread t ≠ t := by
  cases t <;> exact nofun

theorem buffers_consumer (s : RawDispatcher Cb) (t : Thread) : s.buffers.Perm
    (s.held t ++ (s.receiving.filterMap (·.pc.buffer) ++ s.held (otherThread t))) := by
  cases t with
  | main => exact (List.perm_append_comm_assoc ..)
  | async =>
    rw [buffers, ← List.append_assoc]
    exact List.perm_append_comm

theorem mem_buffers {c : RawCommand} (hc : c ∈ s.commands t) :
    c.buffer ∈ s.held .main ++ s.held .async := by
  have hmem : c.buffer ∈ s.held t := by
    rw [held, RawConsumer.buffers, List.append_assoc, ← List.map_append]
    exact List.mem_append_right _ (List.mem_map_of_mem hc)
  cases t with
  | main => exact List.mem_append_left _ hmem
  | async => exact List.mem_append_right _ hmem

theorem mem_buffers_of_call {x : ProcessCall Cb} {b : ℕ} (hx : x ∈ s.receiving)
    (hb : x.pc.buffer = some b) : b ∈ s.buffers :=
  List.mem_append_left _ (List.mem_filterMap.mpr ⟨x, hx, hb⟩)

/-! ### The calls of `Process` -/

theorem inv_receive {x : ProcessCall Cb} {mCommands : UInt8 → Option (NetCommand Cb)}
    (hs : s.Inv) (hpc : x.pc = .allocate) :
    ({ s with mCommands := mCommands, receiving := s.receiving ++ [x] } : RawDispatcher Cb).Inv := by
  have hsame : (s.receiving ++ [x]).filterMap (·.pc.buffer) =
      s.receiving.filterMap (·.pc.buffer) := by
    simp [hpc, ProcessPc.buffer]
  refine ⟨?_, ?_, hs.stored⟩
  · change s.heap.Owned ((s.receiving ++ [x]).filterMap (·.pc.buffer) ++
      (s.held .main ++ s.held .async))
    rw [hsame]
    exact hs.owned
  · refine List.forall_mem_append.mpr ⟨hs.calls, List.forall_mem_singleton.mpr ?_⟩
    rw [hpc]
    trivial

theorem inv_allocate {i buffer : ℕ} {block : List UInt8} {x : ProcessCall Cb} (hs : s.Inv)
    (hx : s.receiving[i]? = some x) (hpc : x.pc = .allocate) (hfree : s.heap buffer = none)
    (hlen : block.length = x.input.buffer.length)
    (h : s' = { s with
      heap := s.heap.set buffer block
      receiving := s.receiving.set i { x with pc := .copy buffer } }) :
    s'.Inv ∧ s'.abs = s.abs := by
  subst h
  obtain ⟨before, after, hsplit, -, hset⟩ := Dispatcher.split_at hx
  have hne : ∀ b ∈ s.buffers, s.heap.set buffer block b = s.heap b := by
    intro b hb
    refine Heap.set_of_ne ?_ _ _
    rintro rfl
    exact hs.owned.notMem hfree hb
  have hcommands : ∀ t, ∀ c ∈ s.commands t, s.heap.set buffer block c.buffer = s.heap c.buffer :=
    fun t c hc => hne c.buffer (List.mem_append_right _ (mem_buffers hc))
  have hcalls : ∀ y ∈ s.receiving, y.pc.Holds (s.heap.set buffer block) y.input.buffer :=
    fun y hy => holds_of_eq (hs.calls y hy) fun b hb => hne b (mem_buffers_of_call hy hb)
  rw [hset]
  refine ⟨⟨?_, ?_, fun t c hc => stored_of_eq (hs.stored t c hc) (hcommands t c hc)⟩, ?_⟩
  · have hbefore := buffers_call hsplit
    rw [hpc] at hbefore
    exact (hs.owned.alloc hfree block).perm ((hbefore.cons buffer).trans
      (buffers_call (s := { s with receiving := before ++ { x with pc := .copy buffer } :: after })
        rfl).symm)
  · rw [hsplit, List.forall_mem_append, List.forall_mem_cons] at hcalls
    rw [List.forall_mem_append, List.forall_mem_cons]
    exact ⟨hcalls.1, ⟨block, Heap.set_self .., hlen⟩, hcalls.2.2⟩
  · refine abs_of_eq hcommands ?_
    simp [hsplit]

theorem inv_copy {i buffer : ℕ} {block : List UInt8} {x : ProcessCall Cb} (hs : s.Inv)
    (hx : s.receiving[i]? = some x) (hpc : x.pc = .copy buffer)
    (hblock : s.heap buffer = some block)
    (h : s' = { s with
      heap := s.heap.set buffer (x.input.buffer ++ block.drop x.input.buffer.length)
      receiving := s.receiving.set i { x with pc := .push buffer } }) :
    s'.Inv ∧ s'.abs = s.abs := by
  subst h
  obtain ⟨before, after, hsplit, -, hset⟩ := Dispatcher.split_at hx
  have hlen : block.length = x.input.buffer.length := by
    have hholds := hs.calls x (List.mem_of_getElem? hx)
    rw [hpc] at hholds
    obtain ⟨block', hblock', hlen⟩ := hholds
    rw [hblock] at hblock'
    cases hblock'
    exact hlen
  have hbefore := buffers_call hsplit
  rw [hpc] at hbefore
  have hothers := hs.owned.perm hbefore
  rw [← hlen, List.drop_length, List.append_nil, hset]
  have hne : ∀ b ∈ s.otherBuffers before after,
      s.heap.set buffer x.input.buffer b = s.heap b :=
    fun b hb => Heap.set_of_ne (hothers.ne hb) _ _
  have hcommands : ∀ t, ∀ c ∈ s.commands t,
      s.heap.set buffer x.input.buffer c.buffer = s.heap c.buffer :=
    fun t c hc => hne c.buffer (List.mem_append_right _ (mem_buffers hc))
  have hcalls : ∀ y ∈ before ++ after,
      y.pc.Holds (s.heap.set buffer x.input.buffer) y.input.buffer := by
    intro y hy
    have hmem : y ∈ s.receiving := by
      rw [hsplit]
      exact List.mem_append.mpr ((List.mem_append.mp hy).imp_right (List.mem_cons_of_mem _))
    refine holds_of_eq (hs.calls y hmem) fun b hb => hne b (List.mem_append_left _ ?_)
    exact List.mem_filterMap.mpr ⟨y, hy, hb⟩
  refine ⟨⟨?_, ?_, fun t c hc => stored_of_eq (hs.stored t c hc) (hcommands t c hc)⟩, ?_⟩
  · exact (hothers.write (List.mem_cons_self ..) _).perm
      (buffers_call (s := { s with receiving := before ++ { x with pc := .push buffer } :: after })
        rfl).symm
  · rw [List.forall_mem_append] at hcalls
    rw [List.forall_mem_append, List.forall_mem_cons]
    exact ⟨hcalls.1, Heap.set_self .., hcalls.2⟩
  · refine abs_of_eq hcommands ?_
    simp [hsplit]

theorem read_rawCommand {x : ProcessCall Cb} {buffer : ℕ}
    (hx : h buffer = some x.input.buffer) : (x.rawCommand buffer).read h = x.input := by
  rw [RawCommand.read, ProcessCall.rawCommand, hx, Option.getD_some, List.take_length]
  rfl

/-- The push moves the buffer from the call to a queue. -/
theorem inv_push {i buffer : ℕ} {x : ProcessCall Cb} {r : Thread} (hs : s.Inv)
    (hx : s.receiving[i]? = some x) (hpc : x.pc = .push buffer)
    (h : s' = { s with
      queue := Function.update s.queue r (s.queue r ++ [x.rawCommand buffer])
      receiving := s.receiving.eraseIdx i }) :
    s'.Inv ∧ s'.abs = { s.abs with
      queue := Function.update s.abs.queue r (s.abs.queue r ++ [x.input])
      receiving := s.abs.receiving.eraseIdx i } := by
  subst h
  obtain ⟨before, after, hsplit, herase, -⟩ := Dispatcher.split_at hx
  have hholds : s.heap buffer = some x.input.buffer := by
    have hcall := hs.calls x (List.mem_of_getElem? hx)
    rwa [hpc] at hcall
  have hbefore := buffers_call hsplit
  rw [hpc] at hbefore
  rw [herase]
  refine ⟨⟨hs.owned.perm (hbefore.trans ?_), fun y hy => hs.calls y ?_, fun t c hc => ?_⟩, ?_⟩
  · refine List.perm_iff_count.mpr fun b => ?_
    cases r with
    | main =>
      simp only [ProcessPc.buffer, Option.toList_some, otherBuffers, buffers, held,
        List.count_append, Function.update_self, List.map_append, ne_eq, reduceCtorEq,
        not_false_eq_true, Function.update_of_ne, ProcessCall.rawCommand, List.map_cons,
        List.map_nil]
      omega
    | async =>
      simp only [ProcessPc.buffer, Option.toList_some, otherBuffers, buffers, held,
        List.count_append, Function.update_self, List.map_append, ne_eq, reduceCtorEq,
        not_false_eq_true, Function.update_of_ne, ProcessCall.rawCommand, List.map_cons,
        List.map_nil]
      omega
  · rw [hsplit]
    exact List.mem_append.mpr ((List.mem_append.mp hy).imp_right (List.mem_cons_of_mem _))
  · rcases eq_or_ne t r with rfl | hne
    · simp only [commands, Function.update_self] at hc
      rw [← List.append_assoc, List.mem_append, List.mem_singleton] at hc
      rcases hc with hc | rfl
      · exact hs.stored t c hc
      · exact ⟨x.input.buffer, hholds, rfl⟩
    · simp only [commands, Function.update_of_ne hne] at hc
      exact hs.stored t c hc
  · have hqueue : (fun t => (Function.update s.queue r (s.queue r ++ [x.rawCommand buffer]) t).map
        (RawCommand.read s.heap)) =
        Function.update s.abs.queue r (s.abs.queue r ++ [x.input]) := by
      funext t
      rcases eq_or_ne t r with rfl | hne
      · rw [Function.update_self, Function.update_self, List.map_append, List.map_singleton,
          read_rawCommand hholds]
        rfl
      · rw [Function.update_of_ne hne, Function.update_of_ne hne]
        rfl
    have hreceiving : (before ++ after).map (fun x => (x.commandObj, x.input)) =
        s.abs.receiving.eraseIdx i := by
      rw [← herase, abs, List.eraseIdx_map]
    simp only [abs, bare] at hqueue hreceiving ⊢
    rw [hqueue, hreceiving]

/-! ### The consumers -/

theorem abs_setConsumer (s : RawDispatcher Cb) (t : Thread) (k : RawConsumer Cb) :
    (s.setConsumer t k).abs =
      { s.abs with consumer := Function.update s.abs.consumer t (k.abs s.heap) } := by
  have hconsumer : (fun t' => (Function.update s.consumer t k t').abs s.heap) =
      Function.update s.abs.consumer t (k.abs s.heap) :=
    funext fun t' => Function.apply_update (fun _ k => RawConsumer.abs s.heap k) s.consumer t k t'
  rw [← hconsumer]
  rfl

/-- The consumer takes another one of its commands to hand, or is done with one. -/
theorem inv_setConsumer {k : RawConsumer Cb} (hs : s.Inv)
    (hbuffers : k.buffers = (s.consumer t).buffers)
    (hcommands : ∀ c ∈ k.commands, c ∈ (s.consumer t).commands) : (s.setConsumer t k).Inv := by
  have hheld : ∀ t', (s.setConsumer t k).held t' = s.held t' := by
    intro t'
    rcases eq_or_ne t' t with rfl | hne
    · simp [held, setConsumer, hbuffers]
    · simp [held, setConsumer, Function.update_of_ne hne]
  refine ⟨?_, hs.calls, fun t' c hc => ?_⟩
  · rw [buffers, hheld, hheld]
    exact hs.owned
  · rcases eq_or_ne t' t with rfl | hne
    · simp only [commands, setConsumer, Function.update_self] at hc
      exact hs.stored t' c (List.mem_append.mpr ((List.mem_append.mp hc).imp_left (hcommands c)))
    · simp only [commands, setConsumer, Function.update_of_ne hne] at hc
      exact hs.stored t' c hc

/-- It is the same consumer with lists for buffers. -/
theorem abs_setConsumer_of_eq {k : RawConsumer Cb}
    (hk : k.abs s.heap = (s.consumer t).abs s.heap) : (s.setConsumer t k).abs = s.abs := by
  have hsame : Function.update s.abs.consumer t (k.abs s.heap) = s.abs.consumer := by
    rw [hk]
    exact Function.update_eq_self ..
  rw [abs_setConsumer, hsame]

theorem inv_duplicate (hs : s.Inv) (hqueue : (s.consumer t).currentCommandQueue = [])
    (hpc : (s.consumer t).pc = .pop)
    (h : s' = { s.setConsumer t ⟨s.queue t, .pop⟩ with queue := Function.update s.queue t [] }) :
    s'.Inv := by
  subst h
  have hcommands : ∀ t', ({ s.setConsumer t ⟨s.queue t, .pop⟩ with
      queue := Function.update s.queue t [] } : RawDispatcher Cb).commands t' = s.commands t' := by
    intro t'
    rcases eq_or_ne t' t with rfl | hne
    · simp [commands, setConsumer, RawConsumer.commands, ConsumerPc.command, hqueue, hpc]
    · simp [commands, setConsumer, Function.update_of_ne hne]
  have hheld : ∀ t', ({ s.setConsumer t ⟨s.queue t, .pop⟩ with
      queue := Function.update s.queue t [] } : RawDispatcher Cb).held t' = s.held t' := by
    intro t'
    rcases eq_or_ne t' t with rfl | hne
    · simp [held, setConsumer, RawConsumer.buffers, RawConsumer.commands, ConsumerPc.command,
        ConsumerPc.deleting, hqueue, hpc]
    · simp [held, setConsumer, Function.update_of_ne hne]
  refine ⟨?_, hs.calls, fun t' c hc => ?_⟩
  · rw [buffers, hheld, hheld]
    exact hs.owned
  · rw [hcommands] at hc
    exact hs.stored t' c hc

/-- The freed buffer was the consumer's alone. -/
theorem inv_delete {buffer : ℕ} {user : Token} {data : Data} (hs : s.Inv)
    (hpc : (s.consumer t).pc = .delete buffer user data)
    (h : s' = { s.setPc t (.doProcess user data) with heap := s.heap.free buffer }) :
    s'.Inv ∧ s'.abs = s.abs := by
  subst h
  have hcommands : ∀ t', (s.setPc t (.doProcess user data)).commands t' = s.commands t' := by
    intro t'
    rcases eq_or_ne t' t with rfl | hne
    · simp [commands, setPc, setConsumer, RawConsumer.commands, ConsumerPc.command, hpc]
    · simp [commands, setPc, setConsumer, Function.update_of_ne hne]
  have hself : s.held t = buffer :: (s.setPc t (.doProcess user data)).held t := by
    simp [held, setPc, setConsumer, RawConsumer.buffers, RawConsumer.commands, ConsumerPc.command,
      ConsumerPc.deleting, hpc]
  have hother : (s.setPc t (.doProcess user data)).held (otherThread t) =
      s.held (otherThread t) := by
    simp [held, setPc, setConsumer, Function.update_of_ne (otherThread_ne t)]
  have howned : s.heap.Owned (buffer :: (s.setPc t (.doProcess user data)).buffers) := by
    refine hs.owned.perm ((buffers_consumer s t).trans ?_)
    rw [hself, ← hother]
    exact (buffers_consumer (s.setPc t (.doProcess user data)) t).symm.cons buffer
  have hne : ∀ b ∈ (s.setPc t (.doProcess user data)).buffers,
      s.heap.free buffer b = s.heap b :=
    fun b hb => Heap.free_of_ne (howned.ne hb) _
  have hleft : ∀ t', ∀ c ∈ (s.setPc t (.doProcess user data)).commands t',
      s.heap.free buffer c.buffer = s.heap c.buffer :=
    fun t' c hc => hne c.buffer (List.mem_append_right _ (mem_buffers hc))
  refine ⟨⟨howned.freed, fun x hx => ?_, fun t' c hc => ?_⟩, ?_⟩
  · exact holds_of_eq (hs.calls x hx) fun b hb => hne b (List.mem_append_left _
      (List.mem_filterMap.mpr ⟨x, hx, hb⟩))
  · refine stored_of_eq ?_ (hleft t' c hc)
    have hmem : c ∈ (s.setPc t (.doProcess user data)).commands t' := hc
    rw [hcommands] at hmem
    exact hs.stored t' c hmem
  · have habs : (s.setPc t (.doProcess user data)).abs = s.abs := by
      refine abs_setConsumer_of_eq ?_
      simp [RawConsumer.abs, RawConsumer.commands, ConsumerPc.taken, ConsumerPc.command,
        ConsumerPc.made, hpc]
    exact (abs_of_eq (s := s.setPc t (.doProcess user data)) hleft rfl).trans habs

/-! ### The table of commands -/

theorem commandAt_abs (s : RawDispatcher Cb) (cmd : UInt8) :
    s.abs.commandAt cmd = ((s.bare.commandAt cmd).1,
      { s.abs with mCommands := (s.bare.commandAt cmd).2.mCommands }) := by
  have htable : s.abs.mCommands cmd = s.bare.mCommands cmd := rfl
  unfold Dispatcher.commandAt
  rw [htable]
  cases s.bare.mCommands cmd <;> rfl

theorem doProcessLookup_abs (s : RawDispatcher Cb) (c : ThreadCommand) :
    (s.abs.doProcessLookup c).1 = (s.bare.doProcessLookup c).1 := by
  unfold Dispatcher.doProcessLookup
  rw [commandAt_abs]
  have hhas : s.abs.hasCommand c.command = s.bare.hasCommand c.command := rfl
  rw [hhas]
  split_ifs with hcmd
  · obtain ⟨x, hx⟩ := (Dispatcher.hasCommand_iff s.bare _).mp hcmd
    rw [Dispatcher.commandAt_of_some hx]
    have hsessions : s.abs.mSocketUsers = s.bare.mSocketUsers := rfl
    dsimp only
    rw [hsessions]
    split_ifs <;> rfl
  · rfl

theorem step_table {e : Dispatcher.Event Cb} {d : Dispatcher Cb} (he : e.ofTable = true)
    (h : Dispatcher.Step s.bare e d) : Dispatcher.Step s.abs e (s.setTable d).abs := by
  cases e with
  | addCommand cmd callback obj async =>
    have hhas : s.abs.hasCommand cmd = s.bare.hasCommand cmd := rfl
    rw [h]
    change _ = s.abs.addCommand cmd (some callback) (some obj) async
    unfold Dispatcher.addCommand
    rw [hhas]
    split_ifs <;> rfl
  | startAsync | addSession user | eraseSession user =>
    rw [h]
    rfl
  | _ => cases he

/-! ### The steps of the dispatcher -/

theorem afterLookup_abs (l : List RawCommand) (r : Option (PendingCall Cb)) :
    (RawConsumer.mk l (afterLookup r)).abs h = ⟨l.map (RawCommand.read h), r⟩ := by
  cases r <;> rfl

theorem afterLookup_buffers (l : List RawCommand) (r : Option (PendingCall Cb)) :
    (RawConsumer.mk l (afterLookup r)).buffers = l.map (·.buffer) := by
  cases r <;> rfl

theorem afterLookup_commands (l : List RawCommand) (r : Option (PendingCall Cb)) :
    (RawConsumer.mk l (afterLookup r)).commands = l := by
  cases r <;> rfl

theorem duplicate_refines (hqueue : (s.consumer t).currentCommandQueue = [])
    (hpc : (s.consumer t).pc = .pop)
    (h : s' = { s.setConsumer t ⟨s.queue t, .pop⟩ with queue := Function.update s.queue t [] }) :
    Dispatcher.Step s.abs (.duplicate t) s'.abs := by
  have hnone : s.abs.consumer t = ⟨[], none⟩ := by
    simp [abs, RawConsumer.abs, RawConsumer.commands, ConsumerPc.taken, ConsumerPc.command,
      ConsumerPc.made, hqueue, hpc]
  have habs : s'.abs = { (s.setConsumer t ⟨s.queue t, .pop⟩).abs with
      queue := Function.update s.abs.queue t [] } := by
    have hupdate : (fun t' => (Function.update s.queue t [] t').map (RawCommand.read s.heap)) =
        Function.update s.abs.queue t [] :=
      funext fun t' => Function.apply_update (fun _ l => l.map (RawCommand.read s.heap)) s.queue t [] t'
    rw [h, ← hupdate]
    rfl
  refine ⟨by rw [hnone], by rw [hnone], ?_⟩
  rw [habs, abs_setConsumer, Dispatcher.duplicate, hnone]
  rfl

theorem inv_lookup {user : Token} {data : Data} {r : Option (PendingCall Cb) × Dispatcher Cb}
    (hs : s.Inv) (hpc : (s.consumer t).pc = .doProcess user data)
    (hr : s.bare.doProcessLookup (threadCommand user data.command data.buffer data.type) = r)
    (h : s' = { s.setPc t (afterLookup r.1) with mCommands := r.2.mCommands }) :
    s'.Inv ∧ Dispatcher.Step s.abs (.lookup t) s'.abs := by
  have hsame : s' = s.setPc t (afterLookup r.1) := by
    rw [h, ← hr, Dispatcher.doProcessLookup_snd]
    rfl
  have hcommands : (s.consumer t).commands = (s.consumer t).currentCommandQueue := by
    simp [RawConsumer.commands, ConsumerPc.command, hpc]
  have hbuffers : (s.consumer t).buffers =
      (s.consumer t).currentCommandQueue.map (·.buffer) := by
    simp [RawConsumer.buffers, ConsumerPc.deleting, hpc, hcommands]
  rw [hsame]
  refine ⟨inv_setConsumer hs ?_ ?_, threadCommand user data.command data.buffer data.type,
    (s.consumer t).currentCommandQueue.map (RawCommand.read s.heap), ?_, ?_, ?_⟩
  · rw [afterLookup_buffers, hbuffers]
  · rw [afterLookup_commands, hcommands]
    exact fun _ hc => hc
  · simp [abs, RawConsumer.abs, ConsumerPc.taken, hpc, hcommands]
  · simp [abs, RawConsumer.abs, ConsumerPc.made, hpc]
  · rw [setPc, abs_setConsumer, afterLookup_abs, Dispatcher.doProcessLookup_snd,
      doProcessLookup_abs, hr]

theorem inv_call {p : PendingCall Cb} (hs : s.Inv) (hpc : (s.consumer t).pc = .call p)
    (h : s' = { s.setPc t .pop with called := s.called ++ [p] }) :
    s'.Inv ∧ Dispatcher.Step s.abs (.call t) s'.abs := by
  subst h
  have hcommands : (s.consumer t).commands = (s.consumer t).currentCommandQueue := by
    simp [RawConsumer.commands, ConsumerPc.command, hpc]
  have hinv : (s.setPc t .pop).Inv := by
    refine inv_setConsumer hs ?_ ?_
    · simp [RawConsumer.buffers, RawConsumer.commands, ConsumerPc.deleting, ConsumerPc.command, hpc]
    · rw [hcommands]
      exact fun _ hc => hc
  have hconsumer : s.abs.consumer t =
      ⟨(s.consumer t).currentCommandQueue.map (RawCommand.read s.heap), some p⟩ := by
    simp [abs, RawConsumer.abs, RawConsumer.commands, ConsumerPc.taken, ConsumerPc.command,
      ConsumerPc.made, hpc]
  have habs : ({ s.setPc t .pop with called := s.called ++ [p] } : RawDispatcher Cb).abs =
      { (s.setPc t .pop).abs with called := s.called ++ [p] } := rfl
  refine ⟨⟨hinv.owned, hinv.calls, hinv.stored⟩, p, by rw [hconsumer], ?_⟩
  rw [habs, setPc, abs_setConsumer, hconsumer]
  rfl

/-! ### A run -/

/-- One statement keeps the invariant, and is a step of the dispatcher or nothing to it. -/
theorem step_refines {e : Event Cb} (hs : s.Inv) (h : Step s e s') :
    s'.Inv ∧ ((dispatch (s, e) = none ∧ s'.abs = s.abs) ∨
      ∃ e', dispatch (s, e) = some (s.abs, e') ∧ Dispatcher.Step s.abs e' s'.abs) := by
  cases e with
  | table e =>
    obtain ⟨he, d, hd, rfl⟩ := h
    exact ⟨⟨hs.owned, hs.calls, hs.stored⟩, .inr ⟨e, rfl, step_table he hd⟩⟩
  | receive user command data type =>
    cases h
    refine ⟨inv_receive hs rfl, .inr ⟨_, rfl, ?_⟩⟩
    · change _ = s.abs.processLookup user command data type
      simp only [Dispatcher.processLookup, commandAt_abs]
      simp [abs, bare]
  | allocate i buffer block =>
    obtain ⟨x, hx, hpc, hfree, hlen, h⟩ := h
    obtain ⟨hinv, habs⟩ := inv_allocate hs hx hpc hfree hlen h
    exact ⟨hinv, .inl ⟨rfl, habs⟩⟩
  | copy i =>
    obtain ⟨x, buffer, block, hx, hpc, hblock, -, h⟩ := h
    obtain ⟨hinv, habs⟩ := inv_copy hs hx hpc hblock h
    exact ⟨hinv, .inl ⟨rfl, habs⟩⟩
  | push i =>
    obtain ⟨x, buffer, hx, hpc, h⟩ := h
    obtain ⟨hinv, habs⟩ := inv_push hs hx hpc h
    refine ⟨hinv, .inr ⟨_, rfl, (x.commandObj, x.input), ?_, ?_⟩⟩
    · simp [abs, hx]
    · rw [habs]
      rfl
  | duplicate t =>
    obtain ⟨hqueue, hpc, h⟩ := h
    refine ⟨inv_duplicate hs hqueue hpc h, .inr ⟨_, rfl, ?_⟩⟩
    exact duplicate_refines hqueue hpc h
  | pop t =>
    obtain ⟨c, rest, hqueue, hpc, rfl⟩ := h
    refine ⟨inv_setConsumer hs ?_ ?_, .inl ⟨rfl, abs_setConsumer_of_eq ?_⟩⟩
    · simp [RawConsumer.buffers, RawConsumer.commands, ConsumerPc.deleting, ConsumerPc.command,
        hqueue, hpc]
    · simp [RawConsumer.commands, ConsumerPc.command, hqueue, hpc]
    · simp [RawConsumer.abs, RawConsumer.commands, ConsumerPc.taken, ConsumerPc.command,
        ConsumerPc.made, hqueue, hpc]
  | makeData t =>
    obtain ⟨c, block, hpc, hblock, -, rfl⟩ := h
    refine ⟨inv_setConsumer hs ?_ ?_, .inl ⟨rfl, abs_setConsumer_of_eq ?_⟩⟩
    · simp [RawConsumer.buffers, RawConsumer.commands, ConsumerPc.deleting, ConsumerPc.command, hpc]
    · intro c' hc'
      exact List.mem_append_right _ hc'
    · simp [RawConsumer.abs, RawConsumer.commands, ConsumerPc.taken, ConsumerPc.command,
        ConsumerPc.made, RawCommand.read, hblock, hpc]
  | delete t =>
    obtain ⟨buffer, user, data, hpc, -, h⟩ := h
    obtain ⟨hinv, habs⟩ := inv_delete hs hpc h
    exact ⟨hinv, .inl ⟨rfl, habs⟩⟩
  | lookup t =>
    obtain ⟨user, data, hpc, h⟩ := h
    obtain ⟨hinv, hst⟩ := inv_lookup hs hpc rfl h
    exact ⟨hinv, .inr ⟨_, rfl, hst⟩⟩
  | call t =>
    obtain ⟨p, hpc, h⟩ := h
    obtain ⟨hinv, hst⟩ := inv_call hs hpc h
    exact ⟨hinv, .inr ⟨_, rfl, hst⟩⟩

theorem inv_init (h : Init s) : s.Inv := by
  have hheld : ∀ t, s.held t = [] := by
    intro t
    simp [held, RawConsumer.buffers, RawConsumer.commands, ConsumerPc.deleting, ConsumerPc.command,
      h.consumer, h.queue]
  refine ⟨?_, ?_, fun t c hc => ?_⟩
  · rw [h.heap, buffers, h.receiving, hheld, hheld]
    exact Heap.owned_empty
  · rw [h.receiving]
    exact nofun
  · simp [commands, RawConsumer.commands, ConsumerPc.command, h.consumer, h.queue] at hc

theorem init_abs (h : Init s) : Dispatcher.Init s.abs := by
  refine ⟨h.mCommands, ?_, fun t => ?_, fun t => ?_, h.called⟩
  · simp [abs, h.receiving]
  · simp [abs, h.queue]
  · simp [abs, h.consumer, RawConsumer.abs, RawConsumer.commands, ConsumerPc.taken,
      ConsumerPc.command, ConsumerPc.made]

/-- In every interleaving of the I/O threads and the consumers: each buffer that was
allocated is owned once until it is freed, every copy, read and `delete` finds its buffer,
and the commands are handled as if the queues held the bytes themselves. -/
theorem buffers_owned_once (tr : List (RawDispatcher Cb × Event Cb)) (s : RawDispatcher Cb)
    (h : (system Cb).Exec tr s) :
    s.BuffersThere ∧ (Dispatcher.system Cb).Exec (tr.filterMap dispatch) s.abs := by
  obtain ⟨hinv, hrefines⟩ := System.Exec.project (S := system Cb) (T := Dispatcher.system Cb) abs
    dispatch Inv (fun _ hi => ⟨inv_init hi, init_abs hi⟩) (fun _ _ _ hs hst => step_refines hs hst) h
  exact ⟨hinv.buffersThere, hrefines⟩

def emptyRaw : RawDispatcher ℕ where
  mCommands := fun _ => none
  mSocketUsers := []
  mRunAsyncCommands := false
  queue := fun _ => []
  receiving := []
  consumer := fun _ => ⟨[], .pop⟩
  called := []
  heap := Heap.empty _

/-- A command is handled up to `DoProcess` while the next one is copied, to the address that
the first one had. -/
theorem buffer_reused : ∃ tr s, (system ℕ).Exec tr s ∧
    (s.consumer .main).pc = .doProcess "A" ⟨.tcp, 1, [5, 6]⟩ ∧ s.heap 7 = some [8] ∧
    s.BuffersThere ∧ (Dispatcher.system ℕ).Exec (tr.filterMap dispatch) s.abs := by
  have h0 : (system ℕ).Exec [] emptyRaw := .nil ⟨rfl, rfl, fun _ => rfl, fun _ => rfl, rfl, rfl⟩
  have h1 := (((((((((h0.next (.receive "A" 1 [5, 6] .tcp) _ rfl).next
    (.allocate 0 7 [0, 0]) _ ⟨_, rfl, rfl, rfl, rfl, rfl⟩).next
    (.copy 0) _ ⟨_, _, _, rfl, rfl, rfl, le_refl 2, rfl⟩).next
    (.push 0) _ ⟨_, _, rfl, rfl, rfl⟩).next
    (.duplicate .main) _ ⟨rfl, rfl, rfl⟩).next
    (.pop .main) _ ⟨_, _, rfl, rfl, rfl⟩).next
    (.makeData .main) _ ⟨_, _, rfl, rfl, le_refl 2, rfl⟩).next
    (.delete .main) _ ⟨_, _, _, rfl, rfl, rfl⟩).next
    (.receive "B" 1 [8] .udp) _ rfl).next
    (.allocate 0 7 [0]) _ ⟨_, rfl, rfl, rfl, rfl, rfl⟩
  have h2 := h1.next (.copy 0) _ ⟨_, _, _, rfl, rfl, rfl, le_refl 1, rfl⟩
  obtain ⟨hthere, hrefines⟩ := buffers_owned_once _ _ h2
  exact ⟨_, _, h2, rfl, rfl, hthere, hrefines⟩

end RawDispatcher

end GameServer
