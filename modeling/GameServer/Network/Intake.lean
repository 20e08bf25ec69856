import GameServer.Network.CommandQueues
import GameServer.Network.Framing

/-! From the bytes of the clients to the callbacks of their commands: the TCP sessions
with their streams, the one thread that runs `handle_read` for all of them, the UDP
thread, and the command queues with their consumers. The handshakes are over. -/

namespace GameServer

open Lib BufferUtils
open scoped List

structure Intake (Cb : Type) where
  dispatcher : Dispatcher Cb
  /-- the bytes that have come for a session and that no read has taken -/
  stream : SessionRef → List UInt8
  /-- a length read is pending -/
  reading : SessionRef → Bool
  /-- all bytes that have come for a session; read by proofs only -/
  arrived : SessionRef → List UInt8

/-- The command of a frame that was handed to `ProcessReceiveBuffer`. -/
def ReadOutcome.command : ReadOutcome → Option ThreadCommand
  | .delivered command => command
  | .closed | .stopped | .removed => none

/-- The next length read is started. -/
def ReadOutcome.goesOn : ReadOutcome → Bool
  | .delivered _ => true
  | .closed | .stopped | .removed => false

/-- A command that a TCP connection of the session received. -/
def ThreadCommand.ofSession (token : Token) (c : ThreadCommand) : Bool :=
  c.user = token && c.type = .tcp

/-- `Process` is called on the TCP thread. -/
def Dispatcher.Event.overTcp {Cb : Type} : Dispatcher.Event Cb → Bool
  | .receive _ _ _ type => type = .tcp
  | _ => false

namespace Intake

variable {Cb : Type}

inductive Event (Cb : Type) where
  /-- bytes come in for a session -/
  | arrive (user : SessionRef) (bytes : List UInt8)
  /-- `handle_read`, up to the push of `Process`, with the rest of the stream after the
  length -/
  | handleRead (user : SessionRef) (error : Option ℕ) (isOpen : Bool)
      (lengthBuff : UInt8 × UInt8) (rest : List UInt8)
  /-- the push of `Process`, the UDP thread and the consumers -/
  | dispatcher (event : Dispatcher.Event Cb)

/-- `processLookup` for the command, if there is one. -/
def process (s : Dispatcher Cb) : Option ThreadCommand → Dispatcher Cb
  | some c => s.processLookup c.user c.command c.buffer c.type
  | none => s

def finishRead (s : Intake Cb) (user : SessionRef) (r : ReadOutcome × List UInt8) : Intake Cb :=
  { s with
    dispatcher := process s.dispatcher r.1.command
    stream := Function.update s.stream user r.2
    reading := Function.update s.reading user r.1.goesOn }

/-- The TCP thread is not in `Process`. -/
def TcpIdle (s : Intake Cb) : Prop := ∀ x ∈ s.dispatcher.receiving, x.2.type ≠ .tcp

variable (token : SessionRef → Token)

def Step (s : Intake Cb) (e : Event Cb) (s' : Intake Cb) : Prop :=
  match e with
  | .arrive user bytes =>
    s' = { s with
      stream := Function.update s.stream user (s.stream user ++ bytes)
      arrived := Function.update s.arrived user (s.arrived user ++ bytes) }
  | .handleRead user error isOpen lengthBuff rest =>
    s.reading user = true ∧ s.TcpIdle ∧
      (error = none → s.stream user = lengthBuff.1 :: lengthBuff.2 :: rest) ∧
      s' = s.finishRead user (handleRead (token user) error isOpen lengthBuff rest)
  | .dispatcher e => e.overTcp = false ∧ ∃ t, Dispatcher.Step s.dispatcher e t ∧
      s' = { s with dispatcher := t }

structure Init (s : Intake Cb) : Prop where
  dispatcher : s.dispatcher.Init
  stream : ∀ u, s.stream u = []
  reading : ∀ u, s.reading u = true
  arrived : ∀ u, s.arrived u = []

def system (Cb : Type) : System (Intake Cb) (Event Cb) := ⟨Init, Step token⟩

/-- The step as one of the command queues. -/
def dispatch : Intake Cb × Event Cb → Option (Dispatcher Cb × Dispatcher.Event Cb)
  | (_, .arrive _ _) => none
  | (s, .handleRead user error isOpen lengthBuff rest) =>
    (handleRead (token user) error isOpen lengthBuff rest).1.command.map fun c =>
      (s.dispatcher, .receive c.user c.command c.buffer c.type)
  | (s, .dispatcher e) => some (s.dispatcher, e)

/-- The run of the command queues. -/
def dispatched (tr : List (Intake Cb × Event Cb)) : List (Dispatcher Cb × Dispatcher.Event Cb) :=
  tr.filterMap (dispatch token)

/-- The queue that the step pushes to, and the command. -/
def pushedTo : Dispatcher Cb × Dispatcher.Event Cb → Option (Thread × ThreadCommand)
  | (s, .push i) => s.receiving[i]?.map fun x => (s.route x.1, x.2)
  | _ => none

/-- The commands of the session that were pushed to the queues. -/
def handled (user : SessionRef) (tr : List (Intake Cb × Event Cb)) :
    List (Thread × ThreadCommand) :=
  ((dispatched token tr).filterMap pushedTo).filter fun x => x.2.ofSession (token user)

/-- The command of the session that `Process` has copied and not pushed. -/
def inFlight (user : SessionRef) (s : Intake Cb) : List ThreadCommand :=
  (s.dispatcher.receiving.map Prod.snd).filter fun c => c.ofSession (token user)

/-! ### One call of `handle_read` -/

theorem handleRead_cases (user : Token) (error : Option ℕ) (isOpen : Bool)
    (lengthBuff : UInt8 × UInt8) (stream : List UInt8) {r : ReadOutcome × List UInt8}
    (hr : GameServer.handleRead user error isOpen lengthBuff stream = r) :
    (r.1.command = none ∧ r.1.goesOn = false) ∨
      error = none ∧ ∃ c body, r.1 = .delivered (some (threadCommand user c body .tcp)) ∧
        stream = c :: body ++ r.2 ∧ (word16 lengthBuff.1 lengthBuff.2).toNat = body.length + 1 := by
  obtain ⟨outcome, rest⟩ := r
  cases error with
  | some code =>
    simp only [GameServer.handleRead] at hr
    split_ifs at hr <;> cases hr <;> exact .inl ⟨rfl, rfl⟩
  | none =>
    cases isOpen with
    | false =>
      simp only [GameServer.handleRead, Bool.not_false, if_true] at hr
      split_ifs at hr <;> cases hr <;> exact .inl ⟨rfl, rfl⟩
    | true =>
      cases outcome with
      | delivered command =>
        obtain ⟨c, body, rfl, hstream, hlen⟩ := handleRead_delivered hr
        exact .inr ⟨rfl, c, body, rfl, hstream, hlen⟩
      | closed | stopped | removed => exact .inl ⟨rfl, rfl⟩

/-! ### The run of the command queues -/

variable {token} {s s' : Intake Cb} {tr : List (Intake Cb × Event Cb)}

theorem dispatched_snoc (x : Intake Cb × Event Cb) :
    dispatched token (tr ++ [x]) = dispatched token tr ++ (dispatch token x).toList :=
  Dispatcher.filterMap_snoc _ _ _

/-- A step leaves the command queues alone or is one of theirs, and then the TCP thread
receives nothing while it has something to push. -/
theorem step_dispatch {e : Event Cb} (h : Step token s e s') :
    (dispatch token (s, e) = none ∧ s'.dispatcher = s.dispatcher) ∨
      ∃ e', dispatch token (s, e) = some (s.dispatcher, e') ∧
        Dispatcher.Step s.dispatcher e' s'.dispatcher ∧ (e'.overTcp = true → s.TcpIdle) := by
  cases e with
  | arrive user bytes =>
    cases h
    exact .inl ⟨rfl, rfl⟩
  | handleRead user error isOpen lengthBuff rest =>
    obtain ⟨-, hidle, -, rfl⟩ := h
    simp only [dispatch, finishRead]
    cases (GameServer.handleRead (token user) error isOpen lengthBuff rest).1.command with
    | none => exact .inl ⟨rfl, rfl⟩
    | some c => exact .inr ⟨_, rfl, rfl, fun _ => hidle⟩
  | dispatcher e =>
    obtain ⟨he, t, hst, rfl⟩ := h
    refine .inr ⟨e, rfl, hst, fun htcp => ?_⟩
    rw [he] at htcp
    cases htcp

theorem exec_dispatched (h : (system token Cb).Exec tr s) :
    (Dispatcher.system Cb).Exec (dispatched token tr) s.dispatcher := by
  refine (System.Exec.project (S := system token Cb) (T := Dispatcher.system Cb) (·.dispatcher)
    (dispatch token) (fun _ => True) (fun s hi => ⟨trivial, hi.dispatcher⟩)
    (fun s e s' _ hst => ⟨trivial, ?_⟩) h).2
  rcases step_dispatch hst with hnone | ⟨e', hsome, hstep, -⟩
  · exact .inl hnone
  · exact .inr ⟨e', hsome, hstep⟩

/-! ### One TCP command at a time -/

/-- A command that came over TCP. -/
def overTcp (c : ThreadCommand) : Bool := c.type = .tcp

/-- What the TCP thread has copied and not pushed. -/
def tcpReceiving (s : Dispatcher Cb) : List ThreadCommand :=
  (s.receiving.map Prod.snd).filter overTcp

theorem receiving_same {s s' : Dispatcher Cb} {e : Dispatcher.Event Cb}
    (h : Dispatcher.Step s e s')
    (hreceive : ∀ user command data type, e ≠ .receive user command data type)
    (hpush : ∀ i, e ≠ .push i) : s'.receiving = s.receiving := by
  cases e with
  | receive user command data type => exact absurd rfl (hreceive user command data type)
  | push i => exact absurd rfl (hpush i)
  | addCommand cmd callback obj async =>
    subst h
    unfold Dispatcher.addCommand
    split_ifs <;> rfl
  | duplicate t =>
    obtain ⟨-, -, rfl⟩ := h
    rfl
  | lookup t =>
    obtain ⟨c, rest, -, -, rfl⟩ := h
    rw [Dispatcher.doProcessLookup_snd]
  | call t =>
    obtain ⟨p, -, rfl⟩ := h
    rfl
  | startAsync | addSession _ | eraseSession _ =>
    subst h
    rfl

/-- The only TCP command that is copied is the next one to be pushed. -/
theorem tcpReceiving_step {s s' : Dispatcher Cb} {e : Dispatcher.Event Cb}
    (h : Dispatcher.Step s e s') (hone : (tcpReceiving s).length ≤ 1)
    (hidle : e.overTcp = true → tcpReceiving s = []) :
    tcpReceiving s ++ (Dispatcher.copied (s, e)).toList.filter overTcp =
        ((pushedTo (s, e)).map Prod.snd).toList.filter overTcp ++ tcpReceiving s' ∧
      (tcpReceiving s').length ≤ 1 := by
  cases e with
  | receive user command data type =>
    have hs' : tcpReceiving s' =
        tcpReceiving s ++ [threadCommand user command data type].filter overTcp := by
      subst h
      have hreceiving : (s.commandAt command).2.receiving = s.receiving := by
        unfold Dispatcher.commandAt
        split <;> rfl
      simp [tcpReceiving, Dispatcher.processLookup, hreceiving]
    rw [hs']
    refine ⟨rfl, ?_⟩
    cases type with
    | tcp =>
      rw [hidle rfl]
      exact le_refl 1
    | udp => simpa [overTcp, threadCommand] using hone
  | push i =>
    obtain ⟨x, hx, rfl⟩ := h
    obtain ⟨before, after, hsplit, hafter, -⟩ := Dispatcher.split_at hx
    have hpushed : (pushedTo (s, .push i)).map Prod.snd = some x.2 := by simp [pushedTo, hx]
    rw [hpushed]
    simp only [tcpReceiving, Dispatcher.copied, hafter] at hone ⊢
    simp only [hsplit, List.map_append, List.map_cons, List.filter_append] at hone ⊢
    cases htcp : overTcp x.2 with
    | false => simpa [htcp] using hone
    | true =>
      simp only [htcp, List.filter_cons_of_pos, List.length_append, List.length_cons] at hone
      have hbefore : (before.map Prod.snd).filter overTcp = [] :=
        List.eq_nil_of_length_eq_zero (by omega)
      have hrest : (after.map Prod.snd).filter overTcp = [] :=
        List.eq_nil_of_length_eq_zero (by omega)
      simp [hbefore, hrest, htcp]
  | addCommand _ _ _ _ | duplicate _ | lookup _ | call _ | startAsync | addSession _
  | eraseSession _ =>
    have hsame : tcpReceiving s' = tcpReceiving s := by
      rw [tcpReceiving, receiving_same h (by simp) (by simp)]
      rfl
    rw [hsame]
    exact ⟨List.append_nil _, hone⟩

theorem tcpReceiving_idle (h : s.TcpIdle) : tcpReceiving s.dispatcher = [] := by
  refine List.filter_eq_nil_iff.mpr fun c hc => ?_
  obtain ⟨x, hx, rfl⟩ := List.mem_map.mp hc
  simp [overTcp, h x hx]

/-- The TCP commands are pushed in the order in which they were copied. -/
theorem exec_overTcp (h : (system token Cb).Exec tr s) :
    ((dispatched token tr).filterMap Dispatcher.copied).filter overTcp =
        (((dispatched token tr).filterMap pushedTo).map Prod.snd).filter overTcp ++
          tcpReceiving s.dispatcher ∧
      (tcpReceiving s.dispatcher).length ≤ 1 := by
  induction h with
  | nil hi =>
    rw [tcpReceiving, hi.dispatcher.receiving]
    exact ⟨rfl, Nat.zero_le 1⟩
  | snoc _ hst ih =>
    obtain ⟨hsame, hone⟩ := ih
    rw [dispatched_snoc]
    rcases step_dispatch hst with ⟨hnone, hdispatcher⟩ | ⟨e', hsome, hstep, hidle⟩
    · rw [hnone, hdispatcher]
      simpa using ⟨hsame, hone⟩
    · obtain ⟨hmove, hone'⟩ :=
        tcpReceiving_step hstep hone fun htcp => tcpReceiving_idle (hidle htcp)
      refine ⟨?_, hone'⟩
      rw [hsome, Option.toList_some, Dispatcher.filterMap_snoc, Dispatcher.filterMap_snoc,
        List.filter_append, hsame, List.append_assoc, hmove, List.map_append, List.filter_append,
        List.append_assoc]
      cases pushedTo (_, e') <;> rfl

/-! ### The commands of one session -/

variable {user : SessionRef}

/-- The commands of the session that the TCP thread has copied so far. -/
def copiedOf (token : SessionRef → Token) (user : SessionRef)
    (tr : List (Intake Cb × Event Cb)) : List ThreadCommand :=
  ((dispatched token tr).filterMap Dispatcher.copied).filter fun c => c.ofSession (token user)

theorem filter_ofSession (t : Token) (l : List ThreadCommand) :
    l.filter (fun c => c.ofSession t) = (l.filter overTcp).filter fun c => c.user = t := by
  rw [List.filter_filter]
  rfl

theorem copiedOf_eq (h : (system token Cb).Exec tr s) :
    copiedOf token user tr = (handled token user tr).map Prod.snd ++ inFlight token user s := by
  obtain ⟨hsame, -⟩ := exec_overTcp h
  have hhandled : (handled token user tr).map Prod.snd =
      (((dispatched token tr).filterMap pushedTo).map Prod.snd).filter
        fun c => c.ofSession (token user) := by
    rw [List.filter_map]
    rfl
  rw [hhandled, copiedOf, inFlight, filter_ofSession, filter_ofSession, filter_ofSession, hsame,
    List.filter_append]
  rfl

/-- The bytes of the session so far: the frames of its commands, and what no read has
taken while reading goes on. -/
structure Framed (token : SessionRef → Token) (user : SessionRef)
    (tr : List (Intake Cb × Event Cb)) (s : Intake Cb) : Prop where
  fits : ∀ c ∈ copiedOf token user tr, c.received.length ≤ 65535
  frames : ∃ rest, s.arrived user =
    ((copiedOf token user tr).map ThreadCommand.received).flatMap addLength ++ rest ∧
      (s.reading user = true → rest = s.stream user)

theorem copiedOf_snoc (x : Intake Cb × Event Cb) :
    copiedOf token user (tr ++ [x]) = copiedOf token user tr ++
      ((dispatch token x).bind Dispatcher.copied).toList.filter
        fun c => c.ofSession (token user) := by
  rw [copiedOf, dispatched_snoc, List.filterMap_append, List.filter_append]
  cases dispatch token x with
  | none => rfl
  | some y =>
    rw [Option.toList_some, List.filterMap_cons]
    cases hcopied : Dispatcher.copied y <;> simp [hcopied, copiedOf]

/-- A step that copies no command of the session and takes nothing from its stream. -/
theorem Framed.same {e : Event Cb} (hs : Framed token user tr s)
    (hcopied : ∀ c, (dispatch token (s, e)).bind Dispatcher.copied = some c →
      c.ofSession (token user) = false)
    (harrived : s'.arrived user = s.arrived user)
    (hreading : s'.reading user = true → s.reading user = true ∧ s'.stream user = s.stream user) :
    Framed token user (tr ++ [(s, e)]) s' := by
  have hsame : copiedOf token user (tr ++ [(s, e)]) = copiedOf token user tr := by
    rw [copiedOf_snoc]
    cases hbind : (dispatch token (s, e)).bind Dispatcher.copied with
    | none => exact List.append_nil _
    | some c => simp [hcopied c hbind]
  obtain ⟨rest, hframes, hrest⟩ := hs.frames
  refine ⟨by rw [hsame]; exact hs.fits, rest, by rw [hsame, harrived, hframes], fun hr => ?_⟩
  obtain ⟨hr, hstream⟩ := hreading hr
  rw [hstream, hrest hr]

/-- One frame goes from the stream of the session to its commands. -/
theorem Framed.delivered {error : Option ℕ} {isOpen : Bool} {lengthBuff : UInt8 × UInt8}
    {stream body : List UInt8} {c : UInt8} {r : ReadOutcome × List UInt8}
    (hs : Framed token user tr s) (hreading : s.reading user = true)
    (hstream : s.stream user = lengthBuff.1 :: lengthBuff.2 :: stream)
    (hr : GameServer.handleRead (token user) error isOpen lengthBuff stream = r)
    (hdelivered : r.1 = .delivered (some (threadCommand (token user) c body .tcp)))
    (hrest : stream = c :: body ++ r.2)
    (hlen : (word16 lengthBuff.1 lengthBuff.2).toNat = body.length + 1) :
    Framed token user (tr ++ [(s, .handleRead user error isOpen lengthBuff stream)])
      (s.finishRead user r) := by
  have hcopied : copiedOf token user
      (tr ++ [(s, .handleRead user error isOpen lengthBuff stream)]) =
        copiedOf token user tr ++ [threadCommand (token user) c body .tcp] := by
    rw [copiedOf_snoc, dispatch, hr, hdelivered]
    simp [ReadOutcome.command, Dispatcher.copied, threadCommand, ThreadCommand.ofSession]
  have hreceived : (threadCommand (token user) c body .tcp).received = c :: body := rfl
  obtain ⟨rest, hframes, hkept⟩ := hs.frames
  constructor
  · rw [hcopied]
    refine List.forall_mem_append.mpr ⟨hs.fits, List.forall_mem_singleton.mpr ?_⟩
    have hlt := (word16 lengthBuff.1 lengthBuff.2).toNat_lt
    rw [hreceived, List.length_cons]
    omega
  · refine ⟨r.2, ?_, fun _ => by simp [finishRead]⟩
    have hframe : addLength (c :: body) = lengthBuff.1 :: lengthBuff.2 :: c :: body :=
      addLength_eq hlen.symm
    have harrived : (s.finishRead user r).arrived user = s.arrived user := rfl
    rw [hcopied, harrived, hframes, hkept hreading, hstream, hrest, List.map_append,
      List.flatMap_append, List.append_assoc]
    simp [hreceived, hframe]

theorem framed_step {e : Event Cb} (hu : ∀ v, token v = token user → v = user)
    (hs : Framed token user tr s) (h : Step token s e s') :
    Framed token user (tr ++ [(s, e)]) s' := by
  cases e with
  | arrive v bytes =>
    cases h
    rcases eq_or_ne user v with rfl | hne
    · obtain ⟨rest, hframes, hkept⟩ := hs.frames
      have hsame : copiedOf token user (tr ++ [(s, .arrive user bytes)]) =
          copiedOf token user tr := by
        rw [copiedOf_snoc]
        exact List.append_nil _
      refine ⟨by rw [hsame]; exact hs.fits, rest ++ bytes, ?_, fun hr => ?_⟩
      · rw [hsame, ← List.append_assoc, ← hframes]
        exact Function.update_self ..
      · dsimp only at hr ⊢
        rw [Function.update_self, hkept hr]
    · refine hs.same nofun ?_ fun hr => ⟨hr, ?_⟩
      · exact Function.update_of_ne hne ..
      · exact Function.update_of_ne hne ..
  | handleRead v error isOpen lengthBuff stream =>
    obtain ⟨hreading, -, hstream, rfl⟩ := h
    rcases handleRead_cases (token v) error isOpen lengthBuff stream rfl with
      ⟨hnone, hends⟩ | ⟨rfl, c, body, hdelivered, hrest, hlen⟩
    · refine hs.same (fun c hc => ?_) rfl fun hr => ?_
      · rw [dispatch, hnone] at hc
        cases hc
      · rcases eq_or_ne user v with rfl | hne
        · simp [finishRead, hends] at hr
        · simp only [finishRead, Function.update_of_ne hne] at hr ⊢
          exact ⟨hr, trivial⟩
    · rcases eq_or_ne user v with rfl | hne
      · exact hs.delivered hreading (hstream rfl) rfl hdelivered hrest hlen
      · refine hs.same (fun cmd hcmd => ?_) rfl fun hr => ?_
        · rw [dispatch, hdelivered] at hcmd
          cases hcmd
          have htoken : token v ≠ token user := fun he => hne (hu v he).symm
          simp [ThreadCommand.ofSession, threadCommand, htoken]
        · simp only [finishRead, Function.update_of_ne hne] at hr ⊢
          exact ⟨hr, trivial⟩
  | dispatcher e =>
    obtain ⟨he, t, -, rfl⟩ := h
    refine hs.same (fun c hc => ?_) rfl fun hr => ⟨hr, rfl⟩
    cases e with
    | receive _ _ _ type =>
      cases hc
      cases type with
      | tcp => cases he
      | udp => simp [ThreadCommand.ofSession, threadCommand]
    | _ => cases hc

theorem exec_framed (hu : ∀ v, token v = token user → v = user)
    (h : (system token Cb).Exec tr s) : Framed token user tr s := by
  refine h.trace_inv (Framed token user) (fun s hi => ?_) fun _ _ _ _ _ => framed_step hu
  refine ⟨nofun, [], ?_, fun _ => (hi.stream user).symm⟩
  rw [hi.arrived]
  rfl

/-! ### Bytes to callbacks -/

/-- The arguments are those of a command that came over TCP from the session. -/
def argsOfSession (t : Token) (x : Token × Data) : Bool := x.1 = t && x.2.type = .tcp

/-- What the bytes of a session become. -/
structure InOrder (token : SessionRef → Token) (user : SessionRef)
    (tr : List (Intake Cb × Event Cb)) (s : Intake Cb) : Prop where
  /-- its commands are the first frames of its stream, as they were sent -/
  frames : ∃ unread left, readLoop (token user) (s.arrived user) =
    (((handled token user tr).map Prod.snd ++ inFlight token user s).map
      ThreadCommand.received ++ unread, left) ∧
    (s.reading user = true → readLoop (token user) (s.stream user) = (unread, left))
  /-- each consumer takes those of its queue in this order -/
  queues : ∀ t, ((handled token user tr).filter fun x => x.1 = t).map Prod.snd =
    ((dispatched token tr).filterMap (Dispatcher.taken t) ++ s.dispatcher.waiting t).filter
      fun c => c.ofSession (token user)
  /-- and calls callbacks for some of them, in this order -/
  calls : ∀ t,
    (((dispatched token tr).filterMap (Dispatcher.callMade t)).map PendingCall.args).filter
      (argsOfSession (token user)) <+
        ((handled token user tr).filter fun x => x.1 = t).map fun x => x.2.args

theorem pushed_eq (t : Thread) (tr : List (Dispatcher Cb × Dispatcher.Event Cb)) :
    tr.filterMap (Dispatcher.pushed t) =
      ((tr.filterMap pushedTo).filter fun x => x.1 = t).map Prod.snd := by
  induction tr with
  | nil => rfl
  | cons x tr ih =>
    obtain ⟨s, e⟩ := x
    cases e with
    | push i =>
      simp only [List.filterMap_cons, Dispatcher.pushed, pushedTo, ih]
      cases s.receiving[i]? with
      | none => rfl
      | some y => by_cases ht : s.route y.1 = t <;> simp [ht]
    | _ => simpa [List.filterMap_cons, Dispatcher.pushed, pushedTo] using ih

theorem queues_eq (user : SessionRef) (h : (system token Cb).Exec tr s) (t : Thread) :
    ((handled token user tr).filter fun x => x.1 = t).map Prod.snd =
      ((dispatched token tr).filterMap (Dispatcher.taken t) ++ s.dispatcher.waiting t).filter
        fun c => c.ofSession (token user) := by
  rw [← Dispatcher.exec_order (exec_dispatched h) t, pushed_eq, List.filter_map, handled,
    List.filter_filter, List.filter_filter]
  congr 2
  funext x
  exact Bool.and_comm ..

theorem calls_sublist (h : (system token Cb).Exec tr s) (t : Thread) :
    (((dispatched token tr).filterMap (Dispatcher.callMade t)).map PendingCall.args).filter
      (argsOfSession (token user)) <+
        ((handled token user tr).filter fun x => x.1 = t).map fun x => x.2.args := by
  have hcalls := Dispatcher.exec_calls_sublist (exec_dispatched h) t
  have hmade : ((dispatched token tr).filterMap (Dispatcher.callMade t)).map PendingCall.args <+
      ((dispatched token tr).filterMap (Dispatcher.taken t) ++ s.dispatcher.waiting t).map
        ThreadCommand.args := by
    refine List.Sublist.trans ?_ ((List.sublist_append_left _ _).map _)
    rw [List.map_append] at hcalls
    exact (List.sublist_append_left _ _).trans hcalls
  have hqueues := congrArg (List.map ThreadCommand.args) (queues_eq user h t)
  rw [List.map_map] at hqueues
  refine (hmade.filter (argsOfSession (token user))).trans ?_
  rw [List.filter_map]
  exact hqueues ▸ List.Sublist.refl _

theorem frames_eq (h : (system token Cb).Exec tr s)
    (hu : ∀ v, token v = token user → v = user) :
    ∃ unread left, readLoop (token user) (s.arrived user) =
      (((handled token user tr).map Prod.snd ++ inFlight token user s).map
        ThreadCommand.received ++ unread, left) ∧
      (s.reading user = true → readLoop (token user) (s.stream user) = (unread, left)) := by
  obtain ⟨hfits, rest, hframes, hkept⟩ := exec_framed hu h
  have hread : ∀ m ∈ (copiedOf token user tr).map ThreadCommand.received, ∀ rest,
      (frameReader (token user)).read (addLength m ++ rest) = some (m, rest) := by
    intro m hm rest
    obtain ⟨c, hc, rfl⟩ := List.mem_map.mp hm
    exact readFrame_frame (token user) ⟨c.received, by simp [ThreadCommand.received, addFirst, add],
      hfits c hc⟩ rest
  have hall := Reader.readAll_flatMap addLength _ hread rest
  rw [← hframes, copiedOf_eq h] at hall
  refine ⟨(readLoop (token user) rest).1, (readLoop (token user) rest).2, hall, fun hr => ?_⟩
  rw [← hkept hr]

/-- For every session whose token is its own, and any interleaving of all sessions: its
bytes become its commands frame by frame, and each consumer handles them in order. -/
theorem bytes_in_order (token : SessionRef → Token) (tr : List (Intake Cb × Event Cb))
    (s : Intake Cb) (h : (system token Cb).Exec tr s) (user : SessionRef)
    (hu : ∀ v, token v = token user → v = user) : InOrder token user tr s :=
  ⟨frames_eq h hu, queues_eq user h, calls_sublist h⟩

/-! ### One frame of one session -/

def twoTokens : SessionRef → Token
  | 0 => "A"
  | _ => "B"

theorem twoTokens_zero (v : SessionRef) (h : twoTokens v = twoTokens 0) : v = 0 := by
  cases v with
  | zero => rfl
  | succ v => simp [twoTokens] at h

def quiet : Intake ℕ := ⟨Dispatcher.fresh ℕ, fun _ => [], fun _ => true, fun _ => []⟩

theorem quiet_exec : (system twoTokens ℕ).Exec [] quiet :=
  .nil ⟨⟨rfl, rfl, fun _ => rfl, fun _ => rfl, rfl⟩, fun _ => rfl, fun _ => rfl, fun _ => rfl⟩

/-- The frame of the command 1 with the body `[5, 6]` comes in two parts and is called
for. -/
theorem frame_called : ∃ tr s, (system twoTokens ℕ).Exec tr s ∧
    s.arrived 0 = [3, 0, 1, 5, 6] ∧ InOrder twoTokens 0 tr s ∧
    ((dispatched twoTokens tr).filterMap (Dispatcher.callMade .main)).map PendingCall.args =
      [("A", ⟨.tcp, 1, [5, 6]⟩)] := by
  have h := ((((((((quiet_exec.next (.dispatcher (.addCommand 1 0 0 false)) _ ⟨rfl, _, rfl, rfl⟩).next
    (.dispatcher (.addSession "A")) _ ⟨rfl, _, rfl, rfl⟩).next
    (.arrive 0 [3, 0, 1]) _ rfl).next
    (.arrive 0 [5, 6]) _ rfl).next
    (.handleRead 0 none true (3, 0) [1, 5, 6]) _ ⟨rfl, nofun, fun _ => rfl, rfl⟩).next
    (.dispatcher (.push 0)) _ ⟨rfl, _, ⟨_, rfl, rfl⟩, rfl⟩).next
    (.dispatcher (.duplicate .main)) _ ⟨rfl, _, ⟨rfl, rfl, rfl⟩, rfl⟩).next
    (.dispatcher (.lookup .main)) _ ⟨rfl, _, ⟨_, _, rfl, rfl, rfl⟩, rfl⟩).next
    (.dispatcher (.call .main)) _ ⟨rfl, _, ⟨_, rfl, rfl⟩, rfl⟩
  exact ⟨_, _, h, rfl, bytes_in_order twoTokens _ _ h 0 twoTokens_zero, rfl⟩

end Intake

end GameServer
