import GameServer.Match.Match
import GameServer.Network.Wire

/-! From `Match::BroadcastCommand` and `IUser::Send` down to the two connections of each
session, for all sessions together: what is sent to a session is what its client can
read, once each. A call that tests `Connected` goes on with what it found. -/

namespace GameServer

open Lib BufferUtils

/-- The part of `SocketUser` that sends, with the connections it sends on. The UDP
connection is idle until `EnableUdp`. -/
structure Channel where
  connected : Bool
  udpEnabled : Bool
  udpID : UInt16
  /-- `User`, while the object it points to exists -/
  user : Option PlayerRef
  tcp : Sender
  udp : Sender

/-- A `Send` call of the connection begins. -/
def Sender.called (s : Sender) (sending : List UInt8) : Sender :=
  { s with calls := s.calls ++ [.lock (addLength sending)] }

namespace Channel

def doSendTcp (data : List UInt8) (c : Channel) : Channel :=
  if c.connected then { c with tcp := c.tcp.called data } else c

def doSendUdp (data : List UInt8) (c : Channel) : Channel :=
  if c.connected then { c with udp := c.udp.called (addUdpId c.udpID data) } else c

/-- The private `SocketUser::Send`. -/
def send (data : List UInt8) (type : Protocal) (c : Channel) : Channel :=
  if !c.connected then c
  else if type = .tcp ∨ !c.udpEnabled then c.doSendTcp data
  else c.doSendUdp data

def sender (c : Channel) : Protocal → Sender
  | .tcp => c.tcp
  | .udp => c.udp

def setSender (c : Channel) (proto : Protocal) (s : Sender) : Channel :=
  match proto with
  | .tcp => { c with tcp := s }
  | .udp => { c with udp := s }

/-- `SocketUser::Close`, down to the join of the TCP sender thread and up to what it does
to `User`. -/
def close (c : Channel) : Channel :=
  if c.connected then
    { c with connected := false, udpEnabled := false, tcp := { c.tcp with mRunning := false } }
  else c

/-- `udp_connection::Close`, which comes after the join. -/
def closeUdp (c : Channel) : Channel := { c with udp := { c.udp with mRunning := false } }

/-- The connection on which `Send` sends a message of this type, if it sends it. -/
def route (c : Channel) (type : Protocal) : Option Protocal :=
  if !c.connected then none
  else if type = .tcp ∨ !c.udpEnabled then some .tcp
  else some .udp

/-- What the connection gets for a message of a session with this id. -/
def payload : Protocal → UInt16 × List UInt8 → List UInt8
  | .tcp, (_, data) => data
  | .udp, (id, data) => addUdpId id data

theorem send_eq (c : Channel) (data : List UInt8) (type : Protocal) :
    c.send data type =
      match c.route type with
      | none => c
      | some proto => c.setSender proto ((c.sender proto).called (payload proto (c.udpID, data))) := by
  unfold send route
  cases hc : c.connected with
  | false => rfl
  | true =>
    simp only [Bool.not_true, Bool.false_eq_true, if_false]
    split_ifs with htcp
    · simp [doSendTcp, hc, setSender, sender, payload]
    · simp [doSendUdp, hc, setSender, sender, payload]

variable (c : Channel) (proto : Protocal) (s : Sender)

@[simp] theorem setSender_udpID : (c.setSender proto s).udpID = c.udpID := by cases proto <;> rfl

@[simp] theorem setSender_route : (c.setSender proto s).route = c.route := by cases proto <;> rfl

@[simp] theorem setSender_sender : (c.setSender proto s).sender proto = s := by cases proto <;> rfl

theorem setSender_other {proto' : Protocal} (h : proto' ≠ proto) :
    (c.setSender proto s).sender proto' = c.sender proto' := by
  cases proto <;> cases proto' <;> first | rfl | exact absurd rfl h

theorem send_udpID (data : List UInt8) (type : Protocal) :
    (c.send data type).udpID = c.udpID := by
  rw [send_eq]
  cases c.route type <;> simp

theorem send_route (data : List UInt8) (type : Protocal) :
    (c.send data type).route = c.route := by
  rw [send_eq]
  cases c.route type <;> simp

end Channel

structure Outgoing where
  players : PlayerRef → Player
  sessions : SessionRef → Channel

namespace Outgoing

inductive Event where
  /-- `SocketUser::Send`, from a handler of the server -/
  | send (user : SessionRef) (b : Broadcast)
  /-- `IUser::Send` -/
  | playerSend (player : PlayerRef) (b : Broadcast)
  /-- `BroadcastCommand` of a match with these players, with nobody in between;
  otherwise it is a row of `playerSend`s -/
  | broadcast (players : List PlayerRef) (b : Broadcast)
  | setUser (user : SessionRef) (player : PlayerRef)
  | setUdpID (user : SessionRef) (id : UInt16)
  | enableUdp (user : SessionRef)
  /-- `SocketUser::Close`; `expired` when the player object is gone -/
  | close (user : SessionRef) (expired : Bool)
  /-- the rest of `SocketUser::Close`, once the TCP sender thread is joined -/
  | closeUdp (user : SessionRef)
  /-- a connection of the session takes a step of its own -/
  | connection (user : SessionRef) (proto : Protocal) (e : Sender.Event)

def setSession (o : Outgoing) (user : SessionRef) (c : Channel) : Outgoing :=
  { o with sessions := Function.update o.sessions user c }

/-- `SocketUser::Send`. -/
def socketUserSend (user : SessionRef) (b : Broadcast) (o : Outgoing) : Outgoing :=
  o.setSession user ((o.sessions user).send (addFirst b.cmd.toByte b.data) b.type)

/-- `IUser::Send`; `Connected` is false without a session. -/
def playerSend (player : PlayerRef) (b : Broadcast) (o : Outgoing) : Outgoing :=
  match (o.players player).mSocketUser with
  | none => o
  | some user => if (o.players player).connected then o.socketUserSend user b else o

def broadcastCommand (players : List PlayerRef) (b : Broadcast) (o : Outgoing) : Outgoing :=
  players.foldl (fun o player => o.playerSend player b) o

def setUser (user : SessionRef) (player : PlayerRef) (o : Outgoing) : Outgoing :=
  { o.setSession user { o.sessions user with user := some player } with
    players := Function.update o.players player ((o.players player).setSocketUser user) }

def disconnected (player : PlayerRef) (o : Outgoing) : Outgoing :=
  { o with players := Function.update o.players player (o.players player).disconnected }

/-- `SocketUser::Close` with the call of `Disconnected`. -/
def close (user : SessionRef) (expired : Bool) (o : Outgoing) : Outgoing :=
  let o' := o.setSession user (o.sessions user).close
  match (o.sessions user).user with
  | none => o'
  | some player =>
    if (o.sessions user).connected && !expired then o'.disconnected player else o'

def Step (o : Outgoing) (e : Event) (o' : Outgoing) : Prop :=
  match e with
  | .send user b => o' = o.socketUserSend user b
  | .playerSend player b => o' = o.playerSend player b
  | .broadcast players b => o' = o.broadcastCommand players b
  | .setUser user player => o' = o.setUser user player
  | .setUdpID user id => o' = o.setSession user { o.sessions user with udpID := id }
  | .enableUdp user => o' = o.setSession user { o.sessions user with udpEnabled := true }
  | .close user expired => o' = o.close user expired
  | .closeUdp user => (o.sessions user).tcp.thread = .exited ∧
      o' = o.setSession user (o.sessions user).closeUdp
  | .connection user proto e =>
    (e = .call ∨ e = .thread ∨ e = .complete) ∧ ∃ s, ((o.sessions user).sender proto).Step e s ∧
      o' = o.setSession user ((o.sessions user).setSender proto s)

structure Init (o : Outgoing) : Prop where
  players : ∀ p, (o.players p).mSocketUser = none
  tcp : ∀ u, (o.sessions u).tcp.Init
  udp : ∀ u, (o.sessions u).udp.Init
  udpEnabled : ∀ u, (o.sessions u).udpEnabled = false

def system : System Outgoing Event := ⟨Init, Step⟩

/-! ### To whom a step speaks -/

/-- The session that `IUser::Send` speaks to. -/
def reached (o : Outgoing) (player : PlayerRef) : Option SessionRef :=
  if (o.players player).connected then (o.players player).mSocketUser else none

/-- The calls of `SocketUser::Send` that the step makes, in order. -/
def addressed (o : Outgoing) : Event → List (SessionRef × Broadcast)
  | .send user b => [(user, b)]
  | .playerSend player b => ((o.reached player).map (·, b)).toList
  | .broadcast players b => (players.filterMap o.reached).map (·, b)
  | _ => []

/-- The message of a `SocketUser::Send` call. -/
def message (b : Broadcast) : List UInt8 := addFirst b.cmd.toByte b.data

/-- Those of the calls that the session sends on the connection, each with the id that
the session has. -/
def routed (o : Outgoing) (user : SessionRef) (proto : Protocal)
    (calls : List (SessionRef × Broadcast)) : List (UInt16 × List UInt8) :=
  (calls.filter fun y => y.1 = user ∧ (o.sessions user).route y.2.type = some proto).map
    fun y => ((o.sessions user).udpID, message y.2)

/-- What the steps of a run send to the session on the connection. -/
def sentOn (user : SessionRef) (proto : Protocal) (tr : List (Outgoing × Event)) :
    List (UInt16 × List UInt8) :=
  tr.flatMap fun x => x.1.routed user proto (x.1.addressed x.2)

/-! ### A step as calls of `SocketUser::Send` -/

def deliver (calls : List (SessionRef × Broadcast)) (o : Outgoing) : Outgoing :=
  calls.foldl (fun o x => o.socketUserSend x.1 x.2) o

theorem playerSend_eq (player : PlayerRef) (b : Broadcast) (o : Outgoing) :
    o.playerSend player b = o.deliver (((o.reached player).map (·, b)).toList) := by
  unfold playerSend reached
  cases hu : (o.players player).mSocketUser with
  | none => simp [deliver]
  | some user =>
    dsimp only
    split_ifs <;> rfl

theorem deliver_players (calls : List (SessionRef × Broadcast)) (o : Outgoing) :
    (o.deliver calls).players = o.players := by
  induction calls generalizing o with
  | nil => rfl
  | cons x calls ih => exact (ih _).trans rfl

theorem reached_deliver (calls : List (SessionRef × Broadcast)) (o : Outgoing) :
    (o.deliver calls).reached = o.reached := by
  funext player
  rw [reached, deliver_players]
  rfl

/-- No call changes whom the rest of the broadcast reaches. -/
theorem broadcastCommand_eq (players : List PlayerRef) (b : Broadcast) (o : Outgoing) :
    o.broadcastCommand players b = o.deliver ((players.filterMap o.reached).map (·, b)) := by
  induction players generalizing o with
  | nil => rfl
  | cons player players ih =>
    have hcons : o.broadcastCommand (player :: players) b =
        (o.playerSend player b).broadcastCommand players b := rfl
    rw [hcons, ih, playerSend_eq, reached_deliver, List.filterMap_cons]
    cases o.reached player <;> rfl

/-! ### A call as a `Send` of one connection -/

theorem socketUserSend_udpID (user u : SessionRef) (b : Broadcast) (o : Outgoing) :
    ((o.socketUserSend user b).sessions u).udpID = (o.sessions u).udpID := by
  rcases eq_or_ne u user with rfl | hne
  · simp [socketUserSend, setSession, Channel.send_udpID]
  · simp [socketUserSend, setSession, Function.update_of_ne hne]

theorem socketUserSend_route (user u : SessionRef) (b : Broadcast) (o : Outgoing) :
    ((o.socketUserSend user b).sessions u).route = (o.sessions u).route := by
  rcases eq_or_ne u user with rfl | hne
  · simp [socketUserSend, setSession, Channel.send_route]
  · simp [socketUserSend, setSession, Function.update_of_ne hne]

theorem routed_socketUserSend (x : SessionRef × Broadcast) (user : SessionRef) (proto : Protocal)
    (calls : List (SessionRef × Broadcast)) (o : Outgoing) :
    (o.socketUserSend x.1 x.2).routed user proto calls = o.routed user proto calls := by
  simp only [routed, socketUserSend_udpID, socketUserSend_route]

theorem socketUserSend_sender (x : SessionRef × Broadcast) (user : SessionRef)
    (proto : Protocal) (o : Outgoing) :
    ((o.socketUserSend x.1 x.2).sessions user).sender proto =
      ((o.routed user proto [x]).map (Channel.payload proto)).foldl Sender.called
        ((o.sessions user).sender proto) := by
  obtain ⟨u, b⟩ := x
  rcases eq_or_ne user u with rfl | hne
  · have hsend : (o.socketUserSend user b).sessions user = (o.sessions user).send (message b) b.type :=
      Function.update_self ..
    dsimp only
    rw [hsend, Channel.send_eq]
    cases hroute : (o.sessions user).route b.type with
    | none => simp [routed, hroute]
    | some proto' =>
      rcases eq_or_ne proto proto' with rfl | hproto
      · simp [routed, hroute, message]
      · simp [routed, hroute, hproto.symm, Channel.setSender_other _ _ _ hproto]
  · simp [socketUserSend, setSession, Function.update_of_ne hne, routed, hne.symm]

theorem deliver_sender (calls : List (SessionRef × Broadcast)) (user : SessionRef)
    (proto : Protocal) (o : Outgoing) :
    ((o.deliver calls).sessions user).sender proto =
      ((o.routed user proto calls).map (Channel.payload proto)).foldl Sender.called
        ((o.sessions user).sender proto) := by
  induction calls generalizing o with
  | nil => rfl
  | cons x calls ih =>
    have hcons : o.deliver (x :: calls) = (o.socketUserSend x.1 x.2).deliver calls := rfl
    have happend : o.routed user proto (x :: calls) =
        o.routed user proto [x] ++ o.routed user proto calls := by
      simp only [routed, ← List.map_append, ← List.filter_append, List.singleton_append]
    rw [hcons, ih, routed_socketUserSend, socketUserSend_sender, happend, List.map_append,
      List.foldl_append]

/-! ### Each connection runs its send path -/

theorem exec_called {tr : List (Sender × Sender.Event)} {s : Sender} (h : Sender.system.Exec tr s)
    (messages : List (List UInt8)) :
    ∃ tr', Sender.system.Exec tr' (messages.foldl Sender.called s) ∧
      Sender.sends tr' = Sender.sends tr ++ messages := by
  induction messages generalizing tr s with
  | nil => exact ⟨tr, h, (List.append_nil _).symm⟩
  | cons m messages ih =>
    obtain ⟨tr', h', hsends⟩ := ih (h.next (.send m) (s.called m) rfl)
    refine ⟨tr', h', hsends.trans ?_⟩
    simp [Sender.sends]

/-- The connection of the session has run, on what was sent on it. -/
def Runs (user : SessionRef) (proto : Protocal) (tr : List (Outgoing × Event)) (o : Outgoing) :
    Prop :=
  ∃ tr', Sender.system.Exec tr' ((o.sessions user).sender proto) ∧
    Sender.sends tr' = (sentOn user proto tr).map (Channel.payload proto)

variable {user : SessionRef} {proto : Protocal} {tr : List (Outgoing × Event)} {o o' : Outgoing}
  {e : Event}

theorem sentOn_snoc (x : Outgoing × Event) :
    sentOn user proto (tr ++ [x]) =
      sentOn user proto tr ++ x.1.routed user proto (x.1.addressed x.2) := by
  simp [sentOn]

theorem Runs.delivered (hs : Runs user proto tr o) (h : o' = o.deliver (o.addressed e)) :
    Runs user proto (tr ++ [(o, e)]) o' := by
  obtain ⟨tr', hexec, hsends⟩ := hs
  obtain ⟨tr'', hexec', hsends'⟩ :=
    exec_called hexec ((o.routed user proto (o.addressed e)).map (Channel.payload proto))
  refine ⟨tr'', ?_, ?_⟩
  · rwa [h, deliver_sender]
  · rw [hsends', hsends, sentOn_snoc, List.map_append]

/-- A step that sends nothing: the connection stays or takes a step that is no `Send`. -/
theorem Runs.silent (hs : Runs user proto tr o) (haddressed : o.addressed e = [])
    (h : (o'.sessions user).sender proto = (o.sessions user).sender proto ∨
      ∃ e', (∀ m, e' ≠ .send m) ∧
        ((o.sessions user).sender proto).Step e' ((o'.sessions user).sender proto)) :
    Runs user proto (tr ++ [(o, e)]) o' := by
  obtain ⟨tr', hexec, hsends⟩ := hs
  have hsent : sentOn user proto (tr ++ [(o, e)]) = sentOn user proto tr := by
    rw [sentOn_snoc, haddressed]
    exact List.append_nil _
  rw [Runs, hsent]
  rcases h with hsame | ⟨e', hne, hst⟩
  · rw [hsame]
    exact ⟨tr', hexec, hsends⟩
  · refine ⟨_, hexec.next e' _ hst, ?_⟩
    rw [Sender.sends, List.filterMap_append, ← Sender.sends, hsends]
    cases e' with
    | send m => exact absurd rfl (hne m)
    | call | thread | complete | stop => exact List.append_nil _

/-- Another session's channel is replaced, or this one's by one with the same
connections. -/
theorem setSession_sender {u : SessionRef} {c : Channel}
    (h : u = user → c.sender proto = (o.sessions u).sender proto) :
    ((o.setSession u c).sessions user).sender proto = (o.sessions user).sender proto := by
  rcases eq_or_ne user u with rfl | hne
  · simp [setSession, h rfl]
  · simp [setSession, Function.update_of_ne hne]

theorem close_sessions (u : SessionRef) (expired : Bool) (o : Outgoing) :
    (o.close u expired).sessions = (o.setSession u (o.sessions u).close).sessions := by
  unfold close
  cases (o.sessions u).user with
  | none => rfl
  | some player =>
    dsimp only
    split_ifs <;> rfl

theorem close_sender (c : Channel) :
    c.close.sender proto = c.sender proto ∨
      (c.sender proto).Step .stop (c.close.sender proto) := by
  unfold Channel.close
  split_ifs with hc
  · cases proto with
    | tcp => exact .inr rfl
    | udp => exact .inl rfl
  · exact .inl rfl

theorem closeUdp_sender (c : Channel) :
    c.closeUdp.sender proto = c.sender proto ∨
      (c.sender proto).Step .stop (c.closeUdp.sender proto) := by
  cases proto with
  | tcp => exact .inl rfl
  | udp => exact .inr rfl

/-- A step that stops a connection of the session, or none. -/
theorem Runs.stopped {u : SessionRef} {c : Channel} (hs : Runs user proto tr o)
    (haddressed : o.addressed e = []) (h : o'.sessions = (o.setSession u c).sessions)
    (hstop : c.sender proto = (o.sessions u).sender proto ∨
      ((o.sessions u).sender proto).Step .stop (c.sender proto)) :
    Runs user proto (tr ++ [(o, e)]) o' := by
  refine hs.silent haddressed ?_
  rw [h]
  rcases eq_or_ne user u with rfl | hne
  · have hself : (o.setSession user c).sessions user = c := Function.update_self ..
    rw [hself]
    exact hstop.imp id fun hst => ⟨.stop, nofun, hst⟩
  · exact .inl (setSession_sender fun he => absurd he.symm hne)

theorem runs_step (hs : Runs user proto tr o) (h : Step o e o') :
    Runs user proto (tr ++ [(o, e)]) o' := by
  cases e with
  | send u b => exact hs.delivered h
  | playerSend player b => exact hs.delivered (h.trans (playerSend_eq player b o))
  | broadcast players b => exact hs.delivered (h.trans (broadcastCommand_eq players b o))
  | setUser u player | setUdpID u id | enableUdp u =>
    cases h
    exact hs.silent rfl (.inl (setSession_sender fun _ => by cases proto <;> rfl))
  | close u expired =>
    cases h
    exact hs.stopped rfl (close_sessions u expired o) (close_sender (o.sessions u))
  | closeUdp u =>
    obtain ⟨-, rfl⟩ := h
    exact hs.stopped rfl rfl (closeUdp_sender (o.sessions u))
  | connection u proto' e' =>
    obtain ⟨he, s, hst, rfl⟩ := h
    refine hs.silent rfl ?_
    by_cases hthis : user = u ∧ proto = proto'
    · obtain ⟨rfl, rfl⟩ := hthis
      refine .inr ⟨e', ?_, ?_⟩
      · rcases he with rfl | rfl | rfl <;> exact nofun
      · simpa [setSession] using hst
    · refine .inl (setSession_sender fun hu => ?_)
      exact Channel.setSender_other _ _ _ fun hproto => hthis ⟨hu.symm, hproto⟩

theorem exec_runs (user : SessionRef) (proto : Protocal) (h : system.Exec tr o) :
    Runs user proto tr o := by
  refine h.trace_inv (fun tr o => Runs user proto tr o) (fun o hi => ⟨[], .nil ?_, rfl⟩)
    fun _ _ _ _ _ hs hst => runs_step hs hst
  cases proto
  · exact hi.tcp user
  · exact hi.udp user

/-! ### What the client reads -/

/-- The length fields of the frame and of the datagram can hold the message. -/
def Fits (x : Outgoing × Event) : Prop :=
  ∀ y ∈ x.1.addressed x.2, y.2.data.length + 3 ≤ 65535

theorem mem_sentOn {item : UInt16 × List UInt8} (hfits : ∀ x ∈ tr, Fits x)
    (h : item ∈ sentOn user proto tr) : 1 ≤ item.2.length ∧ item.2.length + 2 ≤ 65535 := by
  obtain ⟨x, hx, hitem⟩ := List.mem_flatMap.mp h
  obtain ⟨y, hy, rfl⟩ := List.mem_map.mp hitem
  have hlen := hfits x hx y (List.mem_of_mem_filter hy)
  simp only [message, addFirst, add, List.length_append, List.length_singleton]
  omega

/-- In any interleaving of sends, broadcasts, closes and steps of the connections, the
TCP bytes of a session are read as whole frames with nothing left over, each of its
datagrams parses, and what is read and what still waits are the messages that the calls
sent to it on that connection, each once. -/
theorem read_once (tr : List (Outgoing × Event)) (o : Outgoing) (h : system.Exec tr o)
    (hfits : ∀ x ∈ tr, Fits x) (user : SessionRef) (token : Token) :
    (∃ received rest, readLoop token (o.sessions user).tcp.handed.flatten = (received, []) ∧
      (o.sessions user).tcp.waiting = rest.map addLength ∧
      ((sentOn user .tcp tr).map Prod.snd).Perm (received ++ rest)) ∧
    ∃ received rest, (o.sessions user).udp.handed.map parseDatagram = received.map some ∧
      (o.sessions user).udp.waiting = rest.map (fun x => addLength (addUdpId x.1 x.2)) ∧
      (sentOn user .udp tr).Perm (received ++ rest) := by
  constructor
  · obtain ⟨tr', hexec, hsends⟩ := exec_runs user .tcp h
    obtain ⟨received, rest, hhanded, hwaiting, hperm⟩ := Sender.unframe hexec _ _ hsends
    refine ⟨received.map Prod.snd, rest.map Prod.snd, ?_, ?_, ?_⟩
    · have hframes : (o.sessions user).tcp.handed = (received.map Prod.snd).map addLength := by
        rw [List.map_map]
        exact hhanded
      rw [hframes]
      refine readLoop_frames token _ fun m hm => ?_
      obtain ⟨item, hitem, rfl⟩ := List.mem_map.mp hm
      have hsent := mem_sentOn hfits (hperm.mem_iff.mpr (List.mem_append_left _ hitem))
      omega
    · rw [List.map_map]
      exact hwaiting
    · rw [← List.map_append]
      exact hperm.map Prod.snd
  · obtain ⟨tr', hexec, hsends⟩ := exec_runs user .udp h
    obtain ⟨received, rest, hhanded, hwaiting, hperm⟩ := Sender.unframe hexec _ _ hsends
    refine ⟨received, rest, ?_, hwaiting, hperm⟩
    have hhanded' : (o.sessions user).udp.handed = _ := hhanded
    rw [hhanded', List.map_map]
    refine List.map_congr_left fun item hitem => ?_
    have hsent := mem_sentOn hfits (hperm.mem_iff.mpr (List.mem_append_left _ hitem))
    exact parseDatagram_addLength item.1 hsent.2

/-! ### One broadcast -/

def absentPlayer : Player :=
  ⟨false, none, [], ⟨"", "", 1, 0⟩, 1, [], none, ⟨0, 0, 0⟩, ⟨0, 0, 0, 0⟩, 0⟩

def freshChannel : Channel :=
  ⟨true, false, 0, none, Sender.freshSender, { Sender.freshSender with type := .udp }⟩

def apart : Outgoing := ⟨fun _ => absentPlayer, fun _ => freshChannel⟩

theorem apart_init : Init apart :=
  ⟨fun _ => rfl, fun _ => .mk rfl rfl rfl rfl rfl rfl rfl rfl rfl rfl rfl rfl rfl,
    fun _ => .mk rfl rfl rfl rfl rfl rfl rfl rfl rfl rfl rfl rfl rfl, fun _ => rfl⟩

/-- Player 1 on session 0, with this TCP connection. -/
def meeting (s : Sender) : Outgoing :=
  ⟨Function.update (fun _ => absentPlayer) 1 (absentPlayer.setSocketUser 0),
    Function.update (fun _ => freshChannel) 0 { freshChannel with user := some 1, tcp := s }⟩

def Met (s : Sender) : Prop := ∃ tr, system.Exec tr (meeting s) ∧ ∀ x ∈ tr, Fits x

theorem fits_snoc {x : Outgoing × Event} (h : ∀ y ∈ tr, Fits y) (hx : Fits x) :
    ∀ y ∈ tr ++ [x], Fits y :=
  List.forall_mem_append.mpr ⟨h, List.forall_mem_singleton.mpr hx⟩

theorem Met.next {s t : Sender} (h : Met s) (e : Sender.Event)
    (he : e = .call ∨ e = .thread ∨ e = .complete) (hst : s.Step e t) : Met t := by
  obtain ⟨tr, hexec, hfits⟩ := h
  refine ⟨_, hexec.next (.connection 0 .tcp e) (meeting t) ⟨he, t, hst, ?_⟩, fits_snoc hfits fun _ => nofun⟩
  simp [meeting, setSession, Channel.setSender]

theorem Met.call {s t : Sender} {pc : CallPc} {pc' : Option CallPc} (h : Met s)
    (hcalls : s.calls = [pc]) (hcall : s.callStep 1 pc = some (t, pc')) :
    Met { t with calls := pc'.toList } :=
  h.next .call (.inl rfl) (Sender.step_onlyCall hcalls hcall)

theorem Met.thread {s t : Sender} (h : Met s) (ht : s.threadStep = some t) : Met t :=
  h.next .thread (.inr (.inl rfl)) ht

/-- The match starts: the message `[7]` is broadcast to the player. -/
theorem met_called : Met (Sender.freshSender.called [3, 7]) := by
  have h0 : system.Exec [] apart := .nil apart_init
  have h1 := h0.next (.setUser 0 1) (meeting Sender.freshSender) rfl
  refine ⟨_, h1.next (.broadcast [1] ⟨.startMatch, [7], .tcp⟩) _ ?_, ?_⟩
  · simp [system, Step, meeting, broadcastCommand, playerSend, socketUserSend, setSession,
      Channel.send, Channel.doSendTcp, Player.connected, Player.setSocketUser, freshChannel,
      addFirst, add, OpCodes.Client.toByte]
  · refine fits_snoc (fits_snoc nofun fun _ => nofun) fun y hy => ?_
    simp only [addressed, List.mem_map] at hy
    obtain ⟨-, -, rfl⟩ := hy
    simp

theorem met_handed : ∃ s, Met s ∧ s.handed = [[2, 0, 3, 7]] := by
  have h1 := (met_called.call rfl rfl).call rfl rfl
  have h2 := ((h1.call rfl rfl).call rfl rfl).call rfl rfl
  have h3 := ((h2.thread rfl).thread rfl).thread rfl
  have h4 := ((h3.thread rfl).thread rfl).thread rfl
  exact ⟨_, ((h4.thread rfl).thread rfl).thread rfl, rfl⟩

/-- The client of the session can read the one message of the broadcast. -/
theorem broadcast_read_once : ∃ tr o, system.Exec tr o ∧ (∀ x ∈ tr, Fits x) ∧
    (o.sessions 0).tcp.handed = [[2, 0, 3, 7]] ∧
    ∃ received rest, readLoop "a" (o.sessions 0).tcp.handed.flatten = (received, []) ∧
      (o.sessions 0).tcp.waiting = rest.map addLength ∧
      ((sentOn 0 .tcp tr).map Prod.snd).Perm (received ++ rest) := by
  obtain ⟨s, ⟨tr, hexec, hfits⟩, hhanded⟩ := met_handed
  exact ⟨tr, meeting s, hexec, hfits, hhanded, (read_once tr _ hexec hfits 0 "a").1⟩

end Outgoing

end GameServer
