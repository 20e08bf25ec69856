import Mathlib.Data.List.AList
import GameServer.Lib.Execution
import GameServer.Network.Receive

/-! `udp_main_server` and the ports of the connections it makes. `create` tests the
table `m_connections` and does not write to it, `Close` erases from it. -/

namespace GameServer

open Lib

/-- `udp::endpoint`. -/
structure Endpoint where
  address : Address
  port : UInt16
  deriving DecidableEq, Repr

/-- What the constructor of a `udp_connection` stores. -/
structure UdpConnection where
  mPort : UInt16
  mAddress : Address
  mRunning : Bool
  mClientEndpoint : Endpoint
  deriving DecidableEq, Repr

/-- The constructor, its socket bound to `port`. -/
def UdpConnection.new (addr : Address) (port : UInt16) : UdpConnection where
  mPort := port
  mAddress := addr
  mRunning := true
  mClientEndpoint := ⟨addr, port + 1⟩

structure UdpMainServer where
  mPortRangeStart : UInt16
  mPortRangeEnd : UInt16
  /-- a connection is named by its place among all that were made -/
  mConnections : AList fun _ : UInt16 => ℕ
  /-- every connection made so far -/
  connections : List UdpConnection

namespace UdpMainServer

def hasPort (s : UdpMainServer) (port : UInt16) : Bool := (s.mConnections.lookup port).isSome

/-- `Get_New_Port` calls itself until a draw is free; `none` when `draws` has no free
one. -/
def getNewPort (s : UdpMainServer) (draws : List UInt16) : Option UInt16 :=
  draws.find? fun newNum => !s.hasPort newNum

/-- `udp_main_server::create`. Without `bound` the constructor throws, because its
socket does not get the port. -/
def create (s : UdpMainServer) (addr : Address) (draws : List UInt16) (bound : Bool) :
    Option UdpMainServer :=
  (s.getNewPort draws).map fun conPort =>
    if bound then { s with connections := s.connections ++ [.new addr conPort] } else s

/-- `udp_connection::Close` of connection `c`. The sender thread is joined once only. -/
def close (s : UdpMainServer) (c : ℕ) : Exec UdpMainServer :=
  match s.connections[c]? with
  | none => .error .nullDeref
  | some connection =>
    if connection.mRunning then
      .ok { s with
        connections := s.connections.set c { connection with mRunning := false }
        mConnections := s.mConnections.erase connection.mPort }
    else .error .uncaught

inductive Event where
  | create (addr : Address) (draws : List UInt16) (bound : Bool)
  | close (c : ℕ)
  deriving DecidableEq, Repr

def Step (s : UdpMainServer) (e : Event) (s' : UdpMainServer) : Prop :=
  match e with
  | .create addr draws bound =>
    (∀ n ∈ draws, s.mPortRangeStart ≤ n ∧ n ≤ s.mPortRangeEnd) ∧
      s.create addr draws bound = some s'
  | .close c => s.close c = .ok s'

structure Init (s : UdpMainServer) : Prop where
  mConnections : s.mConnections = ∅
  connections : s.connections = []

def system : System UdpMainServer Event := ⟨Init, Step⟩

/-- The connections that were not closed. -/
def live (s : UdpMainServer) : List UdpConnection := s.connections.filter (·.mRunning)

/-- Any two live connections have different ports. -/
def Distinct (s : UdpMainServer) : Prop := (s.live.map UdpConnection.mPort).Nodup

/-- `has_port` tells the ports of the live connections. -/
def Recorded (s : UdpMainServer) : Prop :=
  ∀ port, s.hasPort port = true ↔ port ∈ s.live.map UdpConnection.mPort

/-! ### The two operations -/

variable {s s' : UdpMainServer}

theorem create_eq {addr : Address} {draws : List UInt16} {bound : Bool}
    (h : s.create addr draws bound = some s') :
    ∃ conPort, s.getNewPort draws = some conPort ∧
      s' = if bound then { s with connections := s.connections ++ [.new addr conPort] } else s := by
  obtain ⟨conPort, hport, hs⟩ := Option.map_eq_some_iff.mp h
  exact ⟨conPort, hport, hs.symm⟩

theorem close_ok {c : ℕ} (h : s.close c = .ok s') :
    ∃ connection, s.connections[c]? = some connection ∧ connection.mRunning = true ∧
      s' = { s with
        connections := s.connections.set c { connection with mRunning := false }
        mConnections := s.mConnections.erase connection.mPort } := by
  unfold close at h
  split at h
  · cases h
  · next connection hc =>
    split_ifs at h with hrun
    cases h
    exact ⟨connection, hc, hrun, rfl⟩

/-! ### The table stays empty -/

/-- No step puts a connection into `m_connections`. -/
theorem mConnections_step {e : Event} (hs : s.mConnections = ∅) (h : system.step s e s') :
    s'.mConnections = ∅ := by
  cases e with
  | create addr draws bound =>
    obtain ⟨conPort, -, rfl⟩ := create_eq h.2
    cases bound with
    | false => exact hs
    | true => exact hs
  | close c =>
    obtain ⟨connection, -, -, rfl⟩ := close_ok h
    dsimp only
    rw [hs]
    rfl

theorem mConnections_exec {tr : List (UdpMainServer × Event)} (h : system.Exec tr s) :
    s.mConnections = ∅ :=
  h.inv (fun s => s.mConnections = ∅) (fun _ hi => Init.mConnections hi)
    fun _ _ _ hs hst => mConnections_step hs hst

theorem hasPort_of_empty (h : s.mConnections = ∅) (port : UInt16) : s.hasPort port = false := by
  rw [hasPort, h]
  rfl

theorem recorded_of_empty (h : s.mConnections = ∅) : s.Recorded ↔ s.live = [] := by
  constructor
  · intro hrec
    refine List.eq_nil_iff_forall_not_mem.mpr fun a ha => ?_
    have hport := (hrec a.mPort).mpr (List.mem_map_of_mem ha)
    rw [hasPort_of_empty h] at hport
    cases hport
  · intro hlive port
    rw [hasPort_of_empty h, hlive]
    exact ⟨nofun, fun hport => absurd hport List.not_mem_nil⟩

/-- So `has_port` is right exactly while no connection is live. -/
theorem recorded_iff {tr : List (UdpMainServer × Event)} (h : system.Exec tr s) :
    s.Recorded ↔ s.live = [] :=
  recorded_of_empty (mConnections_exec h)

/-! ### The live connections -/

theorem live_new (addr : Address) (port : UInt16) :
    live { s with connections := s.connections ++ [.new addr port] } =
      s.live ++ [.new addr port] := by
  unfold live
  rw [List.filter_append]
  rfl

/-- A connection that is closed leaves the list, the others stay in order. -/
theorem live_close {c : ℕ} (h : s.close c = .ok s') : s'.live.Sublist s.live := by
  obtain ⟨connection, hc, -, rfl⟩ := close_ok h
  have hlt : c < s.connections.length := (List.getElem?_eq_some_iff.mp hc).1
  unfold live
  dsimp only
  rw [List.set_eq_take_append_cons_drop, if_pos hlt, List.filter_append,
    List.filter_cons_of_neg (by simp), ← List.filter_append, ← List.eraseIdx_eq_take_drop_succ]
  exact (List.eraseIdx_sublist s.connections c).filter _

/-- The socket of a new connection is bound to a port that no live connection has. -/
def BindsFree (s : UdpMainServer) (e : Event) : Prop :=
  ∀ addr draws conPort, e = .create addr draws true → s.getNewPort draws = some conPort →
    conPort ∉ s.live.map UdpConnection.mPort

theorem distinct_new (addr : Address) (port : UInt16) (h : s.Distinct) :
    Distinct { s with connections := s.connections ++ [.new addr port] } ↔
      port ∉ s.live.map UdpConnection.mPort := by
  unfold Distinct
  rw [live_new, List.map_append, List.nodup_append]
  constructor
  · intro hnodup hport
    exact hnodup.2.2 port hport port (List.mem_singleton.mpr rfl) rfl
  · intro hport
    refine ⟨h, List.nodup_singleton _, fun a ha b hb hab => hport ?_⟩
    rw [List.map_singleton, List.mem_singleton] at hb
    rw [hab, hb] at ha
    exact ha

theorem distinct_step {e : Event} (hs : s.Distinct) (h : system.step s e s') :
    s'.Distinct ↔ BindsFree s e := by
  cases e with
  | create addr draws bound =>
    obtain ⟨conPort, hport, rfl⟩ := create_eq h.2
    cases bound with
    | false => exact ⟨fun _ => nofun, fun _ => hs⟩
    | true =>
      refine (distinct_new addr conPort hs).trans ⟨fun hfree => ?_, fun hfree => ?_⟩
      · rintro _ _ port ⟨⟩ hdraw
        obtain rfl : conPort = port := Option.some.inj (hport.symm.trans hdraw)
        exact hfree
      · exact hfree addr draws conPort rfl hport
  | close c =>
    refine ⟨fun _ => nofun, fun _ => ?_⟩
    exact List.Nodup.sublist ((live_close h).map _) hs

/-- It is not the table that keeps ports apart: they are different in a whole run if
and only if no socket is bound to the port of a live connection. -/
theorem distinct_iff {tr : List (UdpMainServer × Event)} (h : system.Exec tr s) :
    (∀ x ∈ visited tr s, x.Distinct) ↔ ∀ x ∈ tr, BindsFree x.1 x.2 := by
  refine h.safe_iff Distinct Distinct BindsFree (fun s hi => ?_) (fun _ hs => hs)
    (fun _ _ _ hs hfree hst => (distinct_step hs hst).mpr hfree)
    (fun _ _ _ hs hfree hst => mt (distinct_step hs hst).mp hfree)
  unfold Distinct live
  rw [hi.connections]
  exact List.nodup_nil

/-! ### Both at once -/

/-- What the ports of a server are meant to satisfy. -/
def PortsOk (s : UdpMainServer) : Prop := s.Distinct ∧ s.Recorded

/-- The step makes a connection. -/
def Creates (e : Event) : Prop := ∃ addr draws, e = .create addr draws true

theorem portsOk_of_unused (hempty : s.mConnections = ∅) (hnone : s.connections = []) :
    s.PortsOk := by
  have hlive : s.live = [] := by
    rw [live, hnone]
    rfl
  refine ⟨?_, (recorded_of_empty hempty).mpr hlive⟩
  rw [Distinct, hlive]
  exact List.nodup_nil

/-- While no connection was made, the first one breaks the table and nothing else
does. -/
theorem unused_step {e : Event} (hnone : s.connections = []) (h : system.step s e s') :
    (Creates e → s'.live ≠ []) ∧ (¬ Creates e → s'.connections = []) := by
  cases e with
  | create addr draws bound =>
    obtain ⟨conPort, -, rfl⟩ := create_eq h.2
    cases bound with
    | false => exact ⟨nofun, fun _ => hnone⟩
    | true =>
      refine ⟨fun _ => ?_, fun hcreate => absurd ⟨addr, draws, rfl⟩ hcreate⟩
      rw [if_pos rfl, live_new]
      exact List.append_ne_nil_of_right_ne_nil _ (List.cons_ne_nil _ _)
  | close c =>
    obtain ⟨connection, hc, -, -⟩ := close_ok h
    rw [hnone] at hc
    cases hc

/-- In a whole run the live ports are different and `has_port` tells them if and
only if no connection is made. -/
theorem ports_ok_iff (tr : List (UdpMainServer × Event)) (s : UdpMainServer)
    (h : system.Exec tr s) :
    (∀ x ∈ visited tr s, x.PortsOk) ↔ ∀ x ∈ tr, ¬ Creates x.2 := by
  refine h.safe_iff (fun s => s.mConnections = ∅ ∧ s.connections = []) PortsOk
    (fun _ e => ¬ Creates e) (fun _ hi => ⟨Init.mConnections hi, Init.connections hi⟩)
    (fun _ hs => portsOk_of_unused hs.1 hs.2) (fun s e s' hs hcreate hst => ?_)
    fun s e s' hs hcreate hst hok => ?_
  · exact ⟨mConnections_step hs.1 hst, (unused_step hs.2 hst).2 hcreate⟩
  · have hlive := (recorded_of_empty (mConnections_step hs.1 hst)).mp hok.2
    exact (unused_step hs.2 hst).1 (not_not.mp hcreate) hlive

/-! ### The first connection -/

def newServer : UdpMainServer where
  mPortRangeStart := 51000
  mPortRangeEnd := 52000
  mConnections := ∅
  connections := []

theorem newServer_init : newServer.Init := ⟨rfl, rfl⟩

/-- A connection whose socket does not get its port is not made. -/
theorem ports_ok_unbound : ∃ tr s, system.Exec tr s ∧ tr.length = 1 ∧
    ∀ x ∈ visited tr s, x.PortsOk := by
  have h0 : system.Exec [] newServer := .nil newServer_init
  have h1 := h0.next (.create 7 [51003] false) newServer ⟨by simp [newServer], rfl⟩
  refine ⟨_, _, h1, rfl, (ports_ok_iff _ _ h1).mpr ?_⟩
  rintro x hx ⟨_, _, hcreate⟩
  obtain rfl := List.mem_singleton.mp hx
  cases hcreate

/-- The first connection has port 51003 and is live, and `has_port` denies it. -/
theorem port_not_recorded : ∃ tr s, system.Exec tr s ∧
    s.live.map UdpConnection.mPort = [51003] ∧ s.hasPort 51003 = false ∧ ¬ s.PortsOk := by
  have h0 : system.Exec [] newServer := .nil newServer_init
  have h1 := h0.next (.create 7 [51003] true) _ ⟨by simp [newServer], rfl⟩
  refine ⟨_, _, h1, rfl, rfl, fun hok => ?_⟩
  have hlive := (recorded_iff h1).mp hok.2
  cases hlive

end UdpMainServer

end GameServer
