import GameServer.Network.SessionTables

/-! The objects of the TCP front end and what keeps them. `tcp_server` makes a connection
for each accept, `handle_accept` a session for each connection, and the session makes its
`udp_connection`. All of them are counted references; the sender thread of a connection is
joined by `close` only, and the service thread of a `udp_connection` by nobody, so that
the destructors of the two end in `std::terminate` unless they never run. The handlers of
all connections run on one thread, and the main thread takes its steps between theirs. -/

namespace GameServer

open Lib

/-- How far a connection has come. -/
inductive ConnectionPc where
  /-- its accept was not handled yet -/
  | made
  /-- the length of the first frame is awaited; `tmp_socket_ref` holds the session -/
  | connecting
  /-- that read failed, and `tmp_socket_ref` was not cleared -/
  | abandoned
  /-- inside `HandleStartConnect_Finished(true)`; `tmp_socket_ref` holds the session -/
  | entering
  /-- inside `HandleStartConnect_Finished(false)` -/
  | refusing
  | refused
  /-- `Handle_Initial_Connect` has returned, and the session is connected -/
  | accepted
  /-- its accept failed -/
  | dropped
  deriving DecidableEq, Repr

/-- The session of the connection exists, as long as the process survives. -/
def ConnectionPc.hasUser : ConnectionPc → Bool
  | .connecting | .abandoned | .entering | .refusing | .accepted => true
  | .made | .refused | .dropped => false

/-- `HandleStartConnect_Finished(true)` has begun. -/
def ConnectionPc.started : ConnectionPc → Bool
  | .entering | .accepted => true
  | .made | .connecting | .abandoned | .refusing | .refused | .dropped => false

/-- What `handle_accept` finds. -/
inductive AcceptResult where
  | connected
  | failed
  /-- the client is gone already, and `remote_endpoint` throws -/
  | peerGone
  deriving DecidableEq, Repr

/-- A session is made for the connection, or the handler drops it. -/
def AcceptResult.connection : AcceptResult → ConnectionPc
  | .connected => .connecting
  | .failed | .peerGone => .dropped

/-- What `Handle_Initial_Connect` finds. -/
inductive FirstFrame where
  | lengthError
  /-- the blocking read throws -/
  | bodyError
  | message (message : List UInt8)
  deriving DecidableEq, Repr

/-- `successfull` in `Handle_Initial_Connect`. -/
def successfull (message : List UInt8) : Bool :=
  message.length == 3 && message[0]? == some 0xff && message[1]? == some 0x01 &&
    message[2]? == some 0x01

/-- A session that was not closed has a socket on the port. -/
def AsyncServer.PortBound (s : AsyncServer) (port : UInt16) : Prop :=
  ∃ u, (s.users u).udpConnectionClient = some port ∧ (s.users u).connected = true

/-- The constructor of `udp_connection` cannot bind its socket to the port that
`Get_New_Port` has drawn: this process has it, or `taken`. -/
def AsyncServer.BindFails (s : AsyncServer) (u : SessionRef) (port : UInt16) (taken : Bool) : Prop :=
  (s.users u).pc = .enableUdp ∧ (taken = true ∨ s.PortBound port)

/-- A connection and its session have one number. -/
structure Lifetimes where
  server : AsyncServer
  connection : SessionRef → ConnectionPc
  /-- the connections whose accept is pending; the handlers hold them -/
  accepts : List SessionRef
  /-- the connections made so far -/
  next : SessionRef
  /-- the length read of a session is pending or handled -/
  reads : SessionRef → Bool
  /-- the writes whose handlers have not returned -/
  writes : SessionRef → ℕ
  /-- the players whose `m_socket_user` is the session -/
  players : SessionRef → ℕ

namespace Lifetimes

def setConnection (s : Lifetimes) (c : SessionRef) (pc : ConnectionPc) : Lifetimes :=
  { s with connection := Function.update s.connection c pc }

def startAccept (s : Lifetimes) : Lifetimes :=
  { s with accepts := s.accepts ++ [s.next], next := s.next + 1 }

/-- `tcp_server::handle_accept`. -/
def handleAccept (s : Lifetimes) (c : SessionRef) (result : AcceptResult) : Lifetimes :=
  { s with accepts := s.accepts.erase c }.startAccept.setConnection c result.connection

/-- The TCP thread is not inside `Handle_Initial_Connect`, the one handler that takes more
than one step. -/
def Idle (s : Lifetimes) : Prop := ∀ c, s.connection c ≠ .entering ∧ s.connection c ≠ .refusing

inductive Event where
  | accept (c : SessionRef) (result : AcceptResult)
  /-- `Handle_Initial_Connect` begins -/
  | initialConnect (c : SessionRef) (frame : FirstFrame)
  /-- the next statement of `HandleStartConnect_Finished(true)`, down to `EnableUdp`; `taken`
  if the drawn port belongs to another process, or to a session that is being closed -/
  | connect (c : SessionRef) (udpId port : UInt16) (taken : Bool)
  /-- the rest of it: the reply is sent, the first length read started, and
  `tmp_socket_ref` cleared -/
  | entered (c : SessionRef)
  /-- `Handle_Initial_Connect` returns after a refusal -/
  | refusedReturn (c : SessionRef)
  /-- the next statement of `Update` -/
  | update (timedOut : Bool)
  | removePlayer (user : Token)
  /-- `handle_read` closes a session whose client is gone -/
  | close (u : SessionRef)
  /-- `handle_read` returns and has not started the next read -/
  | readEnds (c : SessionRef)
  /-- the sender thread starts a write -/
  | writeStarts (c : SessionRef)
  /-- the handler of a write returns -/
  | writeEnds (c : SessionRef)
  /-- `SetUser` hands the session to a new player -/
  | playerTakes (u : SessionRef)
  /-- a player is disconnected or destroyed -/
  | playerDrops (u : SessionRef)

/-- An exception leaves the handler, and with it the service thread. -/
def Throws (s : Lifetimes) : Event → Prop
  | .accept _ .peerGone | .initialConnect _ .bodyError => True
  | .connect c _ port taken => s.server.BindFails c port taken
  | _ => False

def Step (s : Lifetimes) (e : Event) (s' : Lifetimes) : Prop :=
  match e with
  | .accept c result => s.Idle ∧ c ∈ s.accepts ∧ s' = s.handleAccept c result
  | .initialConnect c frame => s.Idle ∧ s.connection c = .connecting ∧
      match frame with
      | .lengthError => s' = s.setConnection c .abandoned
      | .bodyError => s' = s
      | .message message =>
        s' = s.setConnection c (if successfull message then .entering else .refusing)
  | .connect c udpId port taken => s.connection c = .entering ∧
      ((s.server.BindFails c port taken ∧ s' = s) ∨
        ¬ s.server.BindFails c port taken ∧
          ∃ t, s.server.connectStep c udpId port = some t ∧ s' = { s with server := t })
  | .entered c => s.connection c = .entering ∧ (s.server.users c).pc = .finished ∧
      s' = { s.setConnection c .accepted with reads := Function.update s.reads c true }
  | .refusedReturn c => s.connection c = .refusing ∧ s' = s.setConnection c .refused
  | .update timedOut =>
      ∃ t, s.server.updateStep timedOut = some t ∧ s' = { s with server := t }
  | .removePlayer user => s' = { s with server := s.server.removePlayer user }
  | .close u => s.Idle ∧ s.reads u = true ∧
      ∃ t, s.server.close u = .ok t ∧ s' = { s with server := t }
  | .readEnds c => s.Idle ∧ s.reads c = true ∧
      s' = { s with reads := Function.update s.reads c false }
  | .writeStarts c => (s.connection c = .refusing ∨ s.connection c = .refused ∨
      (s.connection c).started = true) ∧
      s' = { s with writes := Function.update s.writes c (s.writes c + 1) }
  | .writeEnds c => s.Idle ∧ 0 < s.writes c ∧
      s' = { s with writes := Function.update s.writes c (s.writes c - 1) }
  | .playerTakes u => s.server.Live u ∧
      s' = { s with players := Function.update s.players u (s.players u + 1) }
  | .playerDrops u => 0 < s.players u ∧
      s' = { s with players := Function.update s.players u (s.players u - 1) }

/-- The constructor of `tcp_server` has started the first accept. -/
structure Init (s : Lifetimes) : Prop where
  server : s.server.TablesInit
  connected : ∀ u, (s.server.users u).connected = true
  connection : ∀ c, s.connection c = .made
  accepts : s.accepts = [0]
  next : s.next = 1
  reads : ∀ c, s.reads c = false
  writes : ∀ c, s.writes c = 0
  players : ∀ u, s.players u = 0

def system : System Lifetimes Event := ⟨Init, Step⟩

/-! ### References -/

/-- Something holds the `SocketUser`. -/
def UserHeld (s : Lifetimes) (u : SessionRef) : Prop :=
  s.connection u = .connecting ∨ s.connection u = .entering ∨ s.connection u = .refusing ∨
    s.connection u = .abandoned ∨ u ∈ s.server.mQueueUserAdd ∨ s.server.Live u ∨
    (∃ i, s.server.mUdpIdMap.lookup i = some u) ∨ u ∈ s.server.mSocketUserList ∨ 0 < s.players u

/-- Something holds the `tcp_connection`: a handler that is bound to it, or its session. -/
def ConnectionHeld (s : Lifetimes) (c : SessionRef) : Prop :=
  c ∈ s.accepts ∨ s.connection c = .connecting ∨ s.connection c = .entering ∨
    s.connection c = .refusing ∨ s.reads c = true ∨ 0 < s.writes c ∨ s.UserHeld c

/-- The destructor of the session runs and finds the service thread of its
`udp_connection` joinable. -/
def DestroysUser (s s' : Lifetimes) (u : SessionRef) : Prop :=
  s.UserHeld u ∧ ¬ s'.UserHeld u ∧ (s.server.users u).udpConnectionClient ≠ none

/-- The destructor of the connection runs and finds its sender thread joinable: `close`
clears `Connected` before it joins. -/
def DestroysConnection (s s' : Lifetimes) (c : SessionRef) : Prop :=
  s.ConnectionHeld c ∧ ¬ s'.ConnectionHeld c ∧ (s'.server.users c).connected = true

/-- The step ends the process: by an exception, by a null pointer that `Update` uses, or
by a thread that is destroyed and was not joined. -/
def Terminates (s : Lifetimes) (e : Event) (s' : Lifetimes) : Prop :=
  s.Throws e ∨ s'.server.update = .crashed ∨ (∃ u, DestroysUser s s' u) ∨
    ∃ c, DestroysConnection s s' c

/-- What a step has to find for the process to live on: accepts succeed, the first frame
is read whole, the drawn port is free, a refusal is still being written when its handler
and the write before it return, `Update` neither removes a session nor asks it for the
length of its UDP queue while its handshake is under way, and someone keeps a session that
`Update`, its handshake or a player gives up. -/
def Survives (s : Lifetimes) (e : Event) : Prop :=
  match e with
  | .accept _ result => result = .connected
  | .initialConnect _ frame => frame ≠ .bodyError
  | .connect c _ port taken => ¬ s.server.BindFails c port taken
  | .entered c => s.server.Known c ∨ 0 < s.players c
  | .refusedReturn c => 0 < s.writes c
  | .writeEnds c => s.connection c = .refused → 1 < s.writes c
  | .update _ =>
    (∀ user rest u, s.server.update = .removeLoop → s.server.mQueueUserRemove = user :: rest →
      s.server.mSocketUsers.lookup user = some u →
      ¬ s.server.UnderWay u ∧ (0 < s.players u ∨ s.connection u = .entering)) ∧
    ∀ u rest, s.server.update = .udpQueueSize (u :: rest) → ¬ s.server.UnderWay u
  | .playerDrops u => s.players u = 1 → s.server.Known u ∨ s.connection u = .entering
  | _ => True

end Lifetimes

/-! ### What a step does to the sessions of the tables -/

namespace AsyncServer

variable {s s' : AsyncServer}

theorem close_connected {u : SessionRef} (h : s.close u = .ok s') (v : SessionRef) :
    (s'.users v).connected = (s.users v).connected ∨ (s.users v).udpConnectionClient ≠ none := by
  have hclient := client_of_close h
  rcases close_ok h with ⟨-, rfl⟩ | ⟨hc, rfl⟩
  · exact .inl rfl
  · rcases eq_or_ne v u with rfl | hv
    · exact .inr (hclient hc)
    · exact .inl (congrArg ConnectingUser.connected
        (setUser_of_ne s (fun x => { x with connected := false, udpEnabled := false }) hv))

theorem close_update {u : SessionRef} (h : s.close u = .ok s') : s'.update = s.update := by
  rcases close_ok h with ⟨-, rfl⟩ | ⟨-, rfl⟩
  · rfl
  · rfl

/-- The session that this step of `Update` closes and takes out of the tables. -/
def Removes (s : AsyncServer) (u : SessionRef) : Prop :=
  s.update = .removeLoop ∧
    ∃ user rest, s.mQueueUserRemove = user :: rest ∧ s.mSocketUsers.lookup user = some u

/-- The session whose UDP connection this step of `Update` uses. -/
def UsesClient (s : AsyncServer) (u : SessionRef) : Prop :=
  (s.Removes u ∧ (s.users u).connected = true) ∨ ∃ rest, s.update = .udpQueueSize (u :: rest)

theorem UsesClient.listed {u : SessionRef} (h : s.UsesClient u) : s.Listed u := by
  rcases h with ⟨⟨-, user, rest, -, hu⟩, -⟩ | ⟨rest, hupdate⟩
  · exact .inr (.inl ⟨user, hu⟩)
  · refine .inr (.inr (.inr ?_))
    rw [hupdate]
    exact List.mem_cons_self

theorem updateStep_connected {timedOut : Bool} (h : s.updateStep timedOut = some s')
    (v : SessionRef) :
    (s'.users v).connected = (s.users v).connected ∨ (s.users v).udpConnectionClient ≠ none := by
  rcases updateStep_cases h with ⟨u, rest, -, -, rfl⟩ | ⟨user, rest, -, -, hdo⟩ |
    ⟨u, rest, -, -, rfl⟩ | ⟨pc, rfl, -⟩
  · refine .inl ?_
    unfold doAddPlayer
    split_ifs <;> rfl
  · rcases doRemovePlayer_ok hdo with ⟨-, rfl⟩ | ⟨u, t, -, hclose, rfl⟩
    · exact .inl rfl
    · exact close_connected hclose v
  · exact .inl rfl
  · exact .inl rfl

/-- A session that is known stays so until `Update` removes it. -/
theorem known_updateStep {timedOut : Bool} (hs : s.TablesInv)
    (h : s.updateStep timedOut = some s') {v : SessionRef} (hv : s.Known v) :
    s'.Known v ∨ s.Removes v := by
  rcases updateStep_cases h with ⟨u, rest, -, hq, rfl⟩ | ⟨user, rest, hpc, hq, hdo⟩ |
    ⟨u, rest, -, -, rfl⟩ | ⟨pc, rfl, -⟩
  · rw [doAddPlayer_first hs hq]
    exact .inl ((known_added hs hq v).mpr hv)
  · rcases doRemovePlayer_ok hdo with ⟨-, rfl⟩ | ⟨u, t, hu, hclose, rfl⟩
    · exact .inl hv
    · rcases eq_or_ne v u with rfl | hne
      · exact .inr ⟨hpc, user, rest, hq, hu⟩
      · have hsame := sameTables_close hclose
        have ht : t.TablesInv :=
          hsame.tablesInv (SameTables.tablesInv { SameTables.refl s with } hs)
        refine .inl ((known_erased ht (hsame.mSocketUsers ▸ hu) _ v).mpr ⟨?_, hne⟩)
        exact (hsame.known v).mpr hv
  · exact .inl hv
  · exact .inl hv

/-- The removal of a session that can be closed goes through. -/
theorem removes_updateStep {u : SessionRef} {timedOut : Bool} (hs : s.TablesInv)
    (hr : s.Removes u)
    (hclient : (s.users u).connected = true → (s.users u).udpConnectionClient ≠ none)
    (h : s.updateStep timedOut = some s') : ¬ s'.Known u := by
  obtain ⟨hpc, user, rest, hq, hu⟩ := hr
  obtain ⟨t, hclose⟩ := close_of_client (s := { s with mQueueUserRemove := rest }) hclient
  have hdo : { s with mQueueUserRemove := rest }.doRemovePlayer user =
      .ok (t.erased user (s.users u).udpID) := by
    unfold doRemovePlayer
    rw [show ({ s with mQueueUserRemove := rest } : AsyncServer).mSocketUsers.lookup user = some u
      from hu]
    dsimp only
    rw [hclose]
    rfl
  unfold updateStep at h
  rw [hpc] at h
  dsimp only at h
  rw [hq] at h
  dsimp only at h
  rw [← hpc, hdo] at h
  cases h
  have hsame := sameTables_close hclose
  have ht : t.TablesInv := hsame.tablesInv (SameTables.tablesInv { SameTables.refl s with } hs)
  exact fun hk => ((known_erased ht (hsame.mSocketUsers ▸ hu) _ u).mp hk).2 rfl

/-- `DoRemovePlayer` fails at the close of a connected session without a UDP connection. -/
theorem doRemovePlayer_fails {user : Token} : (∃ fault, s.doRemovePlayer user = .error fault) ↔
    ∃ u, s.mSocketUsers.lookup user = some u ∧ (s.users u).connected = true ∧
      (s.users u).udpConnectionClient = none := by
  unfold doRemovePlayer
  cases hu : s.mSocketUsers.lookup user with
  | none => simp
  | some u =>
    dsimp only
    cases hclose : s.close u with
    | ok t =>
      refine iff_of_false (by rintro ⟨fault, h⟩; cases h) ?_
      rintro ⟨v, hv, hc, hnone⟩
      cases hv
      exact client_of_close hclose hc hnone
    | error fault =>
      refine iff_of_true ⟨fault, rfl⟩ ⟨u, rfl, ?_⟩
      by_contra hno
      obtain ⟨t, ht⟩ := close_of_client (s := s) (u := u) fun hc hnone => hno ⟨hc, hnone⟩
      rw [hclose] at ht
      cases ht

theorem doRemovePlayer_update {user : Token} (h : s.doRemovePlayer user = .ok s') :
    s'.update = s.update := by
  rcases doRemovePlayer_ok h with ⟨-, rfl⟩ | ⟨u, t, -, hclose, rfl⟩
  · rfl
  · have hupdate := close_update hclose
    exact hupdate

/-- Where `Update` uses no UDP connection it goes on. -/
theorem crashed_of_unused (huses : ∀ u, ¬ s.UsesClient u) (hnot : s'.update ≠ .crashed) :
    s'.update = .crashed ↔ ∃ u, s.UsesClient u ∧ (s.users u).udpConnectionClient = none :=
  iff_of_false hnot fun ⟨u, hu, _⟩ => huses u hu

theorem crashed_removeLoop {timedOut : Bool} (hpc : s.update = .removeLoop)
    (h : s.updateStep timedOut = some s') :
    s'.update = .crashed ↔ ∃ u, s.UsesClient u ∧ (s.users u).udpConnectionClient = none := by
  simp only [updateStep, hpc] at h
  cases hq : s.mQueueUserRemove with
  | nil =>
    rw [hq] at h
    cases h
    exact crashed_of_unused (by simp [UsesClient, Removes, hpc, hq]) nofun
  | cons user rest =>
    rw [hq] at h
    dsimp only at h
    rw [← hpc] at h
    have hfails : (∃ u, s.UsesClient u ∧ (s.users u).udpConnectionClient = none) ↔
        ∃ fault, { s with mQueueUserRemove := rest }.doRemovePlayer user = .error fault := by
      rw [doRemovePlayer_fails]
      simp [UsesClient, Removes, hpc, hq, and_assoc]
    rw [hfails]
    cases hdo : { s with mQueueUserRemove := rest }.doRemovePlayer user with
    | ok t =>
      rw [hdo] at h
      cases h
      refine iff_of_false ?_ (by rintro ⟨fault, h⟩; cases h)
      rw [doRemovePlayer_update hdo]
      simp [hpc]
    | error fault =>
      rw [hdo] at h
      cases h
      exact iff_of_true rfl ⟨fault, rfl⟩

theorem crashed_udpQueueSize {timedOut : Bool} {list : List SessionRef}
    (hpc : s.update = .udpQueueSize list) (h : s.updateStep timedOut = some s') :
    s'.update = .crashed ↔ ∃ u, s.UsesClient u ∧ (s.users u).udpConnectionClient = none := by
  simp only [updateStep, hpc] at h
  cases list with
  | nil =>
    cases h
    exact crashed_of_unused (by simp [UsesClient, Removes, hpc]) nofun
  | cons u rest =>
    have hiff : (∃ v, s.UsesClient v ∧ (s.users v).udpConnectionClient = none) ↔
        (s.users u).udpConnectionClient = none := by
      simp [UsesClient, Removes, hpc]
    rw [hiff]
    dsimp only at h
    cases hclient : (s.users u).udpConnectionClient with
    | none =>
      rw [hclient] at h
      cases h
      exact iff_of_true rfl rfl
    | some port =>
      rw [hclient] at h
      cases h
      exact iff_of_false nofun nofun

/-- `Update` goes on unless it comes to a session without a UDP connection. -/
theorem updateStep_crashed {timedOut : Bool} (h : s.updateStep timedOut = some s') :
    s'.update = .crashed ↔ ∃ u, s.UsesClient u ∧ (s.users u).udpConnectionClient = none := by
  cases hpc : s.update with
  | removeLoop => exact crashed_removeLoop hpc h
  | udpQueueSize list => exact crashed_udpQueueSize hpc h
  | addLoop =>
    refine crashed_of_unused (by simp [UsesClient, Removes, hpc]) ?_
    simp only [updateStep, hpc] at h
    cases hq : s.mQueueUserAdd with
    | nil =>
      rw [hq] at h
      cases h
      exact nofun
    | cons u rest =>
      rw [hq] at h
      cases h
      unfold doAddPlayer
      split_ifs <;> simp [populateUserList]
  | users list | tcpQueueSize list =>
    refine crashed_of_unused (by simp [UsesClient, Removes, hpc]) ?_
    simp only [updateStep, hpc] at h
    cases list <;> cases h <;> exact nofun
  | commands =>
    refine crashed_of_unused (by simp [UsesClient, Removes, hpc]) ?_
    simp only [updateStep, hpc] at h
    cases h
    exact nofun
  | crashed =>
    simp only [updateStep, hpc] at h
    cases h

end AsyncServer

end GameServer
