import Mathlib.Data.List.AList
import GameServer.Lib.Execution
import GameServer.Network.Data

/-! The session tables of `AsyncServer` while connections come and go: the I/O
thread runs `HandleStartConnect_Finished(true)` statement by statement, the main
thread runs the phases of `Update`, in any interleaving. What `Server_Main` does
with players is not part of this model. -/

namespace GameServer

open Lib

/-- The next statement of `HandleStartConnect_Finished(true)`. -/
inductive HandshakePc where
  | addPlayer
  | getNewUdpId
  | setUdpId (udpId : UInt16)
  | addUdpId (udpId : UInt16)
  | enableUdp
  | finished
  deriving DecidableEq, Repr

/-- A `SocketUser` with the position of its handshake. -/
structure ConnectingUser where
  pc : HandshakePc
  sessionToken : Token
  connected : Bool
  udpEnabled : Bool
  udpID : UInt16
  /-- the port of `udp_connection_client`, `none` for the null pointer -/
  udpConnectionClient : Option UInt16
  deriving DecidableEq, Repr

/-- The next statement of `Update`. The lists are what is left of a loop over
`m_Socket_user_list`. -/
inductive UpdatePc where
  | addLoop
  | removeLoop
  | users (rest : List SessionRef)
  | tcpQueueSize (rest : List SessionRef)
  | udpQueueSize (rest : List SessionRef)
  | commands
  /-- a null pointer was used -/
  | crashed
  deriving DecidableEq, Repr

/-- What is left of a loop over `m_Socket_user_list`. -/
def UpdatePc.remaining : UpdatePc → List SessionRef
  | .users rest | .tcpQueueSize rest | .udpQueueSize rest => rest
  | _ => []

structure AsyncServer where
  users : SessionRef → ConnectingUser
  mSocketUsers : AList fun _ : Token => SessionRef
  mUdpIdMap : AList fun _ : UInt16 => SessionRef
  mSocketUserList : List SessionRef
  mQueueUserAdd : List SessionRef
  mQueueUserRemove : List Token
  update : UpdatePc

namespace AsyncServer

def setUser (s : AsyncServer) (u : SessionRef) (f : ConnectingUser → ConnectingUser) :
    AsyncServer :=
  { s with users := Function.update s.users u (f (s.users u)) }

def hasUdpId (s : AsyncServer) (udpId : UInt16) : Bool := (s.mUdpIdMap.lookup udpId).isSome

def hasPlayerSession (s : AsyncServer) (sessionKey : Token) : Bool :=
  (s.mSocketUsers.lookup sessionKey).isSome

/-- The iteration order of the map is that of its entries. -/
def populateUserList (s : AsyncServer) : AsyncServer :=
  { s with mSocketUserList := s.mSocketUsers.entries.map Sigma.snd }

def removePlayer (s : AsyncServer) (user : Token) : AsyncServer :=
  { s with mQueueUserRemove := s.mQueueUserRemove ++ [user] }

def doAddPlayer (s : AsyncServer) (user : SessionRef) : AsyncServer :=
  if s.hasPlayerSession (s.users user).sessionToken then s
  else
    { s with
      mSocketUsers := s.mSocketUsers.insert (s.users user).sessionToken user }.populateUserList

/-- `SocketUser::Close`. -/
def close (s : AsyncServer) (u : SessionRef) : Exec AsyncServer :=
  if (s.users u).connected then
    match (s.users u).udpConnectionClient with
    | none => .error .nullDeref
    | some _ =>
      .ok ((s.setUser u fun x => { x with connected := false, udpEnabled := false }).removePlayer
        (s.users u).sessionToken)
  else .ok s

def doRemovePlayer (s : AsyncServer) (user : Token) : Exec AsyncServer :=
  match s.mSocketUsers.lookup user with
  | none => .ok s
  | some userObj => do
    let udpId := (s.users userObj).udpID
    let s ← s.close userObj
    .ok { s with
      mSocketUsers := s.mSocketUsers.erase user
      mUdpIdMap := s.mUdpIdMap.erase udpId }.populateUserList

/-- The next statement of the handshake of `u`. `udpId` is what `Get_New_UDP_ID`
draws, `port` the port of the connection that `create` makes. -/
def connectStep (s : AsyncServer) (u : SessionRef) (udpId port : UInt16) : Option AsyncServer :=
  match (s.users u).pc with
  | .addPlayer =>
    some ({ s with mQueueUserAdd := s.mQueueUserAdd ++ [u] }.setUser u fun x =>
      { x with pc := .getNewUdpId })
  | .getNewUdpId =>
    -- a number in use is drawn again
    if s.hasUdpId udpId then some s
    else some (s.setUser u fun x => { x with pc := .setUdpId udpId })
  | .setUdpId id => some (s.setUser u fun x => { x with udpID := id, pc := .addUdpId id })
  | .addUdpId id =>
    some ({ s with mUdpIdMap := s.mUdpIdMap.insert id u }.setUser u fun x =>
      { x with pc := .enableUdp })
  | .enableUdp =>
    some (s.setUser u fun x =>
      { x with udpConnectionClient := some port, udpEnabled := true, pc := .finished })
  | .finished => none

/-- The next statement of `Update`. `timedOut` is the outcome of the clock test of
one session. -/
def updateStep (s : AsyncServer) (timedOut : Bool) : Option AsyncServer :=
  match s.update with
  | .addLoop =>
    match s.mQueueUserAdd with
    | [] => some { s with update := .removeLoop }
    | user :: rest => some ({ s with mQueueUserAdd := rest }.doAddPlayer user)
  | .removeLoop =>
    match s.mQueueUserRemove with
    | [] => some { s with update := .users s.mSocketUserList }
    | user :: rest =>
      match { s with mQueueUserRemove := rest }.doRemovePlayer user with
      | .ok s => some s
      | .error _ => some { s with update := .crashed }
  | .users [] => some { s with update := .tcpQueueSize s.mSocketUserList }
  | .users (u :: rest) =>
    let s := if timedOut then s.removePlayer (s.users u).sessionToken else s
    some { s with update := .users rest }
  | .tcpQueueSize [] => some { s with update := .udpQueueSize s.mSocketUserList }
  | .tcpQueueSize (_ :: rest) => some { s with update := .tcpQueueSize rest }
  | .udpQueueSize [] => some { s with update := .commands }
  | .udpQueueSize (u :: rest) =>
    match (s.users u).udpConnectionClient with
    | none => some { s with update := .crashed }
    | some _ => some { s with update := .udpQueueSize rest }
  | .commands => some { s with update := .addLoop }
  | .crashed => none

inductive ConnectEvent where
  /-- the I/O thread takes the next step of a handshake -/
  | connect (user : SessionRef) (udpId port : UInt16)
  /-- the main thread takes the next step of `Update` -/
  | update (timedOut : Bool)
  /-- a handler asks for the removal of a session -/
  | removePlayer (user : Token)
  /-- the I/O thread closes a session whose client is gone -/
  | close (user : SessionRef)
  deriving DecidableEq, Repr

def Step (s : AsyncServer) (e : ConnectEvent) (s' : AsyncServer) : Prop :=
  match e with
  | .connect u udpId port => s.connectStep u udpId port = some s'
  | .update timedOut => s.updateStep timedOut = some s'
  | .removePlayer user => s' = s.removePlayer user
  | .close u => (s.users u).pc = .finished ∧ s.close u = .ok s'

/-- A server nobody has connected to; the sessions are those still to come. -/
structure Init (s : AsyncServer) : Prop where
  pc : ∀ u, (s.users u).pc = .addPlayer
  udpConnectionClient : ∀ u, (s.users u).udpConnectionClient = none
  mSocketUsers : s.mSocketUsers = ∅
  mUdpIdMap : s.mUdpIdMap = ∅
  mSocketUserList : s.mSocketUserList = []
  mQueueUserAdd : s.mQueueUserAdd = []
  mQueueUserRemove : s.mQueueUserRemove = []
  update : s.update = .addLoop

def system : System AsyncServer ConnectEvent := ⟨Init, Step⟩

/-! ### Small lemmas -/

@[simp] theorem setUser_self (s : AsyncServer) (u : SessionRef)
    (f : ConnectingUser → ConnectingUser) : (s.setUser u f).users u = f (s.users u) :=
  Function.update_self ..

theorem setUser_of_ne (s : AsyncServer) {u v : SessionRef} (f : ConnectingUser → ConnectingUser)
    (h : v ≠ u) : (s.setUser u f).users v = s.users v :=
  Function.update_of_ne h ..

/-- What an update of one session leaves alone it leaves alone in every session. -/
theorem setUser_field {α : Type} (g : ConnectingUser → α) (s : AsyncServer) (u : SessionRef)
    (f : ConnectingUser → ConnectingUser) (hg : ∀ x, g (f x) = g x) (v : SessionRef) :
    g ((s.setUser u f).users v) = g (s.users v) := by
  by_cases hv : v = u
  · rw [hv, setUser_self, hg]
  · rw [setUser_of_ne s f hv]

/-! ### What the main thread does -/

section MainThread

variable {s s' : AsyncServer}

/-- The server after `DoAddPlayer` of a session whose token is new. -/
def added (s : AsyncServer) (u : SessionRef) : AsyncServer :=
  { s with mSocketUsers := s.mSocketUsers.insert (s.users u).sessionToken u }.populateUserList

/-- The server after the erasures of `DoRemovePlayer`. -/
def erased (s : AsyncServer) (user : Token) (udpId : UInt16) : AsyncServer :=
  { s with
    mSocketUsers := s.mSocketUsers.erase user
    mUdpIdMap := s.mUdpIdMap.erase udpId }.populateUserList

theorem doAddPlayer_eq (s : AsyncServer) (u : SessionRef) :
    s.doAddPlayer u = if s.hasPlayerSession (s.users u).sessionToken then s else s.added u := rfl

theorem close_ok {u : SessionRef} (h : s.close u = .ok s') :
    ((s.users u).connected = false ∧ s' = s) ∨
    ((s.users u).connected = true ∧ s' =
      (s.setUser u fun x => { x with connected := false, udpEnabled := false }).removePlayer
        (s.users u).sessionToken) := by
  unfold close at h
  split_ifs at h with hc
  · split at h
    · cases h
    · cases h
      exact Or.inr ⟨hc, rfl⟩
  · cases h
    exact Or.inl ⟨by simpa using hc, rfl⟩

/-- A session that is still connected is closed through its UDP connection. -/
theorem client_of_close {u : SessionRef} (h : s.close u = .ok s') :
    (s.users u).connected = true → (s.users u).udpConnectionClient ≠ none := by
  intro hc hnone
  simp only [close, hc, hnone, if_true] at h
  cases h

theorem close_of_client {u : SessionRef}
    (h : (s.users u).connected = true → (s.users u).udpConnectionClient ≠ none) :
    ∃ t, s.close u = .ok t := by
  unfold close
  split_ifs with hc
  · cases hclient : (s.users u).udpConnectionClient with
    | none => exact absurd hclient (h hc)
    | some port => exact ⟨_, rfl⟩
  · exact ⟨s, rfl⟩

/-- `DoRemovePlayer` does not know the session, or closes and erases it. -/
theorem doRemovePlayer_ok {user : Token} (h : s.doRemovePlayer user = .ok s') :
    (s.mSocketUsers.lookup user = none ∧ s' = s) ∨
    ∃ u t, s.mSocketUsers.lookup user = some u ∧ s.close u = .ok t ∧
      s' = t.erased user (s.users u).udpID := by
  unfold doRemovePlayer at h
  split at h
  · next hnone =>
    cases h
    exact Or.inl ⟨hnone, rfl⟩
  · next u hu =>
    obtain ⟨t, hclose, h⟩ := Exec.bind_eq_ok.mp h
    cases h
    exact Or.inr ⟨u, t, hu, hclose, rfl⟩

/-- A step of `Update` adds a session, removes one, asks for the removal of one, or
only moves on. -/
theorem updateStep_cases {timedOut : Bool} (h : s.updateStep timedOut = some s') :
    (∃ u rest, s.update = .addLoop ∧ s.mQueueUserAdd = u :: rest ∧
      s' = { s with mQueueUserAdd := rest }.doAddPlayer u) ∨
    (∃ user rest, s.update = .removeLoop ∧ s.mQueueUserRemove = user :: rest ∧
      { s with mQueueUserRemove := rest }.doRemovePlayer user = .ok s') ∨
    (∃ u rest, s.update = .users (u :: rest) ∧ timedOut = true ∧
      s' = { s.removePlayer (s.users u).sessionToken with update := .users rest }) ∨
    ∃ pc, s' = { s with update := pc } ∧
      ∀ u ∈ pc.remaining, u ∈ s.mSocketUserList ∨ u ∈ s.update.remaining := by
  have hlist : ∀ u ∈ s.mSocketUserList, u ∈ s.mSocketUserList ∨ u ∈ s.update.remaining :=
    fun u hu => Or.inl hu
  unfold updateStep at h
  split at h
  · next hpc =>
    split at h
    · cases h
      exact Or.inr (Or.inr (Or.inr ⟨_, rfl, nofun⟩))
    · next u rest hq =>
      cases h
      exact Or.inl ⟨u, rest, hpc, hq, rfl⟩
  · next hpc =>
    split at h
    · cases h
      exact Or.inr (Or.inr (Or.inr ⟨_, rfl, hlist⟩))
    · next user rest hq =>
      split at h
      · next t ht =>
        cases h
        exact Or.inr (Or.inl ⟨user, rest, hpc, hq, ht⟩)
      · cases h
        exact Or.inr (Or.inr (Or.inr ⟨_, rfl, nofun⟩))
  · cases h
    exact Or.inr (Or.inr (Or.inr ⟨_, rfl, hlist⟩))
  · next u rest hpc =>
    cases h
    split_ifs with htime
    · exact Or.inr (Or.inr (Or.inl ⟨u, rest, hpc, htime, rfl⟩))
    · refine Or.inr (Or.inr (Or.inr ⟨_, rfl, fun v hv => Or.inr ?_⟩))
      rw [hpc]
      exact List.mem_cons_of_mem _ hv
  · cases h
    exact Or.inr (Or.inr (Or.inr ⟨_, rfl, hlist⟩))
  · next rest hpc =>
    cases h
    refine Or.inr (Or.inr (Or.inr ⟨_, rfl, fun v hv => Or.inr ?_⟩))
    rw [hpc]
    exact List.mem_cons_of_mem _ hv
  · cases h
    exact Or.inr (Or.inr (Or.inr ⟨_, rfl, nofun⟩))
  · next u rest hpc =>
    split at h
    · cases h
      exact Or.inr (Or.inr (Or.inr ⟨_, rfl, nofun⟩))
    · cases h
      refine Or.inr (Or.inr (Or.inr ⟨_, rfl, fun v hv => Or.inr ?_⟩))
      rw [hpc]
      exact List.mem_cons_of_mem _ hv
  · cases h
    exact Or.inr (Or.inr (Or.inr ⟨_, rfl, nofun⟩))
  · cases h

end MainThread

end AsyncServer

end GameServer
