import GameServer.Lib.LockOrder
import GameServer.Network.Data

/-! The mutexes of the server. Each function is cut down to the mutexes that it locks and
to what can hold its thread up: a semaphore, the end of another thread, the network. A
thread that is not created yet is one that has not run. -/

namespace GameServer.Locks

open Lib

inductive Mutex where
  /-- `Logger::mtx` -/
  | logger
  /-- `m_user_mtx`, which is recursive; no thread locks it twice -/
  | user
  | mainCommandQueue
  | asyncCommandQueue
  | memory
  | player (mtch : MatchRef)
  | commandQueue (mtch : MatchRef)
  | tcpSend (connection : SessionRef)
  /-- `m_lock` of a `tcp_connection` -/
  | tcp (connection : SessionRef)
  | udpSend (connection : SessionRef)
  deriving DecidableEq, Repr

/-- `m_user_mtx` is the only one that is held while another one is locked. -/
def rank : Mutex → ℕ
  | .user => 0
  | _ => 1

/-- All of `Log`, `LogWarning` and `ResetInput`. -/
def Logger.addEntry : Code Mutex := .locked .logger .skip

def Logger.update : Code Mutex := .maybe (.locked .logger .skip)

def setMemoryUsageForThread : Code Mutex := .locked .memory .skip

section Fits

variable {r : ℕ}

@[simp] theorem addEntry_fits (h : r ≤ 1) : Logger.addEntry.Fits rank r :=
  Code.fits_locked h Code.fits_skip

@[simp] theorem loggerUpdate_fits : Logger.update.Fits rank 0 := by
  simp [Logger.update]

@[simp] theorem setMemoryUsageForThread_fits : setMemoryUsageForThread.Fits rank 0 := by
  simp [setMemoryUsageForThread]

end Fits

/-! ### Connections -/

section Connections

variable (connection user : SessionRef)

/-- `start_send` returns early when the queue is empty, having unlocked it there. -/
def startSend (sendLock : Mutex) : Code Mutex :=
  .maybe (.block [.wait, .lock sendLock, .either (.unlock sendLock) (.unlock sendLock)])

def runSend (sendLock : Mutex) : Code Mutex := .loop (.block [startSend sendLock, .wait])

def TcpConnection.send : Code Mutex := .locked (.tcpSend connection) .skip

def TcpConnection.runSend : Code Mutex := Locks.runSend (.tcpSend connection)

def TcpConnection.startRead : Code Mutex := .locked (.tcp connection) .skip

def TcpConnection.startInitialConnect : Code Mutex := .locked (.tcp connection) .skip

/-- It joins the sender thread. -/
def TcpConnection.close : Code Mutex := .wait

def UdpConnection.send : Code Mutex := .locked (.udpSend connection) .skip

def UdpConnection.runSend : Code Mutex := Locks.runSend (.udpSend connection)

def UdpConnection.close : Code Mutex := .block [Logger.addEntry, .wait]

def SocketUser.send : Code Mutex :=
  .maybe (.either (TcpConnection.send user) (UdpConnection.send user))

def SocketUser.close : Code Mutex := .maybe (.block [TcpConnection.close, UdpConnection.close])

end Connections

theorem runSend_fits (sendLock : Mutex) : (runSend sendLock).Fits rank 0 := by
  have hsend : (startSend sendLock).Fits rank 0 := by
    rw [startSend, Code.fits_maybe]
    intro held h
    have hnil := Code.eq_nil_of_below h
    subst hnil
    refine ⟨[], ⟨rfl, rfl⟩, [sendLock], ⟨by simp, rfl⟩, [], ?_, rfl⟩
    intro n
    by_cases hn : n = 0
    · simp [hn, Code.Orders]
    · simp [hn, Code.Orders]
  simp [runSend, hsend]

@[simp] theorem socketUserSend_fits (user : SessionRef) : (SocketUser.send user).Fits rank 0 := by
  simp [SocketUser.send, TcpConnection.send, UdpConnection.send]

@[simp] theorem socketUserClose_fits : SocketUser.close.Fits rank 0 := by
  rw [SocketUser.close, Code.fits_maybe]
  apply Code.fits_block
  simp [TcpConnection.close, UdpConnection.close]

/-! ### Matches -/

section Matches

variable (mtch : MatchRef)

def Match.broadcastCommand : Code Mutex := .loop (.pick SocketUser.send)

def Match.joinPlayer : Code Mutex :=
  .either Logger.addEntry (.locked (.player mtch) .skip)

/-- `found` says whether it may find the player: it then returns without unlocking. -/
def Match.removePlayer (found : Bool) : Code Mutex :=
  .block [.lock (.player mtch),
    if found then .either .skip (.unlock (.player mtch)) else .unlock (.player mtch)]

def Match.startMatch : Code Mutex :=
  .maybe (.block [.locked (.player mtch) .skip, Match.broadcastCommand, Logger.addEntry])

def Match.submitMatchCommand : Code Mutex := .locked (.commandQueue mtch) .skip

/-- Of the commands that are well formed, only the start locks something. -/
def Match.executeNetCommand : Code Mutex :=
  .maybe (.either Logger.addEntry (.either (Match.startMatch mtch) (.maybe Logger.addEntry)))

def threadSafeCommandQueueDuplicate (lock : Mutex) : Code Mutex := .locked lock .skip

def Match.processNetCommands : Code Mutex :=
  .block [threadSafeCommandQueueDuplicate (.commandQueue mtch),
    .loop (Match.executeNetCommand mtch)]

def Match.updatePlayers : Code Mutex := .locked (.player mtch) .skip

def Match.sendOrientationUpdates : Code Mutex :=
  .maybe (.block [.locked (.player mtch) .skip, Match.broadcastCommand])

def Match.sendPlayerEvents : Code Mutex :=
  .maybe (.block [.locked (.player mtch) .skip, .maybe Match.broadcastCommand])

def Match.asynUpdate : Code Mutex :=
  .block [Match.processNetCommands mtch, Match.updatePlayers mtch,
    Match.sendOrientationUpdates mtch, Match.sendPlayerEvents mtch, setMemoryUsageForThread]

/-- `ThreadInit`, then `GameLoop`. -/
def Match.run : Code Mutex := .block [Logger.addEntry, .loop (Match.asynUpdate mtch)]

end Matches

section MatchesFit

variable {mtch : MatchRef}

@[simp] theorem broadcastCommand_fits : Match.broadcastCommand.Fits rank 0 := by
  simp [Match.broadcastCommand]

@[simp] theorem joinPlayer_fits : (Match.joinPlayer mtch).Fits rank 0 := by
  simp [Match.joinPlayer]

/-- As long as it finds no player. -/
@[simp] theorem removePlayer_fits : (Match.removePlayer mtch false).Fits rank 1 := by
  intro held h
  exact ⟨.player mtch :: held, ⟨h, rfl⟩, held, rfl, rfl⟩

@[simp] theorem startMatch_fits : (Match.startMatch mtch).Fits rank 0 := by
  simp [Match.startMatch]

@[simp] theorem submitMatchCommand_fits : (Match.submitMatchCommand mtch).Fits rank 0 := by
  simp [Match.submitMatchCommand]

@[simp] theorem executeNetCommand_fits : (Match.executeNetCommand mtch).Fits rank 0 := by
  simp [Match.executeNetCommand]

@[simp] theorem threadSafeCommandQueueDuplicate_fits (lock : Mutex) :
    (threadSafeCommandQueueDuplicate lock).Fits rank 0 := by
  simp [threadSafeCommandQueueDuplicate]

@[simp] theorem asynUpdate_fits : (Match.asynUpdate mtch).Fits rank 0 := by
  apply Code.fits_block
  simp [Match.processNetCommands, Match.updatePlayers, Match.sendOrientationUpdates,
    Match.sendPlayerEvents]

theorem matchRun_fits : (Match.run mtch).Fits rank 0 := by
  simp [Match.run]

end MatchesFit

/-! ### Commands -/

section Commands

variable (user : SessionRef)

def MatchManager.addMatchPlayer : Code Mutex := .either (.pick Match.joinPlayer) Logger.addEntry

def MatchManager.routMatchNetCommand : Code Mutex :=
  .either Logger.addEntry (.maybe (.pick Match.submitMatchCommand))

/-- `authorized`, and whether the player is there already. -/
def ServerMain.playerAuthenticated : Code Mutex :=
  .either (.block [Logger.addEntry, .maybe (.block [Logger.addEntry, SocketUser.close])])
    (.block [Logger.addEntry, SocketUser.close])

/-- `SetUser` and `SetIdentity` log, the latter once more when it cannot parse. -/
def ServerMain.userIdentify : Code Mutex :=
  .block [Logger.addEntry, Logger.addEntry,
    .either ServerMain.playerAuthenticated (.block [Logger.addEntry, SocketUser.close]),
    SocketUser.send user]

def ServerMain.joinMatch : Code Mutex :=
  .either (SocketUser.send user)
    (.block [Logger.addEntry,
      .either (.block [Logger.addEntry, SocketUser.send user])
        (.block [MatchManager.addMatchPlayer, .maybe Logger.addEntry, Logger.addEntry,
          SocketUser.send user])])

/-- Only the answer to a ping locks something. -/
def AsyncServer.systemCmd : Code Mutex := .maybe (SocketUser.send user)

def AsyncServer.callback : Code Mutex :=
  .either (AsyncServer.systemCmd user)
    (.either (ServerMain.userIdentify user)
      (.either (ServerMain.joinMatch user) MatchManager.routMatchNetCommand))

end Commands

def AsyncServer.doProcess : Code Mutex :=
  .either Logger.addEntry
    (.block [.locked .user .skip, .maybe (.pick AsyncServer.callback)])

def AsyncServer.processAsync : Code Mutex :=
  .loop (.block [threadSafeCommandQueueDuplicate .asyncCommandQueue,
    .loop AsyncServer.doProcess])

section CommandsFit

variable {user : SessionRef}

@[simp] theorem addMatchPlayer_fits : MatchManager.addMatchPlayer.Fits rank 0 := by
  simp [MatchManager.addMatchPlayer]

@[simp] theorem routMatchNetCommand_fits : MatchManager.routMatchNetCommand.Fits rank 0 := by
  simp [MatchManager.routMatchNetCommand]

@[simp] theorem playerAuthenticated_fits : ServerMain.playerAuthenticated.Fits rank 0 := by
  simp [ServerMain.playerAuthenticated]

@[simp] theorem userIdentify_fits : (ServerMain.userIdentify user).Fits rank 0 := by
  simp [ServerMain.userIdentify]

@[simp] theorem joinMatch_fits : (ServerMain.joinMatch user).Fits rank 0 := by
  rw [ServerMain.joinMatch, Code.fits_either]
  refine ⟨socketUserSend_fits user, ?_⟩
  apply Code.fits_block
  simp

@[simp] theorem systemCmd_fits : (AsyncServer.systemCmd user).Fits rank 0 := by
  simp [AsyncServer.systemCmd]

@[simp] theorem callback_fits : (AsyncServer.callback user).Fits rank 0 := by
  simp [AsyncServer.callback]

@[simp] theorem doProcess_fits : AsyncServer.doProcess.Fits rank 0 := by
  simp [AsyncServer.doProcess]

theorem processAsync_fits : AsyncServer.processAsync.Fits rank 0 := by
  simp [AsyncServer.processAsync]

end CommandsFit

/-! ### The network threads -/

def AsyncServer.process : Code Mutex :=
  .either (.locked .asyncCommandQueue .skip) (.locked .mainCommandQueue .skip)

def AsyncServer.receiveUdp : Code Mutex := .either AsyncServer.process Logger.addEntry

def SocketUser.processReceiveBuffer : Code Mutex := .either AsyncServer.process Logger.addEntry

def SocketUser.handleStartConnectFinished (user : SessionRef) : Code Mutex :=
  .either
    (.block [Logger.addEntry, SocketUser.send user, TcpConnection.startRead user])
    (SocketUser.send user)

section Handlers

variable (connection : SessionRef)

/-- The rest of the frame is read with a blocking read. -/
def TcpConnection.handleInitialConnect : Code Mutex :=
  .block [Logger.addEntry,
    .either Logger.addEntry
      (.block [.wait, Logger.addEntry,
        .maybe (.block [Logger.addEntry, Logger.addEntry, Logger.addEntry, Logger.addEntry]),
        SocketUser.handleStartConnectFinished connection, setMemoryUsageForThread])]

def TcpConnection.handleRead : Code Mutex :=
  .either (.block [Logger.addEntry, .maybe SocketUser.close])
    (.either Logger.addEntry
      (.block [.wait, .maybe (.block [.maybe SocketUser.processReceiveBuffer,
        TcpConnection.startRead connection])]))

def TcpServer.handleAccept : Code Mutex :=
  .block [Logger.addEntry,
    .either (.block [Logger.addEntry, TcpConnection.startInitialConnect connection])
      Logger.addEntry,
    setMemoryUsageForThread]

end Handlers

def TcpServer.handler (connection : SessionRef) : Code Mutex :=
  .either (TcpServer.handleAccept connection)
    (.either (TcpConnection.handleInitialConnect connection)
      (TcpConnection.handleRead connection))

def TcpServer.runService : Code Mutex :=
  .block [Logger.addEntry, .loop (.block [.wait, .pick TcpServer.handler]), Logger.addEntry]

def UdpConnection.handleReceive : Code Mutex :=
  .maybe (.either Logger.addEntry AsyncServer.receiveUdp)

/-- Of `udp_main_server` and of each `udp_connection`. -/
def UdpConnection.runService : Code Mutex :=
  .block [Logger.addEntry, .loop (.block [.wait, UdpConnection.handleReceive]), Logger.addEntry]

section NetworkFits

variable {connection user : SessionRef}

@[simp] theorem process_fits : AsyncServer.process.Fits rank 0 := by
  simp [AsyncServer.process]

@[simp] theorem handleStartConnectFinished_fits :
    (SocketUser.handleStartConnectFinished user).Fits rank 0 := by
  simp [SocketUser.handleStartConnectFinished, TcpConnection.startRead]

@[simp] theorem handleInitialConnect_fits :
    (TcpConnection.handleInitialConnect connection).Fits rank 0 := by
  apply Code.fits_block
  simp

@[simp] theorem handleRead_fits : (TcpConnection.handleRead connection).Fits rank 0 := by
  have hnext : (Code.block [.maybe SocketUser.processReceiveBuffer,
      TcpConnection.startRead connection]).Fits rank 0 := by
    simp [SocketUser.processReceiveBuffer, TcpConnection.startRead]
  simp [TcpConnection.handleRead, hnext]

@[simp] theorem handleAccept_fits : (TcpServer.handleAccept connection).Fits rank 0 := by
  apply Code.fits_block
  simp [TcpConnection.startInitialConnect]

theorem tcpRunService_fits : TcpServer.runService.Fits rank 0 := by
  apply Code.fits_block
  simp [TcpServer.handler]

theorem udpRunService_fits : UdpConnection.runService.Fits rank 0 := by
  apply Code.fits_block
  simp [UdpConnection.handleReceive, AsyncServer.receiveUdp]

end NetworkFits

/-! ### The main thread -/

section Main

variable (found : Bool)

def ServerMain.userConnected : Code Mutex :=
  .block [.maybe (.pick fun mtch => Match.removePlayer mtch found), Logger.addEntry]

def ServerMain.userDisconnected : Code Mutex :=
  .block [Logger.addEntry, .maybe Logger.addEntry]

def AsyncServer.populateUserList : Code Mutex := .locked .user .skip

/-- `UserConnected` is called with `m_user_mtx` held. -/
def AsyncServer.doAddPlayer : Code Mutex :=
  .maybe (.block [.locked .user (ServerMain.userConnected found), AsyncServer.populateUserList])

def AsyncServer.doRemovePlayer : Code Mutex :=
  .maybe (.block [ServerMain.userDisconnected, SocketUser.close, .locked .user .skip,
    AsyncServer.populateUserList])

def AsyncServer.update : Code Mutex :=
  .block [.loop (AsyncServer.doAddPlayer found), .loop AsyncServer.doRemovePlayer,
    threadSafeCommandQueueDuplicate .mainCommandQueue, .loop AsyncServer.doProcess]

/-- `Process` of the console may log; `MatchManager::Update` locks nothing. -/
def ServerMain.update : Code Mutex :=
  .maybe (.block [.maybe Logger.addEntry, AsyncServer.update found, setMemoryUsageForThread,
    .maybe (.block [Logger.addEntry, Logger.addEntry]), Logger.update])

/-- `Init` logs the first accept and the two starts, then comes `Loop`. -/
def ServerMain.start : Code Mutex :=
  .block [Logger.addEntry, Logger.addEntry, Logger.addEntry, .loop (ServerMain.update found)]

end Main

section MainFits

theorem userConnected_fits : (ServerMain.userConnected false).Fits rank 1 := by
  simp [ServerMain.userConnected]

@[simp] theorem doAddPlayer_fits : (AsyncServer.doAddPlayer false).Fits rank 0 := by
  have hconnected : (Code.locked .user (ServerMain.userConnected false)).Fits rank 0 :=
    Code.fits_locked (Nat.zero_le _) userConnected_fits
  simp [AsyncServer.doAddPlayer, AsyncServer.populateUserList, hconnected]

@[simp] theorem doRemovePlayer_fits : AsyncServer.doRemovePlayer.Fits rank 0 := by
  rw [AsyncServer.doRemovePlayer, Code.fits_maybe]
  apply Code.fits_block
  simp [ServerMain.userDisconnected, AsyncServer.populateUserList]

@[simp] theorem asyncServerUpdate_fits : (AsyncServer.update false).Fits rank 0 := by
  simp [AsyncServer.update]

@[simp] theorem serverUpdate_fits : (ServerMain.update false).Fits rank 0 := by
  rw [ServerMain.update, Code.fits_maybe]
  apply Code.fits_block
  simp

theorem start_fits : (ServerMain.start false).Fits rank 0 := by
  simp [ServerMain.start]

end MainFits

/-! ### All threads -/

inductive ServerThread where
  | main
  | processAsync
  | tcpService
  | udpService
  | udpConnectionService (connection : SessionRef)
  | tcpSends (connection : SessionRef)
  | udpSends (connection : SessionRef)
  | game (mtch : MatchRef)
  deriving DecidableEq, Repr

def program (found : Bool) : ServerThread → Code Mutex
  | .main => ServerMain.start found
  | .processAsync => AsyncServer.processAsync
  | .tcpService => TcpServer.runService
  | .udpService => UdpConnection.runService
  | .udpConnectionService _ => UdpConnection.runService
  | .tcpSends connection => TcpConnection.runSend connection
  | .udpSends connection => UdpConnection.runSend connection
  | .game mtch => Match.run mtch

theorem program_fits (t : ServerThread) : (program false t).Fits rank 0 := by
  cases t with
  | main => exact start_fits
  | processAsync => exact processAsync_fits
  | tcpService => exact tcpRunService_fits
  | udpService => exact udpRunService_fits
  | udpConnectionService connection => exact udpRunService_fits
  | tcpSends connection => exact runSend_fits _
  | udpSends connection => exact runSend_fits _
  | game mtch => exact matchRun_fits

theorem rank_lt (m : Mutex) : rank m < 2 := by
  cases m with
  | user => exact Nat.two_pos
  | _ => exact Nat.one_lt_two

/-- With `found` the main thread can come to wait for a mutex that it holds itself: an
added session leaves `m_player_mtx` locked, and the next one locks it again. -/
theorem relock : ∃ tr s k, (Threads.system (program true)).Exec tr s ∧
    s.holder (.player 0) = some .main ∧ s.todo .main = .lock (.player 0) :: k := by
  obtain ⟨tr, h⟩ := Threads.exec_alone (.nil (Eq.refl (Threads.start (program true)))) .main 100
  exact ⟨tr, _, _, h, rfl, rfl⟩

/-- In every reachable state every mutex gets free, by running threads that hold mutexes,
whatever branches they take, if and only if `RemovePlayer` never finds a player. -/
theorem mutexes_get_free (found : Bool) :
    (∀ tr s, (Threads.system (program found)).Exec tr s →
      ∀ m, s.Leads fun s' => s'.holder m = none) ↔ found = false := by
  constructor
  · intro h
    by_contra hfound
    rw [Bool.not_eq_false] at hfound
    subst hfound
    obtain ⟨tr, s, k, hexec, hold, htodo⟩ := relock
    exact Threads.not_leads_of_relock hold htodo (h tr s hexec (.player 0))
  · rintro rfl tr s h m
    exact Threads.leads_free rank_lt program_fits h m

end GameServer.Locks
