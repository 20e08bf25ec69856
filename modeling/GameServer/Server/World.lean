import Mathlib.Data.List.AList
import GameServer.Match.Run

/-! `Server_Main` with its sessions, players and matches. Each handler, each turn of
a loop in `AsyncServer::Update` and each call of a match thread is one step; the
steps of all threads come in any order. Handshakes are complete when a session is
queued, and the UDP id table is left out. -/

namespace GameServer

open Lib

/-- A `SocketUser`. -/
structure SocketUser where
  /-- the weak pointer `User`, expired or not -/
  user : Option PlayerRef
  hasUser : Bool
  sessionToken : Token
  connected : Bool
  udpEnabled : Bool
  isAuthenticated : Bool
  deriving DecidableEq, Repr

structure World where
  players : PlayerRef → Player
  nextPlayer : PlayerRef
  sessions : SessionRef → SocketUser
  nextSession : SessionRef
  mSocketUsers : AList fun _ : Token => SessionRef
  mQueueUserAdd : List SessionRef
  mQueueUserRemove : List Token
  mPlayers : AList fun _ : UserID => PlayerRef
  matchAt : MatchRef → Match
  nextMatch : MatchRef
  mMatches : AList fun _ : UInt16 => MatchRef
  mMatchesIDs : AList fun _ : String => MatchRef
  /-- players that a running handler holds -/
  held : List PlayerRef
  /-- what the handlers have sent to their sessions -/
  sent : List (SessionRef × OpCodes.Client × List UInt8)

namespace World

def setSession (w : World) (s : SessionRef) (f : SocketUser → SocketUser) : World :=
  { w with sessions := Function.update w.sessions s (f (w.sessions s)) }

def setPlayer (w : World) (p : PlayerRef) (f : Player → Player) : World :=
  { w with players := Function.update w.players p (f (w.players p)) }

/-- A match with the players that it points to. -/
def matchCtx (w : World) (m : MatchRef) : MatchCtx := ⟨w.matchAt m, w.players⟩

def setMatchCtx (w : World) (m : MatchRef) (c : MatchCtx) : World :=
  { w with matchAt := Function.update w.matchAt m c.mtch, players := c.players }

/-- Some `shared_ptr` to the player is left. -/
def alive (w : World) (p : PlayerRef) : Bool :=
  w.held.contains p || (w.mPlayers.entries.map Sigma.snd).contains p ||
    (List.range w.nextMatch).any fun m => (w.matchAt m).mPlayers.values.contains p

/-- `GetUser().lock()`. -/
def lockUser (w : World) (s : SessionRef) : Option PlayerRef :=
  (w.sessions s).user.filter fun p => w.alive p

def hasPlayerSession (w : World) (sessionKey : Token) : Bool :=
  (w.mSocketUsers.lookup sessionKey).isSome

def hasPlayer (w : World) (pId : UserID) : Bool := (w.mPlayers.lookup pId).isSome

def hasMatchID (w : World) (id : String) : Bool := (w.mMatchesIDs.lookup id).isSome

def hasMatchShortID (w : World) (id : UInt16) : Bool := (w.mMatches.lookup id).isSome

/-! ### `SocketUser` -/

def setUser (w : World) (s : SessionRef) (user : PlayerRef) : World :=
  let w := w.setSession s fun x => { x with user := some user }
  let w := w.setPlayer user (·.setSocketUser s)
  w.setSession s fun x => { x with hasUser := true }

def setAuthenticated (w : World) (s : SessionRef) : World :=
  w.setSession s fun x => { x with isAuthenticated := true }

/-- `AsyncServer::RemovePlayer`. -/
def removePlayer (w : World) (user : Token) : World :=
  { w with mQueueUserRemove := w.mQueueUserRemove ++ [user] }

/-- `User.lock()->Disconnected()` when the pointer has not expired. -/
def disconnectUser (w : World) (s : SessionRef) : World :=
  match w.lockUser s with
  | some p => w.setPlayer p (·.disconnected)
  | none => w

/-- The connections that are closed here are not part of this model. -/
def close (w : World) (s : SessionRef) : World :=
  if (w.sessions s).connected then
    let w := w.setSession s fun x => { x with connected := false, udpEnabled := false }
    let w := w.disconnectUser s
    w.removePlayer (w.sessions s).sessionToken
  else w

def send (w : World) (s : SessionRef) (command : OpCodes.Client) (data : List UInt8) : World :=
  if (w.sessions s).connected then { w with sent := w.sent ++ [(s, command, data)] } else w

/-! ### `Server_Main` -/

def userConnected (w : World) (s : SessionRef) : Exec World :=
  match (if (w.sessions s).hasUser then w.lockUser s else none) with
  | none => .ok w
  | some p =>
    match (w.players p).mActiveMatch with
    | none => .ok w
    | some m => do
      let (_, c) ← (w.matchCtx m).removePlayer p
      .ok (w.setMatchCtx m c)

def userDisconnected (w : World) (s : SessionRef) : World :=
  match w.lockUser s with
  | none => w
  | some p =>
    let id := (w.players p).getUserID
    if w.hasPlayer id then { w with mPlayers := w.mPlayers.erase id } else w

def playerAuthenticated (w : World) (player : PlayerRef) (authorized : Bool) : Exec World :=
  match (w.players player).mSocketUser with
  | none => .error .nullDeref
  | some s =>
    if authorized then
      if w.hasPlayer (w.players player).getUserID then .ok (w.close s)
      else
        .ok { w.setAuthenticated s with
          mPlayers := w.mPlayers.insert (w.players player).getUserID player }
    else .ok (w.close s)

/-- `PlayerAuthenticator::Authenticate` authorises everybody. -/
def authenticate (w : World) (player : PlayerRef) : Exec World := w.playerAuthenticated player true

/-- `make_shared<Player>()`, held by the handler. -/
def makePlayer (w : World) (now : UInt64) : World :=
  { w.setPlayer w.nextPlayer (·.construct now) with
    nextPlayer := w.nextPlayer + 1
    held := w.nextPlayer :: w.held }

def userIdentify (parse : List UInt8 → Option Json) (now : UInt64) (w : World) (s : SessionRef)
    (buffer : List UInt8) : Exec World :=
  let player := w.nextPlayer
  let w := (w.makePlayer now).setUser s player
  let r := Player.setIdentity parse (w.players player) buffer
  let w := w.setPlayer player fun _ => r.1
  match r.2 with
  | .error f => .error f
  | .ok isIdentified => do
    let w ← if isIdentified then w.authenticate player else .ok (w.close s)
    let w := w.send s .identifyResult [if isIdentified then 0x01 else 0x00]
    .ok { w with held := w.held.erase player }

/-! ### `MatchManager` -/

def getMatchFromID (w : World) (id : String) : Option MatchRef := w.mMatchesIDs.lookup id

def addMatchPlayer (w : World) (player : Option PlayerRef) (matchId : String) :
    Exec (Bool × World) :=
  match w.mMatchesIDs.lookup matchId with
  | none => .ok (false, w)
  | some m => do
    let (r, c) ← (w.matchCtx m).joinPlayer m player
    .ok (r, w.setMatchCtx m c)

/-- A parse error, an unknown match and a refused join are answered with zeros. The
name of the player is logged at the end, so a null player does not return. -/
def joinMatch (parse : List UInt8 → Option Json) (w : World) (s : SessionRef)
    (buffer : List UInt8) : Exec World :=
  if (w.sessions s).isAuthenticated then
    let player := w.lockUser s
    match parse buffer with
    | none => .ok (w.send s .joinMatchResult [0x00, 0x00, 0x00])
    | some jsonVal => do
      let identObj ← jsonVal.asObject
      let matchId ← Json.objectAt identObj "Match_ID" >>= Json.asString
      let (joinRes, w) ← w.addMatchPlayer player matchId
      let reply := match w.getMatchFromID matchId with
        | some m =>
          if joinRes then 0x01 :: BufferUtils.bytes16 (w.matchAt m).mShortID
          else [0x00, 0x00, 0x00]
        | none => [0x00, 0x00, 0x00]
      match player with
      | none => .error .nullDeref
      | some _ => .ok (w.send s .joinMatchResult reply)
  else .ok (w.send s .joinMatchResult [0x00, 0x00, 0x00])

def routMatchNetCommand (w : World) (s : SessionRef) (data : Data) : World :=
  if (w.sessions s).isAuthenticated then
    match w.lockUser s with
    | none => w
    | some p =>
      match (w.players p).mActiveMatch with
      | none => w
      | some m => w.setMatchCtx m ((w.matchCtx m).submitMatchCommand p data)
  else w

/-- `CreateMatch` with the number that `Get_New_Match_Short_ID` ends up with. -/
def createMatch (w : World) (id : String) (shortId : UInt16) : World :=
  if w.hasMatchID id then w
  else
    let m := w.nextMatch
    let mtch := { w.matchAt m with
      mID := id, mShortID := shortId, mPlayers := OrdMap.empty, mPlayerMtx := false,
      mCommandQueue := [], currentCommands := [], mMatchState := .none,
      mOrientationSendBufferSize := 0 }
    { w with
      matchAt := Function.update w.matchAt m mtch
      nextMatch := m + 1
      mMatches := w.mMatches.insert shortId m
      mMatchesIDs := w.mMatchesIDs.insert id m }

/-! ### `AsyncServer` -/

/-- A session whose handshake is done. -/
def connect (w : World) (token : Token) : World :=
  { w with
    sessions := Function.update w.sessions w.nextSession ⟨none, false, token, true, true, false⟩
    nextSession := w.nextSession + 1
    mQueueUserAdd := w.mQueueUserAdd ++ [w.nextSession] }

def doAddPlayer (w : World) (user : SessionRef) : Exec World :=
  if w.hasPlayerSession (w.sessions user).sessionToken then .ok w
  else
    userConnected
      { w with mSocketUsers := w.mSocketUsers.insert (w.sessions user).sessionToken user } user

def doRemovePlayer (w : World) (user : Token) : World :=
  match w.mSocketUsers.lookup user with
  | none => w
  | some s =>
    let w := (w.userDisconnected s).close s
    { w with mSocketUsers := w.mSocketUsers.erase user }

def systemCmd (w : World) (s : SessionRef) (buffer : List UInt8) : Exec World :=
  match buffer with
  | [] => .error .outOfBounds
  | subCommand :: rest =>
    if subCommand = 0x02 then .ok (w.removePlayer (w.sessions s).sessionToken)
    else if subCommand = 0x03 then .ok (w.send s .systemReserved [0x03, 0x01])
    else if subCommand = 0x04 then
      -- the port is read and not used
      if rest.length < 2 then .error .outOfBounds else .ok w
    else .ok w

/-- `DoProcess` with the four registered commands. -/
def doProcess (parse : List UInt8 → Option Json) (now : UInt64) (w : World) (user : Token)
    (data : Data) : Exec World :=
  match w.mSocketUsers.lookup user with
  | none => .ok w
  | some s =>
    if data.command = OpCodes.Server.systemReserved.toByte then w.systemCmd s data.buffer
    else if data.command = OpCodes.Server.submitIdentity.toByte then
      userIdentify parse now w s data.buffer
    else if data.command = OpCodes.Server.matchCommand.toByte then
      .ok (w.routMatchNetCommand s data)
    else if data.command = OpCodes.Server.joinMatch.toByte then joinMatch parse w s data.buffer
    else .ok w

/-! ### Steps -/

/-- The calls that a match thread makes besides the commands that it executes. -/
inductive ThreadCall where
  | threadInit (now : UInt64)
  | updatePlayers (now now' : UInt64)
  | sendOrientations (now now' : UInt64)
  | sendEvents
  deriving DecidableEq, Repr

def ThreadCall.event : ThreadCall → MatchEvent
  | .threadInit now => .threadInit now
  | .updatePlayers now now' => .updatePlayers now now'
  | .sendOrientations now now' => .sendOrientations now now'
  | .sendEvents => .sendEvents

inductive Event where
  /-- a handshake ends with a new session -/
  | connect (token : Token)
  /-- a reader, a timeout or a handler asks for a removal -/
  | removePlayer (user : Token)
  /-- the I/O thread closes a session whose client is gone -/
  | reset (s : SessionRef)
  /-- `Update` pops the queue of new sessions -/
  | addNext
  /-- `Update` pops the queue of removals -/
  | removeNext
  | dispatch (user : Token) (data : Data) (now : UInt64)
  | createMatch (id : String) (shortId : UInt16)
  /-- `ProcessNetCommands` takes over the queued commands -/
  | takeCommands (m : MatchRef)
  /-- `ProcessNetCommands` executes the next command -/
  | executeNext (m : MatchRef)
  | thread (m : MatchRef) (call : ThreadCall)
  deriving DecidableEq, Repr

def authenticated (w : World) : SessionRef → Bool := fun s => (w.sessions s).isAuthenticated

/-- The match with its next command popped. -/
def popCommand (w : World) (m : MatchRef) (rest : List MatchCommand) : MatchCtx :=
  (w.matchCtx m).setMatch fun x => { x with currentCommands := rest }

section Step

variable (parse : List UInt8 → Option Json) (serialize : Json → List UInt8)

def Step (w : World) (e : Event) (w' : World) : Prop :=
  match e with
  | .connect token => w' = w.connect token
  | .removePlayer user => w' = w.removePlayer user
  | .reset s => s < w.nextSession ∧ w' = w.close s
  | .addNext => ∃ s rest, w.mQueueUserAdd = s :: rest ∧
      { w with mQueueUserAdd := rest }.doAddPlayer s = .ok w'
  | .removeNext => ∃ user rest, w.mQueueUserRemove = user :: rest ∧
      w' = { w with mQueueUserRemove := rest }.doRemovePlayer user
  | .dispatch user data now => doProcess parse now w user data = .ok w'
  | .createMatch id shortId => w.hasMatchShortID shortId = false ∧ w' = w.createMatch id shortId
  | .takeCommands m => m < w.nextMatch ∧ (w.matchAt m).currentCommands = [] ∧
      w' = w.setMatchCtx m ((w.matchCtx m).setMatch fun x =>
        { x with currentCommands := x.mCommandQueue, mCommandQueue := [] })
  | .executeNext m => m < w.nextMatch ∧ ∃ cmd rest c out,
      (w.matchAt m).currentCommands = cmd :: rest ∧
      (w.popCommand m rest).executeNetCommand serialize w.authenticated cmd.user cmd.data.buffer =
        .ok (c, out) ∧
      w' = w.setMatchCtx m c
  | .thread m call => m < w.nextMatch ∧ ∃ c,
      MatchCtx.Step m serialize (w.matchCtx m) call.event c ∧ w' = w.setMatchCtx m c

/-- Nobody has connected and there is no match. -/
structure Init (w : World) : Prop where
  nextPlayer : w.nextPlayer = 0
  nextSession : w.nextSession = 0
  mSocketUsers : w.mSocketUsers = ∅
  mQueueUserAdd : w.mQueueUserAdd = []
  mPlayers : w.mPlayers = ∅
  nextMatch : w.nextMatch = 0
  mMatches : w.mMatches = ∅
  mMatchesIDs : w.mMatchesIDs = ∅
  held : w.held = []

def system : System World Event := ⟨Init, Step parse serialize⟩

end Step

/-! ### A server to try runs on -/

def emptyWorld : World where
  players _ := ⟨false, none, [], ⟨"", "", 0, 0⟩, 0, [], none, ⟨0, 0, 0⟩, ⟨0, 0, 0, 0⟩, 0⟩
  nextPlayer := 0
  sessions _ := ⟨none, false, "", false, false, false⟩
  nextSession := 0
  mSocketUsers := ∅
  mQueueUserAdd := []
  mQueueUserRemove := []
  mPlayers := ∅
  matchAt _ := MatchCtx.sampleMatch.mtch
  nextMatch := 0
  mMatches := ∅
  mMatchesIDs := ∅
  held := []
  sent := []

/-- The state after a call that returns. -/
def after (x : Exec World) : World :=
  match x with
  | .ok w => w
  | .error _ => emptyWorld

def identityText (id : String) : List UInt8 :=
  Json.asciiBytes ("\x7b\"UserName\":\"\",\"User_Distro_ID\":\"\",\"UserID\":" ++ id ++
    ",\"Distributor\":0\x7d")

def matchText : List UInt8 := Json.asciiBytes "\x7b\"Match_ID\":\"m\"\x7d"

def identityJson (id : Int64) : Json :=
  .object [("UserName", .string ""), ("User_Distro_ID", .string ""), ("UserID", .int64 id),
    ("Distributor", .int64 0)]

/-- `json::parse` on the texts above and on texts that are no JSON. -/
def sampleParse (text : List UInt8) : Option Json :=
  if text = identityText "1" then some (identityJson 1)
  else if text = identityText "2" then some (identityJson 2)
  else if text = matchText then some (.object [("Match_ID", .string "m")])
  else none

def submitIdentity (text : List UInt8) : Data := ⟨.tcp, OpCodes.Server.submitIdentity.toByte, text⟩

def connectedWorld : World := emptyWorld.connect "a"

def addedWorld : World := after ({ connectedWorld with mQueueUserAdd := [] }.doAddPlayer 0)

def loginWorld : World :=
  after (doProcess sampleParse 0 addedWorld "a" (submitIdentity (identityText "1")))

/-- One session logs in with the UserID 1. -/
def loginRun : List (World × Event) :=
  [(emptyWorld, .connect "a"), (connectedWorld, .addNext),
    (addedWorld, .dispatch "a" (submitIdentity (identityText "1")) 0)]

theorem loginRun_exec (serialize : Json → List UInt8) :
    (system sampleParse serialize).Exec loginRun loginWorld := by
  have h0 : (system sampleParse serialize).Exec [] emptyWorld :=
    .nil ⟨rfl, rfl, rfl, rfl, rfl, rfl, rfl, rfl, rfl⟩
  have h1 := h0.next (.connect "a") connectedWorld rfl
  have h2 := h1.next .addNext addedWorld ⟨0, [], rfl, rfl⟩
  exact h2.next (.dispatch "a" (submitIdentity (identityText "1")) 0) loginWorld rfl

/-- The run goes on with a timeout of the session, and `Update` removes it. -/
def leaveRun (tr : List (World × Event)) (w : World) : List (World × Event) :=
  tr ++ [(w, .removePlayer "a"), (w.removePlayer "a", .removeNext)]

def leftWorld (w : World) : World := { w with mQueueUserRemove := [] }.doRemovePlayer "a"

theorem leaveRun_exec {parse : List UInt8 → Option Json} {serialize : Json → List UInt8}
    {tr : List (World × Event)} {w : World} (h : (system parse serialize).Exec tr w)
    (hq : w.mQueueUserRemove = []) : (system parse serialize).Exec (leaveRun tr w) (leftWorld w) := by
  have hpush : (w.removePlayer "a").mQueueUserRemove = ["a"] := by simp [removePlayer, hq]
  have h1 := h.next (.removePlayer "a") (w.removePlayer "a") rfl
  have h2 := h1.next .removeNext (leftWorld w) ⟨"a", [], hpush, rfl⟩
  rwa [List.append_assoc] at h2

end World

end GameServer
