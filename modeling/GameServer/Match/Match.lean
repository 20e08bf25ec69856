import GameServer.Lib.Execution
import GameServer.Lib.OrdMap
import GameServer.Match.Player

/-! `Match`: its roster, command queue and broadcasts. The player objects live
outside the match, so an operation works on a match together with the players
that its pointers refer to. -/

namespace GameServer

open Lib

inductive MatchState where
  | none
  | joinedWaiting
  | started
  | ended
  deriving DecidableEq, Repr

/-- `Match::NetCommand`. -/
structure MatchCommand where
  user : UserID
  data : Data
  deriving DecidableEq, Repr

structure Match where
  mID : String
  mShortID : UInt16
  mPlayers : OrdMap UserID PlayerRef
  /-- `m_player_mtx` is held -/
  mPlayerMtx : Bool
  mCommandQueue : List MatchCommand
  /-- `current_commands`, the local queue of `ProcessNetCommands` -/
  currentCommands : List MatchCommand
  mMatchState : MatchState
  mLastOrientationUpdate : UInt64
  /-- the bytes behind `m_orientation_send_buffer`; `new` leaves them as they are -/
  mOrientationSendBuffer : ℕ → UInt8
  mOrientationSendBufferSize : ℕ
  mRunning : Bool

/-- A match and the player objects. -/
structure MatchCtx where
  mtch : Match
  players : PlayerRef → Player

/-- The arguments of `BroadcastCommand`. -/
structure Broadcast where
  cmd : OpCodes.Client
  data : List UInt8
  type : Protocal
  deriving DecidableEq, Repr

namespace MatchCtx

def setMatch (c : MatchCtx) (f : Match → Match) : MatchCtx := { c with mtch := f c.mtch }

def setPlayer (c : MatchCtx) (p : PlayerRef) (f : Player → Player) : MatchCtx :=
  { c with players := Function.update c.players p (f (c.players p)) }

def hasPlayer (c : MatchCtx) (playerID : UserID) : Bool := (c.mtch.mPlayers.find? playerID).isSome

/-- `JoinPlayer` of the match at address `this`. -/
def joinPlayer (this : MatchRef) (player : Option PlayerRef) (c : MatchCtx) :
    Exec (Bool × MatchCtx) :=
  if c.mtch.mMatchState ≠ .joinedWaiting then .ok (false, c)
  else if c.mtch.mPlayerMtx then .error .blocked
  else
    match player with
    | none => .error .nullDeref
    | some p =>
      let c := c.setPlayer p (·.setActiveMatch (some this))
      let c := c.setMatch fun m =>
        { m with mPlayers := m.mPlayers.insert (c.players p).getUserID p }
      let c := c.setPlayer p (·.setMatchInstanceID (UInt8.ofNat c.mtch.mPlayers.size))
      .ok (true, c)

/-- `RemovePlayer`; it returns with the mutex held when it found the player. -/
def removePlayer (player : PlayerRef) (c : MatchCtx) : Exec (Bool × MatchCtx) :=
  if c.mtch.mPlayerMtx then .error .blocked
  else if c.hasPlayer (c.players player).getUserID then
    let c := c.setPlayer player (·.setActiveMatch none)
    .ok (true, c.setMatch fun m =>
      { m with mPlayers := m.mPlayers.erase (c.players player).getUserID, mPlayerMtx := true })
  else .ok (false, c)

/-- One element of the `players` array of `Start_Match`. -/
def rosterEntry (p : Player) : Json :=
  .object [("UserName", .string p.mIdentity.userName),
    ("User_ID", .uint64 p.mIdentity.userID.toUInt64),
    ("Instance_ID", .uint64 p.mMatchInstanceId.toUInt64)]

def roster (c : MatchCtx) : Json :=
  .object [("seed", .int64 0),
    ("players", .array (c.mtch.mPlayers.values.map fun p => rosterEntry (c.players p)))]

/-- `StartMatch`; `serialize` is `json::serialize`, and `HashHelper::StringToBytes`
adds the final zero. -/
def startMatch (serialize : Json → List UInt8) (c : MatchCtx) :
    Exec (MatchCtx × List Broadcast) :=
  if c.mtch.mMatchState ≠ .joinedWaiting then .ok (c, [])
  else
    let numOrientations := UInt8.ofNat c.mtch.mPlayers.size
    let playerEntrySize := Player.orientationSize + 1
    let size := playerEntrySize * numOrientations.toNat + 1
    if c.mtch.mPlayerMtx then .error .blocked
    else
      .ok (c.setMatch fun m => { m with mOrientationSendBufferSize := size, mMatchState := .started },
        [⟨.startMatch, serialize c.roster ++ [0], .tcp⟩])

/-- `SubmitPlayerEvent`; `authenticated` is `Get_Authenticated` of the sessions. -/
def submitPlayerEvent (authenticated : SessionRef → Bool) (player : PlayerRef)
    (eventCmd : OpCodes.PlayerEvents) (data : List UInt8) (c : MatchCtx) : Exec MatchCtx :=
  match (c.players player).mSocketUser with
  | none => .error .nullDeref
  | some socketUser =>
    if authenticated socketUser then
      .ok (c.setPlayer player (·.addPlayerEvent ⟨eventCmd, data⟩))
    else .ok c

/-- The float at index `i` of a byte buffer. -/
def floatAt (buffer : List UInt8) (i : ℕ) : UInt32 :=
  UInt32.ofNat (ofLe ((buffer.drop (4 * i)).take 4))

/-- Seven floats are read whatever the size of the buffer is. -/
def updateOrientationNetCmd (player : PlayerRef) (buffer : List UInt8) (c : MatchCtx) :
    Exec MatchCtx :=
  if buffer.length < 28 then .error .outOfBounds
  else
    let f := floatAt buffer
    let location : Vec3 := ⟨f 0, f 1, f 2⟩
    let rotation := Quat.ofWxyz (f 6) (f 3) (f 4) (f 5)
    .ok (c.setPlayer player fun p => (p.setLocation location).setRotation rotation)

/-- `ExecuteNetCommand` for the UserID and the buffer of a queued command. -/
def executeNetCommand (serialize : Json → List UInt8) (authenticated : SessionRef → Bool)
    (userID : UserID) (buffer : List UInt8) (c : MatchCtx) : Exec (MatchCtx × List Broadcast) :=
  match c.mtch.mPlayers.find? userID with
  | none => .ok (c, [])
  | some player =>
    match buffer with
    | [] => .ok (c, [])
    | subCommand :: _ =>
      let buffer := BufferUtils.removeFront 1 buffer
      match OpCodes.ServerMatch.ofByte subCommand with
      | .debugStart => c.startMatch serialize
      | .updateOrientation => do
        let c ← c.updateOrientationNetCmd player buffer
        .ok (c, [])
      | .playerEvent =>
        match buffer with
        | [] => .ok (c, [])
        | eventCmd :: _ => do
          let c ← c.submitPlayerEvent authenticated player (.ofByte eventCmd)
            (BufferUtils.removeFront 1 buffer)
          .ok (c, [])
      | .unnamed _ => .ok (c, [])

def submitMatchCommand (user : PlayerRef) (data : Data) (c : MatchCtx) : MatchCtx :=
  c.setMatch fun m =>
    { m with mCommandQueue := m.mCommandQueue ++ [⟨(c.players user).getUserID, data⟩] }

def updatePlayers (now now' : UInt64) (c : MatchCtx) : Exec MatchCtx :=
  if c.mtch.mPlayerMtx then .error .blocked
  else
    .ok (c.mtch.mPlayers.values.foldl (fun c p => c.setPlayer p (·.matchUpdate now now')) c)

/-- Store `bytes` at index `i` of a buffer of `size` bytes. -/
def store (size : ℕ) (buffer : ℕ → UInt8) (i : ℕ) (bytes : List UInt8) : Exec (ℕ → UInt8) :=
  if i + bytes.length ≤ size then
    .ok fun j => if i ≤ j ∧ j < i + bytes.length then bytes.getD (j - i) 0 else buffer j
  else .error .outOfBounds

/-- The loop of `SendOrientationUpdates`, from entry `pIndex` on. -/
def storeOrientations (players : PlayerRef → Player) (size : ℕ) :
    List PlayerRef → ℕ → (ℕ → UInt8) → Exec (ℕ → UInt8)
  | [], _, buffer => .ok buffer
  | p :: rest, pIndex, buffer => do
    let bufferIndex := pIndex * (Player.orientationSize + 1) + 1
    let buffer ← store size buffer bufferIndex [(players p).mMatchInstanceId]
    let buffer ← store size buffer (bufferIndex + 1) (players p).serializeOrientation
    storeOrientations players size rest (pIndex + 1) buffer

/-- `ORIENTATION_SEND_RATE` in milliseconds. -/
def orientationSendRate : UInt64 := 50

def sendOrientationUpdates (now now' : UInt64) (c : MatchCtx) :
    Exec (MatchCtx × List Broadcast) :=
  if c.mtch.mMatchState ≠ .started then .ok (c, [])
  else if now - c.mtch.mLastOrientationUpdate > orientationSendRate then do
    let size := c.mtch.mOrientationSendBufferSize
    let numOrientations := UInt8.ofNat c.mtch.mPlayers.size
    let buffer ← store size c.mtch.mOrientationSendBuffer 0 [numOrientations]
    if c.mtch.mPlayerMtx then .error .blocked
    else
      let buffer ← storeOrientations c.players size c.mtch.mPlayers.values 0 buffer
      .ok (c.setMatch fun m =>
          { m with mOrientationSendBuffer := buffer, mLastOrientationUpdate := now' },
        [⟨.updateOrientations, (List.range size).map buffer, .udp⟩])
  else .ok (c, [])

/-- The loop of `SendPlayerEvents`: the players, the buffer and the 8-bit count. -/
def drainEvents : List PlayerRef → (PlayerRef → Player) → List UInt8 → UInt8 →
    (PlayerRef → Player) × List UInt8 × UInt8
  | [], players, buff, num => (players, buff, num)
  | p :: rest, players, buff, num =>
    let r := (players p).serializePlayerEvents buff
    drainEvents rest (Function.update players p r.1) r.2.1 (num + UInt8.ofNat r.2.2)

def sendPlayerEvents (c : MatchCtx) : Exec (MatchCtx × List Broadcast) :=
  if c.mtch.mMatchState ≠ .started then .ok (c, [])
  else if c.mtch.mPlayerMtx then .error .blocked
  else
    let r := drainEvents c.mtch.mPlayers.values c.players [] 0
    let c := { c with players := r.1 }
    if r.2.2 = 0 then .ok (c, [])
    else .ok (c, [⟨.playerEvents, BufferUtils.addFirst r.2.2 r.2.1, .tcp⟩])

/-- The first half of `Run`: `ThreadInit`. -/
def threadInit (now : UInt64) (c : MatchCtx) : MatchCtx :=
  c.setMatch fun m =>
    { m with mRunning := true, mMatchState := .joinedWaiting, mLastOrientationUpdate := now }

/-- `EndMatch` with `Stop`; the match manager drops the match afterwards. -/
def endMatch (c : MatchCtx) : MatchCtx :=
  c.setMatch fun m => { m with mMatchState := .ended, mRunning := false }

/-! ### Updating players -/

@[simp] theorem setMatch_players (c : MatchCtx) (f : Match → Match) :
    (c.setMatch f).players = c.players := rfl

@[simp] theorem setMatch_mtch (c : MatchCtx) (f : Match → Match) :
    (c.setMatch f).mtch = f c.mtch := rfl

@[simp] theorem setPlayer_mtch (c : MatchCtx) (p : PlayerRef) (f : Player → Player) :
    (c.setPlayer p f).mtch = c.mtch := rfl

@[simp] theorem setPlayer_self (c : MatchCtx) (p : PlayerRef) (f : Player → Player) :
    (c.setPlayer p f).players p = f (c.players p) :=
  Function.update_self ..

theorem setPlayer_of_ne (c : MatchCtx) {p q : PlayerRef} (f : Player → Player) (h : q ≠ p) :
    (c.setPlayer p f).players q = c.players q :=
  Function.update_of_ne h ..

/-- An update that keeps `g` of a player keeps it of all players. -/
theorem setPlayer_field {α : Type} (g : Player → α) (c : MatchCtx) (p : PlayerRef)
    (f : Player → Player) (hf : ∀ x, g (f x) = g x) (q : PlayerRef) :
    g ((c.setPlayer p f).players q) = g (c.players q) := by
  by_cases h : q = p
  · subst h
    rw [setPlayer_self, hf]
  · rw [setPlayer_of_ne c f h]

end MatchCtx

end GameServer
