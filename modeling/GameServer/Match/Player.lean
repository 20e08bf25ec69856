import GameServer.Lib.Bytes
import GameServer.Network.BufferUtils
import GameServer.Json

/-! `Player` with its base `IUser`. A float is its 32-bit word. -/

namespace GameServer

open Lib

structure Vec3 where
  x : UInt32
  y : UInt32
  z : UInt32
  deriving DecidableEq, Repr

structure Quat where
  x : UInt32
  y : UInt32
  z : UInt32
  w : UInt32
  deriving DecidableEq, Repr

/-- `glm::quat(w, x, y, z)`. -/
def Quat.ofWxyz (w x y z : UInt32) : Quat := ⟨x, y, z, w⟩

structure PlayerIdentity where
  userName : String
  userDistroID : String
  userID : UserID
  distributor : UInt32
  deriving DecidableEq, Repr

structure PlayerEvent where
  command : OpCodes.PlayerEvents
  data : List UInt8
  deriving DecidableEq, Repr

structure Player where
  mIsConnected : Bool
  mSocketUser : Option SessionRef
  /-- every session that `Set_Socket_User` has stored so far; read by proofs only -/
  socketUsers : List SessionRef
  mIdentity : PlayerIdentity
  mMatchInstanceId : UInt8
  mActiveEvents : List PlayerEvent
  mActiveMatch : Option MatchRef
  mLocation : Vec3
  mRotation : Quat
  mSentLastJump : UInt64
  deriving DecidableEq, Repr

namespace Player

/-- `Player::Player()` in memory that held `raw`: the identity's numbers and the
rotation are not initialised. -/
def construct (raw : Player) (now : UInt64) : Player :=
  { raw with
    mSocketUser := none
    socketUsers := []
    mIdentity := { raw.mIdentity with userName := "", userDistroID := "" }
    mMatchInstanceId := 0
    mActiveEvents := []
    mActiveMatch := none
    mLocation := ⟨0, 0, 0⟩
    mSentLastJump := now }

def setSocketUser (p : Player) (socketUser : SessionRef) : Player :=
  { p with
    mIsConnected := true
    mSocketUser := some socketUser
    socketUsers := socketUser :: p.socketUsers }

def disconnected (p : Player) : Player := { p with mIsConnected := false, mSocketUser := none }

def connected (p : Player) : Bool := if p.mSocketUser = none then false else p.mIsConnected

def getUserID (p : Player) : UserID := p.mIdentity.userID

def setMatchInstanceID (p : Player) (id : UInt8) : Player := { p with mMatchInstanceId := id }

def setActiveMatch (p : Player) (mtch : Option MatchRef) : Player :=
  { p with mActiveMatch := mtch }

def setLocation (p : Player) (location : Vec3) : Player := { p with mLocation := location }

def setRotation (p : Player) (rotation : Quat) : Player := { p with mRotation := rotation }

def forwardPlayerEvent (p : Player) (event : PlayerEvent) : Player :=
  { p with mActiveEvents := p.mActiveEvents ++ [event] }

/-- The switch has no default: unnamed commands are dropped. -/
def addPlayerEvent (p : Player) (event : PlayerEvent) : Player :=
  match event.command with
  | .none => p
  | .jump => p.forwardPlayerEvent event
  | .unnamed _ => p

/-- `SEND_DEBUG_JUMP`. -/
def sendDebugJump : UInt64 := 3000

def matchUpdate (p : Player) (now now' : UInt64) : Player :=
  if p.mIdentity.userID = 0 then
    if now - p.mSentLastJump > sendDebugJump then { p with mSentLastJump := now' } else p
  else p

/-- `PLAYER_ORIENTATION_SIZE`. -/
def orientationSize : ℕ := 7 * 4

/-- The bytes that `Serialize_Orientation` copies to its argument. -/
def serializeOrientation (p : Player) : List UInt8 :=
  [p.mLocation.x, p.mLocation.y, p.mLocation.z,
    p.mRotation.x, p.mRotation.y, p.mRotation.z, p.mRotation.w].flatMap fun f => toLe 4 f.toNat

theorem serializeOrientation_length (p : Player) :
    p.serializeOrientation.length = orientationSize := by
  simp [serializeOrientation, orientationSize]

/-- The loop of `SerializePlayerEvents` over the queue, with the buffer and the
count so far. -/
def serializeEvents (id : UInt8) : List PlayerEvent → List UInt8 → ℕ → List UInt8 × ℕ
  | [], buff, num => (buff, num)
  | event :: rest, buff, num =>
    if event.command = .none then serializeEvents id rest buff num
    else
      let buff := buff ++ [id, event.command.toByte, UInt8.ofNat event.data.length]
      let buff := if event.data.length > 0 then BufferUtils.add buff event.data else buff
      serializeEvents id rest buff (num + 1)

def serializePlayerEvents (p : Player) (eventsBuff : List UInt8) : Player × List UInt8 × ℕ :=
  ({ p with mActiveEvents := [] }, serializeEvents p.mMatchInstanceId p.mActiveEvents eventsBuff 0)

/-- Go on with `k` when the JSON accessors succeed; the player is as it was left
when they throw. -/
def assign {α : Type} (p : Player) (value : Exec α) (k : α → Player × Exec Bool) :
    Player × Exec Bool :=
  match value with
  | .ok a => k a
  | .error f => (p, .error f)

/-- `SetIdentity(std::string)` on the text `jsonIdentity`; `parse` is `json::parse`
with trailing commas allowed, `none` an error code. The fields are stored one
after the other. -/
def setIdentity (parse : List UInt8 → Option Json) (p : Player) (jsonIdentity : List UInt8) :
    Player × Exec Bool :=
  match parse jsonIdentity with
  | none => (p, .ok false)
  | some jsonVal =>
    p.assign jsonVal.asObject fun identObj =>
    p.assign (Json.objectAt identObj "UserName" >>= Json.asString) fun userName =>
    let p := { p with mIdentity.userName := userName }
    p.assign (Json.objectAt identObj "User_Distro_ID" >>= Json.asString) fun distroID =>
    let p := { p with mIdentity.userDistroID := distroID }
    p.assign (Json.objectAt identObj "UserID" >>= Json.asInt64) fun userID =>
    let p := { p with mIdentity.userID := userID.toUInt64.toUInt32 }
    p.assign (Json.objectAt identObj "Distributor" >>= Json.asInt64) fun distributor =>
    ({ p with mIdentity.distributor := distributor.toUInt64.toUInt32 }, .ok true)

/-- The identity that a JSON value holds. -/
def readIdentity (jsonVal : Json) : Exec PlayerIdentity := do
  let identObj ← jsonVal.asObject
  let userName ← Json.objectAt identObj "UserName" >>= Json.asString
  let distroID ← Json.objectAt identObj "User_Distro_ID" >>= Json.asString
  let userID ← Json.objectAt identObj "UserID" >>= Json.asInt64
  let distributor ← Json.objectAt identObj "Distributor" >>= Json.asInt64
  .ok ⟨userName, distroID, userID.toUInt64.toUInt32, distributor.toUInt64.toUInt32⟩

/-- The identity that a text holds, if it is a well-formed one. -/
def identityOf (parse : List UInt8 → Option Json) (jsonIdentity : List UInt8) :
    Option PlayerIdentity :=
  match parse jsonIdentity with
  | none => none
  | some jsonVal =>
    match readIdentity jsonVal with
    | .ok identity => some identity
    | .error _ => none

theorem assign_eq {α : Type} {p p' : Player} {value : Exec α} {k : α → Player × Exec Bool} {b : Bool}
    (h : p.assign value k = (p', .ok b)) : ∃ a, value = .ok a ∧ k a = (p', .ok b) := by
  unfold assign at h
  split at h
  · next a => exact ⟨a, rfl, h⟩
  · cases h

theorem identityOf_of_parse_eq_none {parse : List UInt8 → Option Json} {jsonIdentity : List UInt8}
    (h : parse jsonIdentity = none) : identityOf parse jsonIdentity = none := by
  unfold identityOf
  rw [h]

/-- `SetIdentity` returns `false` on a parse error, and `true` with the identity stored. -/
theorem setIdentity_eq {parse : List UInt8 → Option Json} {p p' : Player}
    {jsonIdentity : List UInt8} {b : Bool}
    (h : setIdentity parse p jsonIdentity = (p', .ok b)) :
    (parse jsonIdentity = none ∧ p' = p ∧ b = false) ∨
    ∃ identity, identityOf parse jsonIdentity = some identity ∧
      p' = { p with mIdentity := identity } ∧ b = true := by
  unfold setIdentity at h
  unfold identityOf
  split at h
  · next hparse =>
    cases h
    exact Or.inl ⟨hparse, rfl, rfl⟩
  · next jsonVal _ =>
    obtain ⟨identObj, hobj, h⟩ := assign_eq h
    obtain ⟨userName, hname, h⟩ := assign_eq h
    obtain ⟨distroID, hdistro, h⟩ := assign_eq h
    obtain ⟨userID, hid, h⟩ := assign_eq h
    obtain ⟨distributor, hdist, h⟩ := assign_eq h
    have hread : readIdentity jsonVal = .ok
        ⟨userName, distroID, userID.toUInt64.toUInt32, distributor.toUInt64.toUInt32⟩ := by
      refine Exec.bind_eq_ok.mpr ⟨identObj, hobj, Exec.bind_eq_ok.mpr ⟨userName, hname, ?_⟩⟩
      refine Exec.bind_eq_ok.mpr ⟨distroID, hdistro, Exec.bind_eq_ok.mpr ⟨userID, hid, ?_⟩⟩
      exact Exec.bind_eq_ok.mpr ⟨distributor, hdist, rfl⟩
    rw [hread]
    cases h
    exact Or.inr ⟨_, rfl, rfl, rfl⟩

end Player

end GameServer
