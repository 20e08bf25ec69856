import Mathlib.Tactic

/-! Vocabulary of the network layer: op codes, protocols, received data and the
ways in which a C++ call can fail to return. -/

namespace GameServer

/-- Address of a `SocketUser` object. -/
abbrev SessionRef := ℕ

/-- Address of a `Player` object. -/
abbrev PlayerRef := ℕ

/-- Address of a `Match` object. -/
abbrev MatchRef := ℕ

/-- `SocketUser::SessionToken`. -/
abbrev Token := String

/-- `PlayerIdentity::UserID`. -/
abbrev UserID := UInt32

instance UserID.linearOrder : LinearOrder UInt32 where
  le_refl := UInt32.le_refl
  le_trans _ _ _ := UInt32.le_trans
  le_antisymm _ _ := UInt32.le_antisymm
  le_total := UInt32.le_total
  lt_iff_le_not_ge a b := by
    rw [UInt32.not_le, and_iff_right_of_imp UInt32.le_of_lt]
  toDecidableLE := inferInstance

/-- Why a call does not return to its caller. -/
inductive Fault where
  /-- a null pointer is dereferenced -/
  | nullDeref
  /-- an index outside the buffer is accessed -/
  | outOfBounds
  /-- an exception that nobody catches -/
  | uncaught
  /-- the call waits for a mutex that its holder never unlocks -/
  | blocked
  /-- a raw pointer to a destroyed object is used -/
  | dangling
  deriving DecidableEq, Repr

abbrev Exec := Except Fault

theorem Exec.bind_eq_ok {α β : Type} {x : Exec α} {f : α → Exec β} {b : β} :
    x >>= f = .ok b ↔ ∃ a, x = .ok a ∧ f a = .ok b := by
  cases x <;> simp [bind, Except.bind]

theorem Exec.bind_eq_error {α β : Type} {x : Exec α} {f : α → Exec β} {e : Fault} :
    x >>= f = .error e ↔ x = .error e ∨ ∃ a, x = .ok a ∧ f a = .error e := by
  cases x <;> simp [bind, Except.bind]

inductive Protocal where
  | tcp
  | udp
  deriving DecidableEq, Repr

structure Data where
  type : Protocal
  command : UInt8
  buffer : List UInt8
  deriving DecidableEq, Repr

namespace OpCodes

inductive Server where
  | systemReserved
  | submitIdentity
  | matchCommand
  | joinMatch
  deriving DecidableEq, Repr

def Server.toByte : Server → UInt8
  | systemReserved => 0xff
  | submitIdentity => 0x01
  | matchCommand => 0x02
  | joinMatch => 0x03

inductive Client where
  | systemReserved
  | identifyResult
  | joinMatchResult
  | startMatch
  | updateOrientations
  | playerEvents
  deriving DecidableEq, Repr

def Client.toByte : Client → UInt8
  | systemReserved => 0xff
  | identifyResult => 0x01
  | joinMatchResult => 0x02
  | startMatch => 0x03
  | updateOrientations => 0x04
  | playerEvents => 0x05

/-- A byte cast to `OpCodes::Server_Match`; the cast keeps unnamed values. -/
inductive ServerMatch where
  | debugStart
  | updateOrientation
  | playerEvent
  | unnamed (b : UInt8)
  deriving DecidableEq, Repr

def ServerMatch.ofByte (b : UInt8) : ServerMatch :=
  if b = 0x01 then debugStart
  else if b = 0x02 then updateOrientation
  else if b = 0x03 then playerEvent
  else unnamed b

/-- A byte cast to `OpCodes::Player_Events`; the cast keeps unnamed values. -/
inductive PlayerEvents where
  | none
  | jump
  | unnamed (b : UInt8)
  deriving DecidableEq, Repr

def PlayerEvents.ofByte (b : UInt8) : PlayerEvents :=
  if b = 0x00 then none
  else if b = 0x01 then jump
  else unnamed b

def PlayerEvents.toByte : PlayerEvents → UInt8
  | none => 0x00
  | jump => 0x01
  | unnamed b => b

end OpCodes

end GameServer
