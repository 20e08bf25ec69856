import GameServer.Network.Data

/-! The values of `boost::json` and the accessors that throw on another kind.
Parsing and serialising belong to the library and are parameters. -/

namespace GameServer

inductive Json where
  | null
  | bool (b : Bool)
  | int64 (n : Int64)
  | uint64 (n : UInt64)
  | double (word : UInt64)
  | string (s : String)
  | array (l : List Json)
  | object (members : List (String × Json))

namespace Json

def asObject : Json → Exec (List (String × Json))
  | object members => .ok members
  | _ => .error .uncaught

def asString : Json → Exec String
  | string s => .ok s
  | _ => .error .uncaught

def asInt64 : Json → Exec Int64
  | int64 n => .ok n
  | _ => .error .uncaught

/-- `object::at`. -/
def objectAt (members : List (String × Json)) (key : String) : Exec Json :=
  match members.lookup key with
  | some v => .ok v
  | none => .error .uncaught

/-- The bytes of a text of ASCII characters. -/
def asciiBytes (s : String) : List UInt8 := s.toList.map fun c => UInt8.ofNat c.toNat

theorem asObject_eq_ok {j : Json} {members : List (String × Json)}
    (h : j.asObject = .ok members) : j = .object members := by
  cases j <;> cases h
  rfl

theorem asString_eq_ok {j : Json} {s : String} (h : j.asString = .ok s) : j = .string s := by
  cases j <;> cases h
  rfl

theorem objectAt_eq_ok {members : List (String × Json)} {key : String} {v : Json}
    (h : objectAt members key = .ok v) : members.lookup key = some v := by
  unfold objectAt at h
  split at h
  · next hv =>
    cases h
    exact hv
  · cases h

theorem asObject_error {j : Json} {f : Fault} (h : j.asObject = .error f) : f = .uncaught := by
  cases j <;> cases h <;> rfl

theorem asString_error {j : Json} {f : Fault} (h : j.asString = .error f) : f = .uncaught := by
  cases j <;> cases h <;> rfl

theorem objectAt_error {members : List (String × Json)} {key : String} {f : Fault}
    (h : objectAt members key = .error f) : f = .uncaught := by
  unfold objectAt at h
  split at h
  · cases h
  · cases h
    rfl

end Json

end GameServer
