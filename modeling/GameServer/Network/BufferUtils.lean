import GameServer.Lib.Bytes

/-! `BufferUtils`: headers in front of byte vectors, on a little-endian host. -/

namespace GameServer.BufferUtils

open Lib

/-- The two bytes that `(uint8_t*)&n` points at. -/
def bytes16 (n : UInt16) : List UInt8 := toLe 2 n.toNat

/-- `*((uint16_t*)p)` for the two bytes at `p`. -/
def word16 (lo hi : UInt8) : UInt16 := UInt16.ofNat (ofLe [lo, hi])

def add (buffer1 buffer2 : List UInt8) : List UInt8 := buffer1 ++ buffer2

/-- The length is narrowed to 16 bits. -/
def addLength (data : List UInt8) : List UInt8 :=
  add (bytes16 (UInt16.ofNat data.length)) data

def addUdpId (udpId : UInt16) (data : List UInt8) : List UInt8 := add (bytes16 udpId) data

/-- A vector that is too short is returned as it is. -/
def removeFront (numToRemove : ℕ) (origin : List UInt8) : List UInt8 :=
  if numToRemove > origin.length then origin else origin.drop numToRemove

def addFirst (byteToAdd : UInt8) (origin : List UInt8) : List UInt8 := add [byteToAdd] origin

@[simp] theorem bytes16_length (n : UInt16) : (bytes16 n).length = 2 := toLe_length 2 _

theorem word16_bytes16 (n : UInt16) :
    word16 (UInt8.ofNat n.toNat) (UInt8.ofNat (n.toNat / 256)) = n := by
  have h := ofLe_toLe 2 n.toNat
  have hn := n.toNat_lt
  apply UInt16.toNat_inj.mp
  simp only [toLe] at h
  rw [word16, h, UInt16.toNat_ofNat']
  omega

theorem word16_toNat (lo hi : UInt8) : (word16 lo hi).toNat = ofLe [lo, hi] := by
  have h := ofLe_lt [lo, hi]
  simp only [List.length_cons, List.length_nil] at h
  rw [word16, UInt16.toNat_ofNat']
  omega

theorem bytes16_word16 (lo hi : UInt8) : bytes16 (word16 lo hi) = [lo, hi] := by
  rw [bytes16, word16_toNat]
  exact toLe_ofLe [lo, hi]

theorem bytes16_eq (n : UInt16) :
    bytes16 n = [UInt8.ofNat n.toNat, UInt8.ofNat (n.toNat / 256)] := rfl

@[simp] theorem removeFront_one_cons (b : UInt8) (l : List UInt8) : removeFront 1 (b :: l) = l := by
  simp [removeFront]

end GameServer.BufferUtils
