import Mathlib.Tactic

/-! Little-endian byte strings: the number a byte list stands for and the
`k`-byte encoding of a number, inverse to each other. -/

namespace GameServer.Lib

/-- The number whose little-endian bytes are `bs`. -/
def ofLe : List UInt8 → ℕ
  | [] => 0
  | b :: bs => b.toNat + 256 * ofLe bs

/-- The low `k` bytes of `n`, lowest first. -/
def toLe : ℕ → ℕ → List UInt8
  | 0, _ => []
  | k + 1, n => UInt8.ofNat n :: toLe k (n / 256)

@[simp] theorem toLe_length (k n : ℕ) : (toLe k n).length = k := by
  induction k generalizing n with
  | zero => rfl
  | succ k ih => simp [toLe, ih]

theorem ofLe_toLe (k n : ℕ) : ofLe (toLe k n) = n % 256 ^ k := by
  induction k generalizing n with
  | zero => simp [toLe, ofLe, Nat.mod_one]
  | succ k ih =>
    rw [toLe, ofLe, ih, UInt8.toNat_ofNat', pow_succ' 256 k]
    exact Nat.mod_mul.symm

theorem ofLe_lt (bs : List UInt8) : ofLe bs < 256 ^ bs.length := by
  induction bs with
  | nil => simp [ofLe]
  | cons b bs ih =>
    have := b.toNat_lt
    rw [ofLe, List.length_cons, pow_succ]
    omega

theorem toLe_ofLe (bs : List UInt8) : toLe bs.length (ofLe bs) = bs := by
  induction bs with
  | nil => rfl
  | cons b bs ih =>
    have hb := b.toNat_lt
    have hlow : UInt8.ofNat (b.toNat + 256 * ofLe bs) = b := by
      apply UInt8.toNat_inj.mp
      rw [UInt8.toNat_ofNat']
      omega
    have hdiv : (b.toNat + 256 * ofLe bs) / 256 = ofLe bs := by omega
    rw [List.length_cons, ofLe, toLe, hlow, hdiv, ih]

end GameServer.Lib
