import GameServer.Lib.Execution
import GameServer.Network.Data

/-! The timeout of a session. The main thread reads the clock and then the stamp of the
last ping, the I/O threads read the clock and then store the stamp, and the clock is the
wall clock, which may be set back. -/

namespace GameServer

open Lib

/-- `TIMEOUT_MS`. -/
def timeoutMs : UInt64 := 10000

/-- What `SocketUser::Update` reads of a session. -/
structure PingedUser where
  sessionToken : Token
  mLastPing : UInt64
  deriving DecidableEq, Repr

namespace PingedUser

/-- `Update` from the clock value `now` on, with `m_queue_user_remove`. -/
def update (u : PingedUser) (now : UInt64) (mQueueUserRemove : List Token) : List Token :=
  if now - u.mLastPing > timeoutMs then mQueueUserRemove ++ [u.sessionToken]
  else mQueueUserRemove

/-- The session was idle for more than the timeout. -/
def Idle (u : PingedUser) (now : UInt64) : Prop :=
  (now.toNat : ℤ) - u.mLastPing.toNat > timeoutMs.toNat

/-- `RemovePlayer` is called if and only if the session was idle. -/
def TimesOut (u : PingedUser) (now : UInt64) : Prop :=
  ∀ queue, (u.Idle now → u.update now queue = queue ++ [u.sessionToken]) ∧
    (¬ u.Idle now → u.update now queue = queue)

/-- The unsigned difference is the true one, or so close to `2 ^ 64` below it that it
still is no timeout. -/
def StampInTime (u : PingedUser) (now : UInt64) : Prop :=
  u.mLastPing ≤ now ∨ 2 ^ 64 - timeoutMs.toNat ≤ u.mLastPing.toNat - now.toNat

theorem update_eq_append (u : PingedUser) (now : UInt64) (queue : List Token) :
    u.update now queue = queue ++ [u.sessionToken] ↔ now - u.mLastPing > timeoutMs := by
  unfold update
  split_ifs with h
  · exact iff_of_true rfl h
  · exact iff_of_false (by simp) h

theorem update_eq_self (u : PingedUser) (now : UInt64) (queue : List Token) :
    u.update now queue = queue ↔ ¬ now - u.mLastPing > timeoutMs := by
  unfold update
  split_ifs with h
  · exact iff_of_false (by simp) (not_not.mpr h)
  · exact iff_of_true rfl h

/-- A session is timed out as its idle time says. -/
theorem timesOut_iff_test (u : PingedUser) (now : UInt64) :
    u.TimesOut now ↔ (now - u.mLastPing > timeoutMs ↔ u.Idle now) := by
  simp only [TimesOut, update_eq_append, update_eq_self, forall_const]
  tauto

/-- `Update` is right about a session if and only if its stamp is not later than the
clock value, or later by almost `2 ^ 64`. -/
theorem timesOut_iff (u : PingedUser) (now : UInt64) : u.TimesOut now ↔ u.StampInTime now := by
  have hnow := now.toNat_lt
  have hping := u.mLastPing.toNat_lt
  have htimeout : timeoutMs.toNat = 10000 := rfl
  rw [timesOut_iff_test, Idle, StampInTime, gt_iff_lt, UInt64.lt_iff_toNat_lt, UInt64.toNat_sub,
    UInt64.le_iff_toNat_le, htimeout]
  by_cases hle : u.mLastPing.toNat ≤ now.toNat
  · have hsub : (2 ^ 64 - u.mLastPing.toNat + now.toNat) % 2 ^ 64 =
        now.toNat - u.mLastPing.toNat := by omega
    rw [hsub]
    omega
  · have hsub : (2 ^ 64 - u.mLastPing.toNat + now.toNat) % 2 ^ 64 =
        2 ^ 64 - (u.mLastPing.toNat - now.toNat) := by omega
    rw [hsub]
    omega

end PingedUser

/-! ### Update against ResetPingCounter -/

/-- A session between the main thread in `Update` and an I/O thread in
`ResetPingCounter`. -/
structure Pinging where
  /-- what `GetEpoch` returns -/
  clock : UInt64
  user : PingedUser
  mQueueUserRemove : List Token
  /-- the clock value that `Update` compares next -/
  now : Option UInt64
  /-- the clock value that `ResetPingCounter` stores next -/
  stamp : Option UInt64
  deriving DecidableEq, Repr

namespace Pinging

inductive Event where
  /-- the clock goes on, or is set -/
  | clock (t : UInt64)
  | updateClock
  | updateCompare
  | resetClock
  | resetStore
  deriving DecidableEq, Repr

def Step (s : Pinging) (e : Event) (s' : Pinging) : Prop :=
  match e with
  | .clock t => s' = { s with clock := t }
  | .updateClock => s.now = none ∧ s' = { s with now := some s.clock }
  | .updateCompare => ∃ now, s.now = some now ∧
      s' = { s with now := none, mQueueUserRemove := s.user.update now s.mQueueUserRemove }
  | .resetClock => s.stamp = none ∧ s' = { s with stamp := some s.clock }
  | .resetStore => ∃ t, s.stamp = some t ∧
      s' = { s with stamp := none, user := { s.user with mLastPing := t } }

/-- The stamp was taken when the session was made. -/
structure Init (s : Pinging) : Prop where
  user : s.user.mLastPing ≤ s.clock
  now : s.now = none
  stamp : s.stamp = none

def system : System Pinging Event := ⟨Init, Step⟩

/-- The clock is not set back, and a stamp that is stored after `Update` has read the
clock was taken before. -/
def Ordered (s : Pinging) (e : Event) : Prop :=
  (∀ t, e = .clock t → s.clock ≤ t) ∧
    (e = .resetStore → ∀ now t, s.now = some now → s.stamp = some t → t ≤ now)

/-- Every time that one of the threads holds lies before the clock, and the stamp
before the time that `Update` holds. -/
structure Inv (s : Pinging) : Prop where
  user : s.user.mLastPing ≤ s.clock
  now : ∀ now, s.now = some now → s.user.mLastPing ≤ now
  stamp : ∀ t, s.stamp = some t → t ≤ s.clock

theorem inv_init {s : Pinging} (h : Init s) : s.Inv := by
  refine ⟨h.user, fun now hnow => ?_, fun t ht => ?_⟩
  · rw [h.now] at hnow
    cases hnow
  · rw [h.stamp] at ht
    cases ht

theorem inv_step {s s' : Pinging} {e : Event} (hs : s.Inv) (hord : s.Ordered e)
    (h : Step s e s') : s'.Inv := by
  cases e with
  | clock t =>
    subst h
    have hle := hord.1 t rfl
    exact ⟨UInt64.le_trans hs.user hle, hs.now, fun u hu => UInt64.le_trans (hs.stamp u hu) hle⟩
  | updateClock =>
    obtain ⟨-, rfl⟩ := h
    refine ⟨hs.user, fun now hnow => ?_, hs.stamp⟩
    rw [← Option.some.inj hnow]
    exact hs.user
  | updateCompare =>
    obtain ⟨now, -, rfl⟩ := h
    exact ⟨hs.user, nofun, hs.stamp⟩
  | resetClock =>
    obtain ⟨-, rfl⟩ := h
    refine ⟨hs.user, hs.now, fun t ht => ?_⟩
    rw [← Option.some.inj ht]
    exact UInt64.le_refl s.clock
  | resetStore =>
    obtain ⟨t, ht, rfl⟩ := h
    exact ⟨hs.stamp t ht, fun now hnow => hord.2 rfl now t hnow ht, nofun⟩

/-- Where times are ordered, every comparison of `Update` is right. -/
theorem timesOut_of_ordered {tr : List (Pinging × Event)} {s : Pinging} (h : system.Exec tr s)
    (hord : ∀ x ∈ tr, x.1.Ordered x.2) :
    ∀ x ∈ tr, x.2 = .updateCompare → ∀ now, x.1.now = some now → x.1.user.TimesOut now := by
  intro x hx _ now hnow
  have hvisited := h.visited_of_steps Inv Ordered (fun s => inv_init)
    (fun s e s' hs hC hst => inv_step hs hC hst) hord
  have hinv : x.1.Inv := hvisited x.1 (List.mem_append_left _ (List.mem_map_of_mem hx))
  exact (PingedUser.timesOut_iff _ now).mpr (.inl (hinv.now now hnow))

/-- A ping that arrives between the clock reading of `Update` and its comparison has the
session removed. -/
theorem just_pinged_removed : ∃ tr s, system.Exec tr s ∧
    (∃ x ∈ tr, ∃ now, x.2 = .updateCompare ∧ x.1.now = some now ∧ ¬ x.1.user.TimesOut now ∧
      x.1.user.mLastPing = now + 1) ∧
    s.mQueueUserRemove = ["A"] := by
  let s0 : Pinging := ⟨5000, ⟨"A", 4000⟩, [], none, none⟩
  have h0 : system.Exec [] s0 := .nil ⟨by decide, rfl, rfl⟩
  have h1 := h0.next .updateClock ⟨5000, ⟨"A", 4000⟩, [], some 5000, none⟩ ⟨rfl, rfl⟩
  have h2 := h1.next (.clock 5001) ⟨5001, ⟨"A", 4000⟩, [], some 5000, none⟩ rfl
  have h3 := h2.next .resetClock ⟨5001, ⟨"A", 4000⟩, [], some 5000, some 5001⟩ ⟨rfl, rfl⟩
  have h4 := h3.next .resetStore ⟨5001, ⟨"A", 5001⟩, [], some 5000, none⟩ ⟨5001, rfl, rfl⟩
  have h5 := h4.next .updateCompare ⟨5001, ⟨"A", 5001⟩, ["A"], none, none⟩ ⟨5000, rfl, rfl⟩
  refine ⟨_, _, h5, ⟨_, List.mem_append_right _ (List.mem_singleton_self _), 5000, rfl, rfl, ?_, rfl⟩,
    rfl⟩
  intro hright
  have hkept := (hright []).2 (by unfold PingedUser.Idle; decide)
  exact absurd hkept (by decide)

end Pinging

end GameServer
