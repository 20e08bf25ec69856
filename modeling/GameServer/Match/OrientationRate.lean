import GameServer.Lib.Periodic
import GameServer.Match.OrientationBuffer

/-! How often a match broadcasts orientations. `SendOrientationUpdates` is called about
once a millisecond and keeps the time of its last broadcast, from `ThreadInit` on. -/

namespace GameServer

open Lib

namespace MatchCtx

/-- `SendOrientationUpdates` broadcasts. -/
def broadcastsOrientations (c : MatchCtx) (now now' : UInt64) : Bool :=
  match c.sendOrientationUpdates now now' with
  | .ok (_, out) => !out.isEmpty
  | .error _ => false

/-- The clock value that was tested and the one that is stored for it, of a step that
broadcasts orientations; `ThreadInit` stores the first one. -/
def orientationTime : MatchCtx × MatchEvent → Option (UInt64 × UInt64)
  | (_, .threadInit now) => some (now, now)
  | (c, .sendOrientations now now') =>
    if c.broadcastsOrientations now now' then some (now, now') else none
  | _ => none

/-- The clock values that the step reads for it. -/
def orientationReads : MatchCtx × MatchEvent → List UInt64
  | (_, .threadInit now) => [now, now]
  | (c, .sendOrientations now now') =>
    if c.mtch.mMatchState = .started then
      if c.broadcastsOrientations now now' then [now, now'] else [now]
    else []
  | _ => []

variable {this : MatchRef} {serialize : Json → List UInt8} {tr : List (MatchCtx × MatchEvent)}
  {c c' : MatchCtx} {e : MatchEvent} {now now' : UInt64} {out : List Broadcast}

/-- One call sends one broadcast, or does nothing. -/
theorem sendOrientationUpdates_cases (h : c.sendOrientationUpdates now now' = .ok (c', out)) :
    (c.Due now ∧ out.length = 1 ∧ c'.mtch.mLastOrientationUpdate = now') ∨
    (¬ c.Due now ∧ out = [] ∧ c' = c) := by
  by_cases hdue : c.Due now
  · rw [sendOrientationUpdates_of_due hdue] at h
    obtain ⟨buffer, -, h⟩ := Exec.bind_eq_ok.mp h
    split at h
    · cases h
    · obtain ⟨buffer, -, h⟩ := Exec.bind_eq_ok.mp h
      cases h
      exact .inl ⟨hdue, rfl, rfl⟩
  · rw [sendOrientationUpdates_of_not_due hdue] at h
    cases h
    exact .inr ⟨hdue, rfl, rfl⟩

theorem broadcastsOrientations_iff (h : c.sendOrientationUpdates now now' = .ok (c', out)) :
    c.broadcastsOrientations now now' = true ↔ c.Due now := by
  unfold broadcastsOrientations
  rw [h]
  dsimp only
  rcases sendOrientationUpdates_cases h with ⟨hdue, hlen, -⟩ | ⟨hdue, rfl, -⟩
  · refine iff_of_true ?_ hdue
    cases out with
    | nil => cases hlen
    | cons b out => rfl
  · exact iff_of_false (by simp) hdue

/-- Nothing else stores the time of the last broadcast. -/
theorem lastUpdate_step (h : Step this serialize c e c') (ht : ∀ now, e ≠ .threadInit now)
    (hs : ∀ now now', e ≠ .sendOrientations now now') :
    c'.mtch.mLastOrientationUpdate = c.mtch.mLastOrientationUpdate := by
  cases e with
  | threadInit now => exact absurd rfl (ht now)
  | sendOrientations now now' => exact absurd rfl (hs now now')
  | join p =>
    obtain ⟨r, h⟩ := h
    rw [joinPlayer_some] at h
    split_ifs at h
    · cases h
      rfl
    · cases h
      rfl
  | remove p =>
    obtain ⟨r, h⟩ := h
    rw [removePlayer_eq] at h
    split_ifs at h
    · cases h
      rfl
    · cases h
      rfl
  | command authenticated userID buffer =>
    obtain ⟨out, h⟩ := h
    by_cases hcmd : c.startCommand userID buffer
    · rw [executeNetCommand_of_start hcmd] at h
      rcases startMatch_ok h with rfl | ⟨-, size, rfl⟩
      · rfl
      · rfl
    · rw [(executeNetCommand_of_not_start hcmd h).2]
  | updatePlayers now now' => rw [(updatePlayers_ok h).1]
  | sendEvents =>
    obtain ⟨out, h⟩ := h
    rcases sendPlayerEvents_ok h with rfl | ⟨-, -, rfl⟩
    · rfl
    · rfl
  | submitCommand user data | disconnect p | endMatch =>
    cases h
    rfl

/-- No time is stored before the thread of the match runs. -/
theorem orientationTimes_none (h : (system this serialize).Exec tr c)
    (hnone : c.mtch.mMatchState = .none) : tr.filterMap orientationTime = [] := by
  induction h with
  | nil _ => rfl
  | @snoc tr c c' e _ hst ih =>
    have hbefore : c.mtch.mMatchState = .none := by
      rcases step_phase hst with ⟨-, rfl⟩ | ⟨hs, -⟩ | hended | hsame
      · cases hnone
      · exact hs
      · rw [hended] at hnone
        cases hnone
      · exact hsame.state.symm.trans hnone
    have hquiet : orientationTime (c, e) = none := by
      cases e with
      | threadInit now =>
        obtain ⟨-, rfl⟩ := hst
        cases hnone
      | sendOrientations now now' =>
        obtain ⟨out, h⟩ := hst
        refine if_neg fun hsends => ?_
        have hstarted := ((broadcastsOrientations_iff h).mp hsends).1
        rw [hbefore] at hstarted
        cases hstarted
      | _ => rfl
    simp [ih hbefore, hquiet]

/-- The broadcasts are a periodic job of the match. -/
theorem orientations_periodic (this : MatchRef) (serialize : Json → List UInt8) :
    Periodic (system this serialize) orientationSendRate (·.mtch.mLastOrientationUpdate)
      orientationTime orientationReads := by
  refine ⟨fun c e c' h hnone => ?_, fun c e c' a h ha => ?_, fun tr c e c' a hr h ha => ?_⟩
  · change Step this serialize c e c' at h
    cases e with
    | threadInit now => cases hnone
    | sendOrientations now now' =>
      obtain ⟨out, h⟩ := h
      rcases sendOrientationUpdates_cases h with ⟨hsends, -⟩ | ⟨-, -, rfl⟩
      · rw [orientationTime, if_pos ((broadcastsOrientations_iff h).mpr hsends)] at hnone
        cases hnone
      · rfl
    | _ => exact lastUpdate_step h (by simp) (by simp)
  · cases e with
    | threadInit now =>
      cases ha
      obtain ⟨-, rfl⟩ := h
      exact ⟨rfl, rfl⟩
    | sendOrientations now now' =>
      obtain ⟨out, h⟩ := h
      rw [orientationTime] at ha
      split_ifs at ha with hsends
      cases ha
      rcases sendOrientationUpdates_cases h with ⟨hdue, -, hlast⟩ | ⟨hstays, -⟩
      · refine ⟨hlast, ?_⟩
        rw [orientationReads, if_pos hdue.1, if_pos hsends]
      · exact absurd ((broadcastsOrientations_iff h).mp hsends) hstays
    | _ => cases ha
  · cases e with
    | threadInit now => exact .inl (orientationTimes_none hr h.1)
    | sendOrientations now now' =>
      obtain ⟨out, h⟩ := h
      rw [orientationTime] at ha
      split_ifs at ha with hsends
      cases ha
      exact .inr ((broadcastsOrientations_iff h).mp hsends).2
    | _ => cases ha

/-- A pass over a started match broadcasts its orientations when the clock is more than
50 ms past the last time, or behind it. -/
def BroadcastsInTime (c : MatchCtx) (e : MatchEvent) : Prop :=
  ∀ now now', e = .sendOrientations now now' →
    (c.broadcastsOrientations now now' = true ↔ c.mtch.mMatchState = .started ∧
      (c.mtch.mLastOrientationUpdate.toNat + 50 < now.toNat ∨
        (now < c.mtch.mLastOrientationUpdate ∧
          c.mtch.mLastOrientationUpdate.toNat - now.toNat < 2 ^ 64 - 50)))

/-- In every run the passes broadcast in time. As long as the clock goes on, the
broadcasts are more than 50 ms apart, the first one counted from `ThreadInit`. -/
theorem orientations_spaced (this : MatchRef) (serialize : Json → List UInt8)
    (tr : List (MatchCtx × MatchEvent)) (c : MatchCtx) (h : (system this serialize).Exec tr c) :
    (∀ x ∈ tr, BroadcastsInTime x.1 x.2) ∧
    (ClockGoesOn orientationReads tr →
      Timed orientationSendRate (tr.filterMap orientationTime) c.mtch.mLastOrientationUpdate ∧
      ∀ first times, tr.filterMap orientationTime = first :: times →
        first.2.toNat + 51 * times.length ≤ c.mtch.mLastOrientationUpdate.toNat) := by
  constructor
  · refine (forall_steps_iff BroadcastsInTime tr c).mp ?_
    refine h.forall_steps (fun c e _ => BroadcastsInTime c e) fun _ c e c' _ hst => ?_
    rintro now now' rfl
    obtain ⟨out, hst⟩ := hst
    rw [broadcastsOrientations_iff hst]
    exact and_congr_right fun _ => elapsed_iff _ _ _
  · intro hclock
    have htimed := (orientations_periodic this serialize).timed h hclock
    refine ⟨htimed, fun first times heq => ?_⟩
    have hspaced := htimed.spaced
    rw [heq] at hspaced
    refine hspaced.count_le fun b hb => UInt64.le_iff_toNat_le.mp (htimed.last_le b ?_)
    rw [heq]
    exact hb

/-! ### A player that is alone in a match -/

def aloneMatch : MatchCtx := (waitingMatch.joined 0 0).startedWith

/-- Three passes, of which the first and the last broadcast. -/
theorem alone_spaced : ∃ tr c, (system 0 fun _ => []).Exec tr c ∧
    tr.filterMap orientationTime = [(0, 0), (51, 52), (103, 104)] ∧
    Timed orientationSendRate (tr.filterMap orientationTime) c.mtch.mLastOrientationUpdate := by
  have h1 := (waitingMatch_exec 0 fun _ => []).next (.join 0) (waitingMatch.joined 0 0)
    (step_join 0 (fun _ => []) 0 rfl rfl)
  have h2 := h1.next (.command (fun _ => true) 1 [0x01]) aloneMatch
    (step_start 0 (fun _ => []) _ ⟨⟨0, rfl⟩, [], rfl⟩ rfl rfl)
  have h3 := h2.next (.sendOrientations 51 52) _ ⟨_, rfl⟩
  have h4 := h3.next (.sendOrientations 60 60) _ ⟨_, rfl⟩
  have h5 := h4.next (.sendOrientations 103 104) _ ⟨_, rfl⟩
  refine ⟨_, _, h5, rfl, ((orientations_spaced 0 _ _ _ h5).2 ?_).1⟩
  change [(0 : UInt64), 0, 51, 52, 60, 103, 104].Pairwise (· ≤ ·)
  decide

end MatchCtx

end GameServer
