import GameServer.Match.Run

/-! `m_player_mtx` between the calls. Each operation locks and unlocks it by hand;
`RemovePlayer` returns with the mutex held when it found its player. -/

namespace GameServer

open Lib

/-- A call of one of the operations that take `m_player_mtx`. -/
inductive MatchCall where
  | join (player : Option PlayerRef)
  | remove (player : PlayerRef)
  | start
  | updatePlayers (now now' : UInt64)
  | sendOrientations (now now' : UInt64)
  | sendEvents
  deriving DecidableEq, Repr

namespace MatchCtx

/-- The match that the call leaves behind, when it returns. -/
def call (this : MatchRef) (serialize : Json → List UInt8) (c : MatchCtx) : MatchCall → Exec MatchCtx
  | .join player => do
    let r ← c.joinPlayer this player
    .ok r.2
  | .remove player => do
    let r ← c.removePlayer player
    .ok r.2
  | .start => do
    let r ← c.startMatch serialize
    .ok r.1
  | .updatePlayers now now' => c.updatePlayers now now'
  | .sendOrientations now now' => do
    let r ← c.sendOrientationUpdates now now'
    .ok r.1
  | .sendEvents => do
    let r ← c.sendPlayerEvents
    .ok r.1

/-- A call that returns, or anything else that happens between two calls and leaves
the mutex alone. -/
inductive CallEvent where
  | call (op : MatchCall)
  | between

def CallStep (this : MatchRef) (serialize : Json → List UInt8) (c : MatchCtx) (e : CallEvent)
    (c' : MatchCtx) : Prop :=
  match e with
  | .call op => c.call this serialize op = .ok c'
  | .between => c'.mtch.mPlayerMtx = c.mtch.mPlayerMtx

/-- The calls on a match of any kind whose mutex is free. -/
def callSystem (this : MatchRef) (serialize : Json → List UInt8) : System MatchCtx CallEvent :=
  ⟨fun c => c.mtch.mPlayerMtx = false, CallStep this serialize⟩

/-- The mutex is free, so no call waits for it. -/
structure MutexFree (this : MatchRef) (serialize : Json → List UInt8) (c : MatchCtx) : Prop where
  free : c.mtch.mPlayerMtx = false
  proceeds : ∀ op, c.call this serialize op ≠ .error .blocked

/-- The call is a removal that finds its player. -/
def RemovesPlayer (c : MatchCtx) (e : CallEvent) : Prop :=
  ∃ p, e = .call (.remove p) ∧ c.hasPlayer (c.players p).getUserID = true

variable {this : MatchRef} {serialize : Json → List UInt8} {c c' : MatchCtx}

/-! ### Only a held mutex blocks a call -/

theorem store_not_blocked (size : ℕ) (buffer : ℕ → UInt8) (i : ℕ) (bytes : List UInt8) :
    store size buffer i bytes ≠ .error .blocked := by
  unfold store
  split_ifs
  · exact nofun
  · exact nofun

theorem storeOrientations_not_blocked (players : PlayerRef → Player) (size : ℕ)
    (ps : List PlayerRef) (pIndex : ℕ) (buffer : ℕ → UInt8) :
    storeOrientations players size ps pIndex buffer ≠ .error .blocked := by
  induction ps generalizing pIndex buffer with
  | nil => exact nofun
  | cons p ps ih =>
    intro h
    rw [storeOrientations] at h
    rcases Exec.bind_eq_error.mp h with h | ⟨b₁, -, h⟩
    · exact store_not_blocked _ _ _ _ h
    · rcases Exec.bind_eq_error.mp h with h | ⟨b₂, -, h⟩
      · exact store_not_blocked _ _ _ _ h
      · exact ih _ _ h

theorem sendOrientationUpdates_not_blocked (now now' : UInt64) (hm : c.mtch.mPlayerMtx = false) :
    c.sendOrientationUpdates now now' ≠ .error .blocked := by
  intro h
  unfold sendOrientationUpdates at h
  rw [hm] at h
  split at h
  · cases h
  · split at h
    · rcases Exec.bind_eq_error.mp h with h | ⟨b₁, -, h⟩
      · exact store_not_blocked _ _ _ _ h
      · rcases Exec.bind_eq_error.mp h with h | ⟨b₂, -, h⟩
        · exact storeOrientations_not_blocked _ _ _ _ _ h
        · cases h
    · cases h

theorem map_eq_ok {α β : Type} {x : Exec α} {f : α → β} {b : β}
    (h : (x >>= fun a => .ok (f a)) = .ok b) : ∃ a, x = .ok a ∧ f a = b := by
  obtain ⟨a, ha, hb⟩ := Exec.bind_eq_ok.mp h
  exact ⟨a, ha, Except.ok.inj hb⟩

theorem map_eq_error {α β : Type} {x : Exec α} {f : α → β} {e : Fault}
    (h : (x >>= fun a => .ok (f a)) = .error e) : x = .error e := by
  rcases Exec.bind_eq_error.mp h with h | ⟨a, -, h⟩
  · exact h
  · cases h

theorem call_proceeds (hm : c.mtch.mPlayerMtx = false) (op : MatchCall) :
    c.call this serialize op ≠ .error .blocked := by
  intro h
  cases op with
  | join player =>
    have h := map_eq_error h
    unfold joinPlayer at h
    rw [hm] at h
    split at h
    · cases h
    · cases player <;> cases h
  | remove player =>
    have h := map_eq_error h
    rw [removePlayer_eq, hm] at h
    split at h
    · next hheld => cases hheld
    · split at h <;> cases h
  | start =>
    have h := map_eq_error h
    unfold startMatch at h
    rw [hm] at h
    split at h <;> cases h
  | updatePlayers now now' =>
    change c.updatePlayers now now' = _ at h
    unfold updatePlayers at h
    rw [hm] at h
    cases h
  | sendOrientations now now' =>
    exact sendOrientationUpdates_not_blocked now now' hm (map_eq_error h)
  | sendEvents =>
    have h := map_eq_error h
    unfold sendPlayerEvents at h
    rw [hm] at h
    split at h
    · cases h
    · dsimp only at h
      split at h
      · next hheld => cases hheld
      · split at h <;> cases h

/-! ### What a call does to the mutex -/

/-- A call that returns keeps the mutex as it was, but for a removal that finds its
player. -/
theorem call_mtx {op : MatchCall} (h : c.call this serialize op = .ok c') :
    c'.mtch.mPlayerMtx = c.mtch.mPlayerMtx ∨ c.RemovesPlayer (.call op) := by
  cases op with
  | join player =>
    obtain ⟨⟨r, c₁⟩, hcall, rfl⟩ := map_eq_ok h
    cases player with
    | none =>
      unfold joinPlayer at hcall
      split_ifs at hcall
      cases hcall
      exact Or.inl rfl
    | some p =>
      rw [joinPlayer_some] at hcall
      split_ifs at hcall
      · cases hcall
        exact Or.inl rfl
      · cases hcall
        exact Or.inl rfl
  | remove p =>
    obtain ⟨⟨r, c₁⟩, hcall, rfl⟩ := map_eq_ok h
    rw [removePlayer_eq] at hcall
    split_ifs at hcall with hm hfound
    · exact Or.inr ⟨p, rfl, hfound⟩
    · cases hcall
      exact Or.inl rfl
  | start =>
    obtain ⟨⟨r, c₁⟩, hcall, rfl⟩ := map_eq_ok h
    rcases startMatch_ok hcall with heq | ⟨-, size, heq⟩
    · rw [heq]
      exact Or.inl rfl
    · rw [heq]
      exact Or.inl rfl
  | updatePlayers now now' =>
    exact Or.inl (congrArg Match.mPlayerMtx (updatePlayers_ok h).1)
  | sendOrientations now now' =>
    obtain ⟨⟨r, c₁⟩, hcall, rfl⟩ := map_eq_ok h
    obtain ⟨buffer, last, heq⟩ := sendOrientationUpdates_ok hcall
    rw [heq]
    exact Or.inl rfl
  | sendEvents =>
    obtain ⟨⟨r, c₁⟩, hcall, rfl⟩ := map_eq_ok h
    rcases sendPlayerEvents_ok hcall with heq | ⟨-, -, heq⟩
    · rw [heq]
      exact Or.inl rfl
    · rw [heq]
      exact Or.inl rfl

/-- A removal that finds its player returns with the mutex held. -/
theorem removesPlayer_held {e : CallEvent} (hfound : c.RemovesPlayer e)
    (h : CallStep this serialize c e c') : c'.mtch.mPlayerMtx = true := by
  obtain ⟨p, rfl, hp⟩ := hfound
  obtain ⟨⟨r, c₁⟩, hcall, rfl⟩ := map_eq_ok h
  rw [removePlayer_eq] at hcall
  split_ifs at hcall
  cases hcall
  rfl

/-- With the mutex held `UpdatePlayers`, which the match thread calls in every frame, waits
for ever. -/
theorem updatePlayers_held (hm : c.mtch.mPlayerMtx = true) (now now' : UInt64) :
    c.call this serialize (.updatePlayers now now') = .error .blocked :=
  if_pos hm

theorem callStep_free {e : CallEvent} (hm : c.mtch.mPlayerMtx = false) (hkept : ¬ c.RemovesPlayer e)
    (h : CallStep this serialize c e c') : c'.mtch.mPlayerMtx = false := by
  cases e with
  | call op =>
    rcases call_mtx h with heq | hfound
    · exact heq.trans hm
    · exact absurd hfound hkept
  | between => exact h.trans hm

/-- Over all sequences of calls the mutex is free after each of them and no call
waits for ever, if and only if no removal finds its player. -/
theorem mutexFree_iff_none_removed (this : MatchRef) (serialize : Json → List UInt8)
    (tr : List (MatchCtx × CallEvent)) (c : MatchCtx)
    (h : (callSystem this serialize).Exec tr c) :
    (∀ x ∈ visited tr c, MutexFree this serialize x) ↔ ∀ x ∈ tr, ¬ RemovesPlayer x.1 x.2 := by
  refine h.safe_iff (fun c => c.mtch.mPlayerMtx = false) (MutexFree this serialize)
    (fun c e => ¬ RemovesPlayer c e) (fun _ hm => hm) (fun _ hm => ⟨hm, call_proceeds hm⟩)
    (fun _ _ _ hm hkept hst => callStep_free hm hkept hst) fun c e c' _ hfound hst hfree => ?_
  have hheld := removesPlayer_held (not_not.mp hfound) hst
  rw [hfree.free] at hheld
  cases hheld

/-! ### A round of calls, and a removal -/

theorem call_join (p : PlayerRef) (hs : c.mtch.mMatchState = .joinedWaiting)
    (hm : c.mtch.mPlayerMtx = false) :
    c.call this serialize (.join (some p)) = .ok (c.joined this p) := by
  rw [call, joinPlayer_some, if_neg (not_not.mpr hs), if_neg (by simp [hm])]
  rfl

theorem round_free : ∃ tr c, (callSystem 0 fun _ => []).Exec tr c ∧
    c.mtch.mMatchState = .started ∧ ∀ x ∈ visited tr c, MutexFree 0 (fun _ => []) x := by
  have h0 : (callSystem 0 fun _ => []).Exec [] waitingMatch := .nil rfl
  have h1 := h0.next (.call (.join (some 0))) (waitingMatch.joined 0 0)
    (call_join 0 rfl rfl)
  have h2 := h1.next (.call (.remove 1)) (waitingMatch.joined 0 0) rfl
  have h3 := h2.next (.call .start) _ rfl
  have h4 := h3.next (.call (.updatePlayers 0 0)) _ rfl
  have h5 := h4.next (.call .sendEvents) _ rfl
  refine ⟨_, _, h5, rfl, (mutexFree_iff_none_removed 0 _ _ _ h5).mpr ?_⟩
  simp only [List.cons_append, List.nil_append, List.forall_mem_cons]
  refine ⟨?_, ?_, ?_, ?_, ?_, List.forall_mem_nil _⟩
  · rintro ⟨p, heq, -⟩
    cases heq
  · rintro ⟨p, heq, hfound⟩
    cases heq
    cases hfound
  · rintro ⟨p, heq, -⟩
    cases heq
  · rintro ⟨p, heq, -⟩
    cases heq
  · rintro ⟨p, heq, -⟩
    cases heq

/-- The next call after a removal waits for ever. -/
theorem removal_blocks : ∃ tr c, (callSystem 0 fun _ => []).Exec tr c ∧
    (∀ now now', c.call 0 (fun _ => []) (.updatePlayers now now') = .error .blocked) ∧
    ¬ ∀ x ∈ visited tr c, MutexFree 0 (fun _ => []) x := by
  have h0 : (callSystem 0 fun _ => []).Exec [] waitingMatch := .nil rfl
  have h1 := h0.next (.call (.join (some 0))) (waitingMatch.joined 0 0)
    (call_join 0 rfl rfl)
  have h2 := h1.next (.call (.remove 0)) ((waitingMatch.joined 0 0).removed 0) rfl
  refine ⟨_, _, h2, fun now now' => updatePlayers_held rfl now now', fun hall => ?_⟩
  have hlast := hall _ (List.mem_append_right _ (List.mem_singleton.mpr rfl))
  exact hlast.proceeds (.updatePlayers 0 0) (updatePlayers_held rfl 0 0)

end MatchCtx

end GameServer
