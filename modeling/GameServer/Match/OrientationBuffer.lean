import GameServer.Match.Run

/-! The orientation buffer. `StartMatch` sizes it for the number of players narrowed
to eight bits; every later tick writes one entry for each player that is in the
match then. -/

namespace GameServer

open Lib

namespace MatchCtx

/-! ### What a tick writes -/

theorem store_ok {size i : ℕ} (buffer : ℕ → UInt8) {bytes : List UInt8}
    (h : i + bytes.length ≤ size) : ∃ b, store size buffer i bytes = .ok b ∧
      ∀ j, j < i → b j = buffer j := by
  refine ⟨_, if_pos h, fun j hj => if_neg ?_⟩
  omega

theorem store_error {size i : ℕ} (buffer : ℕ → UInt8) {bytes : List UInt8}
    (h : size < i + bytes.length) : store size buffer i bytes = .error .outOfBounds :=
  if_neg (Nat.not_le_of_lt h)

theorem store_count {size : ℕ} (buffer : ℕ → UInt8) (count : UInt8) (h : 1 ≤ size) :
    ∃ b, store size buffer 0 [count] = .ok b ∧ b 0 = count :=
  ⟨_, if_pos h, rfl⟩

/-- The bytes up to the end of entry `n`. -/
def entriesEnd (n : ℕ) : ℕ := n * (Player.orientationSize + 1) + 1

section Entries

variable (players : PlayerRef → Player) {size : ℕ}

/-- An entry that ends within the buffer is written, behind the count byte. -/
theorem storeOrientations_cons (p : PlayerRef) (ps : List PlayerRef) (pIndex : ℕ)
    (buffer : ℕ → UInt8) (h : entriesEnd (pIndex + 1) ≤ size) :
    ∃ b, storeOrientations players size (p :: ps) pIndex buffer =
      storeOrientations players size ps (pIndex + 1) b ∧ b 0 = buffer 0 := by
  have hlen := (players p).serializeOrientation_length
  rw [entriesEnd, Nat.succ_mul] at h
  have hid : pIndex * (Player.orientationSize + 1) + 1 +
      [(players p).mMatchInstanceId].length ≤ size := by
    rw [List.length_singleton]
    omega
  have horientation : pIndex * (Player.orientationSize + 1) + 1 + 1 +
      (players p).serializeOrientation.length ≤ size := by
    rw [hlen]
    omega
  obtain ⟨b₁, hb₁, hkeep₁⟩ := store_ok buffer hid
  obtain ⟨b₂, hb₂, hkeep₂⟩ := store_ok b₁ horientation
  refine ⟨b₂, ?_, ?_⟩
  · rw [storeOrientations, hb₁]
    change (store size b₁ _ _ >>= _) = _
    rw [hb₂]
    rfl
  · rw [hkeep₂ 0 (by omega), hkeep₁ 0 (by omega)]

/-- An entry that does not is the end of the process. -/
theorem storeOrientations_cons_error (p : PlayerRef) (ps : List PlayerRef) (pIndex : ℕ)
    (buffer : ℕ → UInt8) (h : size < entriesEnd (pIndex + 1)) :
    storeOrientations players size (p :: ps) pIndex buffer = .error .outOfBounds := by
  have hlen := (players p).serializeOrientation_length
  rw [entriesEnd, Nat.succ_mul] at h
  rw [storeOrientations]
  by_cases hid : pIndex * (Player.orientationSize + 1) + 1 +
      [(players p).mMatchInstanceId].length ≤ size
  · obtain ⟨b, hb, -⟩ := store_ok buffer hid
    rw [hb]
    change (store size b _ _ >>= _) = _
    rw [store_error b (by rw [hlen]; omega)]
    rfl
  · rw [store_error buffer (Nat.lt_of_not_le hid)]
    rfl

theorem storeOrientations_ok (ps : List PlayerRef) (pIndex : ℕ) (buffer : ℕ → UInt8)
    (h : entriesEnd (pIndex + ps.length) ≤ size) :
    ∃ b, storeOrientations players size ps pIndex buffer = .ok b ∧ b 0 = buffer 0 := by
  induction ps generalizing pIndex buffer with
  | nil => exact ⟨buffer, rfl, rfl⟩
  | cons p ps ih =>
    rw [List.length_cons, Nat.add_comm ps.length, ← Nat.add_assoc] at h
    have hfirst : entriesEnd (pIndex + 1) ≤ size :=
      (Nat.add_le_add_right (Nat.mul_le_mul_right _ (Nat.le_add_right _ _)) 1).trans h
    obtain ⟨b₁, hcons, hzero₁⟩ := storeOrientations_cons players p ps pIndex buffer hfirst
    obtain ⟨b, hb, hzero⟩ := ih (pIndex + 1) b₁ h
    exact ⟨b, hcons.trans hb, hzero.trans hzero₁⟩

theorem storeOrientations_error (ps : List PlayerRef) (pIndex : ℕ) (buffer : ℕ → UInt8)
    (hne : ps ≠ []) (h : size < entriesEnd (pIndex + ps.length)) :
    storeOrientations players size ps pIndex buffer = .error .outOfBounds := by
  induction ps generalizing pIndex buffer with
  | nil => exact absurd rfl hne
  | cons p ps ih =>
    by_cases hfirst : entriesEnd (pIndex + 1) ≤ size
    · obtain ⟨b, hcons, -⟩ := storeOrientations_cons players p ps pIndex buffer hfirst
      rw [List.length_cons, Nat.add_comm ps.length, ← Nat.add_assoc] at h
      rw [hcons]
      refine ih (pIndex + 1) b ?_ h
      rintro rfl
      exact absurd hfirst (Nat.not_le_of_lt h)
    · exact storeOrientations_cons_error players p ps pIndex buffer (Nat.lt_of_not_le hfirst)

end Entries

/-! ### A tick -/

/-- The tick has something to send. -/
def Due (now : UInt64) (c : MatchCtx) : Prop :=
  c.mtch.mMatchState = .started ∧ now - c.mtch.mLastOrientationUpdate > orientationSendRate

/-- The match after a tick that left `buffer` behind. -/
def ticked (now' : UInt64) (buffer : ℕ → UInt8) (c : MatchCtx) : MatchCtx :=
  c.setMatch fun m => { m with mOrientationSendBuffer := buffer, mLastOrientationUpdate := now' }

/-- What the tick broadcasts. -/
def orientations (buffer : ℕ → UInt8) (c : MatchCtx) : Broadcast :=
  ⟨.updateOrientations, (List.range c.mtch.mOrientationSendBufferSize).map buffer, .udp⟩

section Tick

variable {c : MatchCtx} {now now' : UInt64}

theorem sendOrientationUpdates_of_not_due (h : ¬ c.Due now) :
    c.sendOrientationUpdates now now' = .ok (c, []) := by
  unfold sendOrientationUpdates
  by_cases hstate : c.mtch.mMatchState = .started
  · rw [if_neg (not_not.mpr hstate), if_neg fun hlate => h ⟨hstate, hlate⟩]
  · rw [if_pos hstate]

theorem sendOrientationUpdates_of_due (h : c.Due now) :
    c.sendOrientationUpdates now now' =
      store c.mtch.mOrientationSendBufferSize c.mtch.mOrientationSendBuffer 0
          [UInt8.ofNat c.mtch.mPlayers.size] >>= fun buffer =>
        if c.mtch.mPlayerMtx then .error .blocked
        else storeOrientations c.players c.mtch.mOrientationSendBufferSize c.mtch.mPlayers.values 0
            buffer >>= fun buffer => .ok (c.ticked now' buffer, [c.orientations buffer]) := by
  unfold sendOrientationUpdates
  rw [if_neg (not_not.mpr h.1), if_pos h.2]
  rfl

theorem head?_bytes {size : ℕ} (buffer : ℕ → UInt8) (h : 1 ≤ size) :
    ((List.range size).map buffer).head? = some (buffer 0) := by
  obtain ⟨n, rfl⟩ := Nat.exists_eq_add_of_le' h
  rw [List.range_succ_eq_map]
  rfl

/-- With room for all players the tick sends their number and an entry for each. -/
theorem sendOrientationUpdates_room (h : c.Due now)
    (hroom : entriesEnd c.mtch.mPlayers.values.length ≤ c.mtch.mOrientationSendBufferSize) :
    c.sendOrientationUpdates now now' = .error .blocked ∨ ∃ c' b,
      c.sendOrientationUpdates now now' = .ok (c', [b]) ∧
        b.data.head? = some (UInt8.ofNat c.mtch.mPlayers.size) := by
  have hpos : 1 ≤ c.mtch.mOrientationSendBufferSize := (Nat.le_add_left 1 _).trans hroom
  obtain ⟨b₀, hb₀, hcount⟩ :=
    store_count c.mtch.mOrientationSendBuffer (UInt8.ofNat c.mtch.mPlayers.size) hpos
  rw [← Nat.zero_add c.mtch.mPlayers.values.length] at hroom
  obtain ⟨b, hb, hzero⟩ := storeOrientations_ok c.players c.mtch.mPlayers.values 0 b₀ hroom
  rw [sendOrientationUpdates_of_due h, hb₀]
  by_cases hmtx : c.mtch.mPlayerMtx = true
  · exact Or.inl (if_pos hmtx)
  · refine Or.inr ⟨c.ticked now' b, c.orientations b, ?_, ?_⟩
    · change (if c.mtch.mPlayerMtx = true then _ else _) = _
      rw [if_neg hmtx, hb]
      rfl
    · rw [← hcount, ← hzero]
      exact head?_bytes b hpos

/-- Without it the tick writes behind the end. -/
theorem sendOrientationUpdates_overrun (h : c.Due now) (hmtx : c.mtch.mPlayerMtx = false)
    (hpos : 1 ≤ c.mtch.mOrientationSendBufferSize)
    (hroom : c.mtch.mOrientationSendBufferSize < entriesEnd c.mtch.mPlayers.values.length) :
    c.sendOrientationUpdates now now' = .error .outOfBounds := by
  obtain ⟨b₀, hb₀, -⟩ :=
    store_count c.mtch.mOrientationSendBuffer (UInt8.ofNat c.mtch.mPlayers.size) hpos
  have hne : c.mtch.mPlayers.values ≠ [] := by
    intro hnil
    rw [hnil, entriesEnd, List.length_nil] at hroom
    omega
  rw [← Nat.zero_add c.mtch.mPlayers.values.length] at hroom
  rw [sendOrientationUpdates_of_due h, hb₀]
  change (if c.mtch.mPlayerMtx = true then _ else _) = _
  rw [if_neg (by simp [hmtx]), storeOrientations_error c.players _ 0 b₀ hne hroom]
  rfl

end Tick

/-- No write of a tick leaves the buffer, and the count byte of what it broadcasts is
the number of entries written, one for each player. -/
def OrientationsOk (c : MatchCtx) : Prop :=
  ∀ now now', c.sendOrientationUpdates now now' ≠ .error .outOfBounds ∧
    ∀ c' out, c.sendOrientationUpdates now now' = .ok (c', out) → ∀ b ∈ out,
      ∃ count, b.data.head? = some count ∧ count.toNat = c.mtch.mPlayers.values.length

/-- The buffer has room for an entry for each player, and their number fits a byte. -/
def Roomy (c : MatchCtx) : Prop :=
  c.mtch.mMatchState = .started →
    entriesEnd c.mtch.mPlayers.values.length ≤ c.mtch.mOrientationSendBufferSize ∧
      c.mtch.mPlayers.size ≤ 255

theorem values_length (m : OrdMap UserID PlayerRef) : m.values.length = m.size :=
  List.length_map ..

theorem Roomy.orientationsOk {c : MatchCtx} (hc : c.Roomy) : c.OrientationsOk := by
  intro now now'
  by_cases hdue : c.Due now
  · obtain ⟨hroom, hcount⟩ := hc hdue.1
    have hbyte : (UInt8.ofNat c.mtch.mPlayers.size).toNat = c.mtch.mPlayers.size := by
      rw [UInt8.toNat_ofNat']
      omega
    have hsent := @sendOrientationUpdates_room c now now' hdue hroom
    rcases hsent with h | ⟨c₁, b₁, h, hhead⟩
    · rw [h]
      exact ⟨nofun, nofun⟩
    · rw [h]
      refine ⟨nofun, fun c' out heq b hb => ?_⟩
      cases heq
      rw [List.mem_singleton.mp hb, values_length]
      exact ⟨_, hhead, hbyte⟩
  · rw [sendOrientationUpdates_of_not_due hdue]
    refine ⟨nofun, fun c' out heq b hb => ?_⟩
    cases heq
    cases hb

/-! ### The buffer over a run -/

/-- The match starts with at most 255 players. -/
def StartsSmall (c : MatchCtx) (e : MatchEvent) : Prop := c.Starts e → c.mtch.mPlayers.size ≤ 255

/-- A match is started by its start alone, and then its roster does not grow. -/
theorem step_started {this : MatchRef} {serialize : Json → List UInt8} {c c' : MatchCtx}
    {e : MatchEvent} (h : Step this serialize c e c') (hs : c'.mtch.mMatchState = .started) :
    (c.Starts e ∧ c' = c.startedWith) ∨
    (¬ c.Starts e ∧ c.mtch.mMatchState = .started ∧
      c'.mtch.mOrientationSendBufferSize = c.mtch.mOrientationSendBufferSize ∧
      c'.mtch.mPlayers.size ≤ c.mtch.mPlayers.size) := by
  rcases step_phase h with hstart | ⟨-, hwait⟩ | hend | hsame
  · exact Or.inl hstart
  · rw [hwait] at hs
    cases hs
  · rw [hend] at hs
    cases hs
  · have hstate : c.mtch.mMatchState = .started := hsame.state.symm.trans hs
    have hwait : c.mtch.mMatchState ≠ .joinedWaiting := by
      rw [hstate]
      exact nofun
    refine Or.inr ⟨?_, hstate, hsame.bufferSize, ?_⟩
    · rintro ⟨_, _, _, -, -, hw, -⟩
      exact hwait hw
    · rcases step_cases h with ⟨p, rfl, -, hw, -⟩ | ⟨p, rfl, rfl⟩ | ⟨hroster, -⟩
      · exact absurd hw hwait
      · exact OrdMap.size_erase_le ..
      · rw [hroster.mPlayers]

theorem roomy_step {this : MatchRef} {serialize : Json → List UInt8} {c c' : MatchCtx}
    {e : MatchEvent} (hc : c.Roomy) (hsmall : c.StartsSmall e) (h : Step this serialize c e c') :
    c'.Roomy := by
  intro hs
  rcases step_started h hs with ⟨hstarts, rfl⟩ | ⟨-, hstate, hbuffer, hsize⟩
  · have hle := hsmall hstarts
    have hbyte : (UInt8.ofNat c.mtch.mPlayers.size).toNat = c.mtch.mPlayers.size := by
      rw [UInt8.toNat_ofNat']
      omega
    refine ⟨?_, hle⟩
    change entriesEnd c.mtch.mPlayers.values.length ≤
      (Player.orientationSize + 1) * (UInt8.ofNat c.mtch.mPlayers.size).toNat + 1
    rw [entriesEnd, hbyte, values_length, Nat.mul_comm]
  · obtain ⟨hroom, hle⟩ := hc hstate
    refine ⟨?_, hsize.trans hle⟩
    rw [hbuffer]
    refine le_trans ?_ hroom
    rw [values_length, values_length]
    exact Nat.add_le_add_right (Nat.mul_le_mul_right _ hsize) 1

/-- The first tick after a start with more players writes behind the end. -/
theorem startedWith_not_ok {c : MatchCtx} (hm : c.mtch.mPlayerMtx = false)
    (hbig : 255 < c.mtch.mPlayers.size) : ¬ c.startedWith.OrientationsOk := by
  intro hok
  have hdue : c.startedWith.Due (c.mtch.mLastOrientationUpdate + 51) := by
    refine ⟨rfl, ?_⟩
    change c.mtch.mLastOrientationUpdate + 51 - c.mtch.mLastOrientationUpdate > 50
    rw [UInt64.add_comm, UInt64.add_sub_cancel]
    decide
  refine (hok _ 0).1 (sendOrientationUpdates_overrun hdue hm (Nat.le_add_left 1 _) ?_)
  have hlt := (UInt8.ofNat c.mtch.mPlayers.size).toNat_lt
  change (Player.orientationSize + 1) * (UInt8.ofNat c.mtch.mPlayers.size).toNat + 1 <
    entriesEnd c.mtch.mPlayers.values.length
  rw [entriesEnd, values_length, Nat.mul_comm]
  exact Nat.add_lt_add_right (Nat.mul_lt_mul_of_pos_right (by omega) (by decide)) 1

theorem roomy_init {c : MatchCtx} (h : c.Init) : c.Roomy := by
  intro hs
  rw [h.state] at hs
  cases hs

/-- In every state of a run a tick writes within the buffer and counts what it
writes, if and only if the match starts with at most 255 players. -/
theorem orientationsOk_iff_startsSmall (this : MatchRef) (serialize : Json → List UInt8)
    (tr : List (MatchCtx × MatchEvent)) (c : MatchCtx) (h : (system this serialize).Exec tr c) :
    (∀ x ∈ visited tr c, x.OrientationsOk) ↔ ∀ x ∈ tr, x.1.StartsSmall x.2 := by
  refine h.safe_iff Roomy OrientationsOk StartsSmall (fun _ => roomy_init)
    (fun _ => Roomy.orientationsOk) (fun _ _ _ => roomy_step) fun c e c' _ hbad hst => ?_
  obtain ⟨hstarts, hbig⟩ := Classical.not_imp.mp hbad
  obtain ⟨authenticated, userID, buffer, rfl, hcmd, hwait, hm⟩ := hstarts
  obtain ⟨out, hstep⟩ := step_start this serialize authenticated hcmd hwait hm
  obtain ⟨out', hst⟩ := hst
  rw [hstep] at hst
  cases hst
  exact startedWith_not_ok hm (by omega)

/-! ### One player, and one too many -/

/-- The waiting match after the joins of players `0` to `n - 1`. -/
def crowd : ℕ → MatchCtx
  | 0 => waitingMatch
  | n + 1 => (crowd n).joined 0 n

theorem crowd_waits (n : ℕ) : (crowd n).mtch.mMatchState = .joinedWaiting ∧
    (crowd n).mtch.mPlayerMtx = false ∧
    ∀ q, ((crowd n).players q).getUserID = UInt32.ofNat (q + 1) := by
  induction n with
  | zero => exact ⟨rfl, rfl, fun _ => rfl⟩
  | succ n ih =>
    obtain ⟨hs, hm, hid⟩ := ih
    refine ⟨hs, hm, fun q => ?_⟩
    rw [crowd, joined_field 0 n Player.getUserID (fun _ _ _ => rfl), hid q]

theorem crowd_exec (serialize : Json → List UInt8) (n : ℕ) :
    ∃ tr, (system 0 serialize).Exec tr (crowd n) := by
  induction n with
  | zero => exact ⟨_, waitingMatch_exec 0 serialize⟩
  | succ n ih =>
    obtain ⟨tr, h⟩ := ih
    obtain ⟨hs, hm, -⟩ := crowd_waits n
    exact ⟨_, h.next (.join n) _ (step_join 0 serialize n hs hm)⟩

theorem crowd_keys {n : ℕ} {e : UserID × PlayerRef} (he : e ∈ (crowd n).mtch.mPlayers.entries) :
    ∃ p < n, e.1 = UInt32.ofNat (p + 1) := by
  induction n with
  | zero => cases he
  | succ n ih =>
    rcases OrdMap.mem_insert.mp he with rfl | ⟨he, -⟩
    · exact ⟨n, Nat.lt_succ_self n, (crowd_waits n).2.2 n⟩
    · obtain ⟨p, hp, heq⟩ := ih he
      exact ⟨p, Nat.lt_succ_of_lt hp, heq⟩

theorem crowd_size {n : ℕ} (hn : n ≤ 256) : (crowd n).mtch.mPlayers.size = n := by
  induction n with
  | zero => rfl
  | succ n ih =>
    have hnone : (crowd n).mtch.mPlayers.find? ((crowd n).players n).getUserID = none := by
      rw [(crowd_waits n).2.2 n, OrdMap.find?_eq_none]
      intro hmem
      obtain ⟨e, he, heq⟩ := List.mem_map.mp hmem
      obtain ⟨p, hp, hkey⟩ := crowd_keys he
      rw [heq] at hkey
      have hnat := congrArg UInt32.toNat hkey
      rw [UInt32.toNat_ofNat', UInt32.toNat_ofNat'] at hnat
      omega
    change ((crowd n).mtch.mPlayers.insert _ n).size = n + 1
    rw [OrdMap.size_insert, hnone, ih (by omega)]
    rfl

theorem crowd_command (n : ℕ) : (crowd (n + 1)).startCommand 1 [0x01] := by
  refine ⟨?_, [], rfl⟩
  induction n with
  | zero => exact ⟨0, rfl⟩
  | succ n ih =>
    obtain ⟨p, hp⟩ := ih
    have hmem := OrdMap.find?_eq_some.mp hp
    by_cases hkey : ((crowd (n + 1)).players (n + 1)).getUserID = 1
    · exact ⟨n + 1, OrdMap.find?_eq_some.mpr (OrdMap.mem_insert.mpr (Or.inl (by rw [hkey])))⟩
    · exact ⟨p, OrdMap.find?_eq_some.mpr (OrdMap.mem_insert.mpr (Or.inr ⟨hmem, Ne.symm hkey⟩))⟩

theorem one_player_ok : ∃ tr c, (system 0 fun _ => []).Exec tr c ∧
    c.mtch.mMatchState = .started ∧ ∀ x ∈ visited tr c, x.OrientationsOk := by
  have h1 := (waitingMatch_exec 0 fun _ => []).next (.join 0) (crowd 1)
    (step_join 0 (fun _ => []) 0 rfl rfl)
  have h2 := h1.next (.command (fun _ => true) 1 [0x01]) (crowd 1).startedWith
    (step_start 0 (fun _ => []) (fun _ => true) (crowd_command 0) rfl rfl)
  refine ⟨_, _, h2, rfl, (orientationsOk_iff_startsSmall 0 _ _ _ h2).mpr ?_⟩
  simp only [List.cons_append, List.nil_append, List.forall_mem_cons]
  refine ⟨?_, ?_, fun _ => by decide, nofun⟩
  · rintro ⟨_, _, _, heq, -⟩
    cases heq
  · rintro ⟨_, _, _, heq, -⟩
    cases heq

theorem exists_crowd (n : ℕ) (hn : n + 1 ≤ 256) : ∃ tr c, (system 0 fun _ => []).Exec tr c ∧
    c.mtch.mMatchState = .joinedWaiting ∧ c.mtch.mPlayerMtx = false ∧
    c.startCommand 1 [0x01] ∧ c.mtch.mPlayers.size = n + 1 := by
  obtain ⟨tr, h⟩ := crowd_exec (fun _ => []) (n + 1)
  obtain ⟨hs, hm, -⟩ := crowd_waits (n + 1)
  exact ⟨tr, _, h, hs, hm, crowd_command n, crowd_size hn⟩

/-- The buffer of a match that starts with 256 players is sized for none. -/
theorem crowd_overruns : ∃ tr c, (system 0 fun _ => []).Exec tr c ∧
    c.mtch.mPlayers.size = 256 ∧ c.mtch.mOrientationSendBufferSize = 1 ∧
    ¬ ∀ x ∈ visited tr c, x.OrientationsOk := by
  obtain ⟨tr, c, h, hs, hm, hcmd, hsize⟩ := exists_crowd 255 (le_refl 256)
  have hstart := h.next (.command (fun _ => true) 1 [0x01]) c.startedWith
    (step_start 0 (fun _ => []) (fun _ => true) hcmd hs hm)
  refine ⟨_, _, hstart, hsize, ?_, fun hall => ?_⟩
  · change (Player.orientationSize + 1) * (UInt8.ofNat c.mtch.mPlayers.size).toNat + 1 = 1
    rw [hsize]
    rfl
  · have hlast := hall _ (List.mem_append_right _ (List.mem_singleton.mpr rfl))
    exact startedWith_not_ok hm (by omega) hlast

end MatchCtx

end GameServer
