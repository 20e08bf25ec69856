import GameServer.Match.Joining

/-! Runs of joins against a start. What `StartMatch` counted stays true while no new
player is inserted behind its back: then the roster lists whoever was let in, and the
arrays that were sized by the count are large enough. -/

namespace GameServer

open Lib

/-- The main thread holds `m_player_mtx`. -/
def JoinPc.holds : JoinPc → Bool
  | .idle | .check _ | .lock _ => false
  | .setActiveMatch _ | .insert _ | .setMatchInstanceId _ | .unlock _ => true

/-- The player that the call has inserted. -/
def JoinPc.inserted : JoinPc → Option PlayerRef
  | .setMatchInstanceId p | .unlock p => some p
  | _ => none

/-- The match thread holds `m_player_mtx`. -/
def MatchPc.holds : MatchPc → Bool
  | .startLoop .. | .startUnlock _ | .sendLoop .. | .sendUnlock => true
  | _ => false

/-- `StartMatch` has read the number of players and is not done. -/
def MatchPc.counted : MatchPc → Bool
  | .startBuffer _ | .startArray | .startLock _ | .startLoop .. | .startUnlock _ | .startState _
  | .startBroadcast _ => true
  | _ => false

namespace Joining

/-- The start of the match has counted its players. -/
def Late (s : Joining) : Prop := s.thread.counted = true ∨ s.ctx.mtch.mMatchState = .started

/-- An insertion after the count finds the UserID in the match. -/
def InTime (s : Joining) (e : Event) : Prop :=
  e = .main → ∀ p, s.main = .insert p → s.Late →
    s.ctx.hasPlayer (s.ctx.players p).getUserID = true

/-! ### The invariant -/

/-- What the invariant reads of a match. -/
structure View where
  keys : List UserID
  bufferSize : ℕ
  state : MatchState
  userID : PlayerRef → UserID

def view (c : MatchCtx) : View where
  keys := c.mtch.mPlayers.keys
  bufferSize := c.mtch.mOrientationSendBufferSize
  state := c.mtch.mMatchState
  userID := fun p => (c.players p).getUserID

/-- The buffer is the one for the players of the match. -/
def View.Sized (v : View) : Prop :=
  v.bufferSize = (Player.orientationSize + 1) * (UInt8.ofNat v.keys.length).toNat + 1

/-- What holds at a statement of the match thread. -/
def View.At (v : View) : MatchPc → Prop
  | .startBuffer numOrientations => numOrientations = UInt8.ofNat v.keys.length
  | .startArray => v.Sized
  | .startLock arraySize => v.Sized ∧ arraySize = v.keys.length
  | .startLoop arraySize playerArr rest =>
    v.Sized ∧ arraySize = v.keys.length ∧
      playerArr.map Player.getUserID ++ rest.map Prod.fst = v.keys ∧
      ∀ e ∈ rest, v.userID e.2 = e.1
  | .startUnlock playerArr | .startState playerArr =>
    v.Sized ∧ playerArr.map Player.getUserID = v.keys
  | .startBroadcast playerArr => v.state = .started ∧ playerArr.map Player.getUserID = v.keys
  | .sendCount | .sendStore _ | .sendLock => v.state = .started
  | .sendLoop pIndex rest => v.state = .started ∧ pIndex + rest.length = v.keys.length
  | .overran => False
  | _ => True

structure Inv (s : Joining) : Prop where
  keyed : s.ctx.Keyed
  mutex : s.main.holds.toNat + s.thread.holds.toNat = s.ctx.mtch.mPlayerMtx.toNat
  listed : ∀ p, p ∈ s.joined ∨ s.main.inserted = some p →
    (view s.ctx).userID p ∈ (view s.ctx).keys
  thread : (view s.ctx).At s.thread
  started : (view s.ctx).state = .started → (view s.ctx).Sized
  fresh : s.thread = .threadInit → s.roster = none
  roster : ∀ arr, s.roster = some arr →
    arr.map Player.getUserID = (view s.ctx).keys ∧ (view s.ctx).state = .started

theorem inv_init {s : Joining} (h : s.Init) : s.Inv := by
  refine ⟨h.ctx.keyed, ?_, fun p hp => ?_, ?_, fun hs => ?_, fun _ => h.roster, fun arr harr => ?_⟩
  · rw [h.main, h.thread, h.ctx.mtx]
    rfl
  · rw [h.joined, h.main] at hp
    rcases hp with hp | hp
    · cases hp
    · cases hp
  · rw [h.thread]
    trivial
  · rw [view, h.ctx.state] at hs
    cases hs
  · rw [h.roster] at harr
    cases harr

theorem Inv.atomic {s : Joining} (hs : s.Inv) : s.Atomic := by
  refine ⟨fun hover => ?_, fun arr harr p hp => ?_⟩
  · have hat := hs.thread
    rw [hover] at hat
    exact hat
  · have hmem := hs.listed p (Or.inl hp)
    rw [← (hs.roster arr harr).1] at hmem
    exact List.mem_map.mp hmem

theorem Inv.none_holds {s : Joining} (hs : s.Inv) (h : ¬ s.ctx.mtch.mPlayerMtx = true) :
    s.main.holds = false ∧ s.thread.holds = false := by
  have hmutex := hs.mutex
  rw [Bool.eq_false_iff.mpr h] at hmutex
  have hsum := Nat.add_eq_zero_iff.mp hmutex
  exact ⟨Bool.toNat_eq_zero.mp hsum.1, Bool.toNat_eq_zero.mp hsum.2⟩

/-- The mutex is never held by both threads. -/
theorem Inv.not_both {s : Joining} (hs : s.Inv) (hmain : s.main.holds = true) :
    s.thread.holds = false := by
  have hmutex := hs.mutex
  have hle := s.ctx.mtch.mPlayerMtx.toNat_le
  rw [hmain] at hmutex
  refine Bool.toNat_eq_zero.mp ?_
  change 1 + s.thread.holds.toNat = _ at hmutex
  omega

/-- A step that leaves what the invariant reads of the match. -/
theorem Inv.of_view {s s' : Joining} (hs : s.Inv) (hkeyed : s'.ctx.Keyed)
    (hview : view s'.ctx = view s.ctx) (hroster : s'.roster = s.roster)
    (hmutex : s'.main.holds.toNat + s'.thread.holds.toNat = s'.ctx.mtch.mPlayerMtx.toNat)
    (hlisted : ∀ p, p ∈ s'.joined ∨ s'.main.inserted = some p →
      (view s.ctx).userID p ∈ (view s.ctx).keys)
    (hat : (view s.ctx).At s'.thread) (hfresh : s'.thread = .threadInit → s.thread = .threadInit) :
    s'.Inv := by
  refine ⟨hkeyed, hmutex, ?_, ?_, ?_, fun h => ?_, ?_⟩
  · rw [hview]
    exact hlisted
  · rw [hview]
    exact hat
  · rw [hview]
    exact hs.started
  · rw [hroster]
    exact hs.fresh (hfresh h)
  · rw [hview, hroster]
    exact hs.roster

theorem keyed_of_view {c c' : MatchCtx} (hc : c.Keyed) (hview : view c' = view c)
    (hplayers : c'.mtch.mPlayers = c.mtch.mPlayers) : c'.Keyed := by
  intro e he
  rw [hplayers] at he
  exact (congrFun (congrArg View.userID hview) e.2).trans (hc e he)

theorem view_setPlayer (c : MatchCtx) (p : PlayerRef) (f : Player → Player)
    (hf : ∀ x, (f x).getUserID = x.getUserID) : view (c.setPlayer p f) = view c := by
  have hid : (fun q => ((c.setPlayer p f).players q).getUserID) =
      fun q => (c.players q).getUserID :=
    funext fun q => MatchCtx.setPlayer_field Player.getUserID c p f hf q
  rw [view, hid]
  rfl

/-! ### A step of `JoinPlayer` -/

/-- Before the count the match thread relies on nothing that an insertion changes. -/
theorem View.At.of_not_late {v v' : View} {pc : MatchPc} (h : v.At pc) (hpc : pc.counted = false)
    (hstate : v.state ≠ .started) : v'.At pc := by
  cases pc with
  | startBuffer | startArray | startLock | startLoop | startUnlock | startState | startBroadcast =>
    cases hpc
  | sendCount | sendStore | sendLock => exact absurd h hstate
  | sendLoop => exact absurd h.1 hstate
  | overran => exact h.elim
  | _ => trivial

theorem keyed_insert {c : MatchCtx} (hc : c.Keyed) (p : PlayerRef) :
    (c.setMatch fun m =>
      { m with mPlayers := m.mPlayers.insert (c.players p).getUserID p }).Keyed := by
  intro e he
  rcases OrdMap.mem_insert.mp he with rfl | ⟨he, -⟩
  · rfl
  · exact hc e he

/-- The insertion of `JoinPlayer`. -/
theorem inv_insert {s : Joining} {p : PlayerRef} (hs : s.Inv) (hpc : s.main = .insert p)
    (htime : s.Late → s.ctx.hasPlayer (s.ctx.players p).getUserID = true) :
    Inv { s.setMatch fun m =>
        { m with mPlayers := m.mPlayers.insert (s.ctx.players p).getUserID p } with
      main := .setMatchInstanceId p } := by
  have hmutex := hs.mutex
  rw [hpc] at hmutex
  have hlisted := hs.listed
  rw [hpc] at hlisted
  have hkeyed := keyed_insert hs.keyed p
  by_cases hlate : s.Late
  · have hmem : (s.ctx.players p).getUserID ∈ s.ctx.mtch.mPlayers.keys := by
      by_contra hnone
      have hfound := htime hlate
      rw [MatchCtx.hasPlayer, OrdMap.find?_eq_none.mpr hnone] at hfound
      cases hfound
    have hview : view (s.ctx.setMatch fun m =>
        { m with mPlayers := m.mPlayers.insert (s.ctx.players p).getUserID p }) = view s.ctx := by
      have hkeys := OrdMap.keys_insert_of_mem (x := p) hmem
      simp only [view, MatchCtx.setMatch, hkeys]
    refine hs.of_view hkeyed hview rfl hmutex (fun q hq => ?_) hs.thread id
    rcases hq with hq | hq
    · exact hlisted q (Or.inl hq)
    · cases hq
      exact hmem
  · obtain ⟨hcounted, hstate⟩ := not_or.mp hlate
    refine ⟨hkeyed, hmutex, fun q hq => OrdMap.mem_keys_insert.mpr ?_,
      hs.thread.of_not_late (by simpa using hcounted) hstate, fun h => absurd h hstate, hs.fresh,
      fun arr harr => absurd (hs.roster arr harr).2 hstate⟩
    rcases hq with hq | hq
    · exact Or.inr (hlisted q (Or.inl hq))
    · cases hq
      exact Or.inl rfl

/-- A move of the main thread that leaves what the invariant reads. -/
theorem Inv.main {s : Joining} (hs : s.Inv) {pc : JoinPc} (hpc : s.main = pc) (c : MatchCtx)
    (hview : view c = view s.ctx) (hplayers : c.mtch.mPlayers = s.ctx.mtch.mPlayers)
    (hmtx : c.mtch.mPlayerMtx = s.ctx.mtch.mPlayerMtx) (pc' : JoinPc)
    (hholds : pc'.holds = pc.holds) (hinserted : pc'.inserted = pc.inserted) :
    Inv { s with ctx := c, main := pc' } := by
  refine hs.of_view (keyed_of_view hs.keyed hview hplayers) hview rfl ?_ (fun p hp => ?_)
    hs.thread id
  · change pc'.holds.toNat + s.thread.holds.toNat = c.mtch.mPlayerMtx.toNat
    rw [hholds, hmtx, ← hpc]
    exact hs.mutex
  · rw [hinserted, ← hpc] at hp
    exact hs.listed p hp

/-- `m_player_mtx` as the main thread takes it. -/
theorem inv_lock {s : Joining} {p : PlayerRef} (hs : s.Inv) (hpc : s.main = .lock p)
    (hmtx : ¬ s.ctx.mtch.mPlayerMtx = true) :
    Inv { s.setMatch fun m => { m with mPlayerMtx := true } with main := .setActiveMatch p } := by
  refine hs.of_view hs.keyed rfl rfl ?_ (fun q hq => hs.listed q ?_) hs.thread id
  · change 1 + s.thread.holds.toNat = 1
    rw [(hs.none_holds hmtx).2]
    rfl
  · rw [hpc]
    exact hq

/-- The player is let in and the mutex is free again. -/
theorem inv_unlock {s : Joining} {p : PlayerRef} (hs : s.Inv) (hpc : s.main = .unlock p) :
    Inv { s.setMatch fun m => { m with mPlayerMtx := false } with
      main := .idle, joined := s.joined ++ [p] } := by
  refine hs.of_view hs.keyed rfl rfl ?_ (fun q hq => hs.listed q ?_) hs.thread id
  · change 0 + s.thread.holds.toNat = 0
    rw [hs.not_both (by rw [hpc]; rfl)]
    rfl
  · rcases hq with hq | hq
    · rcases List.mem_append.mp hq with hq | hq
      · exact Or.inl hq
      · rw [List.mem_singleton.mp hq, hpc]
        exact Or.inr rfl
    · cases hq

theorem inv_joinStep {this : MatchRef} {s s' : Joining} (hs : s.Inv) (htime : s.InTime .main)
    (h : s.joinStep this = some s') : s'.Inv := by
  cases hpc : s.main with
  | idle =>
    simp only [joinStep, hpc] at h
    cases h
  | check p =>
    simp only [joinStep, hpc] at h
    split_ifs at h
    · cases h
      exact hs.main hpc s.ctx rfl rfl rfl _ rfl rfl
    · cases h
      exact hs.main hpc s.ctx rfl rfl rfl _ rfl rfl
  | lock p =>
    simp only [joinStep, hpc] at h
    split_ifs at h with hmtx
    cases h
    exact inv_lock hs hpc hmtx
  | setActiveMatch p =>
    simp only [joinStep, hpc] at h
    cases h
    have hview := view_setPlayer s.ctx p (·.setActiveMatch (some this)) fun _ => rfl
    exact hs.main hpc _ hview rfl rfl _ rfl rfl
  | insert p =>
    simp only [joinStep, hpc] at h
    cases h
    exact inv_insert hs hpc (htime rfl p hpc)
  | setMatchInstanceId p =>
    simp only [joinStep, hpc] at h
    cases h
    have hview := view_setPlayer s.ctx p
      (·.setMatchInstanceID (UInt8.ofNat s.ctx.mtch.mPlayers.size)) fun _ => rfl
    exact hs.main hpc _ hview rfl rfl _ rfl rfl
  | unlock p =>
    simp only [joinStep, hpc] at h
    cases h
    exact inv_unlock hs hpc

/-! ### A step of the match thread -/

theorem Inv.at {s : Joining} (hs : s.Inv) {pc : MatchPc} (hpc : s.thread = pc) :
    (view s.ctx).At pc := by
  rw [← hpc]
  exact hs.thread

theorem Inv.mutex_at {s : Joining} (hs : s.Inv) {pc pc' : MatchPc} (hpc : s.thread = pc)
    (hholds : pc'.holds = pc.holds) :
    s.main.holds.toNat + pc'.holds.toNat = s.ctx.mtch.mPlayerMtx.toNat := by
  rw [hholds, ← hpc]
  exact hs.mutex

theorem Inv.move {s : Joining} (hs : s.Inv) {pc : MatchPc} (hpc : s.thread = pc) (pc' : MatchPc)
    (hholds : pc'.holds = pc.holds) (hinit : pc' ≠ .threadInit) (hat : (view s.ctx).At pc') :
    Inv { s with thread := pc' } :=
  hs.of_view hs.keyed rfl rfl (hs.mutex_at hpc hholds) hs.listed hat fun h => absurd h hinit

theorem Inv.acquire {s : Joining} (hs : s.Inv) (hmtx : ¬ s.ctx.mtch.mPlayerMtx = true)
    (pc : MatchPc) (hholds : pc.holds = true) (hinit : pc ≠ .threadInit)
    (hat : (view s.ctx).At pc) :
    Inv { s.setMatch fun m => { m with mPlayerMtx := true } with thread := pc } := by
  refine hs.of_view hs.keyed rfl rfl ?_ hs.listed hat fun h => absurd h hinit
  change s.main.holds.toNat + pc.holds.toNat = 1
  rw [(hs.none_holds hmtx).1, hholds]
  rfl

theorem Inv.release {s : Joining} (hs : s.Inv) {pc : MatchPc} (hpc : s.thread = pc)
    (hheld : pc.holds = true) (pc' : MatchPc) (hholds : pc'.holds = false)
    (hinit : pc' ≠ .threadInit) (hat : (view s.ctx).At pc') :
    Inv { s.setMatch fun m => { m with mPlayerMtx := false } with thread := pc' } := by
  have hmain : s.main.holds = false := by
    by_contra h
    have hfree := hs.not_both (Bool.eq_true_of_not_eq_false h)
    rw [hpc, hheld] at hfree
    cases hfree
  refine hs.of_view hs.keyed rfl rfl ?_ hs.listed hat fun h => absurd h hinit
  change s.main.holds.toNat + pc'.holds.toNat = 0
  rw [hmain, hholds]
  rfl

/-- A write of the match thread outside the roster. -/
theorem Inv.write {s : Joining} (hs : s.Inv) (f : Match → Match)
    (hroster : (f s.ctx.mtch).mPlayers = s.ctx.mtch.mPlayers)
    (hview : view (s.ctx.setMatch f) = view s.ctx)
    (hmtx : (f s.ctx.mtch).mPlayerMtx = s.ctx.mtch.mPlayerMtx) {pc : MatchPc}
    (hpc : s.thread = pc) (pc' : MatchPc) (hholds : pc'.holds = pc.holds)
    (hinit : pc' ≠ .threadInit) (hat : (view s.ctx).At pc') :
    Inv { s.setMatch f with thread := pc' } := by
  refine hs.of_view (keyed_of_view hs.keyed hview hroster) hview rfl ?_ hs.listed hat
    fun h => absurd h hinit
  change s.main.holds.toNat + pc'.holds.toNat = (f s.ctx.mtch).mPlayerMtx.toNat
  rw [hmtx]
  exact hs.mutex_at hpc hholds

theorem storeEntry_eq (s : Joining) (pIndex : ℕ) (p : PlayerRef) :
    s.storeEntry pIndex p = MatchCtx.storeOrientations s.ctx.players
      s.ctx.mtch.mOrientationSendBufferSize [p] pIndex s.ctx.mtch.mOrientationSendBuffer := by
  rw [storeEntry, MatchCtx.storeOrientations]
  refine congrArg _ (funext fun b => ?_)
  cases MatchCtx.store s.ctx.mtch.mOrientationSendBufferSize b
    (pIndex * (Player.orientationSize + 1) + 1 + 1) (s.ctx.players p).serializeOrientation <;> rfl

/-- A buffer for all players has room for each of their entries. -/
theorem storeEntry_ok {s : Joining} (hsized : (view s.ctx).Sized)
    (hsize : s.ctx.mtch.mPlayers.size ≤ 255) (pIndex : ℕ) (p : PlayerRef)
    (h : pIndex < (view s.ctx).keys.length) : ∃ b, s.storeEntry pIndex p = .ok b := by
  have hkeys : (view s.ctx).keys.length = s.ctx.mtch.mPlayers.size := List.length_map ..
  have hbyte : (UInt8.ofNat s.ctx.mtch.mPlayers.size).toNat = s.ctx.mtch.mPlayers.size := by
    rw [UInt8.toNat_ofNat']
    omega
  have hroom : MatchCtx.entriesEnd (pIndex + 1) ≤ s.ctx.mtch.mOrientationSendBufferSize := by
    change s.ctx.mtch.mOrientationSendBufferSize = _ at hsized
    rw [hsized, hkeys, hbyte, Nat.mul_comm]
    exact Nat.add_le_add_right (Nat.mul_le_mul_right _ (by omega)) 1
  obtain ⟨b, hb, -⟩ := MatchCtx.storeOrientations_ok s.ctx.players [p] pIndex
    s.ctx.mtch.mOrientationSendBuffer hroom
  exact ⟨b, (s.storeEntry_eq pIndex p).trans hb⟩

theorem inv_threadInit {s : Joining} (hs : s.Inv) (now : UInt64) (hpc : s.thread = .threadInit) :
    Inv { s with ctx := s.ctx.threadInit now, thread := .idle } := by
  refine ⟨hs.keyed, hs.mutex_at hpc rfl, hs.listed, trivial, nofun, nofun, fun arr harr => ?_⟩
  change s.roster = some arr at harr
  rw [hs.fresh hpc] at harr
  cases harr

theorem inv_startBuffer {s : Joining} (hs : s.Inv) {numOrientations : UInt8}
    (hpc : s.thread = .startBuffer numOrientations) :
    Inv { s.setMatch fun m => { m with
      mOrientationSendBufferSize :=
        (Player.orientationSize + 1) * numOrientations.toNat + 1 } with thread := .startArray } := by
  have hat := hs.at hpc
  change numOrientations = UInt8.ofNat (view s.ctx).keys.length at hat
  subst hat
  exact ⟨hs.keyed, hs.mutex_at hpc rfl, hs.listed, rfl, fun _ => rfl, nofun, hs.roster⟩

/-- `player_arr` has an element for each player of the loop. -/
theorem inv_startLoop {s : Joining} (hs : s.Inv) {arraySize : ℕ} {playerArr : List Player}
    {e : UserID × PlayerRef} {rest : List (UserID × PlayerRef)}
    (hpc : s.thread = .startLoop arraySize playerArr (e :: rest)) :
    Inv { s with thread :=
      if playerArr.length < arraySize then
        .startLoop arraySize (playerArr ++ [s.ctx.players e.2]) rest
      else .overran } := by
  obtain ⟨hsized, harray, hkeys, hids⟩ := hs.at hpc
  have hlen := congrArg List.length hkeys
  rw [List.length_append, List.length_map, List.length_map, List.length_cons] at hlen
  rw [if_pos (by omega)]
  refine hs.move hpc _ rfl nofun ⟨hsized, harray, ?_, fun a ha => ?_⟩
  · have hid : (s.ctx.players e.2).getUserID = e.1 := hids e List.mem_cons_self
    rw [List.map_append, List.map_singleton, hid, List.append_assoc]
    exact hkeys
  · exact hids a (List.mem_cons_of_mem _ ha)

theorem inv_startState {s : Joining} (hs : s.Inv) {playerArr : List Player}
    (hpc : s.thread = .startState playerArr) :
    Inv { s.setMatch fun m => { m with mMatchState := .started } with
      thread := .startBroadcast playerArr } := by
  obtain ⟨hsized, hkeys⟩ := hs.at hpc
  exact ⟨hs.keyed, hs.mutex_at hpc rfl, hs.listed, ⟨rfl, hkeys⟩, fun _ => hsized, nofun,
    fun arr harr => ⟨(hs.roster arr harr).1, rfl⟩⟩

theorem inv_startBroadcast {s : Joining} (hs : s.Inv) {playerArr : List Player}
    (hpc : s.thread = .startBroadcast playerArr) :
    Inv { s with roster := some playerArr, thread := .idle } := by
  obtain ⟨hstate, hkeys⟩ := hs.at hpc
  refine ⟨hs.keyed, hs.mutex_at hpc rfl, hs.listed, trivial, hs.started, nofun, fun arr harr => ?_⟩
  cases harr
  exact ⟨hkeys, hstate⟩

theorem inv_sendStore {s s' : Joining} (hs : s.Inv) {now : UInt64} {numOrientations : UInt8}
    (hpc : s.thread = .sendStore numOrientations) (h : s.threadStep now = some s') : s'.Inv := by
  have hat := hs.at hpc
  have hpos : 1 ≤ s.ctx.mtch.mOrientationSendBufferSize := by
    have hsized := hs.started hat
    change s.ctx.mtch.mOrientationSendBufferSize = _ at hsized
    omega
  obtain ⟨b, hb, -⟩ := MatchCtx.store_count s.ctx.mtch.mOrientationSendBuffer numOrientations hpos
  simp only [threadStep, hpc, hb] at h
  cases h
  exact hs.write _ rfl rfl rfl hpc _ rfl (by simp) hat

theorem inv_sendLoop {s s' : Joining} (hs : s.Inv) (hsize : s.ctx.mtch.mPlayers.size ≤ 255)
    {now : UInt64} {pIndex : ℕ} {p : PlayerRef} {rest : List PlayerRef}
    (hpc : s.thread = .sendLoop pIndex (p :: rest)) (h : s.threadStep now = some s') :
    s'.Inv := by
  obtain ⟨hstate, hlen⟩ := hs.at hpc
  rw [List.length_cons] at hlen
  obtain ⟨b, hb⟩ := storeEntry_ok (hs.started hstate) hsize pIndex p (by omega)
  simp only [threadStep, hpc, hb] at h
  cases h
  exact hs.write _ rfl rfl rfl hpc _ rfl (by simp) ⟨hstate, by omega⟩

theorem inv_threadStep {s s' : Joining} (hs : s.Inv) (hsize : s.ctx.mtch.mPlayers.size ≤ 255)
    (now : UInt64) (h : s.threadStep now = some s') : s'.Inv := by
  cases hpc : s.thread with
  | threadInit =>
    simp only [threadStep, hpc] at h
    cases h
    exact inv_threadInit hs now hpc
  | idle | overran =>
    simp only [threadStep, hpc] at h
    cases h
  | startCheck =>
    simp only [threadStep, hpc] at h
    cases h
    split_ifs
    · exact hs.move hpc _ rfl (by simp) trivial
    · exact hs.move hpc _ rfl (by simp) trivial
  | startCount =>
    simp only [threadStep, hpc] at h
    cases h
    refine hs.move hpc _ rfl (by simp) ?_
    exact congrArg UInt8.ofNat (List.length_map ..).symm
  | startBuffer numOrientations =>
    simp only [threadStep, hpc] at h
    cases h
    exact inv_startBuffer hs hpc
  | startArray =>
    simp only [threadStep, hpc] at h
    cases h
    exact hs.move hpc _ rfl (by simp) ⟨hs.at hpc, (List.length_map ..).symm⟩
  | startLock arraySize =>
    simp only [threadStep, hpc] at h
    split_ifs at h with hmtx
    cases h
    obtain ⟨hsized, harray⟩ := hs.at hpc
    exact hs.acquire hmtx _ rfl (by simp) ⟨hsized, harray, rfl, hs.keyed⟩
  | startLoop arraySize playerArr rest =>
    cases rest with
    | nil =>
      simp only [threadStep, hpc] at h
      cases h
      obtain ⟨hsized, -, hkeys, -⟩ := hs.at hpc
      rw [List.map_nil, List.append_nil] at hkeys
      exact hs.move hpc _ rfl (by simp) ⟨hsized, hkeys⟩
    | cons e rest =>
      simp only [threadStep, hpc] at h
      cases h
      exact inv_startLoop hs hpc
  | startUnlock playerArr =>
    simp only [threadStep, hpc] at h
    cases h
    have hat := hs.at hpc
    exact hs.release hpc rfl _ rfl (by simp) hat
  | startState playerArr =>
    simp only [threadStep, hpc] at h
    cases h
    exact inv_startState hs hpc
  | startBroadcast playerArr =>
    simp only [threadStep, hpc] at h
    cases h
    exact inv_startBroadcast hs hpc
  | sendCheck =>
    simp only [threadStep, hpc] at h
    cases h
    split_ifs with hstate
    · exact hs.move hpc _ rfl (by simp) trivial
    · exact hs.move hpc _ rfl (by simp) (not_not.mp hstate)
    · exact hs.move hpc _ rfl (by simp) trivial
  | sendCount =>
    simp only [threadStep, hpc] at h
    cases h
    have hat := hs.at hpc
    exact hs.move hpc _ rfl (by simp) hat
  | sendStore numOrientations => exact inv_sendStore hs hpc h
  | sendLock =>
    simp only [threadStep, hpc] at h
    split_ifs at h with hmtx
    cases h
    refine hs.acquire hmtx _ rfl (by simp) ⟨hs.at hpc, ?_⟩
    rw [Nat.zero_add, MatchCtx.values_length]
    exact (List.length_map ..).symm
  | sendLoop pIndex rest =>
    cases rest with
    | nil =>
      simp only [threadStep, hpc] at h
      cases h
      exact hs.move hpc _ rfl (by simp) trivial
    | cons p rest => exact inv_sendLoop hs hsize hpc h
  | sendUnlock =>
    simp only [threadStep, hpc] at h
    cases h
    exact hs.release hpc rfl _ rfl (by simp) trivial
  | sendBroadcast =>
    simp only [threadStep, hpc] at h
    cases h
    exact hs.write _ rfl rfl rfl hpc _ rfl (by simp) trivial

/-! ### A run -/

theorem inv_step {this : MatchRef} {s s' : Joining} {e : Event} (hs : s.Inv)
    (hsize : s.ctx.mtch.mPlayers.size ≤ 255) (htime : s.InTime e) (h : Step this s e s') :
    s'.Inv := by
  cases e with
  | join p =>
    obtain ⟨hpc, rfl⟩ := h
    exact hs.main hpc s.ctx rfl rfl rfl _ rfl rfl
  | start =>
    obtain ⟨hpc, rfl⟩ := h
    exact hs.move hpc _ rfl nofun trivial
  | send =>
    obtain ⟨hpc, rfl⟩ := h
    exact hs.move hpc _ rfl nofun trivial
  | main => exact inv_joinStep hs htime h
  | thread now => exact inv_threadStep hs hsize now h

/-- With at most 255 players, joining is atomic with respect to starting in every run
in which no new player is inserted after the start has counted. -/
theorem atomic_of_inTime (this : MatchRef) (tr : List (Joining × Event)) (s : Joining)
    (h : (system this).Exec tr s) (hsize : ∀ x ∈ tr, x.1.ctx.mtch.mPlayers.size ≤ 255)
    (htime : ∀ x ∈ tr, x.1.InTime x.2) : ∀ x ∈ visited tr s, x.Atomic := by
  have hinv := h.visited_of_steps Inv (fun s e => s.ctx.mtch.mPlayers.size ≤ 255 ∧ s.InTime e)
    (fun _ => inv_init) (fun _ _ _ hs hC => inv_step hs hC.1 hC.2)
    fun x hx => ⟨hsize x hx, htime x hx⟩
  exact fun x hx => (hinv x hx).atomic

/-! ### A join before the start, and one across it -/

theorem waiting_exec :
    (system 0).Exec [(⟨MatchCtx.sampleMatch, .idle, .threadInit, [], none⟩, .thread 0)]
      ⟨MatchCtx.waitingMatch, .idle, .idle, [], none⟩ := by
  have h0 : (system 0).Exec [] ⟨MatchCtx.sampleMatch, .idle, .threadInit, [], none⟩ :=
    .nil (.mk (.mk rfl rfl rfl rfl) rfl rfl rfl rfl)
  exact h0.next (.thread 0) _ rfl

/-- The call of `JoinPlayer` passes its check. -/
theorem checked_exec : ∃ tr, (system 0).Exec tr ⟨MatchCtx.waitingMatch, .lock 0, .idle, [], none⟩ ∧
    ∀ x ∈ tr, x.1.ctx.mtch.mPlayers = OrdMap.empty ∧ ∀ p, x.1.main ≠ .insert p := by
  have h1 := waiting_exec.next (.join 0) ⟨MatchCtx.waitingMatch, .check 0, .idle, [], none⟩
    (And.intro rfl rfl)
  have h2 := h1.next .main ⟨MatchCtx.waitingMatch, .lock 0, .idle, [], none⟩ rfl
  refine ⟨_, h2, ?_⟩
  simp only [List.cons_append, List.nil_append]
  rw [List.forall_mem_cons, List.forall_mem_cons, List.forall_mem_cons]
  exact ⟨⟨rfl, nofun⟩, ⟨rfl, nofun⟩, ⟨rfl, nofun⟩, List.forall_mem_nil _⟩

theorem size_of_empty {m : OrdMap UserID PlayerRef} (h : m = OrdMap.empty) : m.size ≤ 255 := by
  rw [h]
  exact Nat.zero_le 255

theorem size_of_joined {m : OrdMap UserID PlayerRef}
    (h : m = (MatchCtx.waitingMatch.joined 0 0).mtch.mPlayers) : m.size ≤ 255 := by
  rw [h]
  decide

theorem early_join_atomic : ∃ tr s, (system 0).Exec tr s ∧ s.joined = [0] ∧
    s.roster = some [s.ctx.players 0] ∧ ∀ x ∈ visited tr s, x.Atomic := by
  obtain ⟨tr₁, h₁, htr₁⟩ := checked_exec
  obtain ⟨tr₂, h₂, htr₂⟩ := join_alone 0 rfl h₁
  obtain ⟨tr₃, h₃, htr₃⟩ := start_alone rfl rfl h₂
  refine ⟨_, _, h₃, rfl, rfl, atomic_of_inTime 0 _ _ h₃ ?_ ?_⟩
  · rw [List.forall_mem_append, List.forall_mem_append]
    refine ⟨⟨fun x hx => size_of_empty (htr₁ x hx).1, fun x hx => ?_⟩,
      fun x hx => size_of_joined (htr₃ x hx).2⟩
    exact (htr₂ x hx).2.2.elim size_of_empty size_of_joined
  · rw [List.forall_mem_append, List.forall_mem_append]
    refine ⟨⟨fun x hx _ p hp => absurd hp ((htr₁ x hx).2 p), fun x hx _ p hp hlate => ?_⟩,
      fun x hx hmain => absurd hmain (htr₃ x hx).1⟩
    obtain ⟨hthread, hstate, -⟩ := htr₂ x hx
    rw [Late, hthread, hstate] at hlate
    rcases hlate with hlate | hlate
    · cases hlate
    · cases hlate

/-- The start sees no player, and the join that passed its check before it lets one in. -/
theorem late_join_missed : ∃ tr s, (system 0).Exec tr s ∧
    (∀ x ∈ visited tr s, x.ctx.mtch.mPlayers.size ≤ 255) ∧ s.joined = [0] ∧ s.roster = some [] ∧
    ¬ ∀ x ∈ visited tr s, x.Atomic := by
  obtain ⟨tr₁, h₁, htr₁⟩ := checked_exec
  obtain ⟨tr₂, h₂, htr₂⟩ := start_alone rfl rfl h₁
  obtain ⟨tr₃, h₃, htr₃⟩ := join_alone 0 rfl h₂
  refine ⟨_, _, h₃, ?_, rfl, rfl, fun hall => ?_⟩
  · rw [visited, List.map_append, List.map_append]
    simp only [List.forall_mem_append, List.forall_mem_map, List.forall_mem_singleton]
    refine ⟨⟨⟨fun x hx => size_of_empty (htr₁ x hx).1, fun x hx => size_of_empty (htr₂ x hx).2⟩,
      fun x hx => ?_⟩, size_of_joined rfl⟩
    exact (htr₃ x hx).2.2.elim size_of_empty size_of_joined
  · have hlast := hall _ (List.mem_append_right _ (List.mem_singleton.mpr rfl))
    obtain ⟨x, hx, -⟩ := hlast.roster [] rfl 0 (List.mem_singleton.mpr rfl)
    cases hx

end Joining

end GameServer
