import GameServer.Match.OrientationBuffer

/-! `JoinPlayer` on the main thread against `StartMatch` and `SendOrientationUpdates`
on the match thread, one statement at a time. `JoinPlayer` tests the match state
before it takes `m_player_mtx`; `StartMatch` reads the number of players before it
takes the mutex, and changes the state after it has given it back. -/

namespace GameServer

open Lib

/-- The next statement of the main thread, which joins one player after the other. -/
inductive JoinPc where
  | idle
  /-- the test of `m_match_state` -/
  | check (player : PlayerRef)
  | lock (player : PlayerRef)
  | setActiveMatch (player : PlayerRef)
  | insert (player : PlayerRef)
  | setMatchInstanceId (player : PlayerRef)
  | unlock (player : PlayerRef)
  deriving DecidableEq, Repr

/-- The next statement of the match thread. The names with `start` are those of
`StartMatch`, the names with `send` those of `SendOrientationUpdates`. -/
inductive MatchPc where
  | threadInit
  | idle
  | startCheck
  /-- `num_orientations = m_players.size()` -/
  | startCount
  | startBuffer (numOrientations : UInt8)
  /-- `player_arr(m_players.size())` -/
  | startArray
  | startLock (arraySize : ℕ)
  /-- the loop over `m_players`: what `player_arr` holds so far, and what is to come -/
  | startLoop (arraySize : ℕ) (playerArr : List Player) (rest : List (UserID × PlayerRef))
  | startUnlock (playerArr : List Player)
  | startState (playerArr : List Player)
  | startBroadcast (playerArr : List Player)
  | sendCheck
  /-- `num_orientations = m_players.size()` -/
  | sendCount
  | sendStore (numOrientations : UInt8)
  | sendLock
  | sendLoop (pIndex : ℕ) (rest : List PlayerRef)
  | sendUnlock
  | sendBroadcast
  /-- a write ran over the end of `player_arr` or of the orientation buffer -/
  | overran
  deriving DecidableEq, Repr

/-- A match with the positions of the two threads. -/
structure Joining where
  ctx : MatchCtx
  main : JoinPc
  thread : MatchPc
  /-- the players whose `JoinPlayer` returned `true`; read by proofs only -/
  joined : List PlayerRef
  /-- the players that the broadcast roster lists; read by proofs only -/
  roster : Option (List Player)

namespace Joining

def setMatch (s : Joining) (f : Match → Match) : Joining := { s with ctx := s.ctx.setMatch f }

def setPlayer (s : Joining) (p : PlayerRef) (f : Player → Player) : Joining :=
  { s with ctx := s.ctx.setPlayer p f }

/-- The next statement of `JoinPlayer` of the match at address `this`. -/
def joinStep (this : MatchRef) (s : Joining) : Option Joining :=
  match s.main with
  | .idle => none
  | .check p =>
    if s.ctx.mtch.mMatchState ≠ .joinedWaiting then some { s with main := .idle }
    else some { s with main := .lock p }
  | .lock p =>
    if s.ctx.mtch.mPlayerMtx then none
    else some { s.setMatch fun m => { m with mPlayerMtx := true } with main := .setActiveMatch p }
  | .setActiveMatch p =>
    some { s.setPlayer p (·.setActiveMatch (some this)) with main := .insert p }
  | .insert p =>
    some { s.setMatch fun m =>
        { m with mPlayers := m.mPlayers.insert (s.ctx.players p).getUserID p } with
      main := .setMatchInstanceId p }
  | .setMatchInstanceId p =>
    some { s.setPlayer p (·.setMatchInstanceID (UInt8.ofNat s.ctx.mtch.mPlayers.size)) with
      main := .unlock p }
  | .unlock p =>
    some { s.setMatch fun m => { m with mPlayerMtx := false } with
      main := .idle, joined := s.joined ++ [p] }

/-- The writes of one entry of the orientation buffer. -/
def storeEntry (s : Joining) (pIndex : ℕ) (p : PlayerRef) : Exec (ℕ → UInt8) := do
  let size := s.ctx.mtch.mOrientationSendBufferSize
  let bufferIndex := pIndex * (Player.orientationSize + 1) + 1
  let buffer ← MatchCtx.store size s.ctx.mtch.mOrientationSendBuffer bufferIndex
    [(s.ctx.players p).mMatchInstanceId]
  MatchCtx.store size buffer (bufferIndex + 1) (s.ctx.players p).serializeOrientation

/-- The next statement of the match thread at time `now`. -/
def threadStep (now : UInt64) (s : Joining) : Option Joining :=
  let m := s.ctx.mtch
  match s.thread with
  | .threadInit => some { s with ctx := s.ctx.threadInit now, thread := .idle }
  | .idle => none
  | .startCheck =>
    some { s with thread := if m.mMatchState ≠ .joinedWaiting then .idle else .startCount }
  | .startCount => some { s with thread := .startBuffer (UInt8.ofNat m.mPlayers.size) }
  | .startBuffer numOrientations =>
    some { s.setMatch fun m => { m with
        mOrientationSendBufferSize :=
          (Player.orientationSize + 1) * numOrientations.toNat + 1 } with thread := .startArray }
  | .startArray => some { s with thread := .startLock m.mPlayers.size }
  | .startLock arraySize =>
    if m.mPlayerMtx then none
    else some { s.setMatch fun m => { m with mPlayerMtx := true } with
      thread := .startLoop arraySize [] m.mPlayers.entries }
  | .startLoop _ playerArr [] => some { s with thread := .startUnlock playerArr }
  | .startLoop arraySize playerArr (e :: rest) =>
    some { s with thread :=
      if playerArr.length < arraySize then
        .startLoop arraySize (playerArr ++ [s.ctx.players e.2]) rest
      else .overran }
  | .startUnlock playerArr =>
    some { s.setMatch fun m => { m with mPlayerMtx := false } with thread := .startState playerArr }
  | .startState playerArr =>
    some { s.setMatch fun m => { m with mMatchState := .started } with
      thread := .startBroadcast playerArr }
  | .startBroadcast playerArr => some { s with roster := some playerArr, thread := .idle }
  | .sendCheck =>
    some { s with thread :=
      if m.mMatchState ≠ .started then .idle
      else if now - m.mLastOrientationUpdate > MatchCtx.orientationSendRate then .sendCount
      else .idle }
  | .sendCount => some { s with thread := .sendStore (UInt8.ofNat m.mPlayers.size) }
  | .sendStore numOrientations =>
    match MatchCtx.store m.mOrientationSendBufferSize m.mOrientationSendBuffer 0
        [numOrientations] with
    | .ok buffer =>
      some { s.setMatch fun m => { m with mOrientationSendBuffer := buffer } with
        thread := .sendLock }
    | .error _ => some { s with thread := .overran }
  | .sendLock =>
    if m.mPlayerMtx then none
    else some { s.setMatch fun m => { m with mPlayerMtx := true } with
      thread := .sendLoop 0 m.mPlayers.values }
  | .sendLoop _ [] => some { s with thread := .sendUnlock }
  | .sendLoop pIndex (p :: rest) =>
    match s.storeEntry pIndex p with
    | .ok buffer =>
      some { s.setMatch fun m => { m with mOrientationSendBuffer := buffer } with
        thread := .sendLoop (pIndex + 1) rest }
    | .error _ => some { s with thread := .overran }
  | .sendUnlock =>
    some { s.setMatch fun m => { m with mPlayerMtx := false } with thread := .sendBroadcast }
  | .sendBroadcast =>
    some { s.setMatch fun m => { m with mLastOrientationUpdate := now } with thread := .idle }
  | .overran => none

inductive Event where
  /-- the main thread calls `JoinPlayer` -/
  | join (player : PlayerRef)
  /-- the match thread calls `StartMatch` -/
  | start
  /-- the match thread calls `SendOrientationUpdates` -/
  | send
  | main
  | thread (now : UInt64)
  deriving DecidableEq, Repr

def Step (this : MatchRef) (s : Joining) (e : Event) (s' : Joining) : Prop :=
  match e with
  | .join p => s.main = .idle ∧ s' = { s with main := .check p }
  | .start => s.thread = .idle ∧ s' = { s with thread := .startCheck }
  | .send => s.thread = .idle ∧ s' = { s with thread := .sendCheck }
  | .main => s.joinStep this = some s'
  | .thread now => s.threadStep now = some s'

/-- A match as its constructor leaves it, whose thread was just started. -/
structure Init (s : Joining) : Prop where
  ctx : s.ctx.Init
  main : s.main = .idle
  thread : s.thread = .threadInit
  joined : s.joined = []
  roster : s.roster = none

def system (this : MatchRef) : System Joining Event := ⟨Init, Step this⟩

/-- Every write stays where it belongs, and whoever was let in is on the roster. -/
structure Atomic (s : Joining) : Prop where
  writes : s.thread ≠ .overran
  roster : ∀ arr, s.roster = some arr → ∀ p ∈ s.joined,
    ∃ x ∈ arr, x.getUserID = (s.ctx.players p).getUserID

/-! ### One thread at a time -/

section Alone

variable {this : MatchRef} {tr : List (Joining × Event)} {c : MatchCtx} {main : JoinPc}
  {thread : MatchPc} {joined : List PlayerRef} {roster : Option (List Player)}

/-- The match while one of the threads holds the mutex. -/
def heldBy (c : MatchCtx) : MatchCtx := c.setMatch fun m => { m with mPlayerMtx := true }

/-- `JoinPlayer` undisturbed after its check lets the player in like `joinPlayer`. -/
theorem join_alone (p : PlayerRef) (hm : c.mtch.mPlayerMtx = false)
    (h : (system this).Exec tr ⟨c, .lock p, thread, joined, roster⟩) :
    ∃ tr', (system this).Exec (tr ++ tr') ⟨c.joined this p, .idle, thread, joined ++ [p], roster⟩ ∧
      ∀ x ∈ tr', x.1.thread = thread ∧ x.1.ctx.mtch.mMatchState = c.mtch.mMatchState ∧
        (x.1.ctx.mtch.mPlayers = c.mtch.mPlayers ∨
          x.1.ctx.mtch.mPlayers = (c.joined this p).mtch.mPlayers) := by
  let c₁ := heldBy c
  let c₂ := c₁.setPlayer p (·.setActiveMatch (some this))
  let c₃ := c₂.setMatch fun m =>
    { m with mPlayers := m.mPlayers.insert (c₂.players p).getUserID p }
  let c₄ := c₃.setPlayer p (·.setMatchInstanceID (UInt8.ofNat c₃.mtch.mPlayers.size))
  have hid : (c₂.players p).getUserID = (c.players p).getUserID :=
    MatchCtx.setPlayer_field Player.getUserID c₁ p (·.setActiveMatch (some this)) (fun _ => rfl) p
  have hplayers : c₃.mtch.mPlayers = (c.joined this p).mtch.mPlayers :=
    congrArg (fun k => c.mtch.mPlayers.insert k p) hid
  have hlast : (c₄.setMatch fun m => { m with mPlayerMtx := false }) = c.joined this p := by
    simp [c₄, c₃, c₂, c₁, heldBy, MatchCtx.setMatch, MatchCtx.setPlayer, MatchCtx.joined, ← hm,
      Player.setActiveMatch, Player.getUserID]
  have h1 := h.next .main ⟨c₁, .setActiveMatch p, thread, joined, roster⟩ (if_neg (by simp [hm]))
  have h2 := h1.next .main ⟨c₂, .insert p, thread, joined, roster⟩ rfl
  have h3 := h2.next .main ⟨c₃, .setMatchInstanceId p, thread, joined, roster⟩ rfl
  have h4 := h3.next .main ⟨c₄, .unlock p, thread, joined, roster⟩ rfl
  have h5 := h4.next .main ⟨c₄.setMatch fun m => { m with mPlayerMtx := false }, .idle, thread,
    joined ++ [p], roster⟩ rfl
  rw [hlast] at h5
  simp only [List.append_assoc, List.cons_append, List.nil_append] at h5
  refine ⟨_, h5, ?_⟩
  rw [List.forall_mem_cons, List.forall_mem_cons, List.forall_mem_cons, List.forall_mem_cons,
    List.forall_mem_cons]
  exact ⟨⟨rfl, rfl, .inl rfl⟩, ⟨rfl, rfl, .inl rfl⟩, ⟨rfl, rfl, .inl rfl⟩,
    ⟨rfl, rfl, .inr hplayers⟩, ⟨rfl, rfl, .inr hplayers⟩, List.forall_mem_nil _⟩

/-- The loop of `StartMatch` over the rest of the players. -/
theorem startLoop_alone (arraySize : ℕ) (playerArr : List Player)
    (rest : List (UserID × PlayerRef)) (hsize : playerArr.length + rest.length ≤ arraySize)
    (h : (system this).Exec tr ⟨c, main, .startLoop arraySize playerArr rest, joined, roster⟩) :
    ∃ tr', (system this).Exec (tr ++ tr')
        ⟨c, main, .startUnlock (playerArr ++ rest.map fun e => c.players e.2), joined, roster⟩ ∧
      ∀ x ∈ tr', x.2 ≠ .main ∧ x.1.ctx = c := by
  induction rest generalizing tr playerArr with
  | nil =>
    have h1 := h.next (.thread 0) ⟨c, main, .startUnlock playerArr, joined, roster⟩ rfl
    rw [List.map_nil, List.append_nil]
    refine ⟨_, h1, fun x hx => ?_⟩
    rw [List.mem_singleton.mp hx]
    exact ⟨nofun, rfl⟩
  | cons e rest ih =>
    rw [List.length_cons] at hsize
    have hstep : Step this ⟨c, main, .startLoop arraySize playerArr (e :: rest), joined, roster⟩
        (.thread 0) ⟨c, main, .startLoop arraySize (playerArr ++ [c.players e.2]) rest, joined,
          roster⟩ := by
      simp only [Step, threadStep]
      rw [if_pos (by omega)]
    have hlen : (playerArr ++ [c.players e.2]).length + rest.length ≤ arraySize := by
      rw [List.length_append, List.length_singleton]
      omega
    obtain ⟨tr', h', htr'⟩ := ih (playerArr ++ [c.players e.2]) hlen (h.next (.thread 0) _ hstep)
    rw [List.append_assoc] at h'
    rw [List.map_cons, List.append_cons]
    refine ⟨_, h', fun x hx => ?_⟩
    rcases List.mem_append.mp hx with hx | hx
    · rw [List.mem_singleton.mp hx]
      exact ⟨nofun, rfl⟩
    · exact htr' x hx

/-- `StartMatch` undisturbed starts the match like `startMatch`. -/
theorem start_alone (hs : c.mtch.mMatchState = .joinedWaiting) (hm : c.mtch.mPlayerMtx = false)
    (h : (system this).Exec tr ⟨c, main, .idle, joined, roster⟩) :
    ∃ tr', (system this).Exec (tr ++ tr') ⟨c.startedWith, main, .idle, joined,
        some (c.mtch.mPlayers.values.map c.players)⟩ ∧
      ∀ x ∈ tr', x.2 ≠ .main ∧ x.1.ctx.mtch.mPlayers = c.mtch.mPlayers := by
  let c₁ := c.setMatch fun m =>
    { m with mOrientationSendBufferSize :=
        (Player.orientationSize + 1) * (UInt8.ofNat c.mtch.mPlayers.size).toNat + 1 }
  have h1 := h.next .start ⟨c, main, .startCheck, joined, roster⟩ (And.intro rfl rfl)
  have h2 := h1.next (.thread 0) ⟨c, main, .startCount, joined, roster⟩ (by
    change some _ = some _
    rw [if_neg (not_not.mpr hs)])
  have h3 := h2.next (.thread 0)
    ⟨c, main, .startBuffer (UInt8.ofNat c.mtch.mPlayers.size), joined, roster⟩ rfl
  have h4 := h3.next (.thread 0) ⟨c₁, main, .startArray, joined, roster⟩ rfl
  have h5 := h4.next (.thread 0) ⟨c₁, main, .startLock c.mtch.mPlayers.size, joined, roster⟩ rfl
  have h6 := h5.next (.thread 0)
    ⟨heldBy c₁, main, .startLoop c.mtch.mPlayers.size [] c.mtch.mPlayers.entries, joined, roster⟩
    (if_neg (by simp [c₁, hm]))
  obtain ⟨tr', h7, htr'⟩ := startLoop_alone c.mtch.mPlayers.size [] c.mtch.mPlayers.entries
    (by rw [List.length_nil, Nat.zero_add]; exact le_refl _) h6
  have harr : c.mtch.mPlayers.entries.map (fun e => (heldBy c₁).players e.2) =
      c.mtch.mPlayers.values.map c.players := by
    rw [OrdMap.values, List.map_map]
    rfl
  rw [List.nil_append, harr] at h7
  have hfree : ((heldBy c₁).setMatch fun m => { m with mPlayerMtx := false }) = c₁ := by
    simp [heldBy, c₁, MatchCtx.setMatch, ← hm]
  have h8 := h7.next (.thread 0) ⟨(heldBy c₁).setMatch fun m => { m with mPlayerMtx := false },
    main, .startState (c.mtch.mPlayers.values.map c.players), joined, roster⟩ rfl
  rw [hfree] at h8
  have h9 := h8.next (.thread 0)
    ⟨c.startedWith, main, .startBroadcast (c.mtch.mPlayers.values.map c.players), joined, roster⟩ rfl
  have h10 := h9.next (.thread 0) ⟨c.startedWith, main, .idle, joined,
    some (c.mtch.mPlayers.values.map c.players)⟩ rfl
  simp only [List.append_assoc, List.cons_append, List.nil_append] at h10
  refine ⟨_, h10, ?_⟩
  have hloop : ∀ x ∈ tr', x.2 ≠ .main ∧ x.1.ctx.mtch.mPlayers = c.mtch.mPlayers := fun x hx => by
    obtain ⟨hne, hctx⟩ := htr' x hx
    rw [hctx]
    exact ⟨hne, rfl⟩
  rw [List.forall_mem_cons, List.forall_mem_cons, List.forall_mem_cons, List.forall_mem_cons,
    List.forall_mem_cons, List.forall_mem_cons, List.forall_mem_append, List.forall_mem_cons,
    List.forall_mem_cons, List.forall_mem_cons]
  exact ⟨⟨by simp, rfl⟩, ⟨by simp, rfl⟩, ⟨by simp, rfl⟩, ⟨by simp, rfl⟩, ⟨by simp, rfl⟩, ⟨by simp, rfl⟩,
    hloop, ⟨by simp, rfl⟩, ⟨by simp, rfl⟩, ⟨by simp, rfl⟩, List.forall_mem_nil _⟩

end Alone

end Joining

end GameServer
