import GameServer.Match.Match

/-! Runs of one match: the calls of the match thread, the calls of the main
thread and the closing of a player's session, in any order. -/

namespace GameServer

open Lib

inductive MatchEvent where
  | threadInit (now : UInt64)
  | join (player : PlayerRef)
  | remove (player : PlayerRef)
  | submitCommand (user : PlayerRef) (data : Data)
  | command (authenticated : SessionRef → Bool) (userID : UserID) (buffer : List UInt8)
  | updatePlayers (now now' : UInt64)
  | sendOrientations (now now' : UInt64)
  | sendEvents
  | disconnect (player : PlayerRef)
  | endMatch

namespace MatchCtx

/-- A call that returns. `ThreadInit` runs once, on the thread that `Init` starts. -/
def Step (this : MatchRef) (serialize : Json → List UInt8) (c : MatchCtx) (e : MatchEvent)
    (c' : MatchCtx) : Prop :=
  match e with
  | .threadInit now => c.mtch.mMatchState = .none ∧ c' = c.threadInit now
  | .join p => ∃ r, c.joinPlayer this (some p) = .ok (r, c')
  | .remove p => ∃ r, c.removePlayer p = .ok (r, c')
  | .submitCommand user data => c' = c.submitMatchCommand user data
  | .command authenticated userID buffer =>
      ∃ out, c.executeNetCommand serialize authenticated userID buffer = .ok (c', out)
  | .updatePlayers now now' => c.updatePlayers now now' = .ok c'
  | .sendOrientations now now' => ∃ out, c.sendOrientationUpdates now now' = .ok (c', out)
  | .sendEvents => ∃ out, c.sendPlayerEvents = .ok (c', out)
  | .disconnect p => c' = c.setPlayer p (·.disconnected)
  | .endMatch => c' = c.endMatch

/-- A match as its constructor leaves it, next to players of any kind. -/
structure Init (c : MatchCtx) : Prop where
  state : c.mtch.mMatchState = .none
  mPlayers : c.mtch.mPlayers = OrdMap.empty
  mtx : c.mtch.mPlayerMtx = false
  queue : c.mtch.mCommandQueue = []

def system (this : MatchRef) (serialize : Json → List UInt8) : System MatchCtx MatchEvent :=
  ⟨Init, Step this serialize⟩

/-! ### What one call can do -/

/-- The match after a join that was let in. -/
def joined (this : MatchRef) (p : PlayerRef) (c : MatchCtx) : MatchCtx :=
  let mPlayers := c.mtch.mPlayers.insert (c.players p).getUserID p
  { mtch := { c.mtch with mPlayers := mPlayers }
    players := Function.update c.players p
      (((c.players p).setActiveMatch (some this)).setMatchInstanceID (UInt8.ofNat mPlayers.size)) }

/-- The match after a removal that found the player. -/
def removed (p : PlayerRef) (c : MatchCtx) : MatchCtx :=
  { mtch := { c.mtch with
      mPlayers := c.mtch.mPlayers.erase (c.players p).getUserID, mPlayerMtx := true }
    players := Function.update c.players p ((c.players p).setActiveMatch none) }

theorem joinPlayer_some (this : MatchRef) (p : PlayerRef) (c : MatchCtx) :
    c.joinPlayer this (some p) =
      if c.mtch.mMatchState ≠ .joinedWaiting then .ok (false, c)
      else if c.mtch.mPlayerMtx then .error .blocked
      else .ok (true, c.joined this p) := by
  have hid : ((c.players p).setActiveMatch (some this)).getUserID = (c.players p).getUserID := rfl
  unfold joinPlayer joined
  split_ifs
  · rfl
  · rfl
  · simp [setPlayer, setMatch, hid]

theorem removePlayer_eq (p : PlayerRef) (c : MatchCtx) :
    c.removePlayer p =
      if c.mtch.mPlayerMtx then .error .blocked
      else if c.hasPlayer (c.players p).getUserID then .ok (true, c.removed p)
      else .ok (false, c) := by
  have hid : ((c.players p).setActiveMatch none).getUserID = (c.players p).getUserID := rfl
  unfold removePlayer removed
  split_ifs
  · rfl
  · simp [setPlayer, setMatch, hid]
  · rfl

theorem step_join (this : MatchRef) (serialize : Json → List UInt8) {c : MatchCtx}
    (p : PlayerRef) (hs : c.mtch.mMatchState = .joinedWaiting) (hm : c.mtch.mPlayerMtx = false) :
    Step this serialize c (.join p) (c.joined this p) :=
  ⟨true, by simp [joinPlayer_some, hs, hm]⟩

theorem startMatch_ok {serialize : Json → List UInt8} {c c' : MatchCtx} {out : List Broadcast}
    (h : c.startMatch serialize = .ok (c', out)) :
    c' = c ∨ (c.mtch.mMatchState = .joinedWaiting ∧
      ∃ size, c' = c.setMatch fun m =>
        { m with mOrientationSendBufferSize := size, mMatchState := .started }) := by
  unfold startMatch at h
  dsimp only at h
  split_ifs at h with hs hm
  · cases h
    exact Or.inl rfl
  · cases h
    exact Or.inr ⟨by simpa using hs, _, rfl⟩

theorem updateOrientationNetCmd_ok {p : PlayerRef} {buffer : List UInt8} {c c' : MatchCtx}
    (h : c.updateOrientationNetCmd p buffer = .ok c') :
    ∃ l r, c' = c.setPlayer p fun x => (x.setLocation l).setRotation r := by
  unfold updateOrientationNetCmd at h
  dsimp only at h
  split_ifs at h
  cases h
  exact ⟨_, _, rfl⟩

theorem submitPlayerEvent_ok {authenticated : SessionRef → Bool} {p : PlayerRef}
    {cmd : OpCodes.PlayerEvents} {data : List UInt8} {c c' : MatchCtx}
    (h : c.submitPlayerEvent authenticated p cmd data = .ok c') :
    ∃ s, (c.players p).mSocketUser = some s ∧
      c' = if authenticated s then c.setPlayer p (·.addPlayerEvent ⟨cmd, data⟩) else c := by
  unfold submitPlayerEvent at h
  split at h
  · cases h
  · next s hs =>
    refine ⟨s, hs, ?_⟩
    split_ifs at h ⊢ with ha
    · cases h
      rfl
    · cases h
      rfl

/-- The event that a net command submits: its sender's player, the command byte
and the data. -/
def eventCommand (userID : UserID) (buffer : List UInt8) (c : MatchCtx) :
    Option (PlayerRef × OpCodes.PlayerEvents × List UInt8) :=
  match c.mtch.mPlayers.find? userID, buffer with
  | some p, subCommand :: eventCmd :: data =>
    match OpCodes.ServerMatch.ofByte subCommand with
    | .playerEvent => some (p, .ofByte eventCmd, data)
    | _ => none
  | _, _ => none

theorem eventCommand_sender {userID : UserID} {buffer : List UInt8} {c : MatchCtx} {p : PlayerRef}
    {cmd : OpCodes.PlayerEvents} {data : List UInt8}
    (h : c.eventCommand userID buffer = some (p, cmd, data)) :
    c.mtch.mPlayers.find? userID = some p := by
  unfold eventCommand at h
  split at h
  · next hf =>
    split at h
    · obtain ⟨rfl, -⟩ := Prod.mk.inj (Option.some.inj h)
      exact hf
    · cases h
  · cases h

/-- A command that submits an event does nothing else. -/
theorem executeNetCommand_of_event {serialize : Json → List UInt8}
    {authenticated : SessionRef → Bool} {userID : UserID} {buffer : List UInt8} {c : MatchCtx}
    {p : PlayerRef} {cmd : OpCodes.PlayerEvents} {data : List UInt8}
    (h : c.eventCommand userID buffer = some (p, cmd, data)) :
    c.executeNetCommand serialize authenticated userID buffer =
      c.submitPlayerEvent authenticated p cmd data >>= fun c => .ok (c, []) := by
  unfold eventCommand at h
  split at h
  · next q subCommand eventCmd rest hf =>
    split at h
    · next hs =>
      cases h
      unfold executeNetCommand
      rw [hf]
      dsimp only
      rw [BufferUtils.removeFront_one_cons, hs]
      dsimp only
      rw [BufferUtils.removeFront_one_cons]
    · cases h
  · cases h

theorem executeNetCommand_ok {serialize : Json → List UInt8} {authenticated : SessionRef → Bool}
    {userID : UserID} {buffer : List UInt8} {c c' : MatchCtx} {out : List Broadcast}
    (h : c.executeNetCommand serialize authenticated userID buffer = .ok (c', out)) :
    (∃ p cmd data, c.eventCommand userID buffer = some (p, cmd, data) ∧
      c.submitPlayerEvent authenticated p cmd data = .ok c') ∨
    (c.eventCommand userID buffer = none ∧
      (c' = c ∨ c.startMatch serialize = .ok (c', out) ∨
        ∃ p buff, c.updateOrientationNetCmd p buff = .ok c')) := by
  unfold executeNetCommand at h
  unfold eventCommand
  split at h
  · next hf =>
    cases h
    exact Or.inr ⟨by simp [hf], Or.inl rfl⟩
  · next p hf =>
    rw [hf]
    split at h
    · cases h
      exact Or.inr ⟨rfl, Or.inl rfl⟩
    · next subCommand rest =>
      rw [BufferUtils.removeFront_one_cons] at h
      dsimp only at h
      split at h
      · next hs =>
        refine Or.inr ⟨?_, Or.inr (Or.inl h)⟩
        cases rest <;> simp [hs]
      · next hs =>
        obtain ⟨c₁, hc, h⟩ := Exec.bind_eq_ok.mp h
        cases h
        refine Or.inr ⟨?_, Or.inr (Or.inr ⟨p, rest, hc⟩)⟩
        cases rest <;> simp [hs]
      · next hs =>
        split at h
        · cases h
          exact Or.inr ⟨rfl, Or.inl rfl⟩
        · next eventCmd data =>
          rw [BufferUtils.removeFront_one_cons] at h
          obtain ⟨c₁, hc, h⟩ := Exec.bind_eq_ok.mp h
          cases h
          exact Or.inl ⟨p, _, data, by simp [hs], hc⟩
      · next hs =>
        cases h
        refine Or.inr ⟨?_, Or.inl rfl⟩
        cases rest <;> simp [hs]

/-- The net command is `Debug_Start` from a player of the match. -/
def startCommand (userID : UserID) (buffer : List UInt8) (c : MatchCtx) : Prop :=
  (∃ p, c.mtch.mPlayers.find? userID = some p) ∧ ∃ rest, buffer = 0x01 :: rest

theorem executeNetCommand_of_start {serialize : Json → List UInt8}
    {authenticated : SessionRef → Bool} {userID : UserID} {buffer : List UInt8} {c : MatchCtx}
    (h : c.startCommand userID buffer) :
    c.executeNetCommand serialize authenticated userID buffer = c.startMatch serialize := by
  obtain ⟨⟨p, hf⟩, rest, rfl⟩ := h
  have hstart : OpCodes.ServerMatch.ofByte 0x01 = .debugStart := rfl
  unfold executeNetCommand
  rw [hf]
  dsimp only
  rw [hstart]

/-- Any other command broadcasts nothing and leaves the match object alone. -/
theorem executeNetCommand_of_not_start {serialize : Json → List UInt8}
    {authenticated : SessionRef → Bool} {userID : UserID} {buffer : List UInt8} {c c' : MatchCtx}
    {out : List Broadcast} (hn : ¬ c.startCommand userID buffer)
    (h : c.executeNetCommand serialize authenticated userID buffer = .ok (c', out)) :
    out = [] ∧ c'.mtch = c.mtch := by
  unfold executeNetCommand at h
  split at h
  · cases h
    exact ⟨rfl, rfl⟩
  · next p hf =>
    split at h
    · cases h
      exact ⟨rfl, rfl⟩
    · next subCommand rest =>
      dsimp only at h
      split at h
      · next hs =>
        refine absurd ⟨⟨p, hf⟩, rest, ?_⟩ hn
        unfold OpCodes.ServerMatch.ofByte at hs
        split_ifs at hs with h1
        rw [h1]
      · obtain ⟨c₁, hc, h⟩ := Exec.bind_eq_ok.mp h
        cases h
        obtain ⟨l, r, rfl⟩ := updateOrientationNetCmd_ok hc
        exact ⟨rfl, rfl⟩
      · split at h
        · cases h
          exact ⟨rfl, rfl⟩
        · obtain ⟨c₁, hc, h⟩ := Exec.bind_eq_ok.mp h
          cases h
          obtain ⟨s, -, rfl⟩ := submitPlayerEvent_ok hc
          refine ⟨rfl, ?_⟩
          split_ifs <;> rfl
      · cases h
        exact ⟨rfl, rfl⟩

theorem foldl_matchUpdate (now now' : UInt64) (ps : List PlayerRef) (c : MatchCtx) :
    (ps.foldl (fun c p => c.setPlayer p (·.matchUpdate now now')) c).mtch = c.mtch ∧
    ∀ {α : Type} (g : Player → α), (∀ p, g (p.matchUpdate now now') = g p) →
      ∀ q, g ((ps.foldl (fun c p => c.setPlayer p (·.matchUpdate now now')) c).players q) =
        g (c.players q) := by
  induction ps generalizing c with
  | nil => exact ⟨rfl, fun _ _ _ => rfl⟩
  | cons p ps ih =>
    rw [List.foldl_cons]
    obtain ⟨hm, hg⟩ := ih (c.setPlayer p (·.matchUpdate now now'))
    refine ⟨hm, fun g hkeep q => ?_⟩
    rw [hg g hkeep q, setPlayer_field g c p _ hkeep]

theorem updatePlayers_ok {now now' : UInt64} {c c' : MatchCtx}
    (h : c.updatePlayers now now' = .ok c') :
    c'.mtch = c.mtch ∧ ∀ {α : Type} (g : Player → α),
      (∀ p, g (p.matchUpdate now now') = g p) → ∀ q, g (c'.players q) = g (c.players q) := by
  unfold updatePlayers at h
  split_ifs at h
  cases h
  exact foldl_matchUpdate now now' _ c

theorem sendOrientationUpdates_ok {now now' : UInt64} {c c' : MatchCtx} {out : List Broadcast}
    (h : c.sendOrientationUpdates now now' = .ok (c', out)) :
    ∃ buffer last, c' = c.setMatch fun m =>
      { m with mOrientationSendBuffer := buffer, mLastOrientationUpdate := last } := by
  have hc : c = c.setMatch fun m =>
      { m with mOrientationSendBuffer := m.mOrientationSendBuffer,
               mLastOrientationUpdate := m.mLastOrientationUpdate } := rfl
  unfold sendOrientationUpdates at h
  split at h
  · cases h
    exact ⟨_, _, hc⟩
  · split at h
    · obtain ⟨buffer, -, h⟩ := Exec.bind_eq_ok.mp h
      split at h
      · cases h
      · obtain ⟨buffer, -, h⟩ := Exec.bind_eq_ok.mp h
        cases h
        exact ⟨_, _, rfl⟩
    · cases h
      exact ⟨_, _, hc⟩

theorem drainEvents_field {α : Type} (g : Player → α)
    (hg : ∀ p : Player, g { p with mActiveEvents := [] } = g p) (ps : List PlayerRef)
    (players : PlayerRef → Player) (buff : List UInt8) (num : UInt8) (q : PlayerRef) :
    g ((drainEvents ps players buff num).1 q) = g (players q) := by
  induction ps generalizing players buff num with
  | nil => rfl
  | cons p ps ih =>
    rw [drainEvents, ih, Function.update_apply]
    split_ifs with h
    · rw [h]
      exact hg _
    · rfl

theorem sendPlayerEvents_ok {c c' : MatchCtx} {out : List Broadcast}
    (h : c.sendPlayerEvents = .ok (c', out)) :
    c' = c ∨ (c.mtch.mMatchState = .started ∧ c.mtch.mPlayerMtx = false ∧
      c' = { c with players := (drainEvents c.mtch.mPlayers.values c.players [] 0).1 }) := by
  unfold sendPlayerEvents at h
  dsimp only at h
  split_ifs at h with hs hm
  · cases h
    exact Or.inl rfl
  · cases h
    exact Or.inr ⟨by simpa using hs, by simpa using hm, rfl⟩
  · cases h
    exact Or.inr ⟨by simpa using hs, by simpa using hm, rfl⟩

/-! ### What a step keeps -/

/-- Roster, mutex, UserIDs and instance ids are as they were. -/
structure SameRoster (c c' : MatchCtx) : Prop where
  mPlayers : c'.mtch.mPlayers = c.mtch.mPlayers
  mtx : c'.mtch.mPlayerMtx = c.mtch.mPlayerMtx
  userID : ∀ q, (c'.players q).getUserID = (c.players q).getUserID
  instanceId : ∀ q, (c'.players q).mMatchInstanceId = (c.players q).mMatchInstanceId

theorem SameRoster.refl (c : MatchCtx) : SameRoster c c :=
  ⟨rfl, rfl, fun _ => rfl, fun _ => rfl⟩

theorem SameRoster.trans {c₁ c₂ c₃ : MatchCtx} (h : SameRoster c₁ c₂) (h' : SameRoster c₂ c₃) :
    SameRoster c₁ c₃ :=
  ⟨h'.mPlayers.trans h.mPlayers, h'.mtx.trans h.mtx, fun q => (h'.userID q).trans (h.userID q),
    fun q => (h'.instanceId q).trans (h.instanceId q)⟩

/-- The match thread stores nothing that `g` reads of a player. -/
def Untouched {α : Type} (g : Player → α) : Prop :=
  ∀ (x : Player) l r ev t,
    g { x with mLocation := l, mRotation := r, mActiveEvents := ev, mSentLastJump := t } = g x

/-- The roster, the mutex and what the match thread leaves alone are as they were. -/
structure Quiet (c c' : MatchCtx) : Prop where
  mPlayers : c'.mtch.mPlayers = c.mtch.mPlayers
  mtx : c'.mtch.mPlayerMtx = c.mtch.mPlayerMtx
  field : ∀ {α : Type} (g : Player → α), Untouched g → ∀ q, g (c'.players q) = g (c.players q)

theorem Quiet.sameRoster {c c' : MatchCtx} (h : Quiet c c') : SameRoster c c' :=
  ⟨h.mPlayers, h.mtx, h.field _ fun _ _ _ _ _ => rfl, h.field _ fun _ _ _ _ _ => rfl⟩

theorem Quiet.refl (c : MatchCtx) : Quiet c c := ⟨rfl, rfl, fun _ _ _ => rfl⟩

theorem quiet_setMatch (c : MatchCtx) (f : Match → Match) (hp : (f c.mtch).mPlayers = c.mtch.mPlayers)
    (hm : (f c.mtch).mPlayerMtx = c.mtch.mPlayerMtx) : Quiet c (c.setMatch f) :=
  ⟨hp, hm, fun _ _ _ => rfl⟩

theorem addPlayerEvent_field {α : Type} (g : Player → α)
    (hg : ∀ (p : Player) l, g { p with mActiveEvents := l } = g p) (p : Player) (e : PlayerEvent) :
    g (p.addPlayerEvent e) = g p := by
  unfold Player.addPlayerEvent
  split
  · rfl
  · exact hg p _
  · rfl

theorem matchUpdate_field {α : Type} (g : Player → α)
    (hg : ∀ (p : Player) t, g { p with mSentLastJump := t } = g p) (p : Player)
    (now now' : UInt64) : g (p.matchUpdate now now') = g p := by
  unfold Player.matchUpdate
  split_ifs
  · exact hg p _
  · rfl
  · rfl

theorem quiet_command {serialize : Json → List UInt8} {authenticated : SessionRef → Bool}
    {userID : UserID} {buffer : List UInt8} {c c' : MatchCtx} {out : List Broadcast}
    (h : c.executeNetCommand serialize authenticated userID buffer = .ok (c', out)) :
    Quiet c c' := by
  rcases executeNetCommand_ok h with ⟨p, cmd, data, -, h⟩ | ⟨-, rfl | h | ⟨p, buff, h⟩⟩
  · obtain ⟨s, -, rfl⟩ := submitPlayerEvent_ok h
    split_ifs
    · refine ⟨rfl, rfl, fun g hg => setPlayer_field g c p _ fun x => ?_⟩
      exact addPlayerEvent_field g (fun y l => hg y _ _ l _) x _
    · exact .refl c
  · exact .refl c'
  · rcases startMatch_ok h with rfl | ⟨-, size, rfl⟩
    · exact .refl c'
    · exact quiet_setMatch c _ rfl rfl
  · obtain ⟨l, r, rfl⟩ := updateOrientationNetCmd_ok h
    exact ⟨rfl, rfl, fun g hg => setPlayer_field g c p _ fun x => hg x l r _ _⟩

theorem quiet_updatePlayers {now now' : UInt64} {c c' : MatchCtx}
    (h : c.updatePlayers now now' = .ok c') : Quiet c c' := by
  obtain ⟨hm, hfield⟩ := updatePlayers_ok h
  refine ⟨by rw [hm], by rw [hm], fun g hg => hfield g fun p => ?_⟩
  exact matchUpdate_field g (fun y t => hg y _ _ _ t) p now now'

theorem quiet_sendOrientationUpdates {now now' : UInt64} {c c' : MatchCtx} {out : List Broadcast}
    (h : c.sendOrientationUpdates now now' = .ok (c', out)) : Quiet c c' := by
  obtain ⟨buffer, last, rfl⟩ := sendOrientationUpdates_ok h
  exact quiet_setMatch c _ rfl rfl

theorem quiet_sendPlayerEvents {c c' : MatchCtx} {out : List Broadcast}
    (h : c.sendPlayerEvents = .ok (c', out)) : Quiet c c' := by
  rcases sendPlayerEvents_ok h with rfl | ⟨-, -, rfl⟩
  · exact .refl c'
  · exact ⟨rfl, rfl, fun g hg => drainEvents_field g (fun y => hg y _ _ _ _) _ _ _ _⟩

/-- Only joins, removals and disconnects do more than the match thread. -/
theorem quiet_step {this : MatchRef} {serialize : Json → List UInt8} {c c' : MatchCtx}
    {e : MatchEvent} (h : Step this serialize c e c') (hj : ∀ p, e ≠ .join p)
    (hr : ∀ p, e ≠ .remove p) (hd : ∀ p, e ≠ .disconnect p) : Quiet c c' := by
  cases e with
  | join p => exact absurd rfl (hj p)
  | remove p => exact absurd rfl (hr p)
  | disconnect p => exact absurd rfl (hd p)
  | threadInit now =>
    obtain ⟨-, rfl⟩ := h
    exact quiet_setMatch c _ rfl rfl
  | submitCommand user data =>
    cases h
    exact quiet_setMatch c _ rfl rfl
  | command authenticated userID buffer =>
    obtain ⟨out, h⟩ := h
    exact quiet_command h
  | updatePlayers now now' => exact quiet_updatePlayers h
  | sendOrientations now now' =>
    obtain ⟨out, h⟩ := h
    exact quiet_sendOrientationUpdates h
  | sendEvents =>
    obtain ⟨out, h⟩ := h
    exact quiet_sendPlayerEvents h
  | endMatch =>
    cases h
    exact quiet_setMatch c _ rfl rfl

theorem sameRoster_step {this : MatchRef} {serialize : Json → List UInt8} {c c' : MatchCtx}
    {e : MatchEvent} (h : Step this serialize c e c') (hj : ∀ p, e ≠ .join p)
    (hr : ∀ p, e ≠ .remove p) : SameRoster c c' := by
  by_cases hd : ∀ p, e ≠ .disconnect p
  · exact (quiet_step h hj hr hd).sameRoster
  · obtain ⟨p, rfl⟩ := not_forall_not.mp hd
    cases h
    exact ⟨rfl, rfl, setPlayer_field Player.getUserID c p _ fun _ => rfl,
      setPlayer_field Player.mMatchInstanceId c p _ fun _ => rfl⟩

/-- A step lets a player in, takes a player out, or keeps the roster. -/
theorem step_cases {this : MatchRef} {serialize : Json → List UInt8} {c c' : MatchCtx}
    {e : MatchEvent} (h : Step this serialize c e c') :
    (∃ p, e = .join p ∧ c.mtch.mPlayerMtx = false ∧ c.mtch.mMatchState = .joinedWaiting ∧
      c' = c.joined this p) ∨
    (∃ p, e = .remove p ∧ c' = c.removed p) ∨
    (SameRoster c c' ∧ ∀ p, e = .join p → c.mtch.mMatchState ≠ .joinedWaiting) := by
  cases e with
  | join p =>
    obtain ⟨r, h⟩ := h
    rw [joinPlayer_some] at h
    split_ifs at h with hs hm
    · cases h
      exact Or.inr (Or.inr ⟨.refl c, fun _ _ => hs⟩)
    · cases h
      exact Or.inl ⟨p, rfl, by simpa using hm, by simpa using hs, rfl⟩
  | remove p =>
    obtain ⟨r, h⟩ := h
    rw [removePlayer_eq] at h
    split_ifs at h
    · cases h
      exact Or.inr (Or.inl ⟨p, rfl, rfl⟩)
    · cases h
      exact Or.inr (Or.inr ⟨.refl c, nofun⟩)
  | _ => exact Or.inr (Or.inr ⟨sameRoster_step h nofun nofun, nofun⟩)

/-! ### The phases of a match -/

/-- The match starts in this step. -/
def Starts (c : MatchCtx) (e : MatchEvent) : Prop :=
  ∃ authenticated userID buffer, e = .command authenticated userID buffer ∧
    c.startCommand userID buffer ∧ c.mtch.mMatchState = .joinedWaiting ∧ c.mtch.mPlayerMtx = false

/-- The match after a start. -/
def startedWith (c : MatchCtx) : MatchCtx :=
  c.setMatch fun m => { m with
    mOrientationSendBufferSize :=
      (Player.orientationSize + 1) * (UInt8.ofNat m.mPlayers.size).toNat + 1
    mMatchState := .started }

theorem step_start (this : MatchRef) (serialize : Json → List UInt8)
    (authenticated : SessionRef → Bool) {c : MatchCtx} {userID : UserID} {buffer : List UInt8}
    (hcmd : c.startCommand userID buffer) (hs : c.mtch.mMatchState = .joinedWaiting)
    (hm : c.mtch.mPlayerMtx = false) :
    Step this serialize c (.command authenticated userID buffer) c.startedWith := by
  refine ⟨[⟨.startMatch, serialize c.roster ++ [0], .tcp⟩], ?_⟩
  rw [executeNetCommand_of_start hcmd, startMatch, if_neg (not_not.mpr hs)]
  dsimp only
  rw [if_neg (by simp [hm])]
  rfl

/-- The state of the match and the size of its buffer are as they were. -/
structure SamePhase (c c' : MatchCtx) : Prop where
  state : c'.mtch.mMatchState = c.mtch.mMatchState
  bufferSize : c'.mtch.mOrientationSendBufferSize = c.mtch.mOrientationSendBufferSize

/-- A command starts the match, or leaves its phase alone. -/
theorem command_phase {serialize : Json → List UInt8} {authenticated : SessionRef → Bool}
    {userID : UserID} {buffer : List UInt8} {c c' : MatchCtx} {out : List Broadcast}
    (h : c.executeNetCommand serialize authenticated userID buffer = .ok (c', out)) :
    (c.Starts (.command authenticated userID buffer) ∧ c' = c.startedWith) ∨ SamePhase c c' := by
  by_cases hcmd : c.startCommand userID buffer
  · rw [executeNetCommand_of_start hcmd] at h
    unfold startMatch at h
    dsimp only at h
    split_ifs at h with hs hm
    · cases h
      exact Or.inr ⟨rfl, rfl⟩
    · cases h
      exact Or.inl ⟨⟨_, _, _, rfl, hcmd, by simpa using hs, by simpa using hm⟩, rfl⟩
  · obtain ⟨-, hm⟩ := executeNetCommand_of_not_start hcmd h
    exact Or.inr ⟨by rw [hm], by rw [hm]⟩

/-- Only the thread of the match, its end and the commands change the phase. -/
theorem samePhase_step {this : MatchRef} {serialize : Json → List UInt8} {c c' : MatchCtx}
    {e : MatchEvent} (h : Step this serialize c e c') (ht : ∀ now, e ≠ .threadInit now)
    (hc : ∀ authenticated userID buffer, e ≠ .command authenticated userID buffer)
    (he : e ≠ .endMatch) : SamePhase c c' := by
  cases e with
  | threadInit now => exact absurd rfl (ht now)
  | command authenticated userID buffer => exact absurd rfl (hc authenticated userID buffer)
  | endMatch => exact absurd rfl he
  | join p =>
    obtain ⟨r, h⟩ := h
    rw [joinPlayer_some] at h
    split_ifs at h
    · cases h
      exact ⟨rfl, rfl⟩
    · cases h
      exact ⟨rfl, rfl⟩
  | remove p =>
    obtain ⟨r, h⟩ := h
    rw [removePlayer_eq] at h
    split_ifs at h
    · cases h
      exact ⟨rfl, rfl⟩
    · cases h
      exact ⟨rfl, rfl⟩
  | updatePlayers now now' =>
    have hm := (updatePlayers_ok h).1
    exact ⟨by rw [hm], by rw [hm]⟩
  | sendOrientations now now' =>
    obtain ⟨out, h⟩ := h
    obtain ⟨buffer, last, rfl⟩ := sendOrientationUpdates_ok h
    exact ⟨rfl, rfl⟩
  | sendEvents =>
    obtain ⟨out, h⟩ := h
    rcases sendPlayerEvents_ok h with rfl | ⟨-, -, rfl⟩
    · exact ⟨rfl, rfl⟩
    · exact ⟨rfl, rfl⟩
  | submitCommand user data | disconnect p =>
    cases h
    exact ⟨rfl, rfl⟩

/-- A step starts the match, is the first or the last of its thread, or leaves its
phase alone. -/
theorem step_phase {this : MatchRef} {serialize : Json → List UInt8} {c c' : MatchCtx}
    {e : MatchEvent} (h : Step this serialize c e c') :
    (c.Starts e ∧ c' = c.startedWith) ∨
    (c.mtch.mMatchState = .none ∧ c'.mtch.mMatchState = .joinedWaiting) ∨
    c'.mtch.mMatchState = .ended ∨ SamePhase c c' := by
  cases e with
  | threadInit now =>
    obtain ⟨hs, rfl⟩ := h
    exact Or.inr (Or.inl ⟨hs, rfl⟩)
  | command authenticated userID buffer =>
    obtain ⟨out, h⟩ := h
    rcases command_phase h with hstart | hsame
    · exact Or.inl hstart
    · exact Or.inr (Or.inr (Or.inr hsame))
  | endMatch =>
    cases h
    exact Or.inr (Or.inr (Or.inl rfl))
  | _ => exact Or.inr (Or.inr (Or.inr (samePhase_step h nofun nofun nofun)))

/-! ### Every entry is stored under its player's UserID -/

def Keyed (c : MatchCtx) : Prop :=
  ∀ e ∈ c.mtch.mPlayers.entries, (c.players e.2).getUserID = e.1

/-- A player that is stored under another UserID is another object. -/
theorem Keyed.ref_ne {c : MatchCtx} (hc : c.Keyed) {p : PlayerRef} {e : UserID × PlayerRef}
    (he : e ∈ (c.mtch.mPlayers.erase (c.players p).getUserID).entries) : e.2 ≠ p := by
  obtain ⟨hmem, hne⟩ := OrdMap.mem_erase.mp he
  intro heq
  apply hne
  rw [← hc e hmem, heq]

theorem Keyed.values_nodup {c : MatchCtx} (hc : c.Keyed) : c.mtch.mPlayers.values.Nodup :=
  OrdMap.values_nodup (fun p => (c.players p).getUserID) hc

section Joined

variable {c : MatchCtx} (this : MatchRef) (p : PlayerRef)

theorem joined_players_ne {q : PlayerRef} (h : q ≠ p) :
    (c.joined this p).players q = c.players q :=
  Function.update_of_ne h ..

theorem joined_players_self : (c.joined this p).players p =
    ((c.players p).setActiveMatch (some this)).setMatchInstanceID
      (UInt8.ofNat (c.joined this p).mtch.mPlayers.size) :=
  Function.update_self ..

theorem joined_field {α : Type} (g : Player → α)
    (hg : ∀ (x : Player) m id, g { x with mActiveMatch := m, mMatchInstanceId := id } = g x)
    (q : PlayerRef) : g ((c.joined this p).players q) = g (c.players q) :=
  setPlayer_field g c p _ (fun x => hg x _ _) q

theorem Keyed.joined (hc : c.Keyed) : (c.joined this p).Keyed := by
  intro e he
  rcases OrdMap.mem_insert.mp he with rfl | he
  · rw [joined_players_self]
    rfl
  · rw [joined_players_ne this p (hc.ref_ne (OrdMap.mem_erase.mpr he))]
    exact hc e he.1

end Joined

theorem removed_field {α : Type} (g : Player → α)
    (hg : ∀ (p : Player) m, g { p with mActiveMatch := m } = g p) (c : MatchCtx) (p q : PlayerRef) :
    g ((c.removed p).players q) = g (c.players q) :=
  setPlayer_field g c p (·.setActiveMatch none) (fun x => hg x none) q

theorem Keyed.removed {c : MatchCtx} (hc : c.Keyed) (p : PlayerRef) : (c.removed p).Keyed := by
  intro e he
  rw [removed_field Player.getUserID (fun _ _ => rfl)]
  exact hc e (OrdMap.mem_erase.mp he).1

theorem SameRoster.keyed {c c' : MatchCtx} (h : SameRoster c c') (hc : c.Keyed) : c'.Keyed := by
  intro e he
  rw [h.mPlayers] at he
  rw [h.userID, hc e he]

theorem Init.keyed {c : MatchCtx} (h : c.Init) : c.Keyed := by
  intro e he
  rw [h.mPlayers] at he
  cases he

theorem step_keyed {this : MatchRef} {serialize : Json → List UInt8} {c c' : MatchCtx}
    {e : MatchEvent} (hc : c.Keyed) (h : Step this serialize c e c') : c'.Keyed := by
  rcases step_cases h with ⟨p, rfl, -, -, rfl⟩ | ⟨p, rfl, rfl⟩ | ⟨hsame, -⟩
  · exact hc.joined this p
  · exact hc.removed p
  · exact hsame.keyed hc

theorem exec_keyed {this : MatchRef} {serialize : Json → List UInt8}
    {tr : List (MatchCtx × MatchEvent)} {c : MatchCtx} (h : (system this serialize).Exec tr c) :
    c.Keyed :=
  h.inv Keyed (fun _ => Init.keyed) fun _ _ _ => step_keyed

/-! ### A match to try runs on -/

/-- Player object `p` of `UserID` `p + 1`, on session `p`. -/
def samplePlayer (p : PlayerRef) : Player :=
  ⟨true, some p, [p], ⟨"", "", UInt32.ofNat (p + 1), 0⟩, 0, [], none, ⟨0, 0, 0⟩, ⟨0, 0, 0, 0⟩, 0⟩

def sampleMatch : MatchCtx :=
  ⟨⟨"m", 1, OrdMap.empty, false, [], [], .none, 0, fun _ => 0, 0, false⟩, samplePlayer⟩

def waitingMatch : MatchCtx := sampleMatch.threadInit 0

theorem waitingMatch_exec (this : MatchRef) (serialize : Json → List UInt8) :
    (system this serialize).Exec [(sampleMatch, .threadInit 0)] waitingMatch := by
  have h0 : (system this serialize).Exec [] sampleMatch := .nil (.mk rfl rfl rfl rfl)
  exact h0.next (.threadInit 0) waitingMatch (And.intro rfl rfl)

end MatchCtx

end GameServer
