import GameServer.Lib.Announcement
import GameServer.Match.FrameSize
import GameServer.Match.OrientationRelay

/-! What a match sends to its players. The first message to a player is its one
`Start_Match`, and the roster of that lists every instance id in the messages behind it. -/

namespace GameServer

open Lib

/-! ### Messages -/

/-- A message that `Send` of a player passed on to a connected session. -/
structure Message where
  player : PlayerRef
  broadcast : Broadcast
  /-- the match that the message was encoded from; read by proofs only -/
  source : MatchCtx

namespace Message

def isStart (m : Message) : Bool := m.broadcast.cmd = .startMatch

/-- The entries that the encoder writes: an instance id, and the bytes behind it. -/
def written (m : Message) : List (UInt8 × List UInt8) :=
  match m.broadcast.cmd with
  | .updateOrientations => m.source.mtch.mPlayers.values.map fun p =>
      ((m.source.players p).mMatchInstanceId, (m.source.players p).serializeOrientation)
  | .playerEvents => m.source.mtch.mPlayers.values.flatMap fun p =>
      (m.source.players p).sentEntries.map fun e =>
        (e.instanceId, e.command :: UInt8.ofNat e.data.length :: e.data)
  | _ => []

/-- The data is a count and these entries. -/
def Encoded (m : Message) : Prop :=
  ∃ count, m.broadcast.data = count :: m.written.flatMap fun e => e.1 :: e.2

end Message

/-- The `players` of a roster have an entry with this instance id. -/
def Lists (roster : Json) (id : UInt8) : Prop :=
  ∃ members players entry, roster = .object members ∧
    members.lookup "players" = some (.array players) ∧ .object entry ∈ players ∧
    entry.lookup "Instance_ID" = some (.uint64 id.toUInt64)

theorem lists_roster {c : MatchCtx} {p : PlayerRef} (hp : p ∈ c.mtch.mPlayers.values) :
    Lists c.roster (c.players p).mMatchInstanceId :=
  ⟨_, _, _, rfl, rfl, List.mem_map.mpr ⟨p, hp, rfl⟩, rfl⟩

/-! ### Runs of a match with its messages -/

/-- A match, the `Connected` of the sessions and what was sent. -/
structure MatchMessages where
  ctx : MatchCtx
  connected : SessionRef → Bool
  sent : List Message

namespace MatchMessages

open MatchCtx

/-- `Send` of a player reaches its session, and that is connected. -/
def sends (x : MatchMessages) (p : PlayerRef) : Bool :=
  (x.ctx.players p).connected && (x.ctx.players p).mSocketUser.any x.connected

/-- `BroadcastCommand`. -/
def broadcastCommand (x : MatchMessages) (b : Broadcast) : List Message :=
  (x.ctx.mtch.mPlayers.values.filter x.sends).map fun p => ⟨p, b, x.ctx⟩

/-- After a call that broadcast `out`; a call changes neither roster nor sessions. -/
def called (x : MatchMessages) (c : MatchCtx) (out : List Broadcast) : MatchMessages :=
  { x with ctx := c, sent := x.sent ++ out.flatMap x.broadcastCommand }

def call (x : MatchMessages) (r : Exec (MatchCtx × List Broadcast)) : Exec MatchMessages := do
  let (c, out) ← r
  .ok (x.called c out)

/-- The loop of `ProcessNetCommands`. -/
def executeCommands (serialize : Json → List UInt8) (authenticated : SessionRef → Bool) :
    List MatchCommand → MatchMessages → Exec MatchMessages
  | [], x => .ok x
  | cmd :: rest, x => do
    let x ← x.call (x.ctx.executeNetCommand serialize authenticated cmd.user cmd.data.buffer)
    executeCommands serialize authenticated rest x

def processNetCommands (serialize : Json → List UInt8) (authenticated : SessionRef → Bool)
    (x : MatchMessages) : Exec MatchMessages :=
  executeCommands serialize authenticated x.ctx.mtch.mCommandQueue
    { x with ctx := x.ctx.setMatch fun m => { m with mCommandQueue := [] } }

def asynUpdate (serialize : Json → List UInt8) (authenticated : SessionRef → Bool) (t : TickTimes)
    (x : MatchMessages) : Exec MatchMessages := do
  let x ← x.processNetCommands serialize authenticated
  let c ← x.ctx.updatePlayers t.updatePlayers.1 t.updatePlayers.2
  let x := { x with ctx := c }
  let x ← x.call (x.ctx.sendOrientationUpdates t.sendOrientations.1 t.sendOrientations.2)
  x.call x.ctx.sendPlayerEvents

inductive Event where
  | threadInit (now : UInt64)
  | join (player : PlayerRef)
  | submitCommand (user : PlayerRef) (data : Data)
  /-- `Close` of a session, whose `User` locks to `user` -/
  | close (socketUser : SessionRef) (user : Option PlayerRef)
  | asynUpdate (authenticated : SessionRef → Bool) (t : TickTimes)

def close (x : MatchMessages) (socketUser : SessionRef) (user : Option PlayerRef) : MatchMessages :=
  if x.connected socketUser then
    let x := { x with connected := Function.update x.connected socketUser false }
    match user with
    | none => x
    | some p => { x with ctx := x.ctx.setPlayer p (·.disconnected) }
  else x

/-- An operation that returns. -/
def Step (this : MatchRef) (serialize : Json → List UInt8) (x : MatchMessages) (e : Event)
    (x' : MatchMessages) : Prop :=
  match e with
  | .threadInit now => x.ctx.mtch.mMatchState = .none ∧ x' = { x with ctx := x.ctx.threadInit now }
  | .join p => ∃ r c, x.ctx.joinPlayer this (some p) = .ok (r, c) ∧ x' = { x with ctx := c }
  | .submitCommand user data => x' = { x with ctx := x.ctx.submitMatchCommand user data }
  | .close socketUser user => x' = x.close socketUser user
  | .asynUpdate authenticated t => x.asynUpdate serialize authenticated t = .ok x'

structure Init (x : MatchMessages) : Prop where
  ctx : x.ctx.Init
  sent : x.sent = []

def system (this : MatchRef) (serialize : Json → List UInt8) : System MatchMessages Event :=
  ⟨Init, Step this serialize⟩

variable {x x' : MatchMessages} {c : MatchCtx}

theorem call_eq_ok {r : Exec (MatchCtx × List Broadcast)} (h : x.call r = .ok x') :
    ∃ c out, r = .ok (c, out) ∧ x' = x.called c out := by
  obtain ⟨⟨c, out⟩, hr, h⟩ := Exec.bind_eq_ok.mp h
  cases h
  exact ⟨c, out, hr, rfl⟩

theorem called_nil (x : MatchMessages) (c : MatchCtx) : x.called c [] = { x with ctx := c } := by
  simp [called]

/-! ### A frame -/

/-- The match thread keeps every connection. -/
theorem sends_of_quiet (h : Quiet x.ctx c) (sent : List Message) (p : PlayerRef) :
    sends { x with ctx := c, sent := sent } p = x.sends p := by
  have hconnected : (c.players p).connected = (x.ctx.players p).connected :=
    h.field Player.connected (fun _ _ _ _ _ => rfl) p
  have hsocket : (c.players p).mSocketUser = (x.ctx.players p).mSocketUser :=
    h.field Player.mSocketUser (fun _ _ _ _ _ => rfl) p
  simp only [sends, hconnected, hsocket]

/-- What was broadcast to a player. -/
def broadcastsTo (p : PlayerRef) (sent : List Message) : List Broadcast :=
  (sent.filter fun m => m.player = p).map Message.broadcast

theorem broadcastsTo_append (p : PlayerRef) (l l' : List Message) :
    broadcastsTo p (l ++ l') = broadcastsTo p l ++ broadcastsTo p l' := by
  simp [broadcastsTo]

/-- Each player of the match that can be sent something gets one copy. -/
theorem broadcastsTo_broadcastCommand (hn : x.ctx.mtch.mPlayers.values.Nodup) {p : PlayerRef}
    (hp : p ∈ x.ctx.mtch.mPlayers.values) (hs : x.sends p = true) (b : Broadcast) :
    broadcastsTo p (x.broadcastCommand b) = [b] := by
  have hone : (x.ctx.mtch.mPlayers.values.filter x.sends).count p = 1 :=
    List.count_eq_one_of_mem (hn.filter _) (List.mem_filter.mpr ⟨hp, hs⟩)
  have hsingle : ((x.ctx.mtch.mPlayers.values.filter x.sends).filter fun q => q = p) = [p] := by
    rw [List.filter_eq, hone]
    rfl
  simp only [broadcastsTo, broadcastCommand, List.filter_map, List.map_map]
  exact congrArg (List.map _) hsingle

/-- Between `x` and `x'` the players that can be sent something were sent `out`. -/
structure Sends (out : List Broadcast) (x x' : MatchMessages) : Prop extends
    SameRoster x.ctx x'.ctx where
  sends : ∀ p, x'.sends p = x.sends p
  out : ∀ p ∈ x.ctx.mtch.mPlayers.values, x.sends p = true →
    broadcastsTo p x'.sent = broadcastsTo p x.sent ++ out

theorem Sends.trans {out out' : List Broadcast} {x₁ x₂ x₃ : MatchMessages} (h : Sends out x₁ x₂)
    (h' : Sends out' x₂ x₃) : Sends (out ++ out') x₁ x₃ := by
  refine ⟨h.toSameRoster.trans h'.toSameRoster, fun p => (h'.sends p).trans (h.sends p),
    fun p hp hs => ?_⟩
  have hp₂ : p ∈ x₂.ctx.mtch.mPlayers.values := by
    rw [h.mPlayers]
    exact hp
  rw [h'.out p hp₂ ((h.sends p).trans hs), h.out p hp hs, List.append_assoc]

theorem sends_called (hk : x.ctx.Keyed) (hq : Quiet x.ctx c) (out : List Broadcast) :
    Sends out x (x.called c out) := by
  refine ⟨hq.sameRoster, sends_of_quiet hq _, fun p hp hs => ?_⟩
  have hout : broadcastsTo p (out.flatMap x.broadcastCommand) = out := by
    induction out with
    | nil => rfl
    | cons b out ih =>
      rw [List.flatMap_cons, broadcastsTo_append, ih,
        broadcastsTo_broadcastCommand hk.values_nodup hp hs]
      rfl
  rw [called, broadcastsTo_append, hout]

theorem sends_nil (hq : Quiet x.ctx c) : Sends [] x { x with ctx := c } :=
  ⟨hq.sameRoster, sends_of_quiet hq _, fun _ _ _ => (List.append_nil _).symm⟩

theorem executeCommands_ctx {serialize : Json → List UInt8} {authenticated : SessionRef → Bool}
    {cmds : List MatchCommand} (hk : x.ctx.Keyed)
    (h : executeCommands serialize authenticated cmds x = .ok x') :
    ∃ out, MatchCtx.executeCommands serialize authenticated cmds x.ctx = .ok (x'.ctx, out) ∧
      Sends out x x' := by
  induction cmds generalizing x with
  | nil =>
    cases h
    exact ⟨[], rfl, sends_nil (.refl _)⟩
  | cons cmd cmds ih =>
    obtain ⟨x₁, hcall, h⟩ := Exec.bind_eq_ok.mp h
    obtain ⟨c, out, hr, rfl⟩ := call_eq_ok hcall
    have hfirst := sends_called hk (quiet_command hr) out
    obtain ⟨out', hrest, hsends⟩ := ih (hfirst.toSameRoster.keyed hk) h
    refine ⟨out ++ out', ?_, hfirst.trans hsends⟩
    exact Exec.bind_eq_ok.mpr ⟨_, hr, Exec.bind_eq_ok.mpr ⟨_, hrest, rfl⟩⟩

theorem processNetCommands_ctx {serialize : Json → List UInt8}
    {authenticated : SessionRef → Bool} (hk : x.ctx.Keyed)
    (h : x.processNetCommands serialize authenticated = .ok x') :
    ∃ out, x.ctx.processNetCommands serialize authenticated = .ok (x'.ctx, out) ∧ Sends out x x' := by
  have hq : Quiet x.ctx (x.ctx.setMatch fun m => { m with mCommandQueue := [] }) :=
    quiet_setMatch _ _ rfl rfl
  obtain ⟨out, hloop, hsends⟩ := executeCommands_ctx
    (x := { x with ctx := x.ctx.setMatch fun m => { m with mCommandQueue := [] } })
    (hq.sameRoster.keyed hk) h
  exact ⟨out, hloop, (sends_nil hq).trans hsends⟩

/-- A frame is the frame of the match, and what that broadcasts is sent to every player
that can be sent something, in its order. -/
theorem asynUpdate_ctx {serialize : Json → List UInt8} {authenticated : SessionRef → Bool}
    {t : TickTimes} (hk : x.ctx.Keyed) (h : x.asynUpdate serialize authenticated t = .ok x') :
    ∃ out, x.ctx.asynUpdate serialize authenticated t = .ok (x'.ctx, out) ∧ Sends out x x' := by
  obtain ⟨x₁, hcommands, h⟩ := Exec.bind_eq_ok.mp h
  obtain ⟨c, hplayers, h⟩ := Exec.bind_eq_ok.mp h
  obtain ⟨x₂, horientations, hevents⟩ := Exec.bind_eq_ok.mp h
  obtain ⟨out₁, hloop, hsends₁⟩ := processNetCommands_ctx hk hcommands
  have hk₁ := hsends₁.toSameRoster.keyed hk
  have hq₂ := quiet_updatePlayers hplayers
  have hk₂ := hq₂.sameRoster.keyed hk₁
  obtain ⟨c₃, out₃, hr₃, rfl⟩ := call_eq_ok horientations
  have hq₃ := quiet_sendOrientationUpdates hr₃
  obtain ⟨c₄, out₄, hr₄, rfl⟩ := call_eq_ok hevents
  have hsends₃ := (sends_called hk₂ hq₃ out₃).trans
    (sends_called (hq₃.sameRoster.keyed hk₂) (quiet_sendPlayerEvents hr₄) out₄)
  refine ⟨out₁ ++ out₃ ++ out₄, ?_, ?_⟩
  · refine Exec.bind_eq_ok.mpr ⟨(x₁.ctx, out₁), hloop, Exec.bind_eq_ok.mpr ⟨c, hplayers, ?_⟩⟩
    exact Exec.bind_eq_ok.mpr ⟨(c₃, out₃), hr₃, Exec.bind_eq_ok.mpr ⟨(c₄, out₄), hr₄, rfl⟩⟩
  · rw [List.append_assoc]
    exact hsends₁.trans ((sends_nil hq₂).trans hsends₃)

/-! ### Operations that send nothing -/

/-- The roster and the phase are as they were, nothing was sent, and no player has got
a connection. -/
structure Silent (x x' : MatchMessages) : Prop extends
    SameRoster x.ctx x'.ctx, SamePhase x.ctx x'.ctx where
  sent : x'.sent = x.sent
  sends : ∀ p, x'.sends p = true → x.sends p = true

theorem silent_of_quiet (h : Quiet x.ctx c) (hp : SamePhase x.ctx c) : Silent x { x with ctx := c } := by
  refine ⟨h.sameRoster, hp, rfl, fun p hsends => ?_⟩
  rwa [sends_of_quiet h] at hsends

theorem sends_iff {p : PlayerRef} : x.sends p = true ↔ (x.ctx.players p).connected = true ∧
    ∃ s, (x.ctx.players p).mSocketUser = some s ∧ x.connected s = true := by
  simp [sends, Option.any_eq_true]

theorem Silent.trans {x₁ x₂ x₃ : MatchMessages} (h : Silent x₁ x₂) (h' : Silent x₂ x₃) :
    Silent x₁ x₃ :=
  ⟨h.toSameRoster.trans h'.toSameRoster,
    ⟨h'.state.trans h.state, h'.bufferSize.trans h.bufferSize⟩, h'.sent.trans h.sent,
    fun p hsends => h.sends p (h'.sends p hsends)⟩

theorem silent_disconnected (x : MatchMessages) (q : PlayerRef) :
    Silent x { x with ctx := x.ctx.setPlayer q (·.disconnected) } := by
  refine ⟨⟨rfl, rfl, ?_, ?_⟩, ⟨rfl, rfl⟩, rfl, fun p hsends => ?_⟩
  · exact setPlayer_field Player.getUserID x.ctx q _ fun _ => rfl
  · exact setPlayer_field Player.mMatchInstanceId x.ctx q _ fun _ => rfl
  · obtain ⟨hconnected, s, hs, hup⟩ := sends_iff.mp hsends
    by_cases heq : p = q
    · subst heq
      simp [Player.disconnected] at hs
    · simp only [setPlayer_of_ne x.ctx _ heq] at hconnected hs
      exact sends_iff.mpr ⟨hconnected, s, hs, hup⟩

theorem silent_close (x : MatchMessages) (socketUser : SessionRef) (user : Option PlayerRef) :
    Silent x (x.close socketUser user) := by
  unfold close
  split_ifs
  · have hclosed : Silent x { x with connected := Function.update x.connected socketUser false } := by
      refine ⟨.refl _, ⟨rfl, rfl⟩, rfl, fun p hsends => ?_⟩
      obtain ⟨hconnected, s, hs, hup⟩ := sends_iff.mp hsends
      refine sends_iff.mpr ⟨hconnected, s, hs, ?_⟩
      by_cases heq : s = socketUser
      · simp [heq] at hup
      · simpa [Function.update_of_ne heq] using hup
    cases user with
    | none => exact hclosed
    | some q => exact hclosed.trans (silent_disconnected _ q)
  · exact ⟨.refl _, ⟨rfl, rfl⟩, rfl, fun _ h => h⟩

/-! ### The invariant -/

/-- The start was announced by `starts`, and `rest` was sent since. -/
structure Told (serialize : Json → List UInt8) (starts rest : List Message) (x : MatchMessages) :
    Prop extends Announced Message.isStart Message.player starts rest where
  sent : x.sent = starts ++ rest
  /-- who can be sent something has been sent the start -/
  reached : ∀ p ∈ x.ctx.mtch.mPlayers.values, x.sends p = true → p ∈ starts.map Message.player
  data : ∀ m ∈ starts, m.broadcast.data = serialize m.source.roster ++ [0]
  listed : ∀ m ∈ starts, ∀ p ∈ x.ctx.mtch.mPlayers.values,
    Lists m.source.roster (x.ctx.players p).mMatchInstanceId
  encoded : ∀ m ∈ rest, m.Encoded
  covered : ∀ start ∈ starts, ∀ m ∈ rest, ∀ e ∈ m.written, Lists start.source.roster e.1

structure Waiting (x : MatchMessages) : Prop where
  state : x.ctx.mtch.mMatchState = .none ∨ x.ctx.mtch.mMatchState = .joinedWaiting
  sent : x.sent = []

structure Started (serialize : Json → List UInt8) (x : MatchMessages) : Prop where
  state : x.ctx.mtch.mMatchState = .started
  bufferSize : x.ctx.mtch.mOrientationSendBufferSize =
    (Player.orientationSize + 1) * (UInt8.ofNat x.ctx.mtch.mPlayers.size).toNat + 1
  told : ∃ starts rest, Told serialize starts rest x

structure Inv (serialize : Json → List UInt8) (x : MatchMessages) : Prop where
  keyed : x.ctx.Keyed
  mtx : x.ctx.mtch.mPlayerMtx = false
  phase : Waiting x ∨ Started serialize x

variable {serialize : Json → List UInt8} {starts rest : List Message}

theorem Waiting.not_started (h : Waiting x) : x.ctx.mtch.mMatchState ≠ .started := by
  rcases h.state with hs | hs
  · simp [hs]
  · simp [hs]

theorem Inv.started (h : Inv serialize x) (hs : x.ctx.mtch.mMatchState = .started) :
    Started serialize x :=
  h.phase.resolve_left fun hw => hw.not_started hs

theorem Inv.waiting (h : Inv serialize x) (hs : x.ctx.mtch.mMatchState ≠ .started) : Waiting x :=
  h.phase.resolve_right fun hstarted => hs hstarted.state

theorem Told.silent (h : Told serialize starts rest x) (hs : Silent x x') :
    Told serialize starts rest x' := by
  refine ⟨h.toAnnounced, hs.sent.trans h.sent, fun p hp hsends => ?_, h.data, fun m hm p hp => ?_,
    h.encoded, h.covered⟩
  · rw [hs.mPlayers] at hp
    exact h.reached p hp (hs.sends p hsends)
  · rw [hs.mPlayers] at hp
    rw [hs.instanceId]
    exact h.listed m hm p hp

theorem Inv.silent (h : Inv serialize x) (hs : Silent x x') : Inv serialize x' := by
  refine ⟨hs.toSameRoster.keyed h.keyed, hs.mtx.trans h.mtx, ?_⟩
  rcases h.phase with hw | hstarted
  · left
    refine ⟨?_, hs.sent.trans hw.sent⟩
    rw [hs.state]
    exact hw.state
  · right
    obtain ⟨starts, rest, htold⟩ := hstarted.told
    refine ⟨hs.state.trans hstarted.state, ?_, starts, rest, htold.silent hs⟩
    rw [hs.bufferSize, hs.mPlayers]
    exact hstarted.bufferSize

/-- A started match goes on with a broadcast of entries of its own players. -/
theorem Told.broadcast (h : Told serialize starts rest x) {b : Broadcast} (hcmd : b.cmd ≠ .startMatch)
    (henc : ∀ p, Message.Encoded ⟨p, b, x.ctx⟩)
    (hids : ∀ p, ∀ e ∈ Message.written ⟨p, b, x.ctx⟩, ∃ q ∈ x.ctx.mtch.mPlayers.values,
      e.1 = (x.ctx.players q).mMatchInstanceId) :
    Told serialize starts (rest ++ x.broadcastCommand b)
      { x with sent := x.sent ++ x.broadcastCommand b } := by
  have hmem : ∀ m ∈ x.broadcastCommand b, ∃ p ∈ x.ctx.mtch.mPlayers.values, x.sends p = true ∧
      m = ⟨p, b, x.ctx⟩ := by
    intro m hm
    obtain ⟨p, hp, rfl⟩ := List.mem_map.mp hm
    obtain ⟨hp, hsends⟩ := List.mem_filter.mp hp
    exact ⟨p, hp, hsends, rfl⟩
  refine ⟨h.toAnnounced.append fun m hm => ?_, ?_, h.reached, h.data, h.listed, fun m hm => ?_,
    fun start hstart m hm => ?_⟩
  · obtain ⟨p, hp, hsends, rfl⟩ := hmem m hm
    exact ⟨decide_eq_false hcmd, h.reached p hp hsends⟩
  · simp [h.sent]
  · rcases List.mem_append.mp hm with hm | hm
    · exact h.encoded m hm
    · obtain ⟨p, -, -, rfl⟩ := hmem m hm
      exact henc p
  · rcases List.mem_append.mp hm with hm | hm
    · exact h.covered start hstart m hm
    · obtain ⟨p, -, -, rfl⟩ := hmem m hm
      intro e he
      obtain ⟨q, hq, heq⟩ := hids p e he
      rw [heq]
      exact h.listed start hstart q hq

/-! ### What a call keeps -/

theorem Inv.called_nil (h : Inv serialize x) (hq : Quiet x.ctx c) (hp : SamePhase x.ctx c) :
    Inv serialize (x.called c []) := by
  rw [MatchMessages.called_nil]
  exact h.silent (silent_of_quiet hq hp)

/-- A call of a started match broadcasts entries of its own players. -/
theorem Inv.called_broadcast (h : Inv serialize x) (hs : x.ctx.mtch.mMatchState = .started)
    (hq : Quiet x.ctx c) (hp : SamePhase x.ctx c) {b : Broadcast} (hcmd : b.cmd ≠ .startMatch)
    (henc : ∀ p, Message.Encoded ⟨p, b, x.ctx⟩)
    (hids : ∀ p, ∀ e ∈ Message.written ⟨p, b, x.ctx⟩, ∃ q ∈ x.ctx.mtch.mPlayers.values,
      e.1 = (x.ctx.players q).mMatchInstanceId) : Inv serialize (x.called c [b]) := by
  obtain ⟨-, hsize, starts, rest, htold⟩ := h.started hs
  have hsent : Inv serialize { x with sent := x.sent ++ x.broadcastCommand b } :=
    ⟨h.keyed, h.mtx, Or.inr ⟨hs, hsize, _, _, htold.broadcast hcmd henc hids⟩⟩
  have hcalled : x.called c [b] =
      { { x with sent := x.sent ++ x.broadcastCommand b } with ctx := c } := by
    simp [called]
  rw [hcalled]
  exact hsent.silent (silent_of_quiet hq hp)

/-- `StartMatch` of a waiting match is sent to everyone who can be sent something. -/
theorem Inv.called_start (h : Inv serialize x) (hs : x.ctx.mtch.mMatchState = .joinedWaiting) :
    Inv serialize (x.called x.ctx.startedWith
      [⟨.startMatch, serialize x.ctx.roster ++ [0], .tcp⟩]) := by
  have hsent : x.sent = [] := (h.waiting (by simp [hs])).sent
  set b : Broadcast := ⟨.startMatch, serialize x.ctx.roster ++ [0], .tcp⟩ with hb
  have hplayers : (x.broadcastCommand b).map Message.player =
      x.ctx.mtch.mPlayers.values.filter x.sends := by
    simp [broadcastCommand, Function.comp_def]
  have hall : ∀ m ∈ x.broadcastCommand b, m.broadcast = b ∧ m.source = x.ctx := by
    intro m hm
    obtain ⟨p, -, rfl⟩ := List.mem_map.mp hm
    exact ⟨rfl, rfl⟩
  suffices htold : Told serialize (x.broadcastCommand b) [] (x.called x.ctx.startedWith [b]) from
    ⟨h.keyed, h.mtx, Or.inr ⟨rfl, rfl, _, _, htold⟩⟩
  refine ⟨⟨?_, ?_, ?_⟩, ?_, ?_, ?_, ?_, ?_, ?_⟩
  · intro m hm
    simp [Message.isStart, (hall m hm).1, hb]
  · rw [hplayers]
    exact h.keyed.values_nodup.filter _
  · exact List.forall_mem_nil _
  · simp [called, hsent]
  · intro p hp hsends
    rw [hplayers]
    exact List.mem_filter.mpr ⟨hp, hsends⟩
  · intro m hm
    obtain ⟨hbroadcast, hsource⟩ := hall m hm
    rw [hbroadcast, hsource]
  · intro m hm p hp
    rw [(hall m hm).2]
    exact lists_roster hp
  · exact List.forall_mem_nil _
  · exact fun _ _ => List.forall_mem_nil _

theorem Inv.executeNetCommand (h : Inv serialize x) {authenticated : SessionRef → Bool}
    {userID : UserID} {buffer : List UInt8}
    (hx : x.call (x.ctx.executeNetCommand serialize authenticated userID buffer) = .ok x') :
    Inv serialize x' := by
  obtain ⟨c, out, hr, rfl⟩ := call_eq_ok hx
  have hq := quiet_command hr
  by_cases hcmd : x.ctx.startCommand userID buffer
  · rw [executeNetCommand_of_start hcmd, startMatch] at hr
    dsimp only at hr
    split_ifs at hr with hs hm
    · cases hr
      exact h.called_nil (.refl _) ⟨rfl, rfl⟩
    · cases hr
      exact h.called_start (not_not.mp hs)
  · obtain ⟨rfl, hmtch⟩ := executeNetCommand_of_not_start hcmd hr
    exact h.called_nil hq ⟨by rw [hmtch], by rw [hmtch]⟩

/-- A tick that returns has found its buffer as large as the entries need. -/
theorem Started.bufferSize_eq (h : Started serialize x) (hm : x.ctx.mtch.mPlayerMtx = false)
    {now now' : UInt64} (hdue : x.ctx.Due now) {r : MatchCtx × List Broadcast}
    (hr : x.ctx.sendOrientationUpdates now now' = .ok r) :
    x.ctx.mtch.mOrientationSendBufferSize = entriesEnd x.ctx.mtch.mPlayers.values.length := by
  have hsize := h.bufferSize
  have hle : (UInt8.ofNat x.ctx.mtch.mPlayers.size).toNat ≤ x.ctx.mtch.mPlayers.size := by
    rw [UInt8.toNat_ofNat']
    exact Nat.mod_le _ _
  have hroom : entriesEnd x.ctx.mtch.mPlayers.values.length ≤ x.ctx.mtch.mOrientationSendBufferSize := by
    by_contra hless
    have hpos : 1 ≤ x.ctx.mtch.mOrientationSendBufferSize := by
      rw [hsize]
      exact Nat.le_add_left 1 _
    rw [sendOrientationUpdates_overrun hdue hm hpos (Nat.lt_of_not_le hless)] at hr
    cases hr
  apply Nat.le_antisymm _ hroom
  rw [hsize, entriesEnd, values_length, Nat.mul_comm]
  exact Nat.add_le_add_right (Nat.mul_le_mul_right _ hle) 1

theorem Inv.sendOrientationUpdates (h : Inv serialize x) {now now' : UInt64}
    (hx : x.call (x.ctx.sendOrientationUpdates now now') = .ok x') : Inv serialize x' := by
  obtain ⟨c, out, hr, rfl⟩ := call_eq_ok hx
  by_cases hdue : x.ctx.Due now
  · have hsize := (h.started hdue.1).bufferSize_eq h.mtx hdue hr
    obtain ⟨buffer, hbytes⟩ := sendOrientationUpdates_bytes hdue h.mtx hsize now'
    rw [hbytes] at hr
    cases hr
    refine h.called_broadcast hdue.1 (quiet_setMatch _ _ rfl rfl) ⟨rfl, rfl⟩ nofun
      (fun p => ⟨UInt8.ofNat x.ctx.mtch.mPlayers.size, ?_⟩) fun p e he => ?_
    · simp only [Message.written, List.flatMap_map]
      rfl
    · obtain ⟨q, hq, rfl⟩ := List.mem_map.mp he
      exact ⟨q, hq, rfl⟩
  · rw [sendOrientationUpdates_of_not_due hdue] at hr
    cases hr
    exact h.called_nil (.refl _) ⟨rfl, rfl⟩

theorem Inv.sendPlayerEvents (h : Inv serialize x) (hx : x.call x.ctx.sendPlayerEvents = .ok x') :
    Inv serialize x' := by
  obtain ⟨c, out, hr, rfl⟩ := call_eq_ok hx
  have hdrain := drainEvents_eq _ h.keyed.values_nodup x.ctx.players [] 0
  have hq : Quiet x.ctx
      { x.ctx with players := (drainEvents x.ctx.mtch.mPlayers.values x.ctx.players [] 0).1 } :=
    ⟨rfl, rfl, fun g hg => drainEvents_field g (fun y => hg y _ _ _ _) _ _ _ _⟩
  unfold MatchCtx.sendPlayerEvents at hr
  dsimp only at hr
  split_ifs at hr with hs hm
  · cases hr
    exact h.called_nil (.refl _) ⟨rfl, rfl⟩
  · cases hr
    exact h.called_nil hq ⟨rfl, rfl⟩
  · cases hr
    refine h.called_broadcast (not_not.mp hs) hq ⟨rfl, rfl⟩ nofun
      (fun p => ⟨(drainEvents x.ctx.mtch.mPlayers.values x.ctx.players [] 0).2.2, ?_⟩) fun p e he => ?_
    · rw [hdrain]
      simp only [Message.written, List.flatMap_assoc, List.flatMap_map]
      rfl
    · obtain ⟨q, hq, he⟩ := List.mem_flatMap.mp he
      obtain ⟨entry, hentry, rfl⟩ := List.mem_map.mp he
      obtain ⟨event, -, rfl⟩ := List.mem_map.mp hentry
      exact ⟨q, hq, rfl⟩

/-! ### What a step keeps -/

theorem Inv.executeCommands {authenticated : SessionRef → Bool} {cmds : List MatchCommand}
    (h : Inv serialize x)
    (hx : executeCommands serialize authenticated cmds x = .ok x') : Inv serialize x' := by
  induction cmds generalizing x with
  | nil =>
    cases hx
    exact h
  | cons cmd cmds ih =>
    obtain ⟨x₁, hcall, hx⟩ := Exec.bind_eq_ok.mp hx
    exact ih (h.executeNetCommand hcall) hx

theorem Inv.updatePlayers (h : Inv serialize x) {now now' : UInt64}
    (hc : x.ctx.updatePlayers now now' = .ok c) : Inv serialize { x with ctx := c } := by
  have hmtch := (updatePlayers_ok hc).1
  apply h.silent
  exact silent_of_quiet (quiet_updatePlayers hc) ⟨by rw [hmtch], by rw [hmtch]⟩

/-- A frame: the commands in the queue one by one, and the three parts behind them. -/
theorem Inv.asynUpdate (h : Inv serialize x) {authenticated : SessionRef → Bool} {t : TickTimes}
    (hx : x.asynUpdate serialize authenticated t = .ok x') : Inv serialize x' := by
  obtain ⟨x₁, hcommands, hx⟩ := Exec.bind_eq_ok.mp hx
  obtain ⟨c, hplayers, hx⟩ := Exec.bind_eq_ok.mp hx
  obtain ⟨x₂, horientations, hevents⟩ := Exec.bind_eq_ok.mp hx
  have htaken : Inv serialize
      { x with ctx := x.ctx.setMatch fun m => { m with mCommandQueue := [] } } :=
    h.silent (silent_of_quiet (quiet_setMatch _ _ rfl rfl) ⟨rfl, rfl⟩)
  have h₁ := htaken.executeCommands hcommands
  have h₂ := (h₁.updatePlayers hplayers).sendOrientationUpdates horientations
  exact h₂.sendPlayerEvents hevents

theorem Inv.threadInit (h : Inv serialize x) (hs : x.ctx.mtch.mMatchState = .none) (now : UInt64) :
    Inv serialize { x with ctx := x.ctx.threadInit now } :=
  ⟨h.keyed, h.mtx, Or.inl ⟨Or.inr rfl, (h.waiting (by simp [hs])).sent⟩⟩

/-- Who joins is let in before the start alone. -/
theorem Inv.join (h : Inv serialize x) {this : MatchRef} {p : PlayerRef} {r : Bool}
    (hc : x.ctx.joinPlayer this (some p) = .ok (r, c)) : Inv serialize { x with ctx := c } := by
  rw [joinPlayer_some] at hc
  split_ifs at hc with hs hm
  · cases hc
    exact h
  · cases hc
    have hstate := not_not.mp hs
    have hsent := (h.waiting (by simp [hstate])).sent
    exact ⟨h.keyed.joined this p, h.mtx, Or.inl ⟨Or.inr hstate, hsent⟩⟩

theorem inv_init (h : Init x) : Inv serialize x :=
  ⟨h.ctx.keyed, h.ctx.mtx, Or.inl ⟨Or.inl h.ctx.state, h.sent⟩⟩

theorem inv_step {this : MatchRef} {e : Event} (h : Inv serialize x)
    (hst : Step this serialize x e x') : Inv serialize x' := by
  cases e with
  | threadInit now =>
    obtain ⟨hs, rfl⟩ := hst
    exact h.threadInit hs now
  | join p =>
    obtain ⟨r, c, hc, rfl⟩ := hst
    exact h.join hc
  | submitCommand user data =>
    cases hst
    exact h.silent (silent_of_quiet (quiet_setMatch _ _ rfl rfl) ⟨rfl, rfl⟩)
  | close socketUser user =>
    cases hst
    exact h.silent (silent_close x socketUser user)
  | asynUpdate authenticated t => exact h.asynUpdate hst

/-! ### The start comes first -/

/-- The `Start_Match` messages to a player. -/
def startsTo (p : PlayerRef) (sent : List Message) : List Message :=
  openings Message.isStart Message.player p sent

/-- Each player is sent at most one `Start_Match`, and every message with orientations
or events comes behind exactly one to its player. The roster of that one lists all
instance ids that the encoder wrote into the message. -/
structure StartFirst (serialize : Json → List UInt8) (sent : List Message) : Prop where
  once : ∀ p, (startsTo p sent).length ≤ 1
  before : ∀ past m future, sent = past ++ m :: future →
    m.broadcast.cmd = .updateOrientations ∨ m.broadcast.cmd = .playerEvents →
    ∃ start, startsTo m.player past = [start] ∧
      start.broadcast.data = serialize start.source.roster ++ [0] ∧
      m.Encoded ∧ ∀ e ∈ m.written, Lists start.source.roster e.1

theorem Waiting.startFirst (h : Waiting x) : StartFirst serialize x.sent := by
  rw [h.sent]
  refine ⟨fun p => Nat.zero_le _, fun past m future hsent => ?_⟩
  simp at hsent

theorem Told.startFirst (h : Told serialize starts rest x) : StartFirst serialize x.sent := by
  rw [h.sent]
  refine ⟨h.openings_length_le, fun past m future hsent hcmd => ?_⟩
  have hm : m.isStart = false := by
    rcases hcmd with hcmd | hcmd
    · simp [Message.isStart, hcmd]
    · simp [Message.isStart, hcmd]
  obtain ⟨hmem, start, hstart, heq⟩ := h.openings_before hsent hm
  exact ⟨start, heq, h.data start hstart, h.encoded m hmem, h.covered start hstart m hmem⟩

/-- In every state of a run the start came first. -/
theorem start_first (this : MatchRef) (serialize : Json → List UInt8)
    (tr : List (MatchMessages × Event)) (x : MatchMessages)
    (h : (system this serialize).Exec tr x) : StartFirst serialize x.sent := by
  have hx := h.inv (Inv serialize) (fun _ => inv_init) fun _ _ _ => inv_step
  rcases hx.phase with hw | hstarted
  · exact hw.startFirst
  · obtain ⟨starts, rest, htold⟩ := hstarted.told
    exact htold.startFirst

/-! ### One player, and the frame that starts the match -/

/-- The frame sends the start and then the first orientations. -/
theorem start_then_orientations : ∃ tr x, (system 0 fun _ => []).Exec tr x ∧
    x.sent.map (fun m => (m.player, m.broadcast.cmd)) = [(0, .startMatch), (0, .updateOrientations)] ∧
    StartFirst (fun _ => []) x.sent := by
  have h0 : (system 0 fun _ => []).Exec [] ⟨sampleMatch, fun _ => true, []⟩ :=
    .nil ⟨.mk rfl rfl rfl rfl, rfl⟩
  have h1 := h0.next (.threadInit 0) ⟨waitingMatch, fun _ => true, []⟩ ⟨rfl, rfl⟩
  obtain ⟨r, hjoin⟩ := step_join 0 (fun _ => []) (c := waitingMatch) 0 rfl rfl
  have h2 := h1.next (.join 0) ⟨waitingMatch.joined 0 0, fun _ => true, []⟩ ⟨r, _, hjoin, rfl⟩
  have h3 := h2.next (.submitCommand 0 ⟨.tcp, 0x02, [0x01]⟩) _ rfl
  obtain ⟨x, hx, hsent⟩ : ∃ x, asynUpdate (fun _ => []) (fun _ => true) ⟨(0, 0), (51, 51)⟩
      ⟨(waitingMatch.joined 0 0).submitMatchCommand 0 ⟨.tcp, 0x02, [0x01]⟩, fun _ => true, []⟩ = .ok x ∧
      x.sent.map (fun m => (m.player, m.broadcast.cmd)) =
        [(0, .startMatch), (0, .updateOrientations)] := ⟨_, rfl, rfl⟩
  have h4 := h3.next (.asynUpdate (fun _ => true) ⟨(0, 0), (51, 51)⟩) x hx
  exact ⟨_, x, h4, hsent, start_first 0 _ _ x h4⟩

end MatchMessages

end GameServer
