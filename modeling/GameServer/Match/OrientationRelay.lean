import GameServer.Lib.Counted
import GameServer.Match.OrientationBuffer

/-! Relaying orientations: what an update command stores, what a tick writes for each
player, and the newest update of each player over a run of commands and ticks. -/

namespace GameServer

open Lib

/-! ### One update -/

theorem toLe_floatAt {body : List UInt8} {i : ℕ} (h : 4 * i + 4 ≤ body.length) :
    toLe 4 (MatchCtx.floatAt body i).toNat = (body.drop (4 * i)).take 4 := by
  have hlen : ((body.drop (4 * i)).take 4).length = 4 := by
    rw [List.length_take, List.length_drop]
    omega
  have hlt := ofLe_lt ((body.drop (4 * i)).take 4)
  rw [hlen] at hlt
  have hword : (MatchCtx.floatAt body i).toNat = ofLe ((body.drop (4 * i)).take 4) := by
    rw [MatchCtx.floatAt, UInt32.toNat_ofNat']
    exact Nat.mod_eq_of_lt hlt
  have hbytes := toLe_ofLe ((body.drop (4 * i)).take 4)
  rwa [hlen, ← hword] at hbytes

/-- The first `4 * n` bytes, four at a time. -/
theorem flatMap_take_four (body : List UInt8) (n : ℕ) :
    (List.range n).flatMap (fun i => (body.drop (4 * i)).take 4) = body.take (4 * n) := by
  induction n with
  | zero => rfl
  | succ n ih =>
    rw [List.range_succ, List.flatMap_append, ih, List.flatMap_singleton, Nat.mul_succ]
    exact List.take_add.symm

/-- The constructor takes `w` first, and decoder and encoder `x` first: the seven words
come back in the order of the body. -/
theorem serializeOrientation_update (p : Player) {body : List UInt8} (h : 28 ≤ body.length) :
    ((p.setLocation ⟨MatchCtx.floatAt body 0, MatchCtx.floatAt body 1, MatchCtx.floatAt body 2⟩).setRotation
      (.ofWxyz (MatchCtx.floatAt body 6) (MatchCtx.floatAt body 3) (MatchCtx.floatAt body 4)
        (MatchCtx.floatAt body 5))).serializeOrientation = body.take 28 := by
  have hwords : ∀ i ∈ List.range 7, toLe 4 (MatchCtx.floatAt body i).toNat =
      (body.drop (4 * i)).take 4 := by
    intro i hi
    have hi := List.mem_range.mp hi
    exact toLe_floatAt (by omega)
  rw [← flatMap_take_four body 7, ← List.flatMap_congr hwords]
  rfl

namespace MatchCtx

/-! ### What a tick writes -/

theorem store_bytes {size i : ℕ} (buffer : ℕ → UInt8) {bytes : List UInt8}
    (h : i + bytes.length ≤ size) : ∃ b, store size buffer i bytes = .ok b ∧
      (List.range' i bytes.length).map b = bytes ∧ ∀ j < i, b j = buffer j := by
  refine ⟨_, if_pos h, ?_, fun j hj => if_neg ?_⟩
  · apply List.ext_getElem
    · simp
    · intro j hj hj'
      rw [List.getElem_map, List.getElem_range', Nat.one_mul, if_pos (by omega),
        Nat.add_sub_cancel_left, List.getD_eq_getElem?_getD, List.getElem?_eq_getElem hj',
        Option.getD_some]
  · omega

/-- The entry of a player: its instance id and its orientation. -/
def orientationEntry (players : PlayerRef → Player) (p : PlayerRef) : List UInt8 :=
  (players p).mMatchInstanceId :: (players p).serializeOrientation

theorem orientationEntry_length (players : PlayerRef → Player) (p : PlayerRef) :
    (orientationEntry players p).length = Player.orientationSize + 1 := by
  rw [orientationEntry, List.length_cons, Player.serializeOrientation_length]

theorem entriesEnd_succ (n : ℕ) :
    entriesEnd (n + 1) = entriesEnd n + (Player.orientationSize + 1) := by
  rw [entriesEnd, entriesEnd, Nat.succ_mul]
  omega

/-- The bytes of a range that two buffers agree on. -/
theorem map_range'_congr {b b' : ℕ → UInt8} {i n : ℕ} (h : ∀ j, i ≤ j → j < i + n → b j = b' j) :
    (List.range' i n).map b = (List.range' i n).map b' := by
  refine List.map_congr_left fun j hj => ?_
  have hj := List.mem_range'_1.mp hj
  exact h j hj.1 hj.2

section Entries

variable (players : PlayerRef → Player) {size : ℕ}

/-- One entry is written behind those before it. -/
theorem storeOrientations_entry (p : PlayerRef) (ps : List PlayerRef) (pIndex : ℕ)
    (buffer : ℕ → UInt8) (h : entriesEnd (pIndex + 1) ≤ size) :
    ∃ b, storeOrientations players size (p :: ps) pIndex buffer =
        storeOrientations players size ps (pIndex + 1) b ∧
      (List.range' (entriesEnd pIndex) (Player.orientationSize + 1)).map b =
        orientationEntry players p ∧
      ∀ j < entriesEnd pIndex, b j = buffer j := by
  have hlen := (players p).serializeOrientation_length
  rw [entriesEnd_succ] at h
  have hroom : entriesEnd pIndex + [(players p).mMatchInstanceId].length ≤ size := by
    rw [List.length_singleton]
    omega
  have hroom' : entriesEnd pIndex + 1 + (players p).serializeOrientation.length ≤ size := by
    omega
  obtain ⟨b₁, hb₁, hid, hkeep₁⟩ := store_bytes buffer hroom
  obtain ⟨b₂, hb₂, horientation, hkeep₂⟩ := store_bytes b₁ hroom'
  refine ⟨b₂, ?_, ?_, fun j hj => ?_⟩
  · rw [storeOrientations]
    change (store size buffer (entriesEnd pIndex) _ >>= _) = _
    rw [hb₁]
    change (store size b₁ (entriesEnd pIndex + 1) _ >>= _) = _
    rw [hb₂]
    rfl
  · rw [hlen] at horientation
    have hid₂ : b₂ (entriesEnd pIndex) = (players p).mMatchInstanceId := by
      rw [hkeep₂ _ (Nat.lt_succ_self _)]
      exact List.head_eq_of_cons_eq hid
    rw [List.range'_succ, List.map_cons, hid₂, horientation]
    rfl
  · rw [hkeep₂ j (by omega), hkeep₁ j hj]

theorem storeOrientations_bytes (ps : List PlayerRef) (pIndex : ℕ) (buffer : ℕ → UInt8)
    (h : entriesEnd (pIndex + ps.length) ≤ size) :
    ∃ b, storeOrientations players size ps pIndex buffer = .ok b ∧
      (List.range' (entriesEnd pIndex) ((Player.orientationSize + 1) * ps.length)).map b =
        ps.flatMap (orientationEntry players) ∧
      ∀ j < entriesEnd pIndex, b j = buffer j := by
  induction ps generalizing pIndex buffer with
  | nil => exact ⟨buffer, rfl, rfl, fun _ _ => rfl⟩
  | cons p ps ih =>
    rw [List.length_cons, Nat.add_comm ps.length, ← Nat.add_assoc] at h
    have hfirst : entriesEnd (pIndex + 1) ≤ size :=
      (Nat.add_le_add_right (Nat.mul_le_mul_right _ (Nat.le_add_right _ _)) 1).trans h
    obtain ⟨b₁, hcons, hentry, hkeep₁⟩ := storeOrientations_entry players p ps pIndex buffer hfirst
    obtain ⟨b, hb, hrest, hkeep⟩ := ih (pIndex + 1) b₁ h
    rw [entriesEnd_succ] at hrest hkeep
    refine ⟨b, hcons.trans hb, ?_, fun j hj => ?_⟩
    · rw [List.length_cons, Nat.mul_succ, Nat.add_comm, ← List.range'_append_1, List.map_append,
        hrest, List.flatMap_cons, ← hentry]
      congr 1
      exact map_range'_congr fun j _ hj => hkeep j hj
    · rw [hkeep j (by omega), hkeep₁ j hj]

end Entries

end MatchCtx

/-! ### The payload -/

/-- One entry of an `Update_Orientations` payload. -/
structure OrientationEntry where
  instanceId : UInt8
  bytes : List UInt8
  deriving DecidableEq, Repr

namespace OrientationEntry

def encode (e : OrientationEntry) : List UInt8 := e.instanceId :: e.bytes

/-- Read `[instance id][28 bytes]`. -/
def read : List UInt8 → Option (OrientationEntry × List UInt8)
  | [] => none
  | id :: rest =>
    if Player.orientationSize ≤ rest.length then
      some (⟨id, rest.take Player.orientationSize⟩, rest.drop Player.orientationSize)
    else none

theorem read_encode {e : OrientationEntry} (h : e.bytes.length = Player.orientationSize)
    (rest : List UInt8) : read (e.encode ++ rest) = some (e, rest) := by
  have hle : Player.orientationSize ≤ (e.bytes ++ rest).length := by
    rw [List.length_append, h]
    exact Nat.le_add_right _ _
  rw [encode, List.cons_append, read, if_pos hle, ← h, List.take_left, List.drop_left]

end OrientationEntry

/-- Read `[count]` and that many entries, with nothing behind them. -/
def readOrientations : List UInt8 → Option (List OrientationEntry)
  | [] => none
  | count :: rest =>
    match times OrientationEntry.read count.toNat rest with
    | some (entries, []) => some entries
    | _ => none

theorem readOrientations_encode {l : List OrientationEntry} (hcount : l.length ≤ 255)
    (h : ∀ e ∈ l, e.bytes.length = Player.orientationSize) :
    readOrientations (UInt8.ofNat l.length :: l.flatMap OrientationEntry.encode) = some l := by
  have hbyte : (UInt8.ofNat l.length).toNat = l.length := by
    rw [UInt8.toNat_ofNat']
    omega
  have htimes := times_flatMap OrientationEntry.encode l
    (fun e he rest => OrientationEntry.read_encode (h e he) rest) []
  rw [List.append_nil] at htimes
  simp only [readOrientations, hbyte, htimes]

namespace MatchCtx

section Tick

variable {c : MatchCtx} {now : UInt64}

/-- What a due tick broadcasts when the buffer has exactly the size that it needs. -/
theorem sendOrientationUpdates_bytes (h : c.Due now) (hmtx : c.mtch.mPlayerMtx = false)
    (hsize : c.mtch.mOrientationSendBufferSize = entriesEnd c.mtch.mPlayers.values.length)
    (now' : UInt64) : ∃ buffer, c.sendOrientationUpdates now now' = .ok (c.ticked now' buffer,
      [⟨.updateOrientations, UInt8.ofNat c.mtch.mPlayers.size ::
        c.mtch.mPlayers.values.flatMap (orientationEntry c.players), .udp⟩]) := by
  have hpos : 1 ≤ c.mtch.mOrientationSendBufferSize := hsize ▸ Nat.le_add_left 1 _
  obtain ⟨b₀, hb₀, hcount⟩ :=
    store_count c.mtch.mOrientationSendBuffer (UInt8.ofNat c.mtch.mPlayers.size) hpos
  have hroom : entriesEnd (0 + c.mtch.mPlayers.values.length) ≤
      c.mtch.mOrientationSendBufferSize := by
    rw [Nat.zero_add, hsize]
  obtain ⟨b, hb, hentries, hkeep⟩ :=
    storeOrientations_bytes c.players c.mtch.mPlayers.values 0 b₀ hroom
  have hzero : entriesEnd 0 = 1 := rfl
  rw [hzero] at hentries hkeep
  refine ⟨b, ?_⟩
  rw [sendOrientationUpdates_of_due h, hb₀]
  change (if c.mtch.mPlayerMtx = true then _ else _) = _
  rw [if_neg (by simp [hmtx]), hb]
  have hall : (List.range c.mtch.mOrientationSendBufferSize).map b =
      UInt8.ofNat c.mtch.mPlayers.size ::
        c.mtch.mPlayers.values.flatMap (orientationEntry c.players) := by
    rw [hsize, entriesEnd, Nat.mul_comm, List.range_eq_range', List.range'_succ, List.map_cons,
      hkeep 0 Nat.zero_lt_one, hcount, hentries]
  rw [← hall]
  rfl

end Tick

/-! ### A frame of the match thread -/

/-- The loop of `ProcessNetCommands` over the commands that it has taken. -/
def executeCommands (serialize : Json → List UInt8) (authenticated : SessionRef → Bool) :
    List MatchCommand → MatchCtx → Exec (MatchCtx × List Broadcast)
  | [], c => .ok (c, [])
  | cmd :: rest, c => do
    let (c, out) ← c.executeNetCommand serialize authenticated cmd.user cmd.data.buffer
    let (c, out') ← executeCommands serialize authenticated rest c
    .ok (c, out ++ out')

def processNetCommands (serialize : Json → List UInt8) (authenticated : SessionRef → Bool)
    (c : MatchCtx) : Exec (MatchCtx × List Broadcast) :=
  executeCommands serialize authenticated c.mtch.mCommandQueue
    (c.setMatch fun m => { m with mCommandQueue := [] })

/-- What the clock says in `UpdatePlayers` and in `SendOrientationUpdates`. -/
structure TickTimes where
  updatePlayers : UInt64 × UInt64
  sendOrientations : UInt64 × UInt64

def asynUpdate (serialize : Json → List UInt8) (authenticated : SessionRef → Bool) (t : TickTimes)
    (c : MatchCtx) : Exec (MatchCtx × List Broadcast) := do
  let (c, out) ← c.processNetCommands serialize authenticated
  let c ← c.updatePlayers t.updatePlayers.1 t.updatePlayers.2
  let (c, out') ← c.sendOrientationUpdates t.sendOrientations.1 t.sendOrientations.2
  let (c, out'') ← c.sendPlayerEvents
  .ok (c, out ++ out' ++ out'')

/-! ### Update commands -/

/-- The player after an update with this body. -/
def oriented (body : List UInt8) (p : Player) : Player :=
  let f := floatAt body
  (p.setLocation ⟨f 0, f 1, f 2⟩).setRotation (.ofWxyz (f 6) (f 3) (f 4) (f 5))

/-- The match after an update of the player. -/
def updated (c : MatchCtx) (x : PlayerRef × List UInt8) : MatchCtx := c.setPlayer x.1 (oriented x.2)

/-- The queued command is an update with this body of this player of the match. -/
structure Queued (c : MatchCtx) (cmd : MatchCommand) (x : PlayerRef × List UInt8) : Prop where
  player : x.1 ∈ c.mtch.mPlayers.values
  user : cmd.user = (c.players x.1).getUserID
  buffer : cmd.data.buffer = 0x02 :: x.2
  length : 28 ≤ x.2.length

theorem updated_field {α : Type} (g : Player → α) (hg : ∀ body p, g (oriented body p) = g p)
    (c : MatchCtx) (x : PlayerRef × List UInt8) (q : PlayerRef) :
    g ((c.updated x).players q) = g (c.players q) :=
  setPlayer_field g c x.1 (oriented x.2) (hg x.2) q

theorem sameRoster_updated (c : MatchCtx) (x : PlayerRef × List UInt8) :
    SameRoster c (c.updated x) :=
  ⟨rfl, rfl, updated_field Player.getUserID (fun _ _ => rfl) c x,
    updated_field Player.mMatchInstanceId (fun _ _ => rfl) c x⟩

theorem SameRoster.queued {c c' : MatchCtx} (h : SameRoster c c') {cmd : MatchCommand}
    {x : PlayerRef × List UInt8} (hq : Queued c cmd x) : Queued c' cmd x := by
  refine ⟨?_, ?_, hq.buffer, hq.length⟩
  · rw [h.mPlayers]
    exact hq.player
  · rw [h.userID]
    exact hq.user

theorem Keyed.find? {c : MatchCtx} (hc : c.Keyed) {p : PlayerRef}
    (hp : p ∈ c.mtch.mPlayers.values) : c.mtch.mPlayers.find? (c.players p).getUserID = some p := by
  obtain ⟨e, he, rfl⟩ := List.mem_map.mp hp
  rw [hc e he]
  exact OrdMap.find?_eq_some.mpr he

theorem executeNetCommand_update {serialize : Json → List UInt8} {authenticated : SessionRef → Bool}
    {c : MatchCtx} (hc : c.Keyed) {cmd : MatchCommand} {x : PlayerRef × List UInt8}
    (hq : Queued c cmd x) :
    c.executeNetCommand serialize authenticated cmd.user cmd.data.buffer = .ok (c.updated x, []) := by
  have hupdate : OpCodes.ServerMatch.ofByte 0x02 = .updateOrientation := rfl
  unfold executeNetCommand
  rw [hq.user, hc.find? hq.player, hq.buffer]
  dsimp only
  rw [hupdate, BufferUtils.removeFront_one_cons]
  dsimp only
  rw [updateOrientationNetCmd, if_neg (Nat.not_lt_of_le hq.length)]
  rfl

/-- Queued updates are executed one after the other and broadcast nothing. -/
theorem executeCommands_updates {serialize : Json → List UInt8} {authenticated : SessionRef → Bool}
    {c : MatchCtx} (hc : c.Keyed) {cmds : List MatchCommand} {updates : List (PlayerRef × List UInt8)}
    (hq : List.Forall₂ c.Queued cmds updates) :
    executeCommands serialize authenticated cmds c = .ok (updates.foldl updated c, []) := by
  induction updates generalizing c cmds with
  | nil =>
    obtain rfl := List.forall₂_nil_right_iff.mp hq
    rfl
  | cons x updates ih =>
    obtain ⟨cmd, rest, hx, hrest, rfl⟩ := List.forall₂_cons_right_iff.mp hq
    have hsame := sameRoster_updated c x
    rw [executeCommands, executeNetCommand_update hc hx]
    change (executeCommands serialize authenticated rest (c.updated x) >>= _) = _
    rw [ih (hsame.keyed hc) (hrest.imp fun _ _ => hsame.queued)]
    rfl

theorem queued_length {c : MatchCtx} {cmds : List MatchCommand}
    {updates : List (PlayerRef × List UInt8)} (h : List.Forall₂ c.Queued cmds updates) :
    ∀ x ∈ updates, 28 ≤ x.2.length := by
  induction h with
  | nil => exact List.forall_mem_nil _
  | cons hx _ ih => exact List.forall_mem_cons.mpr ⟨hx.length, ih⟩

/-! ### The newest update of each player -/

/-- The body of the last update of the player. -/
def lastUpdate (updates : List (PlayerRef × List UInt8)) (p : PlayerRef) : Option (List UInt8) :=
  ((updates.filter fun x => x.1 = p).getLast?).map Prod.snd

theorem lastUpdate_snoc (updates : List (PlayerRef × List UInt8)) (x : PlayerRef × List UInt8)
    (p : PlayerRef) :
    lastUpdate (updates ++ [x]) p = if x.1 = p then some x.2 else lastUpdate updates p := by
  unfold lastUpdate
  rw [List.filter_append]
  split_ifs with hp
  · simp [hp]
  · simp [hp]

/-- Each player of the match has the orientation of its last update. -/
def Stored (c : MatchCtx) (updates : List (PlayerRef × List UInt8)) : Prop :=
  ∀ p body, lastUpdate updates p = some body → (c.players p).serializeOrientation = body.take 28

theorem stored_updated {c : MatchCtx} {updates : List (PlayerRef × List UInt8)}
    {x : PlayerRef × List UInt8} (hx : 28 ≤ x.2.length) (h : c.Stored updates) :
    (c.updated x).Stored (updates ++ [x]) := by
  intro p body hlast
  rw [lastUpdate_snoc] at hlast
  split_ifs at hlast with hp
  · cases hlast
    subst hp
    rw [updated, setPlayer_self]
    exact serializeOrientation_update _ hx
  · rw [updated, setPlayer_of_ne c _ (Ne.symm hp)]
    exact h p body hlast

theorem stored_foldl {c : MatchCtx} {done updates : List (PlayerRef × List UInt8)}
    (hlen : ∀ x ∈ updates, 28 ≤ x.2.length) (h : c.Stored done) :
    (updates.foldl updated c).Stored (done ++ updates) := by
  induction updates generalizing c done with
  | nil =>
    rw [List.append_nil]
    exact h
  | cons x updates ih =>
    obtain ⟨hx, hlen⟩ := List.forall_mem_cons.mp hlen
    have hnext := ih hlen (stored_updated hx h)
    rwa [List.append_assoc] at hnext

theorem foldl_updated (c : MatchCtx) (updates : List (PlayerRef × List UInt8)) :
    (updates.foldl updated c).mtch = c.mtch ∧ SameRoster c (updates.foldl updated c) := by
  induction updates generalizing c with
  | nil => exact ⟨rfl, .refl c⟩
  | cons x updates ih =>
    obtain ⟨hm, hroster⟩ := ih (c.updated x)
    exact ⟨hm, (sameRoster_updated c x).trans hroster⟩

end MatchCtx

/-! ### Runs of commands and frames -/

/-- A match with the updates that its players have sent since its start. -/
structure OrientationRelay where
  ctx : MatchCtx
  updates : List (PlayerRef × List UInt8)

namespace OrientationRelay

open MatchCtx

inductive Event where
  /-- a player of the match sends an update -/
  | submit (user : PlayerRef) (data : Data)
  /-- the match thread goes through one frame -/
  | asynUpdate (authenticated : SessionRef → Bool) (t : TickTimes)

def Step (serialize : Json → List UInt8) (x : OrientationRelay) (e : Event)
    (x' : OrientationRelay) : Prop :=
  match e with
  | .submit user data => user ∈ x.ctx.mtch.mPlayers.values ∧
      ∃ body, data.buffer = 0x02 :: body ∧ 28 ≤ body.length ∧
        x' = ⟨x.ctx.submitMatchCommand user data, x.updates ++ [(user, body)]⟩
  | .asynUpdate authenticated t => ∃ c out,
      x.ctx.asynUpdate serialize authenticated t = .ok (c, out) ∧ x' = { x with ctx := c }

/-- A match that was just started with `n` players. The updates that arrived with the
start command are still in its queue. -/
structure Init (this : MatchRef) (serialize : Json → List UInt8) (n : ℕ) (x : OrientationRelay) :
    Prop where
  start : ∃ tr c e, (MatchCtx.system this serialize).Exec tr c ∧ c.Starts e ∧
    x.ctx = c.startedWith
  size : x.ctx.mtch.mPlayers.size = n
  small : n ≤ 255
  queue : List.Forall₂ x.ctx.Queued x.ctx.mtch.mCommandQueue x.updates

def system (this : MatchRef) (serialize : Json → List UInt8) (n : ℕ) :
    System OrientationRelay Event := ⟨Init this serialize n, Step serialize⟩

/-- The payload has the length for `n` players and reads as `n` entries in the order of
the UserIDs, with the newest update of each player that has sent one. -/
structure Relayed (n : ℕ) (x : OrientationRelay) (payload : List UInt8) : Prop where
  length : payload.length = 29 * n + 1
  count : x.ctx.mtch.mPlayers.values.length = n
  ascending : (x.ctx.mtch.mPlayers.values.map fun p => (x.ctx.players p).getUserID).Pairwise (· < ·)
  entries : ∃ bytes : PlayerRef → List UInt8,
    readOrientations payload =
      some (x.ctx.mtch.mPlayers.values.map fun p => ⟨(x.ctx.players p).mMatchInstanceId, bytes p⟩) ∧
    ∀ p, (bytes p).length = 28 ∧
      ∀ body, lastUpdate x.updates p = some body → bytes p = body.take 28

structure Inv (n : ℕ) (x : OrientationRelay) : Prop where
  keyed : x.ctx.Keyed
  state : x.ctx.mtch.mMatchState = .started
  mtx : x.ctx.mtch.mPlayerMtx = false
  size : x.ctx.mtch.mPlayers.size = n
  bufferSize : x.ctx.mtch.mOrientationSendBufferSize = entriesEnd n
  small : n ≤ 255
  /-- the updates are those that were executed, and those in the queue -/
  queue : ∃ done pending, x.updates = done ++ pending ∧
    List.Forall₂ x.ctx.Queued x.ctx.mtch.mCommandQueue pending ∧ x.ctx.Stored done

variable {this : MatchRef} {serialize : Json → List UInt8} {n : ℕ} {x x' : OrientationRelay}

theorem inv_init (h : Init this serialize n x) : Inv n x := by
  obtain ⟨tr, c, e, hexec, ⟨_, _, _, -, -, -, hmtx⟩, hctx⟩ := h.start
  have hbyte : (UInt8.ofNat n).toNat = n := by
    rw [UInt8.toNat_ofNat', Nat.mod_eq_of_lt (Nat.lt_succ_of_le h.small)]
  have hsize : c.mtch.mPlayers.size = n := by
    rw [← h.size, hctx]
    rfl
  refine ⟨?_, ?_, ?_, h.size, ?_, h.small, [], x.updates, rfl, h.queue, fun p body hlast => ?_⟩
  · have hkeyed : c.Keyed := exec_keyed hexec
    rw [hctx]
    exact hkeyed
  · rw [hctx]
    rfl
  · rw [hctx]
    exact hmtx
  · rw [hctx]
    change (Player.orientationSize + 1) * (UInt8.ofNat c.mtch.mPlayers.size).toNat + 1 = _
    rw [hsize, hbyte, entriesEnd, Nat.mul_comm]
  · cases hlast

/-- What the parts of a frame behind the commands keep. -/
structure Steady (c c' : MatchCtx) : Prop extends SameRoster c c', SamePhase c c' where
  queue : c'.mtch.mCommandQueue = c.mtch.mCommandQueue
  orientation : ∀ q, (c'.players q).serializeOrientation = (c.players q).serializeOrientation

theorem Steady.refl (c : MatchCtx) : Steady c c := ⟨.refl c, ⟨rfl, rfl⟩, rfl, fun _ => rfl⟩

theorem Steady.stored {c c' : MatchCtx} (h : Steady c c') {updates : List (PlayerRef × List UInt8)}
    (hc : c.Stored updates) : c'.Stored updates := by
  intro p body hlast
  rw [h.orientation]
  exact hc p body hlast

theorem Inv.steady {c : MatchCtx} (hx : Inv n x) (h : Steady x.ctx c) :
    Inv n { x with ctx := c } := by
  obtain ⟨done, pending, hupdates, hqueue, hstored⟩ := hx.queue
  refine ⟨h.toSameRoster.keyed hx.keyed, h.state.trans hx.state, h.mtx.trans hx.mtx, ?_,
    h.bufferSize.trans hx.bufferSize, hx.small, done, pending, hupdates, ?_, h.stored hstored⟩
  · rw [h.mPlayers]
    exact hx.size
  · rw [h.queue]
    exact hqueue.imp fun _ _ => h.toSameRoster.queued

theorem updatePlayers_steady {c : MatchCtx} (hm : c.mtch.mPlayerMtx = false) (now now' : UInt64) :
    ∃ c', c.updatePlayers now now' = .ok c' ∧ Steady c c' := by
  obtain ⟨c', h⟩ : ∃ c', c.updatePlayers now now' = .ok c' := ⟨_, if_neg (by simp [hm])⟩
  obtain ⟨hmtch, hfield⟩ := updatePlayers_ok h
  have hupdate : ∀ {α : Type} (g : Player → α), (∀ (p : Player) t, g { p with mSentLastJump := t } = g p) →
      ∀ q, g (c'.players q) = g (c.players q) :=
    fun g hg => hfield g fun p => matchUpdate_field g hg p now now'
  refine ⟨c', h, ⟨?_, ?_, hupdate _ fun _ _ => rfl, hupdate _ fun _ _ => rfl⟩, ⟨?_, ?_⟩, ?_,
    hupdate _ fun _ _ => rfl⟩ <;> rw [hmtch]

theorem sendPlayerEvents_steady {c : MatchCtx} (hm : c.mtch.mPlayerMtx = false) :
    ∃ c' out, c.sendPlayerEvents = .ok (c', out) ∧ Steady c c' ∧ ∀ b ∈ out, b.cmd = .playerEvents := by
  have hdrained : Steady c
      { c with players := (drainEvents c.mtch.mPlayers.values c.players [] 0).1 } := by
    have hfield : ∀ {α : Type} (g : Player → α), (∀ p : Player, g { p with mActiveEvents := [] } = g p) →
        ∀ q, g ((drainEvents c.mtch.mPlayers.values c.players [] 0).1 q) = g (c.players q) :=
      fun g hg => drainEvents_field g hg _ _ _ _
    exact ⟨⟨rfl, rfl, hfield _ fun _ => rfl, hfield _ fun _ => rfl⟩, ⟨rfl, rfl⟩, rfl,
      hfield _ fun _ => rfl⟩
  unfold sendPlayerEvents
  rw [hm, if_neg Bool.false_ne_true]
  dsimp only
  split_ifs
  · exact ⟨_, _, rfl, .refl c, List.forall_mem_nil _⟩
  · exact ⟨_, _, rfl, hdrained, List.forall_mem_nil _⟩
  · exact ⟨_, _, rfl, hdrained, List.forall_mem_singleton.mpr rfl⟩

/-- After the queued commands every update is stored. -/
theorem processNetCommands_inv (hx : Inv n x) (serialize : Json → List UInt8)
    (authenticated : SessionRef → Bool) :
    ∃ c, x.ctx.processNetCommands serialize authenticated = .ok (c, []) ∧
      Inv n { x with ctx := c } ∧ c.Stored x.updates ∧ SameRoster x.ctx c := by
  obtain ⟨done, pending, hupdates, hqueue, hstored⟩ := hx.queue
  have hempty : SameRoster x.ctx (x.ctx.setMatch fun m => { m with mCommandQueue := [] }) :=
    ⟨rfl, rfl, fun _ => rfl, fun _ => rfl⟩
  obtain ⟨hmtch, hsame⟩ :=
    foldl_updated (x.ctx.setMatch fun m => { m with mCommandQueue := [] }) pending
  have hall := stored_foldl (queued_length hqueue) (c := x.ctx.setMatch fun m => { m with mCommandQueue := [] }) hstored
  rw [← hupdates] at hall
  refine ⟨_, executeCommands_updates (hempty.keyed hx.keyed)
    (hqueue.imp fun _ _ => hempty.queued), ⟨hsame.keyed (hempty.keyed hx.keyed), ?_, ?_, ?_, ?_,
      hx.small, x.updates, [], (List.append_nil _).symm, ?_, hall⟩, hall,
    hsame.mPlayers, hsame.mtx, hsame.userID, hsame.instanceId⟩
  · rw [hmtch]
    exact hx.state
  · rw [hmtch]
    exact hx.mtx
  · rw [hmtch]
    exact hx.size
  · rw [hmtch]
    exact hx.bufferSize
  · rw [hmtch]
    exact .nil

/-- A payload with the stored orientations of all players is what the readers expect. -/
theorem relayed_of_stored {c : MatchCtx} (hx : Inv n x) (hstored : c.Stored x.updates)
    (hsame : SameRoster x.ctx c) :
    Relayed n x (UInt8.ofNat c.mtch.mPlayers.size ::
      c.mtch.mPlayers.values.flatMap (orientationEntry c.players)) := by
  have hcount : x.ctx.mtch.mPlayers.values.length = n := (values_length _).trans hx.size
  have hentries : c.mtch.mPlayers.values.flatMap (orientationEntry c.players) =
      (x.ctx.mtch.mPlayers.values.map fun p => (⟨(x.ctx.players p).mMatchInstanceId,
        (c.players p).serializeOrientation⟩ : OrientationEntry)).flatMap OrientationEntry.encode := by
    rw [hsame.mPlayers, List.flatMap_map]
    refine List.flatMap_congr fun p _ => ?_
    rw [orientationEntry, hsame.instanceId]
    rfl
  have hkeys : (x.ctx.mtch.mPlayers.values.map fun p => (x.ctx.players p).getUserID) =
      x.ctx.mtch.mPlayers.keys := by
    simp only [OrdMap.values, OrdMap.keys, List.map_map]
    exact List.map_congr_left fun e he => hx.keyed e he
  refine ⟨?_, hcount, ?_, fun p => (c.players p).serializeOrientation, ?_,
    fun p => ⟨(c.players p).serializeOrientation_length, hstored p⟩⟩
  · have hlen : ∀ ps : List PlayerRef, (ps.flatMap (orientationEntry c.players)).length =
        29 * ps.length := fun ps => by
      simp only [List.length_flatMap, orientationEntry_length, List.map_const', List.sum_replicate,
        smul_eq_mul, Player.orientationSize]
      exact Nat.mul_comm _ _
    rw [List.length_cons, hlen, hsame.mPlayers, hcount]
  · rw [hkeys]
    exact OrdMap.keys_sorted _
  · rw [hentries, hsame.mPlayers, hx.size, ← hcount, ← List.length_map]
    refine readOrientations_encode ?_ ?_
    · rw [List.length_map, hcount]
      exact hx.small
    · exact List.forall_mem_map.mpr fun p _ => (c.players p).serializeOrientation_length

theorem sendOrientationUpdates_steady {c : MatchCtx} (hm : c.mtch.mPlayerMtx = false)
    (hsize : c.mtch.mOrientationSendBufferSize = entriesEnd c.mtch.mPlayers.values.length)
    (now now' : UInt64) : ∃ c' out, c.sendOrientationUpdates now now' = .ok (c', out) ∧ Steady c c' ∧
      ∀ b ∈ out, b.data = UInt8.ofNat c.mtch.mPlayers.size ::
        c.mtch.mPlayers.values.flatMap (orientationEntry c.players) := by
  by_cases hdue : c.Due now
  · obtain ⟨buffer, h⟩ := sendOrientationUpdates_bytes hdue hm hsize now'
    exact ⟨_, _, h, ⟨⟨rfl, rfl, fun _ => rfl, fun _ => rfl⟩, ⟨rfl, rfl⟩, rfl, fun _ => rfl⟩,
      List.forall_mem_singleton.mpr rfl⟩
  · exact ⟨_, _, sendOrientationUpdates_of_not_due hdue, .refl c, List.forall_mem_nil _⟩

/-- One frame: it returns, every payload of orientations is right, and the match is
ready for the next one. -/
theorem asynUpdate_inv (hx : Inv n x) (serialize : Json → List UInt8)
    (authenticated : SessionRef → Bool) (t : TickTimes) :
    ∃ c out, x.ctx.asynUpdate serialize authenticated t = .ok (c, out) ∧
      Inv n { x with ctx := c } ∧ ∀ b ∈ out, b.cmd = .updateOrientations → Relayed n x b.data := by
  obtain ⟨c₁, h₁, hinv₁, hstored₁, hsame₁⟩ :=
    processNetCommands_inv hx serialize authenticated
  obtain ⟨c₂, h₂, hsteady₂⟩ :=
    updatePlayers_steady hinv₁.mtx t.updatePlayers.1 t.updatePlayers.2
  have hinv₂ := hinv₁.steady hsteady₂
  have hbuffer : c₂.mtch.mOrientationSendBufferSize = entriesEnd c₂.mtch.mPlayers.values.length := by
    rw [values_length, hinv₂.size]
    exact hinv₂.bufferSize
  obtain ⟨c₃, out, h₃, hsteady₃, hdata⟩ := sendOrientationUpdates_steady hinv₂.mtx hbuffer
    t.sendOrientations.1 t.sendOrientations.2
  have hinv₃ := hinv₂.steady hsteady₃
  obtain ⟨c₄, out', h₄, hsteady₄, hevents⟩ := sendPlayerEvents_steady hinv₃.mtx
  refine ⟨c₄, out ++ out', ?_, hinv₃.steady hsteady₄, fun b hb hcmd => ?_⟩
  · rw [asynUpdate, h₁]
    refine Exec.bind_eq_ok.mpr ⟨(c₁, []), rfl, Exec.bind_eq_ok.mpr ⟨c₂, h₂, ?_⟩⟩
    exact Exec.bind_eq_ok.mpr ⟨_, h₃, Exec.bind_eq_ok.mpr ⟨_, h₄, rfl⟩⟩
  · rcases List.mem_append.mp hb with hb | hb
    · rw [hdata b hb]
      exact relayed_of_stored hx (hsteady₂.stored hstored₁) (hsame₁.trans hsteady₂.toSameRoster)
    · rw [hevents b hb] at hcmd
      cases hcmd

theorem inv_step {e : Event} (hx : Inv n x) (h : Step serialize x e x') : Inv n x' := by
  cases e with
  | submit user data =>
    obtain ⟨huser, body, hdata, hlen, rfl⟩ := h
    obtain ⟨done, pending, hupdates, hqueue, hstored⟩ := hx.queue
    have hsame : SameRoster x.ctx (x.ctx.submitMatchCommand user data) :=
      ⟨rfl, rfl, fun _ => rfl, fun _ => rfl⟩
    refine ⟨hsame.keyed hx.keyed, hx.state, hx.mtx, hx.size, hx.bufferSize, hx.small, done,
      pending ++ [(user, body)], ?_, ?_, hstored⟩
    · rw [hupdates, List.append_assoc]
    · have hlast : Queued x.ctx ⟨(x.ctx.players user).getUserID, data⟩ (user, body) :=
        ⟨huser, rfl, hdata, hlen⟩
      exact (List.rel_append hqueue (.cons hlast .nil)).imp fun _ _ => hsame.queued
  | asynUpdate authenticated t =>
    obtain ⟨c, out, h, rfl⟩ := h
    obtain ⟨c', out', h', hinv, -⟩ := asynUpdate_inv hx serialize authenticated t
    rw [h] at h'
    cases h'
    exact hinv

/-- In every state of a run a frame returns, and each payload of orientations that it
broadcasts is right for the updates that were sent before it. -/
theorem orientations_relayed (this : MatchRef) (serialize : Json → List UInt8) (n : ℕ)
    (tr : List (OrientationRelay × Event)) (x : OrientationRelay)
    (h : (system this serialize n).Exec tr x) (authenticated : SessionRef → Bool) (t : TickTimes) :
    ∃ c out, x.ctx.asynUpdate serialize authenticated t = .ok (c, out) ∧
      ∀ b ∈ out, b.cmd = .updateOrientations → Relayed n x b.data := by
  have hx := h.inv (Inv n) (fun _ => inv_init) fun _ _ _ => inv_step
  obtain ⟨c, out, hret, -, hrelayed⟩ := asynUpdate_inv hx serialize authenticated t
  exact ⟨c, out, hret, hrelayed⟩

/-! ### One player and one update -/

def sampleBody : List UInt8 := (List.range 30).map UInt8.ofNat

def loneMatch : MatchCtx := (waitingMatch.joined 0 0).startedWith

theorem loneMatch_init (serialize : Json → List UInt8) : Init 0 serialize 1 ⟨loneMatch, []⟩ := by
  have h := (waitingMatch_exec 0 serialize).next (.join 0) (waitingMatch.joined 0 0)
    (step_join 0 serialize 0 rfl rfl)
  refine ⟨⟨_, _, .command (fun _ => true) 1 [0x01], h, ?_, rfl⟩, rfl, by decide, .nil⟩
  exact ⟨_, _, _, rfl, ⟨⟨0, rfl⟩, [], rfl⟩, rfl, rfl⟩

/-- The next frame relays the first 28 bytes. -/
theorem one_update_relayed : ∃ tr x, (system 0 (fun _ => []) 1).Exec tr x ∧
    lastUpdate x.updates 0 = some sampleBody ∧ ∃ c out,
      x.ctx.asynUpdate (fun _ => []) (fun _ => true) ⟨(0, 0), (51, 51)⟩ = .ok (c, out) ∧
      out = [⟨.updateOrientations, 1 :: 1 :: sampleBody.take 28, .udp⟩] ∧
      ∀ b ∈ out, b.cmd = .updateOrientations → Relayed 1 x b.data := by
  have h0 : (system 0 (fun _ => []) 1).Exec [] ⟨loneMatch, []⟩ := .nil (loneMatch_init _)
  have h1 := h0.next (.submit 0 ⟨.udp, 0x02, 0x02 :: sampleBody⟩) _
    ⟨List.mem_singleton.mpr rfl, sampleBody, rfl, by decide, rfl⟩
  obtain ⟨c, out, hret, hrelayed⟩ :=
    orientations_relayed 0 _ 1 _ _ h1 (fun _ => true) ⟨(0, 0), (51, 51)⟩
  refine ⟨_, _, h1, rfl, c, out, hret, ?_, hrelayed⟩
  have hout : ∃ c', asynUpdate (fun _ => []) (fun _ => true) ⟨(0, 0), (51, 51)⟩
      (loneMatch.submitMatchCommand 0 ⟨.udp, 0x02, 0x02 :: sampleBody⟩) =
        .ok (c', [⟨.updateOrientations, 1 :: 1 :: sampleBody.take 28, .udp⟩]) := ⟨_, rfl⟩
  obtain ⟨c', hout⟩ := hout
  rw [hout] at hret
  cases hret
  rfl

end OrientationRelay

end GameServer
