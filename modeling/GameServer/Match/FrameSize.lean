import GameServer.Match.PlayerEvents
import GameServer.Network.Sender

/-! The TCP messages of a match against the frame format. Nothing between a net
command and the send buffer checks a size, so what `SendPlayerEvents` and
`StartMatch` broadcast fits a frame exactly while the queued events and the roster
are small enough. -/

namespace GameServer

open Lib

/-! ### The frame of a broadcast -/

namespace Broadcast

/-- What `SocketUser::Send` makes of a broadcast. -/
def message (b : Broadcast) : List UInt8 := BufferUtils.addFirst b.cmd.toByte b.data

/-- What `tcp_connection::Send` pushes. -/
def frame (b : Broadcast) : List UInt8 := BufferUtils.addLength b.message

/-- The message fits a frame: its length field is true, and `start_send` copies it
within the send buffer. -/
structure Fits (b : Broadcast) : Prop where
  size : b.message.length ≤ 65533
  length : (UInt16.ofNat b.message.length).toNat = b.message.length
  copy : b.frame.length ≤ Sender.sendBufferSize

theorem fits_iff (b : Broadcast) : b.Fits ↔ b.data.length + 1 ≤ 65533 := by
  have hmessage : b.message.length = b.data.length + 1 := by
    simp [message, BufferUtils.addFirst, BufferUtils.add]
  constructor
  · intro h
    rw [← hmessage]
    exact h.size
  · intro h
    refine ⟨by rwa [hmessage], ?_, ?_⟩
    · rw [hmessage, UInt16.toNat_ofNat']
      omega
    · rw [frame, BufferUtils.addLength, BufferUtils.add, List.length_append,
        BufferUtils.bytes16_length, hmessage, Sender.sendBufferSize]
      omega

end Broadcast

/-! ### The size of the queued events -/

namespace Player

/-- The queued events that `SerializePlayerEvents` writes. -/
def sentEvents (p : Player) : List PlayerEvent := p.mActiveEvents.filter fun e => e.command ≠ .none

/-- Three bytes for each of them, and its data. -/
def eventBytes (p : Player) : ℕ := (p.sentEvents.map fun e => 3 + e.data.length).sum

theorem sentEntries_length (p : Player) : p.sentEntries.length = p.sentEvents.length :=
  List.length_map ..

theorem sentEntries_bytes (p : Player) :
    (p.sentEntries.flatMap EventEntry.encode).length = p.eventBytes := by
  rw [List.length_flatMap, sentEntries, List.map_map, eventBytes, sentEvents]
  congr 1
  refine List.map_congr_left fun e _ => ?_
  simp only [Function.comp_apply, EventEntry.encode, PlayerEvent.entry, List.length_append,
    List.length_cons, List.length_nil, Nat.zero_add]

end Player

namespace MatchCtx

/-- The bytes that the queued events of all players take. -/
def eventBytes (c : MatchCtx) : ℕ := (c.mtch.mPlayers.values.map fun p => (c.players p).eventBytes).sum

def eventCount (c : MatchCtx) : ℕ :=
  (c.mtch.mPlayers.values.map fun p => (c.players p).sentEvents.length).sum

theorem drainEvents_length (ps : List PlayerRef) (hn : ps.Nodup) (players : PlayerRef → Player)
    (buff : List UInt8) (num : UInt8) :
    (drainEvents ps players buff num).2.1.length =
      buff.length + (ps.map fun p => (players p).eventBytes).sum ∧
    (drainEvents ps players buff num).2.2 =
      num + UInt8.ofNat (ps.map fun p => (players p).sentEvents.length).sum := by
  have hbytes : ((ps.flatMap fun p => (players p).sentEntries).flatMap EventEntry.encode).length =
      (ps.map fun p => (players p).eventBytes).sum := by
    rw [List.flatMap_assoc, List.length_flatMap]
    simp only [Player.sentEntries_bytes]
  have hcount : (ps.flatMap fun p => (players p).sentEntries).length =
      (ps.map fun p => (players p).sentEvents.length).sum := by
    rw [List.length_flatMap]
    simp only [Player.sentEntries_length]
  rw [drainEvents_eq ps hn, List.length_append, hbytes, hcount]
  exact ⟨rfl, rfl⟩

/-! ### What is broadcast in a run -/

/-- What `StartMatch` and `SendPlayerEvents` broadcast in a step. -/
def tcpBroadcasts (serialize : Json → List UInt8) (x : MatchCtx × MatchEvent) : List Broadcast :=
  match x.2 with
  | .command authenticated userID buffer =>
    match x.1.executeNetCommand serialize authenticated userID buffer with
    | .ok r => r.2
    | .error _ => []
  | .sendEvents =>
    match x.1.sendPlayerEvents with
    | .ok r => r.2
    | .error _ => []
  | _ => []

/-- The events that are sent make a message of at most 65533 bytes. -/
def EventsFit (c : MatchCtx) : Prop :=
  c.mtch.mMatchState = .started → c.mtch.mPlayerMtx = false → c.eventCount % 256 ≠ 0 →
    c.eventBytes + 2 ≤ 65533

/-- The text of the roster makes a message of at most 65533 bytes. -/
def RosterFits (serialize : Json → List UInt8) (c : MatchCtx) : Prop :=
  c.mtch.mMatchState = .joinedWaiting → c.mtch.mPlayerMtx = false →
    (serialize c.roster).length + 2 ≤ 65533

/-- A step that sends events sends few enough, and one that starts the match has a
short enough roster. -/
def SizesFit (serialize : Json → List UInt8) (x : MatchCtx × MatchEvent) : Prop :=
  match x.2 with
  | .command _ userID buffer => x.1.startCommand userID buffer → x.1.RosterFits serialize
  | .sendEvents => x.1.EventsFit
  | _ => True

theorem sendPlayerEvents_fits (serialize : Json → List UInt8) {c : MatchCtx} (hc : c.Keyed) :
    (∀ b ∈ tcpBroadcasts serialize (c, .sendEvents), b.Fits) ↔ c.EventsFit := by
  obtain ⟨hbytes, hcount⟩ :=
    drainEvents_length c.mtch.mPlayers.values hc.values_nodup c.players [] 0
  rw [List.length_nil, Nat.zero_add] at hbytes
  rw [UInt8.zero_add] at hcount
  simp only [tcpBroadcasts, sendPlayerEvents, EventsFit]
  by_cases hstate : c.mtch.mMatchState = .started
  · by_cases hmtx : c.mtch.mPlayerMtx = true
    · simp [hstate, hmtx]
    · rw [if_neg (not_not.mpr hstate), if_neg hmtx]
      have hzero : (drainEvents c.mtch.mPlayers.values c.players [] 0).2.2 = 0 ↔
          c.eventCount % 256 = 0 := by
        rw [hcount, ← UInt8.toNat_inj, UInt8.toNat_ofNat']
        rfl
      by_cases hnum : c.eventCount % 256 = 0
      · rw [if_pos (hzero.mpr hnum)]
        simp [hnum]
      · rw [if_neg (hzero.not.mpr hnum)]
        simp only [List.mem_singleton, forall_eq, Broadcast.fits_iff, BufferUtils.addFirst,
          BufferUtils.add, List.length_append, List.length_singleton, hbytes]
        have hfree : c.mtch.mPlayerMtx = false := by simpa using hmtx
        rw [forall_prop_of_true hstate, forall_prop_of_true hfree, forall_prop_of_true hnum,
          eventBytes]
        omega
  · simp [hstate]

theorem command_fits (serialize : Json → List UInt8) (authenticated : SessionRef → Bool)
    (userID : UserID) (buffer : List UInt8) (c : MatchCtx) :
    (∀ b ∈ tcpBroadcasts serialize (c, .command authenticated userID buffer), b.Fits) ↔
      (c.startCommand userID buffer → c.RosterFits serialize) := by
  by_cases hstart : c.startCommand userID buffer
  · rw [forall_prop_of_true hstart, tcpBroadcasts]
    dsimp only
    rw [executeNetCommand_of_start hstart]
    unfold startMatch RosterFits
    by_cases hstate : c.mtch.mMatchState = .joinedWaiting
    · by_cases hmtx : c.mtch.mPlayerMtx = true
      · simp [hstate, hmtx]
      · rw [if_neg (not_not.mpr hstate)]
        dsimp only
        rw [if_neg hmtx]
        have hfree : c.mtch.mPlayerMtx = false := by simpa using hmtx
        simp only [List.mem_singleton, forall_eq, Broadcast.fits_iff, List.length_append,
          List.length_singleton]
        rw [forall_prop_of_true hstate, forall_prop_of_true hfree]
    · simp [hstate]
  · simp only [hstart, false_imp_iff, iff_true, tcpBroadcasts]
    cases hexec : c.executeNetCommand serialize authenticated userID buffer with
    | error _ => simp
    | ok r =>
      obtain ⟨hout, -⟩ := executeNetCommand_of_not_start hstart hexec
      simp [hout]

/-- Every message that a run broadcasts over TCP fits a frame if and only if every
step that makes one has the sizes for it. -/
theorem broadcasts_fit_iff (this : MatchRef) (serialize : Json → List UInt8)
    (tr : List (MatchCtx × MatchEvent)) (c : MatchCtx) (h : (system this serialize).Exec tr c) :
    (∀ x ∈ tr, ∀ b ∈ tcpBroadcasts serialize x, b.Fits) ↔ ∀ x ∈ tr, SizesFit serialize x := by
  have hkeyed : ∀ x ∈ tr, x.1.Keyed :=
    h.forall_trace Keyed (fun _ => Init.keyed) fun _ _ _ => step_keyed
  refine forall₂_congr fun x hx => ?_
  obtain ⟨c, e⟩ := x
  cases e with
  | command authenticated userID buffer => exact command_fits serialize authenticated userID buffer c
  | sendEvents => exact sendPlayerEvents_fits serialize (hkeyed _ hx)
  | _ => simp [tcpBroadcasts, SizesFit]

/-! ### A short event, and one that fills a client's frame -/

theorem sendPlayerEvents_returns {c : MatchCtx} (h : c.mtch.mPlayerMtx = false) :
    ∃ c' out, c.sendPlayerEvents = .ok (c', out) := by
  unfold sendPlayerEvents
  by_cases hstate : c.mtch.mMatchState = .started
  · rw [if_neg (not_not.mpr hstate), h]
    simp only [Bool.false_eq_true, if_false]
    split_ifs <;> exact ⟨_, _, rfl⟩
  · rw [if_pos hstate]
    exact ⟨_, _, rfl⟩

/-- The match starts, and a `Jump` event with these data is sent on. -/
def jumpTrace (data : List UInt8) : List (MatchCtx × MatchEvent) :=
  startTrace ++ [(startedMatch, .sendEvents), jumpStep data, (jumpedMatch data, .sendEvents)]

theorem jumpTrace_exec (data : List UInt8) :
    ∃ c, (system 0 sampleSerialize).Exec (jumpTrace data) c := by
  obtain ⟨c, out, h⟩ := sendPlayerEvents_returns (c := jumpedMatch data) rfl
  exact ⟨c, (jumpedMatch_exec data).next .sendEvents c ⟨out, h⟩⟩

theorem mem_jumpTrace (data : List UInt8) :
    (jumpedMatch data, MatchEvent.sendEvents) ∈ jumpTrace data := by
  simp [jumpTrace]

theorem jumpedMatch_eventsFit {data : List UInt8} (h : (jumpedMatch data).EventsFit) :
    3 + data.length + 2 ≤ 65533 := by
  have hcount : (jumpedMatch data).eventCount = 1 := rfl
  have hbytes : (jumpedMatch data).eventBytes = 3 + data.length := rfl
  rw [← hbytes]
  exact h rfl rfl (by rw [hcount]; decide)

theorem short_jump_fits : (∃ c, (system 0 sampleSerialize).Exec (jumpTrace [7]) c) ∧
    ∀ x ∈ jumpTrace [7], ∀ b ∈ tcpBroadcasts sampleSerialize x, b.Fits := by
  obtain ⟨c, h⟩ := jumpTrace_exec [7]
  refine ⟨⟨c, h⟩, (broadcasts_fit_iff 0 sampleSerialize _ c h).mpr fun x hx => ?_⟩
  simp only [jumpTrace, startTrace, List.cons_append, List.nil_append, List.mem_cons,
    List.not_mem_nil, or_false] at hx
  rcases hx with rfl | rfl | rfl | rfl | rfl | rfl
  · trivial
  · trivial
  · exact fun _ _ _ => by decide
  · exact fun _ _ hnum => absurd rfl hnum
  · exact fun _ hstate => absurd hstate nofun
  · exact fun _ _ _ => by decide

theorem long_jump_too_long {data : List UInt8} (h : 65528 < data.length) :
    ¬ ∀ x ∈ jumpTrace data, ∀ b ∈ tcpBroadcasts sampleSerialize x, b.Fits := by
  intro hall
  have hkeyed := exec_keyed (jumpedMatch_exec data)
  have hfits := (sendPlayerEvents_fits sampleSerialize hkeyed).mp (hall _ (mem_jumpTrace data))
  have hbytes := jumpedMatch_eventsFit hfits
  omega

/-- The event of a client frame of 65535 bytes makes a message of 65535 bytes. -/
theorem full_frame_too_long : ∃ data,
    (BufferUtils.addLength (0x02 :: 0x03 :: 0x01 :: data)).length = 65535 ∧
    (∃ c, (system 0 sampleSerialize).Exec (jumpTrace data) c) ∧
    ¬ ∀ x ∈ jumpTrace data, ∀ b ∈ tcpBroadcasts sampleSerialize x, b.Fits := by
  obtain ⟨data, hlen⟩ : ∃ data : List UInt8, data.length = 65530 :=
    ⟨List.replicate 65530 0, List.length_replicate ..⟩
  refine ⟨data, ?_, jumpTrace_exec data, long_jump_too_long (by omega)⟩
  rw [BufferUtils.addLength, BufferUtils.add, List.length_append, BufferUtils.bytes16_length]
  simp only [List.length_cons, hlen]

end MatchCtx

end GameServer
