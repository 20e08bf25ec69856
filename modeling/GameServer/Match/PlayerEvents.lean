import GameServer.Lib.Counted
import GameServer.Match.Run

/-! Relaying player events: what `SendPlayerEvents` broadcasts, read back, against
the events that were submitted since its last call. -/

namespace GameServer

open Lib

/-! ### The payload -/

/-- One entry of a `Player_Events` payload. -/
structure EventEntry where
  instanceId : UInt8
  command : UInt8
  data : List UInt8
  deriving DecidableEq, Repr

namespace EventEntry

/-- The bytes that `SerializePlayerEvents` appends for one event. -/
def encode (e : EventEntry) : List UInt8 :=
  [e.instanceId, e.command, UInt8.ofNat e.data.length] ++ e.data

/-- Read `[instance id, command, data length, data]`. -/
def read : List UInt8 → Option (EventEntry × List UInt8)
  | id :: command :: length :: rest =>
    if length.toNat ≤ rest.length then
      some (⟨id, command, rest.take length.toNat⟩, rest.drop length.toNat)
    else none
  | _ => none

theorem read_encode {e : EventEntry} (h : e.data.length ≤ 255) (rest : List UInt8) :
    read (e.encode ++ rest) = some (e, rest) := by
  have hlen : (UInt8.ofNat e.data.length).toNat = e.data.length := by
    rw [UInt8.toNat_ofNat']
    omega
  simp [read, encode, hlen]

/-- An entry that is read back has a data length that fits its byte. -/
theorem length_of_read {e : EventEntry} {rest rest' : List UInt8}
    (h : read (e.encode ++ rest) = some (e, rest')) : e.data.length ≤ 255 := by
  simp only [encode, List.cons_append, List.nil_append, read] at h
  split_ifs at h with hle
  have heq := congrArg (fun r => r.map fun x => x.1.data.length) h
  simp only [Option.map_some, List.length_take, Option.some.injEq] at heq
  have := (UInt8.ofNat e.data.length).toNat_lt
  omega

end EventEntry

/-- Read `[count]` and that many entries, with nothing behind them. -/
def readPayload : List UInt8 → Option (List EventEntry)
  | [] => none
  | count :: rest =>
    match times EventEntry.read count.toNat rest with
    | some (entries, []) => some entries
    | _ => none

/-- Entries come back from their payload exactly when their number and all data
lengths fit one byte. -/
theorem readPayload_iff (l : List EventEntry) :
    readPayload (UInt8.ofNat l.length :: l.flatMap EventEntry.encode) = some l ↔
      l.length ≤ 255 ∧ ∀ e ∈ l, e.data.length ≤ 255 := by
  have hread : ∀ n, n = l.length →
      times EventEntry.read n (l.flatMap EventEntry.encode) = some (l, []) →
      ∀ e ∈ l, e.data.length ≤ 255 := by
    intro n hn h
    apply (times_flatMap_iff EventEntry.encode (fun e => e.data.length ≤ 255)
      (fun _ rest h => EventEntry.read_encode h rest)
      (fun _ _ _ => EventEntry.length_of_read) l []).mp
    rw [List.append_nil, ← hn]
    exact ⟨[], h⟩
  refine ⟨fun h => ?_, fun ⟨hn, hl⟩ => ?_⟩
  · simp only [readPayload] at h
    split at h
    · next entries heq =>
      cases h
      have hcount := times_length heq
      have := (UInt8.ofNat l.length).toNat_lt
      exact ⟨by omega, hread _ hcount.symm heq⟩
    · cases h
  · have hcount : (UInt8.ofNat l.length).toNat = l.length := by
      rw [UInt8.toNat_ofNat']
      omega
    have htimes := times_flatMap EventEntry.encode l
      (fun e he rest => EventEntry.read_encode (hl e he) rest) []
    rw [List.append_nil] at htimes
    simp only [readPayload, hcount, htimes]

/-! ### What `SendPlayerEvents` writes -/

/-- The entry of an event of a player with this instance id. -/
def PlayerEvent.entry (id : UInt8) (e : PlayerEvent) : EventEntry := ⟨id, e.command.toByte, e.data⟩

namespace Player

/-- The entries of the queued events. -/
def entries (p : Player) : List EventEntry := p.mActiveEvents.map (·.entry p.mMatchInstanceId)

/-- The entries that `SerializePlayerEvents` writes: it skips the command `None`. -/
def sentEntries (p : Player) : List EventEntry :=
  (p.mActiveEvents.filter fun e => e.command ≠ .none).map (·.entry p.mMatchInstanceId)

theorem sentEntries_eq {p : Player} (hq : ∀ e ∈ p.mActiveEvents, e.command ≠ .none) :
    p.sentEntries = p.entries := by
  rw [sentEntries, entries, List.filter_eq_self.mpr fun e he => decide_eq_true (hq e he)]

theorem serializeEvents_eq (id : UInt8) (q : List PlayerEvent) (buff : List UInt8) (num : ℕ) :
    serializeEvents id q buff num =
      (buff ++ ((q.filter fun e => e.command ≠ .none).map (·.entry id)).flatMap EventEntry.encode,
        num + (q.filter fun e => e.command ≠ .none).length) := by
  induction q generalizing buff num with
  | nil => simp [serializeEvents]
  | cons e q ih =>
    by_cases hnone : e.command = .none
    · simpa [serializeEvents, hnone] using ih buff num
    · have hdata : (if e.data.length > 0
          then BufferUtils.add (buff ++ [id, e.command.toByte, UInt8.ofNat e.data.length]) e.data
          else buff ++ [id, e.command.toByte, UInt8.ofNat e.data.length]) =
          buff ++ (e.entry id).encode := by
        split_ifs with h
        · simp [BufferUtils.add, EventEntry.encode, PlayerEvent.entry]
        · have : e.data = [] := List.length_eq_zero_iff.mp (by omega)
          simp [EventEntry.encode, PlayerEvent.entry, this]
      rw [List.filter_cons_of_pos (by simpa using hnone)]
      simp only [serializeEvents, if_neg hnone, hdata, ih, List.map_cons, List.flatMap_cons,
        List.append_assoc, List.length_cons]
      congr 1
      omega

theorem serializePlayerEvents_eq (p : Player) (buff : List UInt8) :
    p.serializePlayerEvents buff = ({ p with mActiveEvents := [] },
      buff ++ p.sentEntries.flatMap EventEntry.encode, p.sentEntries.length) := by
  simp [serializePlayerEvents, serializeEvents_eq, sentEntries]

end Player

namespace MatchCtx

theorem drainEvents_eq (ps : List PlayerRef) (hn : ps.Nodup) (players : PlayerRef → Player)
    (buff : List UInt8) (num : UInt8) :
    (drainEvents ps players buff num).2 =
      (buff ++ (ps.flatMap fun p => (players p).sentEntries).flatMap EventEntry.encode,
        num + UInt8.ofNat (ps.flatMap fun p => (players p).sentEntries).length) := by
  induction ps generalizing players buff num with
  | nil => simp [drainEvents]
  | cons p ps ih =>
    obtain ⟨hp, hn⟩ := List.nodup_cons.mp hn
    have hentries : (ps.flatMap fun q => (Function.update players p
        { players p with mActiveEvents := [] } q).sentEntries) =
        ps.flatMap fun q => (players q).sentEntries := by
      refine List.flatMap_congr fun q hmem => ?_
      rw [Function.update_of_ne]
      rintro rfl
      exact hp hmem
    rw [drainEvents, Player.serializePlayerEvents_eq]
    dsimp only
    rw [ih hn, hentries]
    simp [UInt8.ofNat_add, UInt8.add_assoc]

theorem drainEvents_empty (ps : List PlayerRef) (players : PlayerRef → Player)
    (buff : List UInt8) (num : UInt8) {p : PlayerRef}
    (hp : p ∈ ps ∨ (players p).mActiveEvents = []) :
    ((drainEvents ps players buff num).1 p).mActiveEvents = [] := by
  induction ps generalizing players buff num with
  | nil => exact hp.resolve_left (by simp)
  | cons q ps ih =>
    apply ih
    by_cases h : p = q
    · subst h
      exact Or.inr (by rw [Function.update_self]; rfl)
    · rw [Function.update_of_ne h]
      exact hp.imp_left fun hmem => (List.mem_cons.mp hmem).resolve_left h

/-! ### The events submitted since the last call -/

/-- The `Jump` event that a step submits, when `SubmitPlayerEvent` accepts it. -/
def acceptedEvent (x : MatchCtx × MatchEvent) : List (PlayerRef × PlayerEvent) :=
  match x.2 with
  | .command authenticated userID buffer =>
    match x.1.eventCommand userID buffer with
    | some (p, cmd, data) =>
      if cmd = .jump ∧ (x.1.players p).mSocketUser.any authenticated then [(p, ⟨cmd, data⟩)] else []
    | none => []
  | _ => []

def accepted (tr : List (MatchCtx × MatchEvent)) : List (PlayerRef × PlayerEvent) :=
  tr.flatMap acceptedEvent

/-- The events of one player. -/
def eventsOf (p : PlayerRef) (events : List (PlayerRef × PlayerEvent)) : List PlayerEvent :=
  (events.filter fun x => x.1 = p).map Prod.snd

@[simp] theorem accepted_snoc (tr : List (MatchCtx × MatchEvent)) (x : MatchCtx × MatchEvent) :
    accepted (tr ++ [x]) = accepted tr ++ acceptedEvent x := by
  simp [accepted]

@[simp] theorem eventsOf_append (p : PlayerRef) (l l' : List (PlayerRef × PlayerEvent)) :
    eventsOf p (l ++ l') = eventsOf p l ++ eventsOf p l' := by
  simp [eventsOf]

@[simp] theorem eventsOf_nil (p : PlayerRef) : eventsOf p [] = [] := rfl

theorem eventsOf_single_of_ne {p q : PlayerRef} (h : q ≠ p) (e : PlayerEvent) :
    eventsOf q [(p, e)] = [] := by
  have hne : p ≠ q := fun heq => h heq.symm
  simp [eventsOf, hne]

theorem mem_acceptedEvent {c : MatchCtx} {e : MatchEvent} {x : PlayerRef × PlayerEvent}
    (h : x ∈ acceptedEvent (c, e)) :
    x.2.command = .jump ∧ x.1 ∈ c.mtch.mPlayers.values := by
  cases e with
  | command authenticated userID buffer =>
    unfold acceptedEvent at h
    dsimp only at h
    split at h
    · next p cmd data heq =>
      have hmem := OrdMap.find?_eq_some.mp (eventCommand_sender heq)
      split_ifs at h with hjump
      · rw [List.mem_singleton] at h
        rw [h]
        exact ⟨hjump.1, List.mem_map.mpr ⟨_, hmem, rfl⟩⟩
      · cases h
    · cases h
  | _ => cases h

theorem submit_events {authenticated : SessionRef → Bool} {p : PlayerRef}
    {cmd : OpCodes.PlayerEvents} {data : List UInt8} {c c' : MatchCtx}
    (h : c.submitPlayerEvent authenticated p cmd data = .ok c') (q : PlayerRef) :
    (c'.players q).mActiveEvents = (c.players q).mActiveEvents ++ eventsOf q
      (if cmd = .jump ∧ (c.players p).mSocketUser.any authenticated then [(p, ⟨cmd, data⟩)]
        else []) := by
  obtain ⟨s, hs, rfl⟩ := submitPlayerEvent_ok h
  rw [hs, Option.any_some]
  by_cases ha : authenticated s = true
  · rw [if_pos ha]
    by_cases hcmd : cmd = .jump
    · rw [if_pos ⟨hcmd, ha⟩]
      subst hcmd
      by_cases hq : q = p
      · subst hq
        simp [eventsOf, Player.addPlayerEvent, Player.forwardPlayerEvent]
      · rw [setPlayer_of_ne c _ hq, eventsOf_single_of_ne hq, List.append_nil]
    · -- `Add_Player_Event` drops the other commands
      have hdrop : ∀ x : Player, (x.addPlayerEvent ⟨cmd, data⟩).mActiveEvents = x.mActiveEvents := by
        intro x
        cases cmd with
        | jump => exact absurd rfl hcmd
        | _ => rfl
      rw [if_neg fun h => hcmd h.1, setPlayer_field Player.mActiveEvents c p _ hdrop, eventsOf_nil,
        List.append_nil]
  · rw [if_neg ha, if_neg fun h => ha h.2, eventsOf_nil, List.append_nil]

/-- A net command appends the event that it submits, and nothing else. -/
theorem command_events {serialize : Json → List UInt8} {authenticated : SessionRef → Bool}
    {userID : UserID} {buffer : List UInt8} {c c' : MatchCtx} {out : List Broadcast}
    (h : c.executeNetCommand serialize authenticated userID buffer = .ok (c', out))
    (q : PlayerRef) :
    (c'.players q).mActiveEvents = (c.players q).mActiveEvents ++
      eventsOf q (acceptedEvent (c, .command authenticated userID buffer)) := by
  unfold acceptedEvent
  dsimp only
  rcases executeNetCommand_ok h with ⟨p, cmd, data, hcmd, h⟩ | ⟨hcmd, h⟩
  · rw [hcmd]
    exact submit_events h q
  · rw [hcmd, eventsOf_nil, List.append_nil]
    rcases h with rfl | h | ⟨p, buff, h⟩
    · rfl
    · rcases startMatch_ok h with rfl | ⟨-, size, rfl⟩
      · rfl
      · rfl
    · obtain ⟨l, r, rfl⟩ := updateOrientationNetCmd_ok h
      refine setPlayer_field Player.mActiveEvents c p _ ?_ q
      intro x
      rfl

/-- Between two calls of `SendPlayerEvents` a queue grows by the accepted events. -/
theorem step_events {this : MatchRef} {serialize : Json → List UInt8} {c c' : MatchCtx}
    {e : MatchEvent} (h : Step this serialize c e c') (he : e ≠ .sendEvents) (q : PlayerRef) :
    (c'.players q).mActiveEvents =
      (c.players q).mActiveEvents ++ eventsOf q (acceptedEvent (c, e)) := by
  cases e with
  | command authenticated userID buffer =>
    obtain ⟨out, h⟩ := h
    exact command_events h q
  | sendEvents => exact absurd rfl he
  | threadInit now =>
    obtain ⟨-, rfl⟩ := h
    exact (List.append_nil _).symm
  | join p =>
    obtain ⟨r, h⟩ := h
    rw [joinPlayer_some] at h
    split_ifs at h
    · cases h
      exact (List.append_nil _).symm
    · cases h
      rw [joined_field this p Player.mActiveEvents (fun _ _ _ => rfl)]
      exact (List.append_nil _).symm
  | remove p =>
    obtain ⟨r, h⟩ := h
    rw [removePlayer_eq] at h
    split_ifs at h
    · cases h
      rw [removed_field Player.mActiveEvents (fun _ _ => rfl)]
      exact (List.append_nil _).symm
    · cases h
      exact (List.append_nil _).symm
  | submitCommand user data =>
    cases h
    exact (List.append_nil _).symm
  | updatePlayers now now' =>
    rw [(updatePlayers_ok h).2 Player.mActiveEvents fun p =>
      matchUpdate_field _ (fun _ _ => rfl) p now now']
    exact (List.append_nil _).symm
  | sendOrientations now now' =>
    obtain ⟨out, h⟩ := h
    obtain ⟨buffer, last, rfl⟩ := sendOrientationUpdates_ok h
    exact (List.append_nil _).symm
  | disconnect p =>
    cases h
    rw [setPlayer_field Player.mActiveEvents c p (·.disconnected) fun _ => rfl]
    exact (List.append_nil _).symm
  | endMatch =>
    cases h
    exact (List.append_nil _).symm

/-- A started match can only be ended. -/
theorem step_running {this : MatchRef} {serialize : Json → List UInt8} {c c' : MatchCtx}
    {e : MatchEvent} (h : Step this serialize c e c')
    (hs : c.mtch.mMatchState = .started ∨ c.mtch.mMatchState = .ended) :
    c'.mtch.mMatchState = c.mtch.mMatchState ∨ c'.mtch.mMatchState = .ended := by
  rcases step_phase h with ⟨⟨_, _, _, -, -, hwait, -⟩, -⟩ | ⟨hnone, -⟩ | hend | hsame
  · rcases hs with hs | hs <;> simp [hwait] at hs
  · rcases hs with hs | hs <;> simp [hnone] at hs
  · exact Or.inr hend
  · exact Or.inl hsame.state

/-- The queues of the match hold just these events. -/
structure Pending (events : List (PlayerRef × PlayerEvent)) (c : MatchCtx) : Prop where
  queued : ∀ p ∈ c.mtch.mPlayers.values, (c.players p).mActiveEvents = eventsOf p events
  jumps : ∀ x ∈ events, x.2.command = .jump
  listed : ∀ x ∈ events, x.1 ∈ c.mtch.mPlayers.values

/-- A started match after a call of `SendPlayerEvents` and the steps `seg`: while
it can send again, its queues hold the events that `seg` submitted. -/
structure Collected (seg : List (MatchCtx × MatchEvent)) (c : MatchCtx) : Prop where
  running : c.mtch.mMatchState = .started ∨ c.mtch.mMatchState = .ended
  pending : (∀ x ∈ seg, x.2 ≠ .sendEvents) → c.mtch.mMatchState = .started →
    c.mtch.mPlayerMtx = false → Pending (accepted seg) c

theorem collected_start {c c' : MatchCtx} {out : List Broadcast}
    (hs : c.mtch.mMatchState = .started) (h : c.sendPlayerEvents = .ok (c', out)) :
    Collected [] c' := by
  unfold sendPlayerEvents at h
  rw [if_neg (not_not.mpr hs)] at h
  dsimp only at h
  have hempty : ∀ p ∈ c.mtch.mPlayers.values,
      ((drainEvents c.mtch.mPlayers.values c.players [] 0).1 p).mActiveEvents = [] :=
    fun p hp => drainEvents_empty _ _ _ _ (Or.inl hp)
  split_ifs at h
  · cases h
    exact ⟨Or.inl hs, fun _ _ _ => ⟨hempty, nofun, nofun⟩⟩
  · cases h
    exact ⟨Or.inl hs, fun _ _ _ => ⟨hempty, nofun, nofun⟩⟩

/-- A step after which the match can send again keeps its roster. -/
theorem step_free {this : MatchRef} {serialize : Json → List UInt8} {c c' : MatchCtx}
    {e : MatchEvent} (h : Step this serialize c e c') (hs : c.mtch.mMatchState = .started)
    (hm : c'.mtch.mPlayerMtx = false) : SameRoster c c' := by
  rcases step_cases h with ⟨p, -, -, hw, -⟩ | ⟨p, -, rfl⟩ | ⟨hsame, -⟩
  · rw [hs] at hw
    cases hw
  · cases hm
  · exact hsame

theorem collected_step {this : MatchRef} {serialize : Json → List UInt8}
    {seg : List (MatchCtx × MatchEvent)} {c c' : MatchCtx} {e : MatchEvent}
    (hc : Collected seg c) (h : Step this serialize c e c') : Collected (seg ++ [(c, e)]) c' := by
  have hrun := step_running h hc.running
  refine ⟨?_, fun hseg hs' hm' => ?_⟩
  · rcases hrun with hrun | hrun
    · rw [hrun]
      exact hc.running
    · exact Or.inr hrun
  · have hs : c.mtch.mMatchState = .started := by
      rcases hrun with hrun | hrun
      · rw [← hrun, hs']
      · rw [hs'] at hrun
        cases hrun
    have hsame := step_free h hs hm'
    obtain ⟨hq, hj, hl⟩ := hc.pending (fun x hx => hseg x (by simp [hx])) hs (by rw [← hsame.mtx, hm'])
    have he : e ≠ .sendEvents := hseg (c, e) (by simp)
    rw [accepted_snoc]
    refine ⟨fun p hp => ?_, fun x hx => ?_, fun x hx => ?_⟩
    · rw [hsame.mPlayers] at hp
      rw [step_events h he, hq p hp, eventsOf_append]
    · rcases List.mem_append.mp hx with hx | hx
      · exact hj x hx
      · exact (mem_acceptedEvent hx).1
    · rw [hsame.mPlayers]
      rcases List.mem_append.mp hx with hx | hx
      · exact hl x hx
      · exact (mem_acceptedEvent hx).2

theorem collected_since {this : MatchRef} {serialize : Json → List UInt8}
    {tr seg : List (MatchCtx × MatchEvent)} {c₀ c : MatchCtx}
    (h : (system this serialize).Exec (tr ++ (c₀, .sendEvents) :: seg) c)
    (hs₀ : c₀.mtch.mMatchState = .started) : Collected seg c :=
  h.since Collected (fun _ _ ⟨_, hst⟩ => collected_start hs₀ hst) fun _ _ _ _ => collected_step

/-! ### The relay -/

/-- The entries that a reader of the payload should see: player by player in the
order of `m_players`, each player's events as they were submitted. -/
def expectedEntries (c : MatchCtx) (events : List (PlayerRef × PlayerEvent)) : List EventEntry :=
  (groups Prod.fst c.mtch.mPlayers.values events).map fun x =>
    x.2.entry (c.players x.1).mMatchInstanceId

/-- `SendPlayerEvents` returns, broadcasts a payload that reads as these events (none
for no events), and leaves the queues empty. -/
def Relayed (c : MatchCtx) (events : List (PlayerRef × PlayerEvent)) : Prop :=
  ∃ c' out, c.sendPlayerEvents = .ok (c', out) ∧
    (if events = [] then out = []
      else ∃ payload, out = [⟨.playerEvents, payload, .tcp⟩] ∧
        readPayload payload = some (c.expectedEntries events)) ∧
    ∀ p ∈ c'.mtch.mPlayers.values, (c'.players p).mActiveEvents = []

/-- The number of events and every data length fit one byte. -/
def Fits (events : List (PlayerRef × PlayerEvent)) : Prop :=
  events.length ≤ 255 ∧ ∀ x ∈ events, x.2.data.length ≤ 255

section Relay

variable {c : MatchCtx} {events : List (PlayerRef × PlayerEvent)}

theorem Pending.entries (h : Pending events c) :
    (c.mtch.mPlayers.values.flatMap fun p => (c.players p).sentEntries) =
      c.expectedEntries events := by
  unfold expectedEntries groups
  rw [List.map_flatMap]
  apply List.flatMap_congr
  intro p hp
  have hq : ∀ e ∈ (c.players p).mActiveEvents, e.command ≠ .none := by
    intro e he
    rw [h.queued p hp] at he
    obtain ⟨x, hx, rfl⟩ := List.mem_map.mp he
    rw [h.jumps x (List.mem_filter.mp hx).1]
    decide
  rw [Player.sentEntries_eq hq, Player.entries, h.queued p hp, eventsOf, List.map_map]
  apply List.map_congr_left
  intro x hx
  have hx : x.1 = p := by simpa using (List.mem_filter.mp hx).2
  rw [Function.comp_apply, hx]

theorem expectedEntries_length (hc : c.Keyed) (h : Pending events c) :
    (c.expectedEntries events).length = events.length := by
  rw [expectedEntries, List.length_map, groups_length hc.values_nodup h.listed]

theorem fits_iff (hc : c.Keyed) (h : Pending events c) :
    Fits events ↔ (c.expectedEntries events).length ≤ 255 ∧
      ∀ e ∈ c.expectedEntries events, e.data.length ≤ 255 := by
  rw [expectedEntries_length hc h, Fits]
  refine and_congr_right fun _ => ?_
  simp only [expectedEntries, List.forall_mem_map, PlayerEvent.entry]
  refine ⟨fun hl x hx => hl x (mem_groups.mp hx).1, fun hl x hx => hl x ?_⟩
  exact mem_groups.mpr ⟨hx, h.listed x hx⟩

theorem sendPlayerEvents_eq (hc : c.Keyed) (h : Pending events c)
    (hs : c.mtch.mMatchState = .started) (hm : c.mtch.mPlayerMtx = false) :
    c.sendPlayerEvents =
      .ok ({ c with players := (drainEvents c.mtch.mPlayers.values c.players [] 0).1 },
        if UInt8.ofNat (c.expectedEntries events).length = 0 then []
        else [⟨.playerEvents, UInt8.ofNat (c.expectedEntries events).length ::
          (c.expectedEntries events).flatMap EventEntry.encode, .tcp⟩]) := by
  have hdrain := drainEvents_eq _ hc.values_nodup c.players [] 0
  rw [h.entries, List.nil_append, UInt8.zero_add] at hdrain
  unfold sendPlayerEvents
  rw [if_neg (not_not.mpr hs), if_neg (by simp [hm])]
  dsimp only
  rw [hdrain]
  split_ifs
  · rfl
  · rfl

theorem Pending.relayed_iff (h : Pending events c) (hc : c.Keyed)
    (hs : c.mtch.mMatchState = .started) (hm : c.mtch.mPlayerMtx = false) :
    c.Relayed events ↔ Fits events := by
  have hsend := sendPlayerEvents_eq hc h hs hm
  have hlen := expectedEntries_length hc h
  have hempty : ∀ p ∈ c.mtch.mPlayers.values,
      ((drainEvents c.mtch.mPlayers.values c.players [] 0).1 p).mActiveEvents = [] :=
    fun p hp => drainEvents_empty _ _ _ _ (Or.inl hp)
  by_cases hnil : events = []
  · subst hnil
    refine ⟨fun _ => ⟨Nat.zero_le _, nofun⟩, fun _ => ⟨_, _, hsend, ?_, hempty⟩⟩
    rw [if_pos rfl, hlen]
    rfl
  · have hpos : 0 < events.length := List.length_pos_iff.mpr hnil
    rw [fits_iff hc h, ← readPayload_iff]
    refine ⟨fun ⟨c', out, heq, hout, _⟩ => ?_, fun hread => ⟨_, _, hsend, ?_, hempty⟩⟩
    · rw [hsend] at heq
      cases heq
      rw [if_neg hnil] at hout
      obtain ⟨payload, hout, hread⟩ := hout
      split_ifs at hout
      cases hout
      exact hread
    · have hle := ((readPayload_iff _).mp hread).1
      rw [if_neg hnil, if_neg]
      · exact ⟨_, rfl, hread⟩
      · -- at most 255 events: the 8-bit count is not zero
        intro hzero
        have := congrArg UInt8.toNat hzero
        rw [UInt8.toNat_ofNat'] at this
        have hz : (0 : UInt8).toNat = 0 := rfl
        omega

end Relay

/-- The events accepted between two calls of `SendPlayerEvents` of a started match
are relayed by the second, if and only if the roster mutex is free (no removal
has kept it) and their number and data lengths fit one byte. -/
theorem relayed_iff_fits (this : MatchRef) (serialize : Json → List UInt8)
    (tr seg : List (MatchCtx × MatchEvent)) (c₀ c : MatchCtx)
    (h : (system this serialize).Exec (tr ++ (c₀, .sendEvents) :: seg) c)
    (hseg : ∀ x ∈ seg, x.2 ≠ .sendEvents) (hs₀ : c₀.mtch.mMatchState = .started)
    (hs : c.mtch.mMatchState = .started) :
    c.Relayed (accepted seg) ↔ c.mtch.mPlayerMtx = false ∧ Fits (accepted seg) := by
  cases hm : c.mtch.mPlayerMtx with
  | true =>
    refine ⟨fun ⟨c', out, heq, _⟩ => ?_, fun h => nomatch h.1⟩
    unfold sendPlayerEvents at heq
    rw [if_neg (not_not.mpr hs), if_pos hm] at heq
    cases heq
  | false =>
    have hpending := (collected_since h hs₀).pending hseg hs hm
    rw [hpending.relayed_iff (exec_keyed h) hs hm]
    exact ⟨fun hf => ⟨rfl, hf⟩, fun hf => hf.2⟩

/-! ### One player who submits one event -/

def startedMatch : MatchCtx :=
  (waitingMatch.joined 0 0).setMatch fun m =>
    { m with mOrientationSendBufferSize := 30, mMatchState := .started }

def drainedMatch : MatchCtx :=
  { startedMatch with
    players := (drainEvents startedMatch.mtch.mPlayers.values startedMatch.players [] 0).1 }

/-- The step that submits a `Jump` event with these data. -/
def jumpStep (data : List UInt8) : MatchCtx × MatchEvent :=
  (drainedMatch, .command (fun _ => true) 1 (0x03 :: 0x01 :: data))

def jumpedMatch (data : List UInt8) : MatchCtx :=
  drainedMatch.setPlayer 0 (·.addPlayerEvent ⟨.jump, data⟩)

/-- The text of the one roster that is serialised below. -/
def sampleSerialize (_ : Json) : List UInt8 :=
  Json.asciiBytes "\x7b\"seed\":0,\"players\":[\x7b\"UserName\":\"\",\"User_ID\":1,\"Instance_ID\":1\x7d]\x7d"

def startTrace : List (MatchCtx × MatchEvent) :=
  [(sampleMatch, .threadInit 0), (waitingMatch, .join 0),
    (waitingMatch.joined 0 0, .command (fun _ => true) 1 [0x01])]

theorem jumpedMatch_exec (data : List UInt8) : (system 0 sampleSerialize).Exec
    (startTrace ++ (startedMatch, .sendEvents) :: [jumpStep data]) (jumpedMatch data) := by
  have h1 := (waitingMatch_exec 0 sampleSerialize).next (.join 0) (waitingMatch.joined 0 0)
    (step_join 0 sampleSerialize 0 rfl rfl)
  have h2 := h1.next (.command (fun _ => true) 1 [0x01]) startedMatch (Exists.intro _ rfl)
  have h3 := h2.next .sendEvents drainedMatch (Exists.intro _ rfl)
  exact h3.next (jumpStep data).2 (jumpedMatch data) (Exists.intro [] rfl)

theorem accepted_jumpStep (data : List UInt8) :
    accepted [jumpStep data] = [(0, ⟨.jump, data⟩)] := rfl

theorem jumpStep_ne_send (data : List UInt8) : ∀ x ∈ [jumpStep data], x.2 ≠ .sendEvents := by
  intro x hx
  rw [List.mem_singleton.mp hx]
  exact nofun

theorem jump_relayed : (jumpedMatch [7]).Relayed (accepted [jumpStep [7]]) := by
  apply (relayed_iff_fits 0 sampleSerialize _ _ _ _ (jumpedMatch_exec [7]) (jumpStep_ne_send [7])
    rfl rfl).mpr
  rw [accepted_jumpStep]
  exact ⟨rfl, by decide, by simp⟩

theorem jumpedMatch_fits {data : List UInt8}
    (hr : (jumpedMatch data).Relayed (accepted [jumpStep data])) : data.length ≤ 255 := by
  have h := jumpedMatch_exec data
  have hp := (collected_since h rfl).pending (jumpStep_ne_send data) rfl rfl
  have hfits := (hp.relayed_iff (exec_keyed h) rfl rfl).mp hr
  rw [accepted_jumpStep] at hfits
  exact hfits.2 (0, ⟨.jump, data⟩) (List.mem_singleton.mpr rfl)

/-- One event with 256 bytes of data is not relayed. -/
theorem long_jump_not_relayed :
    (system 0 sampleSerialize).Exec
      (startTrace ++ (startedMatch, .sendEvents) :: [jumpStep (List.replicate 256 0)])
      (jumpedMatch (List.replicate 256 0)) ∧
    ¬ (jumpedMatch (List.replicate 256 0)).Relayed (accepted [jumpStep (List.replicate 256 0)]) := by
  refine ⟨jumpedMatch_exec _, fun hr => ?_⟩
  have hlen := jumpedMatch_fits hr
  rw [List.length_replicate] at hlen
  omega

end MatchCtx

end GameServer
