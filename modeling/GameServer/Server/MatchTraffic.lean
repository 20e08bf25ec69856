import GameServer.Server.HandlerInputs
import GameServer.Server.MatchIndex

/-! Rosters and command queues of the matches, over all runs of the server. Sessions are
added before they have a player, so `UserConnected` takes nobody out of a match, and a
UserID that is in a match stays there. A command waits in the queue of its match until
the match thread executes it, in turn. -/

namespace GameServer

open Lib

namespace World

/-- The UserID is in `m_players` of the match. -/
def Seated (w : World) (m : MatchRef) (id : UserID) : Prop :=
  m < w.nextMatch ∧ ((w.matchAt m).mPlayers.find? id).isSome = true

/-- Whoever is in a match stays there. -/
structure Grows (w w' : World) : Prop where
  seats : ∀ m id, w.Seated m id → w'.Seated m id

instance : IsTrans World Grows := ⟨fun _ _ _ h h' => ⟨fun m id hs => h'.seats m id (h.seats m id hs)⟩⟩

/-- The commands that the match has and has not executed. -/
def pending (w : World) (m : MatchRef) : List MatchCommand :=
  if m < w.nextMatch then (w.matchAt m).currentCommands ++ (w.matchAt m).mCommandQueue else []

/-- The command that `RoutMatchNetCommand` submits to the match. -/
def submission (w : World) (m : MatchRef) (s : SessionRef) (data : Data) : Option MatchCommand :=
  if (w.sessions s).isAuthenticated then
    (w.lockUser s).bind fun p =>
      if (w.players p).mActiveMatch = some m then some ⟨(w.players p).getUserID, data⟩ else none
  else none

/-- The command that the step submits to the match. -/
def submitted (m : MatchRef) : World × Event → Option MatchCommand
  | (w, .dispatch user data _) =>
    (w.mSocketUsers.lookup user).bind fun s =>
      if data.command = OpCodes.Server.matchCommand.toByte then w.submission m s data else none
  | _ => none

/-- The command that the thread of the match executes in this step. -/
def executed (m : MatchRef) : World × Event → Option MatchCommand
  | (w, .executeNext m') => if m' = m then (w.matchAt m).currentCommands.head? else none
  | _ => none

/-- What a step does to the matches. -/
structure Moved (w : World) (e : Event) (w' : World) : Prop where
  grows : w.Grows w'
  created : w'.Created
  /-- a player takes part in the match that it has just joined, or as before -/
  active : ∀ p < w'.nextPlayer, ∀ m, (w'.players p).mActiveMatch = some m →
    w'.Seated m (w'.players p).getUserID ∨
      p < w.nextPlayer ∧ (w.players p).mActiveMatch = some m ∧
        (w'.players p).getUserID = (w.players p).getUserID
  commands : ∀ m, w.pending m ++ (submitted m (w, e)).toList =
    (executed m (w, e)).toList ++ w'.pending m

/-- Players with an active match are in it, and so is who sent a command that waits. -/
structure Traffic (w : World) : Prop where
  created : w.Created
  players : ∀ p < w.nextPlayer, ∀ m, (w.players p).mActiveMatch = some m →
    w.Seated m (w.players p).getUserID
  commands : ∀ m, ∀ cmd ∈ w.pending m, w.Seated m cmd.user

variable {parse : List UInt8 → Option Json} {serialize : Json → List UInt8} {w w' : World}
  {s : SessionRef} {p : PlayerRef} {e : Event}

/-! ### Steps that leave the matches alone -/

/-- The matches are as they were, and a player that is new is in none. -/
structure Apart (w w' : World) : Prop where
  matchAt : w'.matchAt = w.matchAt
  nextMatch : w'.nextMatch = w.nextMatch
  mMatches : w'.mMatches = w.mMatches
  mMatchesIDs : w'.mMatchesIDs = w.mMatchesIDs
  players : ∀ p < w'.nextPlayer, (w'.players p).mActiveMatch = none ∨
    p < w.nextPlayer ∧ (w'.players p).mActiveMatch = (w.players p).mActiveMatch ∧
      (w'.players p).getUserID = (w.players p).getUserID

theorem Apart.of_players (matchAt : w'.matchAt = w.matchAt) (nextMatch : w'.nextMatch = w.nextMatch)
    (mMatches : w'.mMatches = w.mMatches) (mMatchesIDs : w'.mMatchesIDs = w.mMatchesIDs)
    (nextPlayer : w'.nextPlayer = w.nextPlayer)
    (active : ∀ p, (w'.players p).mActiveMatch = (w.players p).mActiveMatch)
    (userID : ∀ p, (w'.players p).getUserID = (w.players p).getUserID) : w.Apart w' :=
  ⟨matchAt, nextMatch, mMatches, mMatchesIDs, fun p hp => .inr ⟨nextPlayer ▸ hp, active p, userID p⟩⟩

theorem Apart.moved (h : w.Apart w') (hw : w.Created) (hsub : ∀ m, submitted m (w, e) = none)
    (hexec : ∀ m, executed m (w, e) = none) : Moved w e w' := by
  have hseated : ∀ m id, w.Seated m id → w'.Seated m id := fun m id hs => by
    rwa [Seated, h.matchAt, h.nextMatch]
  refine ⟨⟨hseated⟩, ?_, fun p hp m hm => ?_, fun m => ?_⟩
  · rw [Created, h.mMatchesIDs, h.nextMatch]
    exact hw
  · rcases h.players p hp with hnone | ⟨hlt, hactive, hid⟩
    · rw [hnone] at hm
      cases hm
    · exact .inr ⟨hlt, hactive ▸ hm, hid⟩
  · rw [hsub, hexec, pending, pending, h.matchAt, h.nextMatch]
    exact List.append_nil _

theorem Apart.trans {w₁ w₂ : World} (h : w.Apart w₁) (h' : w₁.Apart w₂) : w.Apart w₂ := by
  refine ⟨h'.matchAt.trans h.matchAt, h'.nextMatch.trans h.nextMatch,
    h'.mMatches.trans h.mMatches, h'.mMatchesIDs.trans h.mMatchesIDs, fun p hp => ?_⟩
  rcases h'.players p hp with hnone | ⟨hlt, hactive', hid'⟩
  · exact .inl hnone
  · rcases h.players p hlt with hnone | ⟨hlt, hactive, hid⟩
    · exact .inl (hactive'.trans hnone)
    · exact .inr ⟨hlt, hactive'.trans hactive, hid'.trans hid⟩

theorem Apart.erased (h : w.Apart w') (sessions : AList fun _ : Token => SessionRef) :
    w.Apart { w' with mSocketUsers := sessions } :=
  ⟨h.matchAt, h.nextMatch, h.mMatches, h.mMatchesIDs, h.players⟩

theorem apart_close (w : World) (s : SessionRef) : w.Apart (w.close s) := by
  cases hc : (w.sessions s).connected with
  | false =>
    rw [close_of_not_connected hc]
    exact .of_players rfl rfl rfl rfl rfl (fun _ => rfl) fun _ => rfl
  | true =>
    rw [close_of_connected hc]
    exact .of_players rfl rfl rfl rfl rfl (cutOff_field Player.mActiveMatch fun _ => rfl)
      (cutOff_field Player.getUserID fun _ => rfl)

theorem apart_send (w : World) (s : SessionRef) (command : OpCodes.Client) (data : List UInt8) :
    w.Apart (w.send s command data) := by
  obtain ⟨sent, h⟩ := send_eq w s command data
  rw [h]
  exact .of_players rfl rfl rfl rfl rfl (fun _ => rfl) fun _ => rfl

/-- The player that `UserIdentify` makes is in no match. -/
theorem apart_userIdentify {now : UInt64} {buffer : List UInt8}
    (h : userIdentify parse now w s buffer = .ok w') : w.Apart w' := by
  obtain ⟨x, accepted, hset⟩ := userIdentify_ok_setIdentity h
  have hnone : x.mActiveMatch = none ∧ x.mSocketUser = some s := by
    have hnew : (w.newPlayer now s).mActiveMatch = none ∧
        (w.newPlayer now s).mSocketUser = some s := by
      rw [newPlayer_eq]
      exact ⟨rfl, rfl⟩
    rcases Player.setIdentity_eq hset with ⟨-, rfl, -⟩ | ⟨identity, -, rfl, -⟩
    · exact hnew
    · exact hnew
  have hloggingIn : w.Apart (w.loggingIn s x) := by
    refine ⟨rfl, rfl, rfl, rfl, fun p hp => ?_⟩
    rcases Nat.lt_succ_iff_lt_or_eq.mp hp with hp | rfl
    · rw [loggingIn_players_of_lt x hp]
      exact .inr ⟨hp, rfl, rfl⟩
    · rw [loggingIn_players_self]
      exact .inl hnone.1
  have hrelease : ∀ w₁ : World, w.Apart w₁ → w.Apart { w₁ with held := w₁.held.erase w.nextPlayer } :=
    fun w₁ h₁ => ⟨h₁.matchAt, h₁.nextMatch, h₁.mMatches, h₁.mMatchesIDs, h₁.players⟩
  unfold newPlayer at hset
  unfold userIdentify at h
  dsimp only at h
  rw [hset, loggingIn_eq] at h
  cases accepted with
  | false =>
    cases h
    exact hrelease _ ((hloggingIn.trans (apart_close _ s)).trans (apart_send _ _ _ _))
  | true =>
    obtain ⟨w₁, hauth, h⟩ := Exec.bind_eq_ok.mp h
    change (w.loggingIn s x).playerAuthenticated w.nextPlayer true = .ok w₁ at hauth
    rw [playerAuthenticated_loggingIn hnone.2] at hauth
    cases h
    refine hrelease _ (Apart.trans ?_ (apart_send w₁ _ _ _))
    split_ifs at hauth
    · cases hauth
      exact ⟨hloggingIn.matchAt, hloggingIn.nextMatch, hloggingIn.mMatches,
        hloggingIn.mMatchesIDs, hloggingIn.players⟩
    · cases hauth
      exact hloggingIn.trans (apart_close _ s)

/-! ### Steps of one match -/

theorem pending_setMatchCtx {m : MatchRef} {c : MatchCtx} (hm : m < w.nextMatch) (n : MatchRef) :
    (w.setMatchCtx m c).pending n =
      if n = m then c.mtch.currentCommands ++ c.mtch.mCommandQueue else w.pending n := by
  unfold pending setMatchCtx
  dsimp only
  by_cases hn : n = m
  · subst hn
    simp [hm]
  · simp [hn]

/-- A call that keeps the roster and the players' matches, with what it does to the
commands. -/
theorem moved_of_quiet {m : MatchRef} {c : MatchCtx} (hw : w.Created)
    (hq : (w.matchCtx m).Quiet c)
    (hcommands : ∀ n, w.pending n ++ (submitted n (w, e)).toList =
      (executed n (w, e)).toList ++ (w.setMatchCtx m c).pending n) :
    Moved w e (w.setMatchCtx m c) := by
  have hroster : ∀ n, ((w.setMatchCtx m c).matchAt n).mPlayers = (w.matchAt n).mPlayers := by
    intro n
    change (Function.update w.matchAt m c.mtch n).mPlayers = _
    rw [Function.update_apply]
    split_ifs with hn
    · rw [hn]
      exact hq.mPlayers
    · rfl
  have hactive := hq.field Player.mActiveMatch fun _ _ _ _ _ => rfl
  have hid := hq.field Player.getUserID fun _ _ _ _ _ => rfl
  refine ⟨⟨fun n id hs => ⟨hs.1, ?_⟩⟩, hw, fun p hp n hn => .inr ⟨hp, ?_, hid p⟩, hcommands⟩
  · rw [hroster]
    exact hs.2
  · exact (hactive p).symm.trans hn

/-- A player joins: its UserID is in the match afterwards. -/
theorem moved_of_join {m : MatchRef} {r : Bool} {c : MatchCtx} (hw : w.Created)
    (hm : m < w.nextMatch) (h : (w.matchCtx m).joinPlayer m (some p) = .ok (r, c))
    (hsub : ∀ m, submitted m (w, e) = none) (hexec : ∀ m, executed m (w, e) = none) :
    Moved w e (w.setMatchCtx m c) := by
  have hsame : ∀ c : MatchCtx, c.mtch.currentCommands = (w.matchAt m).currentCommands →
      c.mtch.mCommandQueue = (w.matchAt m).mCommandQueue → ∀ n,
      w.pending n ++ (submitted n (w, e)).toList =
        (executed n (w, e)).toList ++ (w.setMatchCtx m c).pending n := by
    intro c hcurrent hqueue n
    rw [hsub, hexec, pending_setMatchCtx hm, hcurrent, hqueue]
    split_ifs with hn
    · rw [hn, pending, if_pos hm]
      exact List.append_nil _
    · exact List.append_nil _
  rw [MatchCtx.joinPlayer_some] at h
  split_ifs at h
  · cases h
    exact moved_of_quiet hw (.refl _) (hsame _ rfl rfl)
  · cases h
    have hseats : ∀ n id, w.Seated n id ∨ (n = m ∧ id = (w.players p).getUserID) →
        (w.setMatchCtx m ((w.matchCtx m).joined m p)).Seated n id := by
      rintro n id hs
      have hn : n < w.nextMatch := hs.elim And.left fun h => h.1 ▸ hm
      refine ⟨hn, ?_⟩
      change ((Function.update w.matchAt m _ n).mPlayers.find? id).isSome = true
      by_cases hnm : n = m
      · subst hnm
        rw [Function.update_self]
        change (((w.matchAt n).mPlayers.insert (w.players p).getUserID p).find? id).isSome = true
        rw [OrdMap.find?_insert]
        split_ifs with hid
        · rfl
        · exact hs.elim And.right fun h => absurd h.2 hid
      · rw [Function.update_of_ne hnm]
        exact hs.elim And.right fun h => absurd h.1 hnm
    have hid := MatchCtx.joined_field m p (c := w.matchCtx m) Player.getUserID (fun _ _ _ => rfl)
    refine ⟨⟨fun n id hs => hseats n id (.inl hs)⟩, hw, fun q hq n hn => ?_, hsame _ rfl rfl⟩
    by_cases hqp : q = p
    · subst hqp
      have hactive : ((w.setMatchCtx m ((w.matchCtx m).joined m q)).players q).mActiveMatch =
          some m := congrArg Player.mActiveMatch (MatchCtx.joined_players_self m q)
      obtain rfl : m = n := Option.some.inj (hactive.symm.trans hn)
      exact .inl (hseats m _ (.inr ⟨rfl, hid q⟩))
    · have hsame' : ((w.matchCtx m).joined m p).players q = w.players q :=
        MatchCtx.joined_players_ne m p hqp
      refine .inr ⟨hq, ?_, hid q⟩
      rw [← hn]
      exact (congrArg Player.mActiveMatch hsame').symm

theorem Moved.send {command : OpCodes.Client} {data : List UInt8} (h : Moved w e w') :
    Moved w e (w'.send s command data) := by
  obtain ⟨sent, heq⟩ := send_eq w' s command data
  rw [heq]
  exact ⟨⟨h.grows.seats⟩, h.created, h.active, h.commands⟩

theorem addMatchPlayer_created {player : Option PlayerRef} {matchId : String} {r : Bool}
    (hw : w.Created) (h : w.addMatchPlayer player matchId = .ok (r, w')) :
    w' = w ∨ ∃ m < w.nextMatch, ∃ c, (w.matchCtx m).joinPlayer m player = .ok (r, c) ∧
      w' = w.setMatchCtx m c := by
  unfold addMatchPlayer at h
  split at h
  · cases h
    exact .inl rfl
  · next m hm =>
    obtain ⟨⟨r', c⟩, hjoin, h⟩ := Exec.bind_eq_ok.mp h
    cases h
    exact .inr ⟨m, hw matchId m hm, c, hjoin, rfl⟩

theorem moved_joinMatch {buffer : List UInt8} (hw : w.Created)
    (h : joinMatch parse w s buffer = .ok w') (hsub : ∀ m, submitted m (w, e) = none)
    (hexec : ∀ m, executed m (w, e) = none) : Moved w e w' := by
  have hstay : Moved w e w :=
    (Apart.of_players rfl rfl rfl rfl rfl (fun _ => rfl) fun _ => rfl).moved hw hsub hexec
  unfold joinMatch at h
  split_ifs at h
  · dsimp only at h
    cases hparse : parse buffer with
    | none =>
      rw [hparse] at h
      cases h
      exact hstay.send
    | some jsonVal =>
      rw [hparse] at h
      obtain ⟨identObj, -, h⟩ := Exec.bind_eq_ok.mp h
      obtain ⟨matchId, -, h⟩ := Exec.bind_eq_ok.mp h
      obtain ⟨⟨joinRes, w₁⟩, hadd, h⟩ := Exec.bind_eq_ok.mp h
      cases hlock : w.lockUser s with
      | none =>
        rw [hlock] at h
        cases h
      | some p =>
        rw [hlock] at h hadd
        cases h
        refine Moved.send ?_
        rcases addMatchPlayer_created hw hadd with rfl | ⟨m, hm, c, hjoin, rfl⟩
        · exact hstay
        · exact moved_of_join hw hm hjoin hsub hexec
  · cases h
    exact hstay.send

theorem submission_cases (w : World) (s : SessionRef) (data : Data) :
    (∃ p m, w.lockUser s = some p ∧ (w.players p).mActiveMatch = some m ∧
      w.routMatchNetCommand s data = w.setMatchCtx m ((w.matchCtx m).submitMatchCommand p data) ∧
      ∀ n, w.submission n s data = if n = m then some ⟨(w.players p).getUserID, data⟩ else none) ∨
    w.routMatchNetCommand s data = w ∧ ∀ n, w.submission n s data = none := by
  rcases routMatchNetCommand_cases w s data with ⟨p, m, ⟨hauth, hlock, hactive⟩, heq⟩ | ⟨hno, heq⟩
  · refine .inl ⟨p, m, hlock, hactive, heq, fun n => ?_⟩
    simp only [submission, hauth, if_true, hlock, Option.bind_some, hactive, Option.some.injEq,
      eq_comm]
  · refine .inr ⟨heq, fun n => ?_⟩
    unfold submission
    split_ifs with hauth
    · cases hlock : w.lockUser s with
      | none => rfl
      | some p =>
        rw [Option.bind_some]
        exact if_neg fun hactive => hno p n ⟨hauth, hlock, hactive⟩
    · rfl

theorem moved_routMatchNetCommand {user : Token} {data : Data} {now : UInt64} (hw : w.Traffic)
    (hs : w.mSocketUsers.lookup user = some s) (hp : ∀ p, w.lockUser s = some p → p < w.nextPlayer)
    (hcmd : data.command = OpCodes.Server.matchCommand.toByte) :
    Moved w (.dispatch user data now) (w.routMatchNetCommand s data) := by
  have hsub : ∀ n, submitted n (w, .dispatch user data now) = w.submission n s data := by
    intro n
    rw [submitted, hs, Option.bind_some, if_pos hcmd]
  rcases submission_cases w s data with ⟨p, m, hlock, hactive, heq, hsubmits⟩ | ⟨heq, hnone⟩
  · have hm : m < w.nextMatch := (hw.players p (hp p hlock) m hactive).1
    rw [heq]
    refine moved_of_quiet hw.created (MatchCtx.quiet_setMatch _ _ rfl rfl) fun n => ?_
    rw [hsub, hsubmits, pending_setMatchCtx hm]
    by_cases hn : n = m
    · subst hn
      simp [pending, hm, executed, MatchCtx.submitMatchCommand, matchCtx]
    · simp [hn, executed]
  · rw [heq]
    exact (Apart.of_players rfl rfl rfl rfl rfl (fun _ => rfl) fun _ => rfl).moved hw.created
      (fun n => (hsub n).trans (hnone n)) fun _ => rfl

theorem moved_dispatch {user : Token} {data : Data} {now : UInt64} (hw : w.Traffic)
    (hp : ∀ s p, w.mSocketUsers.lookup user = some s → w.lockUser s = some p → p < w.nextPlayer)
    (h : doProcess parse now w user data = .ok w') : Moved w (.dispatch user data now) w' := by
  have hsame : w.Apart w := .of_players rfl rfl rfl rfl rfl (fun _ => rfl) fun _ => rfl
  have hother : data.command ≠ OpCodes.Server.matchCommand.toByte →
      ∀ m, submitted m (w, .dispatch user data now) = none := by
    intro hcmd m
    cases hs : w.mSocketUsers.lookup user <;> simp [submitted, hs, hcmd]
  unfold doProcess at h
  cases hs : w.mSocketUsers.lookup user with
  | none =>
    rw [hs] at h
    cases h
    exact hsame.moved hw.created (fun m => by simp [submitted, hs]) fun _ => rfl
  | some s =>
    rw [hs] at h
    dsimp only at h
    split_ifs at h with hsys hident hmatch hjoin
    · have hno := hother (by rw [hsys]; decide)
      rcases systemCmd_cases h with rfl | ⟨user', rfl⟩ | ⟨command, reply, rfl⟩
      · exact hsame.moved hw.created hno fun _ => rfl
      · exact Apart.moved ⟨rfl, rfl, rfl, rfl, hsame.players⟩ hw.created hno fun _ => rfl
      · exact (apart_send w s command reply).moved hw.created hno fun _ => rfl
    · exact (apart_userIdentify h).moved hw.created (hother (by rw [hident]; decide)) fun _ => rfl
    · cases h
      exact moved_routMatchNetCommand hw hs (fun p => hp s p hs) hmatch
    · exact moved_joinMatch hw.created h (hother (by rw [hjoin]; decide)) fun _ => rfl
    · cases h
      exact hsame.moved hw.created (hother hmatch) fun _ => rfl

/-! ### The match thread -/

/-- The two queues of commands are as they were. -/
def SameCommands (c c' : MatchCtx) : Prop :=
  c'.mtch.currentCommands = c.mtch.currentCommands ∧ c'.mtch.mCommandQueue = c.mtch.mCommandQueue

theorem sameCommands_execute {authenticated : SessionRef → Bool} {userID : UserID}
    {buffer : List UInt8} {c c' : MatchCtx} {out : List Broadcast}
    (h : c.executeNetCommand serialize authenticated userID buffer = .ok (c', out)) :
    SameCommands c c' := by
  rcases MatchCtx.executeNetCommand_ok h with ⟨p, cmd, data, -, h⟩ | ⟨-, rfl | h | ⟨p, buff, h⟩⟩
  · obtain ⟨s, -, rfl⟩ := MatchCtx.submitPlayerEvent_ok h
    split_ifs
    · exact ⟨rfl, rfl⟩
    · exact ⟨rfl, rfl⟩
  · exact ⟨rfl, rfl⟩
  · rcases MatchCtx.startMatch_ok h with rfl | ⟨-, size, rfl⟩
    · exact ⟨rfl, rfl⟩
    · exact ⟨rfl, rfl⟩
  · obtain ⟨l, r, rfl⟩ := MatchCtx.updateOrientationNetCmd_ok h
    exact ⟨rfl, rfl⟩

theorem sameCommands_thread {m : MatchRef} {call : ThreadCall} {c c' : MatchCtx}
    (h : MatchCtx.Step m serialize c call.event c') : SameCommands c c' := by
  cases call with
  | threadInit now =>
    obtain ⟨-, rfl⟩ := h
    exact ⟨rfl, rfl⟩
  | updatePlayers now now' =>
    have hm : c'.mtch = c.mtch := (MatchCtx.updatePlayers_ok h).1
    exact ⟨by rw [hm], by rw [hm]⟩
  | sendOrientations now now' =>
    obtain ⟨out, h⟩ := h
    obtain ⟨buffer, last, rfl⟩ := MatchCtx.sendOrientationUpdates_ok h
    exact ⟨rfl, rfl⟩
  | sendEvents =>
    obtain ⟨out, h⟩ := h
    rcases MatchCtx.sendPlayerEvents_ok h with rfl | ⟨-, -, rfl⟩
    · exact ⟨rfl, rfl⟩
    · exact ⟨rfl, rfl⟩

theorem moved_takeCommands {m : MatchRef} (hw : w.Created) (hm : m < w.nextMatch)
    (hcurrent : (w.matchAt m).currentCommands = []) :
    Moved w (.takeCommands m) (w.setMatchCtx m ((w.matchCtx m).setMatch fun x =>
      { x with currentCommands := x.mCommandQueue, mCommandQueue := [] })) := by
  refine moved_of_quiet hw (MatchCtx.quiet_setMatch _ _ rfl rfl) fun n => ?_
  rw [pending_setMatchCtx hm]
  split_ifs with hn
  · subst hn
    simp [pending, hm, hcurrent, submitted, executed, matchCtx]
  · simp [submitted, executed]

theorem moved_executeNext {m : MatchRef} {cmd : MatchCommand} {rest : List MatchCommand}
    {c : MatchCtx} {out : List Broadcast} (hw : w.Created) (hm : m < w.nextMatch)
    (hcurrent : (w.matchAt m).currentCommands = cmd :: rest)
    (h : (w.popCommand m rest).executeNetCommand serialize w.authenticated cmd.user
      cmd.data.buffer = .ok (c, out)) : Moved w (.executeNext m) (w.setMatchCtx m c) := by
  obtain ⟨hp, hmtx, hfield⟩ := MatchCtx.quiet_command h
  obtain ⟨hsame, hqueue⟩ := sameCommands_execute h
  refine moved_of_quiet hw ⟨hp, hmtx, hfield⟩ fun n => ?_
  rw [pending_setMatchCtx hm, hsame, hqueue]
  split_ifs with hn
  · subst hn
    simp [pending, hm, hcurrent, submitted, executed, popCommand, matchCtx]
  · simp [submitted, executed, Ne.symm hn]

theorem moved_thread {m : MatchRef} {call : ThreadCall} {c : MatchCtx} (hw : w.Created)
    (hm : m < w.nextMatch) (h : MatchCtx.Step m serialize (w.matchCtx m) call.event c) :
    Moved w (.thread m call) (w.setMatchCtx m c) := by
  have hquiet : (w.matchCtx m).Quiet c := by
    cases call <;> exact MatchCtx.quiet_step h nofun nofun nofun
  obtain ⟨hcurrent, hqueue⟩ := sameCommands_thread h
  refine moved_of_quiet hw hquiet fun n => ?_
  rw [pending_setMatchCtx hm, hcurrent, hqueue]
  split_ifs with hn
  · subst hn
    simp [pending, hm, submitted, executed, matchCtx]
  · simp [submitted, executed]

/-! ### The other steps -/

theorem moved_createMatch {id : String} {shortId : UInt16} (hw : w.Traffic) :
    Moved w (.createMatch id shortId) (w.createMatch id shortId) := by
  cases hid : w.mMatchesIDs.lookup id with
  | some m =>
    have hstay : w.createMatch id shortId = w := by
      unfold createMatch
      rw [if_pos (by simp [hasMatchID, hid])]
    rw [hstay]
    exact (Apart.of_players rfl rfl rfl rfl rfl (fun _ => rfl) fun _ => rfl).moved hw.created
      (fun _ => rfl) fun _ => rfl
  | none =>
    obtain ⟨hids, -, hnext, -, -, hother⟩ := createMatch_tables shortId hid
    have hplayers : (w.createMatch id shortId).players = w.players := by
      unfold createMatch
      split_ifs <;> rfl
    have hnew : (w.createMatch id shortId).nextPlayer = w.nextPlayer := by
      unfold createMatch
      split_ifs <;> rfl
    have hseats : ∀ m id', w.Seated m id' → (w.createMatch id shortId).Seated m id' := by
      rintro m id' ⟨hm, hs⟩
      refine ⟨?_, by rwa [hother m hm.ne]⟩
      rw [hnext]
      exact Nat.lt_succ_of_lt hm
    refine ⟨⟨hseats⟩, fun id' m hm => ?_, fun p hp m hm => .inr ?_, fun m => ?_⟩
    · rw [hids] at hm
      rw [hnext]
      rcases (lookup_insert_eq_some hid).mp hm with ⟨-, rfl⟩ | hm
      · exact Nat.lt_succ_self _
      · exact Nat.lt_succ_of_lt (hw.created id' m hm)
    · rw [hnew] at hp
      rw [hplayers] at hm ⊢
      exact ⟨hp, hm, rfl⟩
    · rcases lt_trichotomy m w.nextMatch with hm | rfl | hm
      · simp [pending, hnext, hm, Nat.lt_succ_of_lt hm, hother m hm.ne, submitted, executed]
      · simp [pending, submitted, executed, createMatch, hasMatchID, hid]
      · have hle : ¬ m < w.nextMatch + 1 := by exact Nat.not_lt.mpr hm
        simp [pending, hnext, Nat.not_lt.mpr hm.le, hle, submitted, executed]

/-- The player of a session whose commands are dispatched was created. -/
theorem lockUser_created (hw : w.WF) (hinv : w.abs.Inv) (h : w.lockUser s = some p) :
    p < w.nextPlayer :=
  (hw.lockUser.mp h).2.elim (hinv.registered_created p) (hinv.rostered_created p)

/-- The step is about sessions only. -/
def Event.ofSessions : Event → Bool
  | .connect _ | .removePlayer _ | .reset _ | .addNext | .removeNext => true
  | _ => false

theorem apart_sessions (hinv : w.abs.Inv) (he : e.ofSessions = true)
    (h : Step parse serialize w e w') : w.Apart w' := by
  cases e with
  | connect token | removePlayer user =>
    cases h
    exact .of_players rfl rfl rfl rfl rfl (fun _ => rfl) fun _ => rfl
  | reset s =>
    obtain ⟨-, rfl⟩ := h
    exact apart_close w s
  | addNext =>
    obtain ⟨s, rest, hq, h⟩ := h
    have hqueued : s ∈ w.mQueueUserAdd := by simp [hq]
    rw [doAddPlayer_eq (w := { w with mQueueUserAdd := rest }) (hinv.queued_new s hqueued).1] at h
    split_ifs at h
    · cases h
      exact .of_players rfl rfl rfl rfl rfl (fun _ => rfl) fun _ => rfl
    · cases h
      exact .of_players rfl rfl rfl rfl rfl (fun _ => rfl) fun _ => rfl
  | removeNext =>
    obtain ⟨user, rest, -, rfl⟩ := h
    cases hs : w.mSocketUsers.lookup user with
    | none =>
      unfold doRemovePlayer
      dsimp only
      rw [hs]
      exact .of_players rfl rfl rfl rfl rfl (fun _ => rfl) fun _ => rfl
    | some s =>
      rw [doRemovePlayer_of_some (w := { w with mQueueUserRemove := rest }) hs, userDisconnected_eq]
      refine Apart.erased (Apart.trans ?_ (apart_close _ s)) (w.mSocketUsers.erase user)
      exact .of_players rfl rfl rfl rfl rfl (fun _ => rfl) fun _ => rfl
  | _ => cases he

theorem moved_step (hwf : w.WF) (hinv : w.abs.Inv) (hw : w.Traffic)
    (h : Step parse serialize w e w') : Moved w e w' := by
  cases e with
  | connect token | removePlayer user | reset s | addNext | removeNext =>
    exact (apart_sessions hinv rfl h).moved hw.created (fun _ => rfl) fun _ => rfl
  | dispatch user data now =>
    exact moved_dispatch hw (fun s p _ => lockUser_created hwf hinv) h
  | createMatch id shortId =>
    obtain ⟨-, rfl⟩ := h
    exact moved_createMatch hw
  | takeCommands m =>
    obtain ⟨hm, hcurrent, rfl⟩ := h
    exact moved_takeCommands hw.created hm hcurrent
  | executeNext m =>
    obtain ⟨hm, cmd, rest, c, out, hcurrent, h, rfl⟩ := h
    exact moved_executeNext hw.created hm hcurrent h
  | thread m call =>
    obtain ⟨hm, c, h, rfl⟩ := h
    exact moved_thread hw.created hm h

/-! ### Runs -/

/-- Who submits a command is in the match. -/
theorem Traffic.submitted {m : MatchRef} {cmd : MatchCommand} (hw : w.Traffic) (hwf : w.WF)
    (hinv : w.abs.Inv) (h : submitted m (w, e) = some cmd) : w.Seated m cmd.user := by
  cases e with
  | dispatch user data now =>
    obtain ⟨s, -, h⟩ := Option.bind_eq_some_iff.mp h
    split_ifs at h
    unfold submission at h
    split_ifs at h
    obtain ⟨p, hlock, h⟩ := Option.bind_eq_some_iff.mp h
    split_ifs at h with hactive
    cases h
    exact hw.players p (lockUser_created hwf hinv hlock) m hactive
  | _ => cases h

/-- And so is who sent the command that is executed. -/
theorem Traffic.executed {m : MatchRef} {cmd : MatchCommand} (hw : w.Traffic) (h : Moved w e w')
    (hcmd : executed m (w, e) = some cmd) : w.Seated m cmd.user := by
  refine hw.commands m cmd ?_
  have hmem : cmd ∈ w.pending m ++ (World.submitted m (w, e)).toList := by
    rw [h.commands, hcmd]
    exact List.mem_append_left _ (List.mem_singleton.mpr rfl)
  refine (List.mem_append.mp hmem).resolve_right fun hsub => ?_
  cases e with
  | executeNext m' => cases hsub
  | _ => cases hcmd

theorem Traffic.next (hw : w.Traffic) (hwf : w.WF) (hinv : w.abs.Inv) (h : Moved w e w') :
    w'.Traffic := by
  refine ⟨h.created, fun p hp m hm => ?_, fun m cmd hcmd => ?_⟩
  · rcases h.active p hp m hm with hs | ⟨hlt, hactive, hid⟩
    · exact hs
    · rw [hid]
      exact h.grows.seats m _ (hw.players p hlt m hactive)
  · have hmem : cmd ∈ w.pending m ++ (World.submitted m (w, e)).toList := by
      rw [h.commands]
      exact List.mem_append_right _ hcmd
    refine h.grows.seats m _ ?_
    rcases List.mem_append.mp hmem with hmem | hmem
    · exact hw.commands m cmd hmem
    · exact hw.submitted hwf hinv (Option.mem_toList.mp hmem)

theorem exec_traffic {tr : List (World × Event)} (h : (system parse serialize).Exec tr w) :
    (w.WF ∧ w.abs.Inv ∧ w.Traffic) ∧
      ∀ x ∈ steps tr w, Moved x.1 x.2.1 x.2.2 ∧
        ∀ m cmd, executed m (x.1, x.2.1) = some cmd → x.1.Seated m cmd.user := by
  induction h with
  | nil hi =>
    obtain ⟨hwf, habs⟩ := init_refines hi
    refine ⟨⟨hwf, Registry.inv_init habs, fun id m hm => ?_, fun p hp => ?_, fun m cmd hcmd => ?_⟩,
      nofun⟩
    · rw [Init.mMatchesIDs hi] at hm
      cases hm
    · rw [Init.nextPlayer hi] at hp
      cases hp
    · rw [pending, Init.nextMatch hi] at hcmd
      cases hcmd
  | snoc _ hst ih =>
    obtain ⟨⟨hwf, hinv, hw⟩, hsteps⟩ := ih
    obtain ⟨hwf', hstep⟩ := step_refines hwf hinv hst
    have hmoved := moved_step hwf hinv hw hst
    refine ⟨⟨hwf', Registry.inv_step hinv hstep, hw.next hwf hinv hmoved⟩, ?_⟩
    rw [steps_snoc]
    exact List.forall_mem_append.mpr ⟨hsteps,
      List.forall_mem_singleton.mpr ⟨hmoved, fun m cmd hcmd => hw.executed hmoved hcmd⟩⟩

theorem exec_commands {tr : List (World × Event)} (h : (system parse serialize).Exec tr w)
    (m : MatchRef) : tr.filterMap (submitted m) = tr.filterMap (executed m) ++ w.pending m := by
  induction h with
  | nil hi => simp [pending, Init.nextMatch hi]
  | snoc hr hst ih =>
    obtain ⟨⟨hwf, hinv, hw⟩, -⟩ := exec_traffic hr
    have hmove := (moved_step hwf hinv hw hst).commands m
    have hlast : ∀ (f : World × Event → Option MatchCommand) x, [x].filterMap f = (f x).toList := by
      intro f x
      cases hx : f x <;> simp [hx]
    rw [List.filterMap_append, List.filterMap_append, ih, hlast, hlast, List.append_assoc, hmove,
      List.append_assoc]

/-- In every run: nobody whose UserID is in a match ever leaves it; each match executes
the commands submitted to it once each and in order, the rest waiting; and whoever sent
the command that is executed is in the match. -/
theorem commands_in_turn (parse : List UInt8 → Option Json) (serialize : Json → List UInt8)
    (tr : List (World × Event)) (w : World) (h : (system parse serialize).Exec tr w) :
    (visited tr w).Pairwise Grows ∧
    (∀ m, tr.filterMap (submitted m) = tr.filterMap (executed m) ++ w.pending m) ∧
    ∀ x ∈ tr, ∀ m cmd, executed m x = some cmd → x.1.Seated m cmd.user := by
  obtain ⟨-, hsteps⟩ := exec_traffic h
  refine ⟨(pairwise_visited_iff Grows tr w).mpr fun x hx => (hsteps x hx).1.grows,
    exec_commands h, fun x hx => ?_⟩
  exact (forall_steps_iff (fun w e => ∀ m cmd, executed m (w, e) = some cmd → w.Seated m cmd.user)
    tr w).mp (fun y hy => (hsteps y hy).2) x hx

/-- The player 1 joins the match and sends a jump, which the match takes over and executes. -/
theorem jump_in_turn : ∃ tr w, (system sampleParse fun _ => []).Exec tr w ∧
    (visited tr w).Pairwise Grows ∧
    tr.filterMap (submitted 0) = [⟨1, jumpData⟩] ∧
    tr.filterMap (submitted 0) = tr.filterMap (executed 0) ++ w.pending 0 ∧
    w.pending 0 = [] ∧
    executed 0 (takenWorld, .executeNext 0) = some ⟨1, jumpData⟩ ∧ takenWorld.Seated 0 1 := by
  have hexec := jumpRun_exec.next (.executeNext 0) _
    ⟨Nat.zero_lt_one, ⟨1, jumpData⟩, [], _, _, rfl, rfl, rfl⟩
  obtain ⟨hgrows, hcommands, hsenders⟩ := commands_in_turn _ _ _ _ hexec
  refine ⟨_, _, hexec, hgrows, rfl, hcommands 0, rfl, rfl, ?_⟩
  exact hsenders _ (List.mem_append_right _ (List.mem_singleton.mpr rfl)) 0 ⟨1, jumpData⟩ rfl

end World

end GameServer
