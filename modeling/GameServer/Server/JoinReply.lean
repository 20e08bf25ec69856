import GameServer.Server.ActiveMatches
import GameServer.Server.EventSessions
import GameServer.Server.HandlerInputs

/-! What the client hears of its `Join_Match`. The join goes by the id of a match and
the answer names its short id, so the answer is true as far as the two tables of
`MatchManager` belong together. -/

namespace GameServer

open Lib BufferUtils

namespace World

variable {w w' : World} {s : SessionRef} {p : PlayerRef} {id : String}
  {parse : List UInt8 → Option Json} {buffer : List UInt8}

/-- The tables are those of a run of `CreateMatch` and `RemoveMatch`; the matches may
have gone on meanwhile, under their ids, and none of them is being changed. -/
structure Managed (w : World) : Prop where
  tables : ∃ tr v, indexSystem.Exec tr v ∧ w.mMatches = v.mMatches ∧
    w.mMatchesIDs = v.mMatchesIDs ∧
    ∀ m, (w.matchAt m).mID = (v.matchAt m).mID ∧ (w.matchAt m).mShortID = (v.matchAt m).mShortID
  free : w.MutexesFree

theorem Managed.indexed (h : w.Managed) : w.Indexed := by
  obtain ⟨tr, v, hv, hmatches, hids, hsame⟩ := h.tables
  have hindexed : v.Indexed := (indexed_exec hv).1
  rw [Indexed, hmatches, hids]
  exact Inverse.congr hindexed fun _ m _ => hsame m

/-- Every match, and the match and instance id of every player, is as before. -/
structure MatchesKept (w w' : World) : Prop where
  matchAt : w'.matchAt = w.matchAt
  mMatches : w'.mMatches = w.mMatches
  mMatchesIDs : w'.mMatchesIDs = w.mMatchesIDs
  mActiveMatch : ∀ q, (w'.players q).mActiveMatch = (w.players q).mActiveMatch
  mMatchInstanceId : ∀ q, (w'.players q).mMatchInstanceId = (w.players q).mMatchInstanceId

/-- Player `p` is in the match that is registered under `id` and under `shortId`. -/
structure IsJoined (w : World) (id : String) (shortId : UInt16) (p : PlayerRef) (m : MatchRef) :
    Prop where
  byId : w.getMatchFromID id = some m
  byShortId : w.getMatchFromShortID shortId = some m
  state : (w.matchAt m).mMatchState = .joinedWaiting
  mPlayers : (w.matchAt m).mPlayers.find? (w.players p).getUserID = some p
  mActiveMatch : (w.players p).mActiveMatch = some m

/-- The session is sent one `Join_Match_Result`, and what it says is so. -/
def AnsweredTruly (parse : List UInt8 → Option Json) (w : World) (s : SessionRef)
    (buffer : List UInt8) : Prop :=
  ∃ w' status lo hi, joinMatch parse w s buffer = .ok w' ∧
    w'.sent = w.sent ++ [(s, .joinMatchResult, [status, lo, hi])] ∧
    (status = 0x00 ∨ status = 0x01) ∧
    (status = 0x01 → ∃ id p m, MatchText parse buffer id ∧ w.lockUser s = some p ∧
      w'.IsJoined id (word16 lo hi) p m) ∧
    (status = 0x00 → lo = 0 ∧ hi = 0 ∧ w.MatchesKept w')

/-! ### The join -/

/-- A join is let in by the match of that id, or nothing happens. -/
theorem addMatchPlayer_cases (hfree : w.MutexesFree) (p : PlayerRef) (id : String) :
    (∃ m, w.mMatchesIDs.lookup id = some m ∧ (w.matchAt m).mMatchState = .joinedWaiting ∧
      w.addMatchPlayer (some p) id = .ok (true, w.setMatchCtx m ((w.matchCtx m).joined m p))) ∨
    w.addMatchPlayer (some p) id = .ok (false, w) := by
  unfold addMatchPlayer
  cases hm : w.mMatchesIDs.lookup id with
  | none => exact .inr rfl
  | some m =>
    have hmtx : (w.matchCtx m).mtch.mPlayerMtx = false := hfree id m hm
    dsimp only
    rw [MatchCtx.joinPlayer_some, hmtx, if_neg Bool.false_ne_true]
    by_cases hstate : (w.matchCtx m).mtch.mMatchState = .joinedWaiting
    · rw [if_neg (not_not.mpr hstate)]
      exact .inl ⟨m, rfl, hstate, rfl⟩
    · rw [if_pos hstate]
      refine .inr ?_
      change Except.ok (false, w.setMatchCtx m (w.matchCtx m)) = _
      rw [setMatchCtx_self]

theorem MatchesKept.send (h : w.MatchesKept w') (s : SessionRef) (command : OpCodes.Client)
    (data : List UInt8) : w.MatchesKept (w'.send s command data) := by
  obtain ⟨sent, hsent⟩ := send_eq w' s command data
  rw [hsent]
  exact ⟨h.matchAt, h.mMatches, h.mMatchesIDs, h.mActiveMatch, h.mMatchInstanceId⟩

theorem MatchesKept.refl (w : World) : w.MatchesKept w := ⟨rfl, rfl, rfl, fun _ => rfl, fun _ => rfl⟩

/-- A join that was let in, as the tables show it. -/
theorem isJoined_joined (hw : w.Indexed) {m : MatchRef} (hm : w.mMatchesIDs.lookup id = some m)
    (hstate : (w.matchAt m).mMatchState = .joinedWaiting) (p : PlayerRef) :
    (w.setMatchCtx m ((w.matchCtx m).joined m p)).IsJoined id (w.matchAt m).mShortID p m := by
  have hat : (w.setMatchCtx m ((w.matchCtx m).joined m p)).matchAt m =
      ((w.matchCtx m).joined m p).mtch := Function.update_self ..
  have hplayer : (w.setMatchCtx m ((w.matchCtx m).joined m p)).players p =
      ((w.players p).setActiveMatch (some m)).setMatchInstanceID
        (UInt8.ofNat ((w.matchAt m).mPlayers.insert (w.players p).getUserID p).size) :=
    MatchCtx.joined_players_self ..
  refine ⟨hm, (hw.left id m hm).2, ?_, ?_, ?_⟩
  · rw [hat]
    exact hstate
  · rw [hat, hplayer]
    exact OrdMap.find?_insert.trans (if_pos rfl)
  · rw [hplayer]
    rfl

theorem IsJoined.send {shortId : UInt16} {m : MatchRef} (h : w.IsJoined id shortId p m)
    (s : SessionRef) (command : OpCodes.Client) (data : List UInt8) :
    (w.send s command data).IsJoined id shortId p m := by
  obtain ⟨sent, hsent⟩ := send_eq w s command data
  rw [hsent]
  exact ⟨h.byId, h.byShortId, h.state, h.mPlayers, h.mActiveMatch⟩

theorem sent_send (hc : (w.sessions s).connected = true) (command : OpCodes.Client)
    (data : List UInt8) : (w.send s command data).sent = w.sent ++ [(s, command, data)] := by
  unfold send
  rw [if_pos hc]

/-! ### The answer -/

/-- Zeros are true when nothing has happened. -/
theorem answeredTruly_of_zeros (hc : (w.sessions s).connected = true)
    (h : joinMatch parse w s buffer = .ok (w.send s .joinMatchResult [0x00, 0x00, 0x00])) :
    AnsweredTruly parse w s buffer :=
  ⟨_, 0x00, 0x00, 0x00, h, sent_send hc _ _, .inl rfl, nofun,
    fun _ => ⟨rfl, rfl, (MatchesKept.refl w).send s _ _⟩⟩

/-- The answer names the match by the short id that it had before. -/
theorem joinReply_of_joined {m : MatchRef} (hm : w.mMatchesIDs.lookup id = some m) :
    (w.setMatchCtx m ((w.matchCtx m).joined m p)).joinReply id true =
      0x01 :: bytes16 (w.matchAt m).mShortID := by
  have hget : (w.setMatchCtx m ((w.matchCtx m).joined m p)).getMatchFromID id = some m := hm
  unfold joinReply
  rw [hget]
  dsimp only
  rw [if_pos rfl, matchAt_setMatchCtx, if_pos rfl]
  rfl

theorem exists_bytes16 (n : UInt16) : ∃ lo hi, bytes16 n = [lo, hi] ∧ word16 lo hi = n :=
  ⟨_, _, bytes16_eq n, word16_bytes16 n⟩

theorem answeredTruly_of_text (hw : w.Managed) (hc : (w.sessions s).connected = true)
    (hauth : (w.sessions s).isAuthenticated = true) (hlock : w.lockUser s = some p)
    (htext : MatchText parse buffer id) : AnsweredTruly parse w s buffer := by
  obtain ⟨members, hparse, hid⟩ := htext
  have hjoin : ∀ joinRes w₁, w.addMatchPlayer (some p) id = .ok (joinRes, w₁) →
      joinMatch parse w s buffer =
        .ok (w₁.send s .joinMatchResult (w₁.joinReply id joinRes)) := by
    intro joinRes w₁ hadd
    rw [joinMatch_of_parse hauth hlock hparse]
    refine Exec.bind_eq_ok.mpr ⟨members, rfl, Exec.bind_eq_ok.mpr ⟨id, Json.read_string hid, ?_⟩⟩
    exact Exec.bind_eq_ok.mpr ⟨_, hadd, rfl⟩
  rcases addMatchPlayer_cases hw.free p id with ⟨m, hm, hstate, hadd⟩ | hadd
  · have hjoined := isJoined_joined hw.indexed hm hstate p
    obtain ⟨lo, hi, hbytes, hword⟩ := exists_bytes16 (w.matchAt m).mShortID
    rw [← hword] at hjoined
    refine ⟨_, 0x01, lo, hi, hjoin _ _ hadd, ?_, .inr rfl, fun _ => ?_, nofun⟩
    · have hreply := joinReply_of_joined (p := p) hm
      rw [hbytes] at hreply
      rw [hreply]
      exact sent_send (w := w.setMatchCtx m ((w.matchCtx m).joined m p)) hc _ _
    · exact ⟨id, p, m, ⟨members, hparse, hid⟩, hlock, hjoined.send s _ _⟩
  · have hreply : w.joinReply id false = [0x00, 0x00, 0x00] := by
      unfold joinReply
      cases w.getMatchFromID id <;> rfl
    have hzeros := hjoin _ _ hadd
    rw [hreply] at hzeros
    exact answeredTruly_of_zeros hc hzeros

/-- Whatever a connected session asks to join, unless its text is JSON without the id of
a match, it is answered once, and truly. -/
theorem joinMatch_truthful (parse : List UInt8 → Option Json) (w : World) (hw : w.Managed)
    (s : SessionRef) (hc : (w.sessions s).connected = true)
    (hlive : (w.sessions s).isAuthenticated = true → ∃ p, w.lockUser s = some p)
    (buffer : List UInt8)
    (htext : parse buffer = none ∨ ∃ id, MatchText parse buffer id) :
    AnsweredTruly parse w s buffer := by
  cases hauth : (w.sessions s).isAuthenticated with
  | false =>
    apply answeredTruly_of_zeros hc
    unfold joinMatch
    rw [hauth, if_neg Bool.false_ne_true]
  | true =>
    obtain ⟨p, hlock⟩ := hlive hauth
    rcases htext with hparse | ⟨id, htext⟩
    · apply answeredTruly_of_zeros hc
      unfold joinMatch
      rw [if_pos hauth, hparse]
    · exact answeredTruly_of_text hw hc hauth hlock htext

/-- A match has been created, and its thread has started. -/
theorem waitingWorld_managed : waitingWorld.Managed := by
  have h0 : indexSystem.Exec [] loginWorld := .nil ⟨rfl, rfl⟩
  have h1 := h0.next (.createMatch "m" [1]) hostWorld rfl
  have hfree := (exec_mutexesFree (loginRun_exec fun _ => [])).createMatch "m" 1
  refine ⟨⟨_, _, h1, rfl, rfl, fun m => ?_⟩, (sameMutexes_setMatchCtx rfl).free hfree⟩
  unfold waitingWorld
  rw [matchAt_setMatchCtx]
  split_ifs with hm
  · rw [hm]
    exact ⟨rfl, rfl⟩
  · exact ⟨rfl, rfl⟩

theorem waiting_answeredTruly : AnsweredTruly sampleParse waitingWorld 0 matchText :=
  joinMatch_truthful sampleParse waitingWorld waitingWorld_managed 0 rfl (fun _ => ⟨0, rfl⟩)
    matchText (.inr ⟨"m", _, rfl, rfl⟩)

end World

end GameServer
