import GameServer.Server.ActiveMatches
import GameServer.Server.MatchTraffic

/-! The matches that a running server hosts. `MatchManager::Update` asks for new matches
about once a second and is told the same match each time, which it makes once. Nothing
ends that match or makes another one, so when it has started nobody else can play. -/

namespace GameServer

open Lib

/-- The match keeps its ids and, once it has started, its state and its roster. -/
structure Match.Settles (m m' : Match) : Prop where
  mID : m'.mID = m.mID
  mShortID : m'.mShortID = m.mShortID
  started : m.mMatchState = .started → m'.mMatchState = .started ∧ m'.mPlayers = m.mPlayers

theorem Match.Settles.refl (m : Match) : m.Settles m := ⟨rfl, rfl, fun h => ⟨h, rfl⟩⟩

theorem Match.Settles.of_eq {m m' : Match} (h : m' = m) : m.Settles m' := h ▸ .refl m

theorem Match.Settles.trans {m₁ m₂ m₃ : Match} (h : m₁.Settles m₂) (h' : m₂.Settles m₃) :
    m₁.Settles m₃ := by
  refine ⟨h'.mID.trans h.mID, h'.mShortID.trans h.mShortID, fun hs => ?_⟩
  obtain ⟨hstate, hroster⟩ := h.started hs
  obtain ⟨hstate', hroster'⟩ := h'.started hstate
  exact ⟨hstate', hroster'.trans hroster⟩

namespace World

/-- The same matches are registered, under the same ids. -/
structure Hosts (w w' : World) : Prop where
  nextMatch : w'.nextMatch = w.nextMatch
  mMatches : w'.mMatches = w.mMatches
  mMatchesIDs : w'.mMatchesIDs = w.mMatchesIDs
  matchAt : ∀ m, (w.matchAt m).Settles (w'.matchAt m)

variable {parse : List UInt8 → Option Json} {serialize : Json → List UInt8} {w w' : World}
  {s : SessionRef} {p : PlayerRef} {m : MatchRef} {e : Event}

/-! ### Steps that make no match -/

theorem Hosts.refl (w : World) : w.Hosts w := ⟨rfl, rfl, rfl, fun m => .refl (w.matchAt m)⟩

theorem Hosts.trans {w₁ w₂ : World} (h : w.Hosts w₁) (h' : w₁.Hosts w₂) : w.Hosts w₂ :=
  ⟨h'.nextMatch.trans h.nextMatch, h'.mMatches.trans h.mMatches,
    h'.mMatchesIDs.trans h.mMatchesIDs, fun m => (h.matchAt m).trans (h'.matchAt m)⟩

theorem Apart.hosts (h : w.Apart w') : w.Hosts w' :=
  ⟨h.nextMatch, h.mMatches, h.mMatchesIDs, fun m => .of_eq (by rw [h.matchAt])⟩

theorem hosts_setMatchCtx {c : MatchCtx} (h : (w.matchAt m).Settles c.mtch) :
    w.Hosts (w.setMatchCtx m c) := by
  refine ⟨rfl, rfl, rfl, fun n => ?_⟩
  rw [matchAt_setMatchCtx]
  split_ifs with hn
  · rw [hn]
    exact h
  · exact .refl (w.matchAt n)

/-- A match that lets a player in has not started. -/
theorem settles_joinPlayer {r : Bool} {c : MatchCtx}
    (h : (w.matchCtx m).joinPlayer m (some p) = .ok (r, c)) : (w.matchAt m).Settles c.mtch := by
  rw [MatchCtx.joinPlayer_some] at h
  split_ifs at h with hstate
  · cases h
    exact .refl (w.matchAt m)
  · cases h
    refine ⟨rfl, rfl, fun hs => absurd ?_ hstate⟩
    change (w.matchAt m).mMatchState ≠ .joinedWaiting
    simp [hs]

theorem settles_execute {authenticated : SessionRef → Bool} {userID : UserID}
    {buffer : List UInt8} {c c' : MatchCtx} {out : List Broadcast}
    (h : c.executeNetCommand serialize authenticated userID buffer = .ok (c', out)) :
    c.mtch.Settles c'.mtch := by
  by_cases hcmd : c.startCommand userID buffer
  · rw [MatchCtx.executeNetCommand_of_start hcmd] at h
    rcases MatchCtx.startMatch_ok h with rfl | ⟨hwaiting, size, rfl⟩
    · exact .refl c'.mtch
    · exact ⟨rfl, rfl, fun hs => by simp [hwaiting] at hs⟩
  · exact .of_eq (MatchCtx.executeNetCommand_of_not_start hcmd h).2

theorem settles_thread {call : ThreadCall} {c c' : MatchCtx}
    (h : MatchCtx.Step m serialize c call.event c') : c.mtch.Settles c'.mtch := by
  cases call with
  | threadInit now =>
    obtain ⟨hnone, rfl⟩ := h
    exact ⟨rfl, rfl, fun hs => by simp [hnone] at hs⟩
  | updatePlayers now now' => exact .of_eq (MatchCtx.updatePlayers_ok h).1
  | sendOrientations now now' =>
    obtain ⟨out, h⟩ := h
    obtain ⟨buffer, last, rfl⟩ := MatchCtx.sendOrientationUpdates_ok h
    exact ⟨rfl, rfl, fun hs => ⟨hs, rfl⟩⟩
  | sendEvents =>
    obtain ⟨out, h⟩ := h
    rcases MatchCtx.sendPlayerEvents_ok h with rfl | ⟨-, -, rfl⟩
    · exact .refl c'.mtch
    · exact .refl c.mtch

theorem hosts_dispatch {user : Token} {data : Data} {now : UInt64}
    (h : doProcess parse now w user data = .ok w') : w.Hosts w' := by
  rcases doProcess_cases h with rfl | ⟨s, h | h | rfl | h⟩
  · exact .refl w'
  · rcases systemCmd_cases h with rfl | ⟨user', rfl⟩ | ⟨command, reply, rfl⟩
    · exact .refl w'
    · exact ⟨rfl, rfl, rfl, fun m => .refl (w.matchAt m)⟩
    · exact (apart_send w s command reply).hosts
  · exact (apart_userIdentify h).hosts
  · rcases routMatchNetCommand_cases w s data with ⟨p, m, -, heq⟩ | ⟨-, heq⟩
    · rw [heq]
      exact hosts_setMatchCtx ⟨rfl, rfl, fun hs => ⟨hs, rfl⟩⟩
    · rw [heq]
      exact .refl w
  · obtain ⟨w₁, reply, rfl, hw₁⟩ := joinMatch_ok h
    refine Hosts.trans ?_ (apart_send w₁ s .joinMatchResult reply).hosts
    rcases hw₁ with rfl | ⟨p, m, r, c, -, hjoin, rfl⟩
    · exact .refl w₁
    · exact hosts_setMatchCtx (settles_joinPlayer hjoin)

theorem hosts_step (hinv : w.abs.Inv) (h : Step parse serialize w e w')
    (he : ∀ id shortId, e ≠ .createMatch id shortId) : w.Hosts w' := by
  cases e with
  | connect token | removePlayer user | reset s | addNext | removeNext =>
    exact (apart_sessions hinv rfl h).hosts
  | dispatch user data now => exact hosts_dispatch h
  | createMatch id shortId => exact absurd rfl (he id shortId)
  | takeCommands m =>
    obtain ⟨-, -, rfl⟩ := h
    exact hosts_setMatchCtx ⟨rfl, rfl, fun hs => ⟨hs, rfl⟩⟩
  | executeNext m =>
    obtain ⟨-, cmd, rest, c, out, -, h, rfl⟩ := h
    obtain ⟨hid, hshort, hstarted⟩ := settles_execute h
    exact hosts_setMatchCtx ⟨hid, hshort, hstarted⟩
  | thread m call =>
    obtain ⟨-, c, h, rfl⟩ := h
    exact hosts_setMatchCtx (settles_thread h)

/-! ### The only match -/

/-- No match was made yet. -/
structure HostsNone (w : World) : Prop where
  nextMatch : w.nextMatch = 0
  mMatches : w.mMatches = ∅
  mMatchesIDs : w.mMatchesIDs = ∅

/-- One match was made, and both tables hold it and no other one. -/
structure HostsOne (w : World) : Prop where
  nextMatch : w.nextMatch = 1
  mMatchesIDs : ∀ id m, w.mMatchesIDs.lookup id = some m ↔ id = "00000000" ∧ m = 0
  mMatches : ∀ shortId m,
    w.mMatches.lookup shortId = some m ↔ shortId = (w.matchAt 0).mShortID ∧ m = 0
  mID : (w.matchAt 0).mID = "00000000"

theorem HostsOne.hasMatchID (hw : w.HostsOne) : w.hasMatchID "00000000" = true := by
  simp [World.hasMatchID, (hw.mMatchesIDs "00000000" 0).mpr ⟨rfl, rfl⟩]

theorem HostsNone.hosts (hw : w.HostsNone) (h : w.Hosts w') : w'.HostsNone :=
  ⟨h.nextMatch.trans hw.nextMatch, h.mMatches.trans hw.mMatches, h.mMatchesIDs.trans hw.mMatchesIDs⟩

theorem HostsOne.hosts (hw : w.HostsOne) (h : w.Hosts w') : w'.HostsOne := by
  refine ⟨h.nextMatch.trans hw.nextMatch, fun id m => ?_, fun shortId m => ?_, ?_⟩
  · rw [h.mMatchesIDs]
    exact hw.mMatchesIDs id m
  · rw [h.mMatches, (h.matchAt 0).mShortID]
    exact hw.mMatches shortId m
  · rw [(h.matchAt 0).mID]
    exact hw.mID

theorem HostsNone.createMatch (hw : w.HostsNone) (shortId : UInt16) :
    (w.createMatch "00000000" shortId).HostsOne := by
  have hnone : w.mMatchesIDs.lookup "00000000" = none := by simp [hw.mMatchesIDs]
  obtain ⟨hids, hshorts, hnext, hid, hshort, -⟩ := createMatch_tables shortId hnone
  rw [hw.nextMatch] at hids hshorts hnext hid hshort
  refine ⟨hnext, fun id m => ?_, fun n m => ?_, hid⟩
  · rw [hids, lookup_insert_eq_some hnone, hw.mMatchesIDs]
    simp
  · rw [hshorts, hshort, lookup_insert_eq_some (by simp [hw.mMatches]), hw.mMatches]
    simp

/-- The match has started. -/
def Started (w : World) : Prop := w.HostsOne ∧ (w.matchAt 0).mMatchState = .started

theorem addMatchPlayer_started (hw : w.Started) (player : Option PlayerRef) (matchId : String) :
    w.addMatchPlayer player matchId = .ok (false, w) := by
  unfold addMatchPlayer
  cases hm : w.mMatchesIDs.lookup matchId with
  | none => rfl
  | some m =>
    obtain ⟨-, rfl⟩ := (hw.1.mMatchesIDs matchId m).mp hm
    have hstate : (w.matchCtx 0).mtch.mMatchState ≠ .joinedWaiting := by
      change (w.matchAt 0).mMatchState ≠ .joinedWaiting
      simp [hw.2]
    dsimp only
    unfold MatchCtx.joinPlayer
    rw [if_pos hstate]
    change Except.ok (false, w.setMatchCtx 0 (w.matchCtx 0)) = _
    rw [setMatchCtx_self]

/-- Who asks to join then is answered with zeros, and that is all. -/
theorem joinMatch_started (hw : w.Started) {buffer : List UInt8}
    (h : joinMatch parse w s buffer = .ok w') :
    w' = w.send s .joinMatchResult [0x00, 0x00, 0x00] := by
  unfold joinMatch at h
  split_ifs at h
  · dsimp only at h
    cases hparse : parse buffer with
    | none =>
      rw [hparse] at h
      cases h
      rfl
    | some jsonVal =>
      rw [hparse] at h
      obtain ⟨identObj, -, h⟩ := Exec.bind_eq_ok.mp h
      obtain ⟨matchId, -, h⟩ := Exec.bind_eq_ok.mp h
      obtain ⟨⟨joinRes, w₁⟩, hadd, h⟩ := Exec.bind_eq_ok.mp h
      rw [addMatchPlayer_started hw] at hadd
      cases hadd
      cases hlock : w.lockUser s with
      | none =>
        rw [hlock] at h
        cases h
      | some p =>
        rw [hlock] at h
        cases h
        cases w.getMatchFromID matchId <;> rfl
  · cases h
    rfl

theorem doProcess_started (hw : w.Started) {user : Token} {data : Data} {now : UInt64}
    (hcmd : data.command = OpCodes.Server.joinMatch.toByte)
    (h : doProcess parse now w user data = .ok w') :
    (w.mSocketUsers.lookup user = none ∧ w' = w) ∨
    ∃ s, w.mSocketUsers.lookup user = some s ∧
      w' = w.send s .joinMatchResult [0x00, 0x00, 0x00] := by
  unfold doProcess at h
  cases hs : w.mSocketUsers.lookup user with
  | none =>
    rw [hs] at h
    cases h
    exact .inl ⟨rfl, rfl⟩
  | some s =>
    rw [hs] at h
    dsimp only at h
    rw [hcmd, if_neg (by decide), if_neg (by decide), if_neg (by decide), if_pos rfl] at h
    exact .inr ⟨s, rfl, joinMatch_started hw h⟩

end World

/-! ### `MatchManager` -/

/-- `NEW_MATCH_REQUEST_MS`. -/
def newMatchRequestMs : UInt64 := 1000

/-- `MatchManager`; its two tables are the server's. -/
structure MatchManager where
  server : World
  mLastNewMatchRequest : UInt64

namespace MatchManager

/-- The ids of the requests, and the time that is read for the next one. -/
def getNewMatches (now' : UInt64) (s : MatchManager) : List String × MatchManager :=
  (["00000000"], { s with mLastNewMatchRequest := now' })

/-- `draws` are the numbers that `Get_New_Match_Short_ID` draws. -/
def createMatches (now' : UInt64) (draws : List UInt16) (s : MatchManager) : Option MatchManager :=
  let r := s.getNewMatches now'
  (r.1.foldlM (fun (w : World) id => w.createMatchDrawn id draws) r.2.server).map fun w =>
    { r.2 with server := w }

def update (now now' : UInt64) (draws : List UInt16) (s : MatchManager) : Option MatchManager :=
  if now - s.mLastNewMatchRequest > newMatchRequestMs then s.createMatches now' draws else some s

inductive Event where
  /-- a step of the server; `CreateMatch` has no other caller -/
  | server (e : World.Event)
  | update (now now' : UInt64) (draws : List UInt16)
  deriving DecidableEq, Repr

section Step

variable (parse : List UInt8 → Option Json) (serialize : Json → List UInt8)

def Step (s : MatchManager) (e : Event) (s' : MatchManager) : Prop :=
  match e with
  | .server e => (∀ id shortId, e ≠ .createMatch id shortId) ∧
      ∃ w, World.Step parse serialize s.server e w ∧ s' = { s with server := w }
  | .update now now' draws => s.update now now' draws = some s'

structure Init (s : MatchManager) : Prop where
  server : s.server.Init
  mLastNewMatchRequest : s.mLastNewMatchRequest = 0

def system : System MatchManager Event := ⟨Init, Step parse serialize⟩

end Step

/-- Some `Update` so far found the clock past the first second. -/
def Polled (tr : List (MatchManager × Event)) : Prop :=
  ∃ x ∈ tr, ∃ now now' draws, x.2 = .update now now' draws ∧ newMatchRequestMs < now

/-- Once the match has started it stays so, with the players that it has then. -/
structure Settled (s s' : MatchManager) : Prop where
  started : s.server.Started →
    s'.server.Started ∧ (s'.server.matchAt 0).mPlayers = (s.server.matchAt 0).mPlayers

instance : IsTrans MatchManager Settled := by
  refine ⟨fun s₁ s₂ s₃ h h' => ⟨fun hs => ?_⟩⟩
  obtain ⟨hstarted, hroster⟩ := h.started hs
  obtain ⟨hstarted', hroster'⟩ := h'.started hstarted
  exact ⟨hstarted', hroster'.trans hroster⟩

/-- A request to join is answered with zeros, or not at all for a session that is gone. -/
def TurnsAway (s : MatchManager) (e : Event) (s' : MatchManager) : Prop :=
  ∀ user data now, e = .server (.dispatch user data now) →
    data.command = OpCodes.Server.joinMatch.toByte →
    (s.server.mSocketUsers.lookup user = none ∧ s'.server = s.server) ∨
    ∃ u, s.server.mSocketUsers.lookup user = some u ∧
      s'.server = s.server.send u .joinMatchResult [0x00, 0x00, 0x00]

/-! ### Runs -/

variable {parse : List UInt8 → Option Json} {serialize : Json → List UInt8}
  {tr : List (MatchManager × Event)} {s s' : MatchManager} {e : Event}

/-- An `Update` in time asks for the one match, and creates it if it is not there. -/
theorem update_cases {now now' : UInt64} {draws : List UInt16}
    (h : s.update now now' draws = some s') :
    (¬ now - s.mLastNewMatchRequest > newMatchRequestMs ∧ s' = s) ∨
    (now - s.mLastNewMatchRequest > newMatchRequestMs ∧
      s.server.createMatchDrawn "00000000" draws = some s'.server) := by
  unfold update at h
  split_ifs at h with hdue
  · refine .inr ⟨hdue, ?_⟩
    obtain ⟨w, hw, rfl⟩ := Option.map_eq_some_iff.mp h
    simpa [getNewMatches] using hw
  · cases h
    exact .inl ⟨hdue, rfl⟩

/-- No match is there before the first request, and then the only one is. -/
structure Inv (tr : List (MatchManager × Event)) (s : MatchManager) : Prop where
  wf : s.server.WF
  abs : s.server.abs.Inv
  hosted : (s.server.HostsOne ∧ Polled tr) ∨
    (s.server.HostsNone ∧ s.mLastNewMatchRequest = 0 ∧ ¬ Polled tr)

theorem inv_init (h : s.Init) : Inv [] s := by
  obtain ⟨hwf, habs⟩ := World.init_refines h.server
  refine ⟨hwf, Registry.inv_init habs, .inr ⟨⟨?_, ?_, ?_⟩, h.mLastNewMatchRequest, ?_⟩⟩
  · exact h.server.nextMatch
  · exact h.server.mMatches
  · exact h.server.mMatchesIDs
  · simp [Polled]

theorem Polled.snoc (h : Polled tr) (x : MatchManager × Event) : Polled (tr ++ [x]) := by
  obtain ⟨y, hy, hpoll⟩ := h
  exact ⟨y, List.mem_append_left _ hy, hpoll⟩

theorem polled_snoc_server {e : World.Event} :
    Polled (tr ++ [(s, .server e)]) ↔ Polled tr := by
  simp [Polled, or_and_right, exists_or]

theorem polled_snoc_update {now now' : UInt64} {draws : List UInt16} :
    Polled (tr ++ [(s, .update now now' draws)]) ↔ Polled tr ∨ newMatchRequestMs < now := by
  simp [Polled, or_and_right, exists_or]

/-- What a step keeps: the invariant, the match once it has started, and the door closed. -/
structure Kept (tr : List (MatchManager × Event)) (s : MatchManager) (e : Event)
    (s' : MatchManager) : Prop where
  inv : Inv (tr ++ [(s, e)]) s'
  settled : Settled s s'
  turnsAway : s.server.Started → TurnsAway s e s'

theorem Inv.server (hs : Inv tr s) {e : World.Event} {w : World}
    (he : ∀ id shortId, e ≠ .createMatch id shortId)
    (h : World.Step parse serialize s.server e w) : Kept tr s (.server e) { s with server := w } := by
  obtain ⟨hwf, hstep⟩ := World.step_refines hs.wf hs.abs h
  have hhosts : s.server.Hosts w := World.hosts_step hs.abs h he
  refine ⟨⟨hwf, Registry.inv_step hs.abs hstep, ?_⟩, ⟨fun hstarted => ?_⟩, fun hstarted => ?_⟩
  · rw [polled_snoc_server]
    rcases hs.hosted with ⟨hone, hpolled⟩ | ⟨hnone, hlast, hpolled⟩
    · exact .inl ⟨hone.hosts hhosts, hpolled⟩
    · exact .inr ⟨hnone.hosts hhosts, hlast, hpolled⟩
  · obtain ⟨hstate, hroster⟩ := (hhosts.matchAt 0).started hstarted.2
    exact ⟨⟨hstarted.1.hosts hhosts, hstate⟩, hroster⟩
  · intro user data now heq hcmd
    cases heq
    exact World.doProcess_started hstarted hcmd h

theorem turnsAway_update (s s' : MatchManager) (now now' : UInt64) (draws : List UInt16) :
    TurnsAway s (.update now now' draws) s' := by
  intro user data t heq
  cases heq

/-- With its match made, the server is as it was after any `Update`. -/
theorem update_hostsOne {now now' : UInt64} {draws : List UInt16} (hone : s.server.HostsOne)
    (h : s.update now now' draws = some s') : s'.server = s.server := by
  rcases update_cases h with ⟨-, rfl⟩ | ⟨-, hcreate⟩
  · rfl
  · rw [World.createMatchDrawn, if_pos hone.hasMatchID] at hcreate
    exact (Option.some.inj hcreate).symm

/-- The first request makes the match. -/
theorem update_hostsNone {now now' : UInt64} {draws : List UInt16} (hnone : s.server.HostsNone)
    (hlast : s.mLastNewMatchRequest = 0) (h : s.update now now' draws = some s') :
    (¬ newMatchRequestMs < now ∧ s' = s) ∨
    (newMatchRequestMs < now ∧ s'.server.HostsOne ∧
      ∃ shortId, s.server.hasMatchShortID shortId = false ∧
        s'.server = s.server.createMatch "00000000" shortId) := by
  rcases update_cases h with ⟨hdue, rfl⟩ | ⟨hdue, hcreate⟩
  · rw [hlast, UInt64.sub_zero] at hdue
    exact .inl ⟨hdue, rfl⟩
  · rw [hlast, UInt64.sub_zero] at hdue
    rcases World.createMatchDrawn_eq hcreate with ⟨hhas, -⟩ | ⟨shortId, -, hfree, hnew⟩
    · simp [World.hasMatchID, hnone.mMatchesIDs] at hhas
    · refine .inr ⟨hdue, ?_, shortId, by simp [World.hasMatchShortID, hfree], hnew⟩
      rw [hnew]
      exact hnone.createMatch shortId

theorem Inv.update (hs : Inv tr s) {now now' : UInt64} {draws : List UInt16}
    (h : s.update now now' draws = some s') : Kept tr s (.update now now' draws) s' := by
  rcases hs.hosted with ⟨hone, hpolled⟩ | ⟨hnone, hlast, hpolled⟩
  · have hsame := update_hostsOne hone h
    refine ⟨⟨hsame ▸ hs.wf, hsame ▸ hs.abs, .inl ⟨hsame ▸ hone, hpolled.snoc _⟩⟩,
      ⟨fun hstarted => ?_⟩, fun _ => turnsAway_update s s' now now' draws⟩
    rw [hsame]
    exact ⟨hstarted, rfl⟩
  · refine ⟨?_, ⟨fun hstarted => ?_⟩, fun _ => turnsAway_update s s' now now' draws⟩
    · rcases update_hostsNone hnone hlast h with ⟨hdue, rfl⟩ | ⟨hdue, hone, shortId, hfree, hnew⟩
      · refine ⟨hs.wf, hs.abs, .inr ⟨hnone, hlast, ?_⟩⟩
        rw [polled_snoc_update]
        exact not_or_intro hpolled hdue
      · have hst : World.Step (fun _ => none) (fun _ => []) s.server
            (.createMatch "00000000" shortId) s'.server := ⟨hfree, hnew⟩
        obtain ⟨hwf, hstep⟩ := World.step_refines hs.wf hs.abs hst
        refine ⟨hwf, Registry.inv_step hs.abs hstep, .inl ⟨hone, ?_⟩⟩
        rw [polled_snoc_update]
        exact .inr hdue
    · have hnext := hstarted.1.nextMatch
      rw [hnone.nextMatch] at hnext
      cases hnext

theorem Inv.step (hs : Inv tr s) (h : Step parse serialize s e s') : Kept tr s e s' := by
  cases e with
  | server e =>
    obtain ⟨he, w, h, rfl⟩ := h
    exact hs.server he h
  | update now now' draws => exact hs.update h

theorem exec_inv (h : (system parse serialize).Exec tr s) :
    Inv tr s ∧ ∀ x ∈ steps tr s,
      Settled x.1 x.2.2 ∧ (x.1.server.Started → TurnsAway x.1 x.2.1 x.2.2) := by
  induction h with
  | nil hi => exact ⟨inv_init hi, by simp [steps]⟩
  | snoc _ hst ih =>
    obtain ⟨hinv, hsteps⟩ := ih
    obtain ⟨hinv', hsettled, hturns⟩ := hinv.step hst
    refine ⟨hinv', ?_⟩
    rw [steps_snoc]
    exact List.forall_mem_append.mpr
      ⟨hsteps, List.forall_mem_singleton.mpr ⟨hsettled, hturns⟩⟩

/-- In every run one match at most is made, `00000000`, as soon as an `Update` finds the
clock past the first second, and it stays in both tables. Once it has started it never
stops, keeps the players that it has, and nobody joins a match again. -/
theorem one_match_for_life (parse : List UInt8 → Option Json) (serialize : Json → List UInt8)
    (tr : List (MatchManager × Event)) (s : MatchManager)
    (h : (system parse serialize).Exec tr s) :
    ((s.server.HostsOne ∧ Polled tr) ∨ (s.server.HostsNone ∧ ¬ Polled tr)) ∧
    (visited tr s).Pairwise Settled ∧
    ∀ x ∈ steps tr s, x.1.server.Started → TurnsAway x.1 x.2.1 x.2.2 := by
  obtain ⟨hinv, hsteps⟩ := exec_inv h
  refine ⟨hinv.hosted.imp_right fun ⟨hnone, _, hpolled⟩ => ⟨hnone, hpolled⟩,
    (pairwise_visited_iff Settled tr s).mpr fun x hx => (hsteps x hx).1,
    fun x hx => (hsteps x hx).2⟩

/-! ### A match that is started by its player -/

open World

def hostedParse (text : List UInt8) : Option Json :=
  if text = matchText then some (.object [("Match_ID", .string "00000000")]) else sampleParse text

def hostedWorld : World := loginWorld.createMatch "00000000" 5

def openWorld : World := hostedWorld.setMatchCtx 0 ((hostedWorld.matchCtx 0).threadInit 0)

def seatedWorld : World := after (doProcess hostedParse 0 openWorld "a" joinMatchData)

/-- `Debug_Start`. -/
def startData : Data := ⟨.tcp, OpCodes.Server.matchCommand.toByte, [0x01]⟩

def askedWorld : World := after (doProcess hostedParse 0 seatedWorld "a" startData)

def pickedWorld : World :=
  askedWorld.setMatchCtx 0 ((askedWorld.matchCtx 0).setMatch fun x =>
    { x with currentCommands := x.mCommandQueue, mCommandQueue := [] })

def startedWorld : World := pickedWorld.setMatchCtx 0 (pickedWorld.popCommand 0 []).startedWith

def askedAgainWorld : World := after (doProcess hostedParse 0 startedWorld "a" joinMatchData)

theorem startedWorld_exec : ∃ tr, (system hostedParse fun _ => []).Exec tr ⟨startedWorld, 2000⟩ ∧
    startedWorld.Started := by
  have h0 : (system hostedParse fun _ => []).Exec [] ⟨emptyWorld, 0⟩ :=
    .nil ⟨⟨rfl, rfl, rfl, rfl, rfl, rfl, rfl, rfl, rfl⟩, rfl⟩
  have h1 := h0.next (.server (.connect "a")) ⟨connectedWorld, 0⟩ ⟨by simp, _, rfl, rfl⟩
  have h2 := h1.next (.server .addNext) ⟨addedWorld, 0⟩ ⟨by simp, _, ⟨0, [], rfl, rfl⟩, rfl⟩
  have h3 := h2.next (.server (.dispatch "a" (submitIdentity (identityText "1")) 0)) ⟨loginWorld, 0⟩
    ⟨by simp, _, rfl, rfl⟩
  have h4 := h3.next (.update 2000 2000 [5]) ⟨hostedWorld, 2000⟩ rfl
  have h5 := h4.next (.server (.thread 0 (.threadInit 0))) ⟨openWorld, 2000⟩
    ⟨by simp, _, ⟨Nat.zero_lt_one, _, ⟨rfl, rfl⟩, rfl⟩, rfl⟩
  have h6 := h5.next (.server (.dispatch "a" joinMatchData 0)) ⟨seatedWorld, 2000⟩
    ⟨by simp, _, rfl, rfl⟩
  have h7 := h6.next (.server (.dispatch "a" startData 0)) ⟨askedWorld, 2000⟩
    ⟨by simp, _, rfl, rfl⟩
  have h8 := h7.next (.server (.takeCommands 0)) ⟨pickedWorld, 2000⟩
    ⟨by simp, _, ⟨Nat.zero_lt_one, rfl, rfl⟩, rfl⟩
  have h9 := h8.next (.server (.executeNext 0)) ⟨startedWorld, 2000⟩
    ⟨by simp, _, ⟨Nat.zero_lt_one, ⟨1, startData⟩, [], _, _, rfl, rfl, rfl⟩, rfl⟩
  refine ⟨_, h9, ?_, rfl⟩
  have hone : hostedWorld.HostsOne := HostsNone.createMatch (w := loginWorld) ⟨rfl, rfl, rfl⟩ 5
  exact ⟨rfl, hone.mMatchesIDs, hone.mMatches, rfl⟩

/-- Its player asks to join once more. -/
theorem started_turns_away : ∃ tr s, (system hostedParse fun _ => []).Exec tr s ∧
    s.server.HostsOne ∧ s.server.sent = startedWorld.sent ++ [(0, .joinMatchResult, [0, 0, 0])] := by
  obtain ⟨tr, hexec, hstarted⟩ := startedWorld_exec
  have hlast := hexec.next (.server (.dispatch "a" joinMatchData 0)) ⟨askedAgainWorld, 2000⟩
    ⟨by simp, _, rfl, rfl⟩
  obtain ⟨hhosted, hsettled, hturns⟩ := one_match_for_life _ _ _ _ hlast
  rw [steps_snoc] at hturns
  have hstep := hturns _ (List.mem_append_right _ (List.mem_singleton.mpr rfl)) hstarted
  refine ⟨_, _, hlast, ?_, ?_⟩
  · exact (hhosted.resolve_right fun h => absurd h.1.nextMatch (by decide)).1
  · rcases hstep "a" joinMatchData 0 rfl rfl with ⟨hnone, -⟩ | ⟨u, hu, hsent⟩
    · exact absurd hnone (by decide)
    · obtain rfl : 0 = u := Option.some.inj hu
      rw [hsent]
      rfl

end MatchManager

end GameServer
