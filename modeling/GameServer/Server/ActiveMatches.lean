import GameServer.Lib.Grouping
import GameServer.Server.MatchIndex

/-! `Get_Active_Match` of the players against the rosters of the registered matches,
while matches are created and ended and players join and are removed, one call after
the other. -/

namespace GameServer

open Lib

namespace World

/-- The match is in the tables of `MatchManager`. -/
def Registered (w : World) (m : MatchRef) : Prop := ∃ id, w.mMatchesIDs.lookup id = some m

/-- `Match::EndMatch`. -/
def endMatch (w : World) (m : MatchRef) : World :=
  (w.setMatchCtx m (w.matchCtx m).endMatch).removeMatch (w.matchAt m).mID

inductive RosterEvent where
  | createMatch (id : String) (draws : List UInt16)
  /-- the thread of a new match starts -/
  | threadInit (m : MatchRef) (now : UInt64)
  /-- a `Join_Match` of a player is handled -/
  | join (player : PlayerRef) (id : String)
  | removePlayer (player : PlayerRef) (m : MatchRef)
  | endMatch (m : MatchRef)
  deriving DecidableEq, Repr

/-- A call that returns; a match that is not registered is destroyed. -/
def RosterStep (w : World) (e : RosterEvent) (w' : World) : Prop :=
  match e with
  | .createMatch id draws => w.createMatchDrawn id draws = some w'
  | .threadInit m now => w.Registered m ∧ (w.matchAt m).mMatchState = .none ∧
      w' = w.setMatchCtx m ((w.matchCtx m).threadInit now)
  | .join p id => ∃ r, w.addMatchPlayer (some p) id = .ok (r, w')
  | .removePlayer p m => w.Registered m ∧
      ∃ r c, (w.matchCtx m).removePlayer p = .ok (r, c) ∧ w' = w.setMatchCtx m c
  | .endMatch m => w.Registered m ∧ w' = w.endMatch m

/-- There are no matches yet. -/
structure RosterInit (w : World) : Prop extends IndexInit w where
  mActiveMatch : ∀ p, (w.players p).mActiveMatch = none

def rosterSystem : System World RosterEvent := ⟨RosterInit, RosterStep⟩

/-- A player has an active match if and only if it is in `m_players` of that match and
the match is registered. -/
def ActiveAgrees (w : World) : Prop :=
  ∀ p m, (w.players p).mActiveMatch = some m ↔
    p ∈ (w.matchAt m).mPlayers.values ∧ w.Registered m

/-- What a call has to find for the records to agree after it: a player who is let in
is in that match already, or is in none and nobody there has its UserID; a player who is
removed is the one that is stored under its UserID; a match that ends is empty. -/
def Tidy (w : World) (e : RosterEvent) : Prop :=
  match e with
  | .createMatch _ _ | .threadInit _ _ => True
  | .join p id => ∀ m, w.mMatchesIDs.lookup id = some m →
      (w.matchAt m).mMatchState = .joinedWaiting →
      (w.players p).mActiveMatch = some m ∨ (w.players p).mActiveMatch = none ∧
        (w.matchAt m).mPlayers.find? (w.players p).getUserID = none
  | .removePlayer p m => ∀ q, (w.matchAt m).mPlayers.find? (w.players p).getUserID = some q → q = p
  | .endMatch m => (w.matchAt m).mPlayers.values = []

/-! ### Players and matches as members and groups -/

/-- The two records of who is in which match. -/
def grouping (w : World) : Grouping PlayerRef MatchRef UserID where
  key p := (w.players p).getUserID
  entry m k := (w.matchAt m).mPlayers.find? k
  active p := (w.players p).mActiveMatch
  registered := {m | w.Registered m}

variable {w w' : World} {m : MatchRef} {p : PlayerRef}

theorem mem_values_iff (hk : w.grouping.Keyed) (hm : w.Registered m) :
    p ∈ (w.matchAt m).mPlayers.values ↔
      (w.matchAt m).mPlayers.find? (w.players p).getUserID = some p := by
  constructor
  · intro hp
    obtain ⟨e, he, rfl⟩ := List.mem_map.mp hp
    have hentry := OrdMap.find?_eq_some.mpr he
    have hkey : (w.players e.2).getUserID = e.1 := hk m hm e.1 e.2 hentry
    rw [hkey]
    exact hentry
  · intro hp
    exact List.mem_map.mpr ⟨_, OrdMap.find?_eq_some.mp hp, rfl⟩

theorem activeAgrees_iff (hk : w.grouping.Keyed) : w.ActiveAgrees ↔ w.grouping.Consistent := by
  refine forall_congr' fun p => forall_congr' fun m => iff_congr Iff.rfl ?_
  exact and_congr_left fun hm => mem_values_iff hk hm

theorem setMatchCtx_self (w : World) (m : MatchRef) : w.setMatchCtx m (w.matchCtx m) = w := by
  have hmatch : Function.update w.matchAt m (w.matchCtx m).mtch = w.matchAt :=
    Function.update_eq_self ..
  rw [setMatchCtx, hmatch]
  rfl

theorem matchAt_setMatchCtx (w : World) (m m' : MatchRef) (c : MatchCtx) :
    (w.setMatchCtx m c).matchAt m' = if m' = m then c.mtch else w.matchAt m' :=
  Function.update_apply ..

/-- A call that keeps the roster and the players changes neither record. -/
theorem grouping_setMatchCtx {c : MatchCtx} (hroster : c.mtch.mPlayers = (w.matchAt m).mPlayers)
    (hplayers : c.players = w.players) : (w.setMatchCtx m c).grouping = w.grouping := by
  have hkey : (w.setMatchCtx m c).players = w.players := hplayers
  refine Grouping.ext ?_ (funext fun m' => funext fun k => ?_) ?_ rfl
  · simp only [grouping, hkey]
  · simp only [grouping, matchAt_setMatchCtx]
    split_ifs with hm
    · rw [hm, hroster]
    · rfl
  · simp only [grouping, hkey]

theorem grouping_joined : (w.setMatchCtx m ((w.matchCtx m).joined m p)).grouping =
    w.grouping.join p m := by
  refine Grouping.ext (funext fun q => ?_) (funext fun m' => funext fun k => ?_)
    (funext fun q => ?_) rfl
  · exact MatchCtx.joined_field m p Player.getUserID (fun _ _ _ => rfl) q
  · rw [Grouping.join_entry]
    simp only [grouping, matchAt_setMatchCtx]
    by_cases hm : m' = m
    · rw [if_pos hm, if_pos hm]
      exact OrdMap.find?_insert (m := (w.matchAt m).mPlayers)
    · rw [if_neg hm, if_neg hm]
  · rw [Grouping.join_active]
    change (((w.matchCtx m).joined m p).players q).mActiveMatch = _
    split_ifs with hq
    · rw [hq, MatchCtx.joined_players_self]
      rfl
    · rw [MatchCtx.joined_players_ne m p hq]
      rfl

theorem grouping_removed : (w.setMatchCtx m ((w.matchCtx m).removed p)).grouping =
    w.grouping.remove p m := by
  refine Grouping.ext (funext fun q => ?_) (funext fun m' => funext fun k => ?_)
    (funext fun q => ?_) rfl
  · exact MatchCtx.removed_field Player.getUserID (fun _ _ => rfl) _ p q
  · rw [Grouping.remove_entry]
    simp only [grouping, matchAt_setMatchCtx]
    by_cases hm : m' = m
    · rw [if_pos hm, if_pos hm]
      exact OrdMap.find?_erase (m := (w.matchAt m).mPlayers)
    · rw [if_neg hm, if_neg hm]
  · rw [Grouping.remove_active]
    change (Function.update w.players p ((w.players p).setActiveMatch none) q).mActiveMatch = _
    rw [Function.update_apply]
    split_ifs with hq
    · rfl
    · rfl

theorem registered_iff (hw : w.Indexed) :
    w.Registered m ↔ w.mMatchesIDs.lookup (w.matchAt m).mID = some m := by
  constructor
  · rintro ⟨id, hid⟩
    rw [(hw.left id m hid).1]
    exact hid
  · intro hid
    exact ⟨_, hid⟩

/-- So is one that keeps the ids of the match. -/
theorem indexed_setMatchCtx {c : MatchCtx} (hw : w.Indexed) (hid : c.mtch.mID = (w.matchAt m).mID)
    (hshort : c.mtch.mShortID = (w.matchAt m).mShortID) : (w.setMatchCtx m c).Indexed := by
  refine Inverse.congr hw fun a m' _ => ?_
  rw [matchAt_setMatchCtx]
  split_ifs with hm
  · rw [hm, hid, hshort]
    exact ⟨rfl, rfl⟩
  · exact ⟨rfl, rfl⟩

theorem grouping_createMatch {id : String} {shortId : UInt16} (hid : w.mMatchesIDs.lookup id = none) :
    (w.createMatch id shortId).grouping = w.grouping.add w.nextMatch := by
  obtain ⟨hids, -, -, -, -, hold⟩ := createMatch_tables shortId hid
  have hempty : ((w.createMatch id shortId).matchAt w.nextMatch).mPlayers = OrdMap.empty := by
    have hhas : ¬ w.hasMatchID id = true := by simp [hasMatchID, hid]
    simp only [createMatch, if_neg hhas, Function.update_self]
  have hplayers : (w.createMatch id shortId).players = w.players := by
    unfold createMatch
    split_ifs <;> rfl
  refine Grouping.ext ?_ (funext fun m' => ?_) ?_ (Set.ext fun m' => ?_)
  · simp only [grouping, Grouping.add, hplayers]
  · simp only [grouping, Grouping.add, Function.update_apply]
    split_ifs with hm
    · rw [hm, hempty]
      rfl
    · rw [hold m' hm]
  · simp only [grouping, Grouping.add, hplayers]
  · simp only [grouping, Grouping.add, Set.mem_ofPred_eq, Set.mem_insert_iff, Registered, hids,
      lookup_insert_eq_some hid]
    constructor
    · rintro ⟨a, ⟨-, rfl⟩ | ha⟩
      · exact Or.inl rfl
      · exact Or.inr ⟨a, ha⟩
    · rintro (rfl | ⟨a, ha⟩)
      · exact ⟨id, Or.inl ⟨rfl, rfl⟩⟩
      · exact ⟨a, Or.inr ha⟩

theorem endMatch_eq (hw : w.Indexed) (hm : w.Registered m) : w.endMatch m =
    { w.setMatchCtx m (w.matchCtx m).endMatch with
      mMatchesIDs := w.mMatchesIDs.erase (w.matchAt m).mID
      mMatches := w.mMatches.erase (w.matchAt m).mShortID } := by
  have hid : (w.setMatchCtx m (w.matchCtx m).endMatch).mMatchesIDs.lookup (w.matchAt m).mID = some m :=
    (registered_iff hw).mp hm
  have hshort : ((w.setMatchCtx m (w.matchCtx m).endMatch).matchAt m).mShortID =
      (w.matchAt m).mShortID := by
    rw [matchAt_setMatchCtx, if_pos rfl]
    rfl
  rcases removeMatch_eq (w.setMatchCtx m (w.matchCtx m).endMatch) (w.matchAt m).mID with
    ⟨hnone, -⟩ | ⟨m', hm', heq⟩
  · rw [hid] at hnone
    cases hnone
  · obtain rfl : m = m' := Option.some.inj (hid.symm.trans hm')
    rw [endMatch, heq, hshort]
    rfl

theorem grouping_endMatch (hw : w.Indexed) (hm : w.Registered m) :
    (w.endMatch m).grouping = w.grouping.drop m := by
  have hsame : (w.setMatchCtx m (w.matchCtx m).endMatch).grouping = w.grouping :=
    grouping_setMatchCtx rfl rfl
  have hentry : (w.setMatchCtx m (w.matchCtx m).endMatch).grouping.entry = w.grouping.entry := by
    rw [hsame]
  rw [endMatch_eq hw hm]
  refine Grouping.ext rfl hentry rfl (Set.ext fun m' => ?_)
  change (∃ id, (w.mMatchesIDs.erase (w.matchAt m).mID).lookup id = some m') ↔
    w.Registered m' ∧ m' ≠ m
  simp only [lookup_erase_eq_some]
  constructor
  · rintro ⟨id, hne, hid⟩
    refine ⟨⟨id, hid⟩, ?_⟩
    rintro rfl
    exact hne (hw.left id m' hid).1.symm
  · rintro ⟨⟨id, hid⟩, hne⟩
    refine ⟨id, ?_, hid⟩
    rintro rfl
    exact hne (Option.some.inj (hid.symm.trans ((registered_iff hw).mp hm)))

/-! ### Steps -/

/-- What both records satisfy besides being in agreement. -/
structure RosterInv (w : World) : Prop where
  indexed : w.Indexed
  created : w.Created
  keyed : w.grouping.Keyed

theorem addMatchPlayer_some {id : String} {r : Bool} (h : w.addMatchPlayer (some p) id = .ok (r, w')) :
    (w' = w ∧ ∀ m, w.mMatchesIDs.lookup id = some m → (w.matchAt m).mMatchState ≠ .joinedWaiting) ∨
    ∃ m, w.mMatchesIDs.lookup id = some m ∧ (w.matchAt m).mMatchState = .joinedWaiting ∧
      w' = w.setMatchCtx m ((w.matchCtx m).joined m p) := by
  unfold addMatchPlayer at h
  cases hid : w.mMatchesIDs.lookup id with
  | none =>
    rw [hid] at h
    cases h
    exact Or.inl ⟨rfl, nofun⟩
  | some m =>
    rw [hid] at h
    dsimp only at h
    rw [MatchCtx.joinPlayer_some] at h
    split_ifs at h with hstate hmtx
    · cases h
      refine Or.inl ⟨setMatchCtx_self w m, fun m' hm' => ?_⟩
      obtain rfl := Option.some.inj hm'
      exact hstate
    · cases h
    · cases h
      exact Or.inr ⟨m, rfl, not_not.mp hstate, rfl⟩

/-- What a call does to both records. -/
inductive RosterMove (w : World) : RosterEvent → Grouping PlayerRef MatchRef UserID → Prop where
  | same {e : RosterEvent} (htidy : w.Tidy e) : RosterMove w e w.grouping
  | add {id : String} {draws : List UInt16} (hnew : ¬ w.Registered w.nextMatch) :
    RosterMove w (.createMatch id draws) (w.grouping.add w.nextMatch)
  | join {p : PlayerRef} {id : String} {m : MatchRef} (hid : w.mMatchesIDs.lookup id = some m)
    (hstate : (w.matchAt m).mMatchState = .joinedWaiting) :
    RosterMove w (.join p id) (w.grouping.join p m)
  | remove {p q : PlayerRef} {m : MatchRef} (hm : w.Registered m)
    (hq : (w.matchAt m).mPlayers.find? (w.players p).getUserID = some q) :
    RosterMove w (.removePlayer p m) (w.grouping.remove p m)
  | drop {m : MatchRef} (hm : w.Registered m) : RosterMove w (.endMatch m) (w.grouping.drop m)

theorem rosterStep_move {e : RosterEvent} (hw : w.RosterInv) (h : RosterStep w e w') :
    RosterMove w e w'.grouping := by
  cases e with
  | createMatch id draws =>
    rcases createMatchDrawn_eq h with ⟨-, rfl⟩ | ⟨shortId, hid, -, rfl⟩
    · exact .same trivial
    · rw [grouping_createMatch hid]
      exact .add fun ⟨id, hm⟩ => Nat.lt_irrefl _ (hw.created id _ hm)
  | threadInit m now =>
    obtain ⟨-, -, rfl⟩ := h
    rw [grouping_setMatchCtx rfl rfl]
    exact .same trivial
  | join p id =>
    obtain ⟨r, hr⟩ := h
    rcases addMatchPlayer_some hr with ⟨rfl, hstate⟩ | ⟨m, hid, hstate, rfl⟩
    · exact .same fun m hm hwait => absurd hwait (hstate m hm)
    · rw [grouping_joined]
      exact .join hid hstate
  | removePlayer p m =>
    obtain ⟨hm, r, c, hc, rfl⟩ := h
    rw [MatchCtx.removePlayer_eq] at hc
    split_ifs at hc with hmtx hhas
    · cases hc
      obtain ⟨q, hq⟩ := Option.isSome_iff_exists.mp hhas
      rw [grouping_removed]
      exact .remove hm hq
    · cases hc
      have hnone : (w.matchAt m).mPlayers.find? (w.players p).getUserID = none :=
        Option.not_isSome_iff_eq_none.mp hhas
      rw [setMatchCtx_self]
      refine .same fun q hq => ?_
      rw [hnone] at hq
      cases hq
  | endMatch m =>
    obtain ⟨hm, rfl⟩ := h
    rw [grouping_endMatch hw.indexed hm]
    exact .drop hm

/-- After a call that finds them in agreement, the records agree exactly when the call
was tidy. -/
theorem RosterMove.consistent_iff {e : RosterEvent} {g : Grouping PlayerRef MatchRef UserID}
    (hk : w.grouping.Keyed) (hs : w.grouping.Consistent) (h : RosterMove w e g) :
    g.Consistent ↔ w.Tidy e := by
  cases h with
  | same htidy => exact iff_of_true hs htidy
  | add hnew => exact iff_of_true (Grouping.add_consistent hs hnew) trivial
  | @join p id m hid hstate =>
    refine (Grouping.join_consistent_iff hs hk ⟨id, hid⟩).trans ⟨fun h m' hm' _ => ?_, fun h => ?_⟩
    · obtain rfl := Option.some.inj (hid.symm.trans hm')
      exact h
    · exact h m hid hstate
  | @remove p q m hm hq =>
    refine (Grouping.remove_consistent_iff hs hk hm hq).trans ⟨fun h r hr => ?_, fun h => h q hq⟩
    rw [← h]
    exact Option.some.inj (hr.symm.trans hq)
  | drop hm =>
    refine (Grouping.drop_consistent_iff hs hk hm).trans ?_
    exact OrdMap.values_eq_nil_iff.symm

theorem RosterMove.keyed {e : RosterEvent} {g : Grouping PlayerRef MatchRef UserID}
    (hk : w.grouping.Keyed) (h : RosterMove w e g) : g.Keyed := by
  cases h with
  | same _ => exact hk
  | add _ => exact hk.add _
  | join _ _ => exact hk.join _ _
  | remove _ _ => exact hk.remove _ _
  | drop _ => exact hk.drop _

theorem rosterInv_step {e : RosterEvent} (hw : w.RosterInv) (h : RosterStep w e w') :
    w'.RosterInv := by
  have hkeyed := (rosterStep_move hw h).keyed hw.keyed
  cases e with
  | createMatch id draws =>
    have hnew := indexed_step (e := .createMatch id draws) hw.indexed hw.created h
    exact ⟨hnew.1, hnew.2, hkeyed⟩
  | threadInit m now =>
    obtain ⟨-, -, rfl⟩ := h
    exact ⟨indexed_setMatchCtx hw.indexed rfl rfl, hw.created, hkeyed⟩
  | join p id =>
    obtain ⟨r, hr⟩ := h
    rcases addMatchPlayer_some hr with ⟨rfl, -⟩ | ⟨m, -, -, rfl⟩
    · exact hw
    · exact ⟨indexed_setMatchCtx hw.indexed rfl rfl, hw.created, hkeyed⟩
  | removePlayer p m =>
    obtain ⟨-, r, c, hc, rfl⟩ := h
    rw [MatchCtx.removePlayer_eq] at hc
    split_ifs at hc
    · cases hc
      exact ⟨indexed_setMatchCtx hw.indexed rfl rfl, hw.created, hkeyed⟩
    · cases hc
      exact ⟨indexed_setMatchCtx hw.indexed rfl rfl, hw.created, hkeyed⟩
  | endMatch m =>
    obtain ⟨hm, rfl⟩ := h
    have hsame : (w.setMatchCtx m (w.matchCtx m).endMatch).Indexed :=
      indexed_setMatchCtx hw.indexed rfl rfl
    have hgone := indexed_removeMatch hsame hw.created (w.matchAt m).mID
    exact ⟨hgone.1, hgone.2, hkeyed⟩

/-! ### A run -/

theorem rosterInv_init (h : w.RosterInit) : w.RosterInv ∧ w.ActiveAgrees := by
  have hnone : ∀ m, ¬ w.Registered m := by
    rintro m ⟨id, hid⟩
    rw [h.mMatchesIDs] at hid
    cases hid
  refine ⟨⟨?_, ?_, fun m hm => absurd hm (hnone m)⟩, fun p m => ?_⟩
  · rw [Indexed, h.mMatches, h.mMatchesIDs]
    exact Inverse.empty _ _
  · rw [Created, h.mMatchesIDs]
    intro id m hid
    cases hid
  · rw [h.mActiveMatch]
    exact iff_of_false (by simp) fun hm => hnone m hm.2

/-- In a whole run the active matches agree with the rosters of the registered matches
in every state if and only if every call is tidy. -/
theorem active_agrees_iff (tr : List (World × RosterEvent)) (w : World)
    (h : rosterSystem.Exec tr w) :
    (∀ x ∈ visited tr w, x.ActiveAgrees) ↔ ∀ x ∈ tr, x.1.Tidy x.2 := by
  have hstep : ∀ {w w' : World} {e : RosterEvent}, w.RosterInv ∧ w.ActiveAgrees →
      RosterStep w e w' → (w'.ActiveAgrees ↔ w.Tidy e) := by
    intro w w' e hw hst
    rw [activeAgrees_iff (rosterInv_step hw.1 hst).keyed]
    exact (rosterStep_move hw.1 hst).consistent_iff hw.1.keyed
      ((activeAgrees_iff hw.1.keyed).mp hw.2)
  refine h.safe_iff (fun w => w.RosterInv ∧ w.ActiveAgrees) ActiveAgrees Tidy
    (fun _ => rosterInv_init) (fun _ => And.right) (fun _ _ _ hw htidy hst => ?_)
    fun _ _ _ hw htidy hst => mt (hstep hw hst).mp htidy
  exact ⟨rosterInv_step hw.1 hst, (hstep hw hst).mpr htidy⟩

/-! ### A player who joins one match, and then another -/

def playersWorld : World := { emptyWorld with players := MatchCtx.samplePlayer }

theorem playersWorld_init : playersWorld.RosterInit := ⟨⟨rfl, rfl⟩, fun _ => rfl⟩

theorem rosterStep_join {id : String} (hid : w.mMatchesIDs.lookup id = some m)
    (hstate : (w.matchAt m).mMatchState = .joinedWaiting) (hmtx : (w.matchAt m).mPlayerMtx = false) :
    RosterStep w (.join p id) (w.setMatchCtx m ((w.matchCtx m).joined m p)) := by
  refine ⟨true, ?_⟩
  have hjoin : (w.matchCtx m).joinPlayer m (some p) = .ok (true, (w.matchCtx m).joined m p) := by
    simp [MatchCtx.joinPlayer_some, matchCtx, hstate, hmtx]
  unfold addMatchPlayer
  rw [hid]
  dsimp only
  rw [hjoin]
  rfl

/-- Player 0 joins the match 0 while the match 1 waits for players, too. -/
theorem joined_one : ∃ tr w, rosterSystem.Exec tr w ∧ (∀ x ∈ tr, x.1.Tidy x.2) ∧
    (w.players 0).mActiveMatch = some 0 ∧ 0 ∈ (w.matchAt 0).mPlayers.values ∧ w.Registered 0 ∧
    RosterStep w (.join 0 "n") (w.setMatchCtx 1 ((w.matchCtx 1).joined 1 0)) := by
  have h0 : rosterSystem.Exec [] playersWorld := .nil playersWorld_init
  have h1 := h0.next (.createMatch "m" [7]) _ rfl
  have h2 := h1.next (.createMatch "n" [8]) _ rfl
  have h3 := h2.next (.threadInit 0 5) _ ⟨⟨"m", rfl⟩, rfl, rfl⟩
  have h4 := h3.next (.threadInit 1 5) _ ⟨⟨"n", rfl⟩, rfl, rfl⟩
  have h5 := h4.next (.join 0 "m") _ (rosterStep_join (m := 0) rfl rfl rfl)
  refine ⟨_, _, h5, ?_, rfl, by decide, ⟨"m", rfl⟩, rosterStep_join rfl rfl rfl⟩
  simp only [forall_trace_snoc Tidy]
  refine ⟨⟨⟨⟨⟨List.forall_mem_nil _, trivial⟩, trivial⟩, trivial⟩, trivial⟩, fun m hm _ => ?_⟩
  obtain rfl := Option.some.inj hm
  exact Or.inr ⟨rfl, rfl⟩

theorem active_agrees_joined : ∃ tr w, rosterSystem.Exec tr w ∧
    (w.players 0).mActiveMatch = some 0 ∧ ∀ x ∈ visited tr w, x.ActiveAgrees := by
  obtain ⟨tr, w, h, htidy, hactive, -⟩ := joined_one
  exact ⟨tr, w, h, hactive, (active_agrees_iff tr w h).mpr htidy⟩

/-- The player is in both rosters afterwards. -/
theorem active_disagrees : ∃ tr w, rosterSystem.Exec tr w ∧ ¬ w.ActiveAgrees := by
  obtain ⟨tr, w, h, -, -, hroster, hm, hjoin⟩ := joined_one
  refine ⟨_, _, h.next (.join 0 "n") _ hjoin, fun hagrees => ?_⟩
  have hold : (w.setMatchCtx 1 ((w.matchCtx 1).joined 1 0)).matchAt 0 = w.matchAt 0 := by
    rw [matchAt_setMatchCtx, if_neg (by decide)]
  have hactive := (hagrees 0 0).mpr ⟨by rw [hold]; exact hroster, hm⟩
  change (((w.matchCtx 1).joined 1 0).players 0).mActiveMatch = some 0 at hactive
  rw [MatchCtx.joined_players_self] at hactive
  exact absurd (Option.some.inj hactive) (by decide)

end World

end GameServer
