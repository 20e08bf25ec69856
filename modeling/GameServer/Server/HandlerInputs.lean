import GameServer.Server.Authorization

/-! Which texts `UserIdentify` and `JoinMatch` accept. Only the error code of the parser
is looked at: the accessors throw on a value of another shape and nobody catches it, and
`as_int64` is narrowed to 32 bits without a test. -/

namespace GameServer

open Lib

/-- The member is an integer in the range of `uint32_t`, and it is `v`. -/
def Json.HoldsUInt32 (members : List (String × Json)) (key : String) (v : UInt32) : Prop :=
  ∃ n : Int64, members.lookup key = some (.int64 n) ∧ n.toInt = v.toNat

/-- The members that `Submit_Identity` requires, with the values of the identity. -/
structure Player.IsIdentity (members : List (String × Json)) (identity : PlayerIdentity) : Prop where
  userName : members.lookup "UserName" = some (.string identity.userName)
  userDistroID : members.lookup "User_Distro_ID" = some (.string identity.userDistroID)
  userID : Json.HoldsUInt32 members "UserID" identity.userID
  distributor : Json.HoldsUInt32 members "Distributor" identity.distributor

/-- The text of an identity. -/
def Player.IdentityText (parse : List UInt8 → Option Json) (buffer : List UInt8)
    (identity : PlayerIdentity) : Prop :=
  ∃ members, parse buffer = some (.object members) ∧ IsIdentity members identity

/-- The text that names a match. -/
def MatchText (parse : List UInt8 → Option Json) (buffer : List UInt8) (id : String) : Prop :=
  ∃ members, parse buffer = some (.object members) ∧
    members.lookup "Match_ID" = some (.string id)

/-- A number in the range of `uint32_t` survives the narrowing. -/
theorem toUInt32_of_toInt_eq {n : Int64} {v : UInt32} (h : n.toInt = v.toNat) :
    n.toUInt64.toUInt32 = v := by
  have hnonneg : 0 ≤ n := by
    rw [Int64.le_iff_toInt_le, h]
    exact Int.natCast_nonneg v.toNat
  have hnat : n.toUInt64.toNat = v.toNat := by
    rw [Int64.toNat_toUInt64_of_le hnonneg, Int64.toNatClampNeg, h, Int.toNat_natCast]
  apply UInt32.toNat.inj
  rw [UInt64.toNat_toUInt32, hnat, Nat.mod_eq_of_lt v.toNat_lt]

theorem Json.HoldsUInt32.read {members : List (String × Json)} {key : String} {v : UInt32}
    (h : HoldsUInt32 members key v) :
    ∃ n, (objectAt members key >>= asInt64) = .ok n ∧ n.toUInt64.toUInt32 = v := by
  obtain ⟨n, hn, hv⟩ := h
  refine ⟨n, ?_, toUInt32_of_toInt_eq hv⟩
  rw [objectAt, hn]
  rfl

theorem Json.read_string {members : List (String × Json)} {key value : String}
    (h : members.lookup key = some (.string value)) :
    (objectAt members key >>= asString) = .ok value := by
  rw [objectAt, h]
  rfl

/-- The text of an identity is accepted, and exactly its values are stored. -/
theorem Player.setIdentity_of_text {parse : List UInt8 → Option Json} {buffer : List UInt8}
    {identity : PlayerIdentity} (h : IdentityText parse buffer identity) (p : Player) :
    setIdentity parse p buffer = ({ p with mIdentity := identity }, .ok true) := by
  obtain ⟨members, hparse, hid⟩ := h
  obtain ⟨userID, hread, huserID⟩ := hid.userID.read
  obtain ⟨distributor, hread', hdistributor⟩ := hid.distributor.read
  unfold setIdentity
  rw [hparse]
  simp only [Json.asObject, assign, Json.read_string hid.userName,
    Json.read_string hid.userDistroID, hread, hread', huserID, hdistributor]

namespace World

variable {parse : List UInt8 → Option Json} {serialize : Json → List UInt8} {w w' : World}
  {s : SessionRef} {p : PlayerRef} {buffer : List UInt8} {now : UInt64}

/-! ### What a rejected text must leave alone -/

structure Unchanged (w w' : World) : Prop where
  mPlayers : w'.mPlayers = w.mPlayers
  matchAt : w'.matchAt = w.matchAt
  mMatches : w'.mMatches = w.mMatches
  mMatchesIDs : w'.mMatchesIDs = w.mMatchesIDs
  identity : ∀ q, (w'.players q).mIdentity = (w.players q).mIdentity

theorem unchanged_send (w : World) (s : SessionRef) (command : OpCodes.Client) (data : List UInt8) :
    w.Unchanged (w.send s command data) := by
  obtain ⟨sent, h⟩ := send_eq w s command data
  rw [h]
  exact ⟨rfl, rfl, rfl, rfl, fun _ => rfl⟩

theorem unchanged_close (w : World) (s : SessionRef) : w.Unchanged (w.close s) := by
  cases hc : (w.sessions s).connected with
  | false =>
    rw [close_of_not_connected hc]
    exact ⟨rfl, rfl, rfl, rfl, fun _ => rfl⟩
  | true =>
    rw [close_of_connected hc]
    exact ⟨rfl, rfl, rfl, rfl, cutOff_field Player.mIdentity fun _ => rfl⟩

theorem Unchanged.trans {w₁ w₂ w₃ : World} (h : w₁.Unchanged w₂) (h' : w₂.Unchanged w₃) :
    w₁.Unchanged w₃ :=
  ⟨h'.mPlayers.trans h.mPlayers, h'.matchAt.trans h.matchAt, h'.mMatches.trans h.mMatches,
    h'.mMatchesIDs.trans h.mMatchesIDs, fun q => (h'.identity q).trans (h.identity q)⟩

/-- The end of the handler lets the player go. -/
theorem Unchanged.release (h : w.Unchanged w') (held : List PlayerRef) :
    w.Unchanged { w' with held := held } :=
  ⟨h.mPlayers, h.matchAt, h.mMatches, h.mMatchesIDs, h.identity⟩

/-! ### `UserIdentify` -/

/-- The player that the handler makes, before it looks at the text. -/
def newPlayer (w : World) (now : UInt64) (s : SessionRef) : Player :=
  ((w.makePlayer now).setUser s w.nextPlayer).players w.nextPlayer

/-- `is_identified` of the handler. -/
def isIdentified (parse : List UInt8 → Option Json) (now : UInt64) (w : World) (s : SessionRef)
    (buffer : List UInt8) : Exec Bool :=
  (Player.setIdentity parse (w.newPlayer now s) buffer).2

/-- The handler returns, accepts the texts of identities only, stores such an identity,
and leaves everything alone on another text. -/
def IdentifyOk (parse : List UInt8 → Option Json) (now : UInt64) (w : World) (s : SessionRef)
    (buffer : List UInt8) : Prop :=
  ∃ w' accepted, userIdentify parse now w s buffer = .ok w' ∧
    isIdentified parse now w s buffer = .ok accepted ∧
    (accepted = true ↔ ∃ identity, Player.IdentityText parse buffer identity) ∧
    (∀ identity, Player.IdentityText parse buffer identity →
      (w'.players w.nextPlayer).mIdentity = identity) ∧
    (accepted = false → (w.makePlayer now).Unchanged w')

theorem newPlayer_eq (w : World) (now : UInt64) (s : SessionRef) :
    w.newPlayer now s = ((w.players w.nextPlayer).construct now).setSocketUser s := by
  simp [newPlayer, makePlayer, setUser, setSession, setPlayer]

/-- While the new player has its first identity nothing else has changed. -/
theorem unchanged_loggingIn (now : UInt64) :
    (w.makePlayer now).Unchanged (w.loggingIn s (w.newPlayer now s)) := by
  refine ⟨rfl, rfl, rfl, rfl, fun q => ?_⟩
  rw [newPlayer_eq]
  change (Function.update w.players w.nextPlayer _ q).mIdentity =
    (Function.update w.players w.nextPlayer _ q).mIdentity
  rw [Function.update_apply, Function.update_apply]
  split_ifs <;> rfl

/-- The handler returns whenever `SetIdentity` does: the identity of the new player is as
that left it, and a parse error closes the session. -/
theorem userIdentify_of_setIdentity {x : Player} {accepted : Bool}
    (h : Player.setIdentity parse (w.newPlayer now s) buffer = (x, .ok accepted))
    (hs : x.mSocketUser = some s) : ∃ w', userIdentify parse now w s buffer = .ok w' ∧
      (w'.players w.nextPlayer).mIdentity = x.mIdentity ∧
      (accepted = false → (w.loggingIn s x).Unchanged w') := by
  have hself : ((w.loggingIn s x).players w.nextPlayer).mIdentity = x.mIdentity :=
    congrArg Player.mIdentity (loggingIn_players_self x)
  unfold newPlayer at h
  unfold userIdentify
  dsimp only
  rw [loggingIn_eq, h]
  cases accepted with
  | false =>
    have hend := (unchanged_close (w.loggingIn s x) s).trans (unchanged_send _ s .identifyResult [0x00])
    exact ⟨_, rfl, (hend.identity _).trans hself, fun _ => hend.release _⟩
  | true =>
    obtain ⟨w₁, hauth, hid⟩ : ∃ w₁, (w.loggingIn s x).authenticate w.nextPlayer = .ok w₁ ∧
        (w₁.players w.nextPlayer).mIdentity = x.mIdentity := by
      rw [authenticate, playerAuthenticated_loggingIn hs]
      split_ifs
      · exact ⟨_, rfl, hself⟩
      · exact ⟨_, rfl, ((unchanged_close _ s).identity _).trans hself⟩
    refine ⟨_, Exec.bind_eq_ok.mpr ⟨w₁, hauth, rfl⟩, ?_, nofun⟩
    exact ((unchanged_send w₁ s .identifyResult [0x01]).identity _).trans hid

theorem userIdentify_ok_setIdentity (h : userIdentify parse now w s buffer = .ok w') :
    ∃ x accepted, Player.setIdentity parse (w.newPlayer now s) buffer = (x, .ok accepted) := by
  unfold userIdentify at h
  dsimp only at h
  unfold newPlayer
  rcases hr : Player.setIdentity parse
    (((w.makePlayer now).setUser s w.nextPlayer).players w.nextPlayer) buffer with ⟨x, _ | accepted⟩
  · rw [hr] at h
    cases h
  · exact ⟨x, accepted, rfl⟩

theorem identifyOk_of_malformed (h : parse buffer = none) : IdentifyOk parse now w s buffer := by
  have hnot : ¬ ∃ identity, Player.IdentityText parse buffer identity := by
    rintro ⟨identity, members, hparse, -⟩
    rw [h] at hparse
    cases hparse
  have hset : Player.setIdentity parse (w.newPlayer now s) buffer = (w.newPlayer now s, .ok false) := by
    unfold Player.setIdentity
    rw [h]
  obtain ⟨w', hret, -, hsame⟩ := userIdentify_of_setIdentity hset (by rw [newPlayer_eq]; rfl)
  refine ⟨w', false, hret, congrArg Prod.snd hset, iff_of_false Bool.false_ne_true hnot,
    fun identity hid => absurd ⟨identity, hid⟩ hnot, fun _ => ?_⟩
  exact (unchanged_loggingIn now).trans (hsame rfl)

theorem identifyOk_of_text {identity : PlayerIdentity}
    (h : Player.IdentityText parse buffer identity) : IdentifyOk parse now w s buffer := by
  have hset := Player.setIdentity_of_text h (w.newPlayer now s)
  obtain ⟨w', hret, hstored, -⟩ := userIdentify_of_setIdentity hset (by rw [newPlayer_eq]; rfl)
  refine ⟨w', true, hret, congrArg Prod.snd hset, iff_of_true rfl ⟨identity, h⟩,
    fun identity' h' => ?_, nofun⟩
  -- the text has one identity
  have hset' := Player.setIdentity_of_text h' (w.newPlayer now s)
  rw [hset] at hset'
  exact hstored.trans (congrArg (fun r => r.1.mIdentity) hset')

/-- The handler treats a text as it should if and only if it is no JSON at all or the
text of an identity. -/
theorem identifyOk_iff : IdentifyOk parse now w s buffer ↔
    parse buffer = none ∨ ∃ identity, Player.IdentityText parse buffer identity := by
  constructor
  · rintro ⟨w', accepted, hret, hacc, hiff, -⟩
    obtain ⟨x, accepted', hset⟩ := userIdentify_ok_setIdentity hret
    obtain rfl : accepted' = accepted := Except.ok.inj ((congrArg Prod.snd hset).symm.trans hacc)
    rcases Player.setIdentity_eq hset with ⟨hparse, -, -⟩ | ⟨-, -, -, htrue⟩
    · exact Or.inl hparse
    · exact Or.inr (hiff.mp htrue)
  · rintro (hparse | ⟨identity, htext⟩)
    · exact identifyOk_of_malformed hparse
    · exact identifyOk_of_text htext

/-! ### The mutexes of the matches -/

/-- Every match that can be named has a free mutex. -/
def MutexesFree (w : World) : Prop :=
  ∀ id m, w.mMatchesIDs.lookup id = some m → (w.matchAt m).mPlayerMtx = false

structure SameMutexes (w w' : World) : Prop where
  mMatchesIDs : w'.mMatchesIDs = w.mMatchesIDs
  mtx : ∀ m, (w'.matchAt m).mPlayerMtx = (w.matchAt m).mPlayerMtx

theorem SameMutexes.free (h : w.SameMutexes w') (hw : w.MutexesFree) : w'.MutexesFree := by
  intro id m hm
  rw [h.mMatchesIDs] at hm
  exact (h.mtx m).trans (hw id m hm)

theorem Unchanged.sameMutexes (h : w.Unchanged w') : w.SameMutexes w' :=
  ⟨h.mMatchesIDs, fun m => by rw [h.matchAt]⟩

theorem sameMutexes_setMatchCtx {m : MatchRef} {c : MatchCtx}
    (h : c.mtch.mPlayerMtx = (w.matchAt m).mPlayerMtx) : w.SameMutexes (w.setMatchCtx m c) := by
  refine ⟨rfl, fun n => ?_⟩
  change (Function.update w.matchAt m c.mtch n).mPlayerMtx = _
  rw [Function.update_apply]
  split_ifs with hn
  · rw [hn, h]
  · rfl

theorem sameMutexes_joinPlayer {m : MatchRef} {r : Bool} {c : MatchCtx}
    (h : (w.matchCtx m).joinPlayer m (some p) = .ok (r, c)) :
    w.SameMutexes (w.setMatchCtx m c) := by
  rw [MatchCtx.joinPlayer_some] at h
  split_ifs at h
  · cases h
    exact sameMutexes_setMatchCtx rfl
  · cases h
    exact sameMutexes_setMatchCtx rfl

theorem SameMutexes.trans {w₁ w₂ w₃ : World} (h : w₁.SameMutexes w₂) (h' : w₂.SameMutexes w₃) :
    w₁.SameMutexes w₃ :=
  ⟨h'.mMatchesIDs.trans h.mMatchesIDs, fun m => (h'.mtx m).trans (h.mtx m)⟩

theorem sameMutexes_userIdentify (hw : w.WF) (h : userIdentify parse now w s buffer = .ok w') :
    w.SameMutexes w' := by
  obtain ⟨x, -, -, sent, ⟨-, -, -, rfl⟩ | ⟨-, rfl⟩⟩ := userIdentify_ok hw.held h
  · exact ⟨rfl, fun _ => rfl⟩
  · have hclose := (unchanged_close (w.loggingIn s x) s).sameMutexes
    exact ⟨hclose.mMatchesIDs, hclose.mtx⟩

theorem sameMutexes_routMatchNetCommand (w : World) (s : SessionRef) (data : Data) :
    w.SameMutexes (w.routMatchNetCommand s data) := by
  rcases routMatchNetCommand_cases w s data with ⟨p, m, -, heq⟩ | ⟨-, heq⟩
  · rw [heq]
    exact sameMutexes_setMatchCtx rfl
  · rw [heq]
    exact ⟨rfl, fun _ => rfl⟩

theorem sameMutexes_joinMatch (h : joinMatch parse w s buffer = .ok w') : w.SameMutexes w' := by
  obtain ⟨w₁, reply, rfl, hw₁⟩ := joinMatch_ok h
  refine SameMutexes.trans ?_ (unchanged_send w₁ s .joinMatchResult reply).sameMutexes
  rcases hw₁ with rfl | ⟨p, m, r, c, -, hjoin, rfl⟩
  · exact ⟨rfl, fun _ => rfl⟩
  · exact sameMutexes_joinPlayer hjoin

theorem sameMutexes_dispatch (hw : w.WF) {user : Token} {data : Data}
    (h : doProcess parse now w user data = .ok w') : w.SameMutexes w' := by
  rcases doProcess_cases h with rfl | ⟨s, h | h | rfl | h⟩
  · exact ⟨rfl, fun _ => rfl⟩
  · rcases systemCmd_cases h with rfl | ⟨user, rfl⟩ | ⟨command, reply, rfl⟩
    · exact ⟨rfl, fun _ => rfl⟩
    · exact ⟨rfl, fun _ => rfl⟩
    · exact (unchanged_send w s command reply).sameMutexes
  · exact sameMutexes_userIdentify hw h
  · exact sameMutexes_routMatchNetCommand w s data
  · exact sameMutexes_joinMatch h

/-- A match begins with its mutex free. -/
theorem MutexesFree.createMatch (hfree : w.MutexesFree) (id : String) (shortId : UInt16) :
    (w.createMatch id shortId).MutexesFree := by
  unfold World.createMatch
  split_ifs with hhas
  · exact hfree
  · have hnone : w.mMatchesIDs.lookup id = none := Option.not_isSome_iff_eq_none.mp hhas
    intro id' m hm
    change (Function.update w.matchAt w.nextMatch _ m).mPlayerMtx = false
    rw [Function.update_apply]
    split_ifs with hnew
    · rfl
    · rcases (lookup_insert_eq_some hnone).mp hm with ⟨-, rfl⟩ | hm
      · exact absurd rfl hnew
      · exact hfree id' m hm

/-- A session whose user is not set yet is added without a removal from its match, and
nothing else leaves a mutex locked. -/
theorem mutexesFree_step {e : Event} (hw : w.WF) (hinv : w.abs.Inv) (hfree : w.MutexesFree)
    (h : Step parse serialize w e w') : w'.MutexesFree := by
  cases e with
  | connect token | removePlayer user =>
    cases h
    exact hfree
  | reset s =>
    obtain ⟨-, rfl⟩ := h
    exact (unchanged_close w s).sameMutexes.free hfree
  | addNext =>
    obtain ⟨s, rest, hq, h⟩ := h
    have hqueued : s ∈ w.mQueueUserAdd := by simp [hq]
    rw [doAddPlayer_eq (w := { w with mQueueUserAdd := rest }) (hinv.queued_new s hqueued).1] at h
    split_ifs at h
    · cases h
      exact hfree
    · cases h
      exact hfree
  | removeNext =>
    obtain ⟨user, rest, -, rfl⟩ := h
    cases hs : w.mSocketUsers.lookup user with
    | none =>
      unfold doRemovePlayer
      dsimp only
      rw [hs]
      exact hfree
    | some s =>
      rw [doRemovePlayer_of_some (w := { w with mQueueUserRemove := rest }) hs, userDisconnected_eq]
      exact (unchanged_close _ s).sameMutexes.free hfree
  | dispatch user data now => exact (sameMutexes_dispatch hw h).free hfree
  | createMatch id shortId =>
    obtain ⟨-, rfl⟩ := h
    exact hfree.createMatch id shortId
  | takeCommands m =>
    obtain ⟨-, -, rfl⟩ := h
    exact (sameMutexes_setMatchCtx (m := m) rfl).free hfree
  | executeNext m =>
    obtain ⟨-, cmd, rest, c, out, -, h, rfl⟩ := h
    exact (sameMutexes_setMatchCtx (MatchCtx.quiet_command h).mtx).free hfree
  | thread m call =>
    obtain ⟨-, c, h, rfl⟩ := h
    have hquiet : (w.matchCtx m).Quiet c := by
      cases call <;> exact MatchCtx.quiet_step h nofun nofun nofun
    exact (sameMutexes_setMatchCtx hquiet.mtx).free hfree

/-- No call ever waits for the mutex of a match that can be joined. -/
theorem exec_mutexesFree {tr : List (World × Event)} (h : (system parse serialize).Exec tr w) :
    w.MutexesFree := by
  have hall : w.WF ∧ w.abs.Inv ∧ w.MutexesFree := by
    refine h.inv (fun w => w.WF ∧ w.abs.Inv ∧ w.MutexesFree) (fun w hi => ?_)
      fun w e w' ⟨hw, hinv, hfree⟩ hst => ?_
    · obtain ⟨hw, habs⟩ := init_refines hi
      refine ⟨hw, Registry.inv_init habs, fun id m hm => ?_⟩
      rw [Init.mMatchesIDs hi] at hm
      cases hm
    · obtain ⟨hw', hstep⟩ := step_refines hw hinv hst
      exact ⟨hw', Registry.inv_step hinv hstep, mutexesFree_step hw hinv hfree hst⟩
  exact hall.2.2

/-! ### `JoinMatch` -/

/-- The bytes of `Join_Match_Result` after `AddMatchPlayer`. -/
def joinReply (w : World) (matchId : String) (joinRes : Bool) : List UInt8 :=
  match w.getMatchFromID matchId with
  | some m =>
    if joinRes then 0x01 :: BufferUtils.bytes16 (w.matchAt m).mShortID else [0x00, 0x00, 0x00]
  | none => [0x00, 0x00, 0x00]

/-- The handler returns, hands a text that names a match to `AddMatchPlayer`, and answers
another one with zeros and leaves everything alone. -/
def JoinOk (parse : List UInt8 → Option Json) (w : World) (s : SessionRef) (p : PlayerRef)
    (buffer : List UInt8) : Prop :=
  ∃ w', joinMatch parse w s buffer = .ok w' ∧
    (∀ id, MatchText parse buffer id → ∃ joinRes w₁,
      w.addMatchPlayer (some p) id = .ok (joinRes, w₁) ∧
        w' = w₁.send s .joinMatchResult (w₁.joinReply id joinRes)) ∧
    ((∀ id, ¬ MatchText parse buffer id) →
      w' = w.send s .joinMatchResult [0x00, 0x00, 0x00] ∧ w.Unchanged w')

theorem addMatchPlayer_returns (hfree : w.MutexesFree) (p : PlayerRef) (id : String) :
    ∃ joinRes w₁, w.addMatchPlayer (some p) id = .ok (joinRes, w₁) := by
  unfold addMatchPlayer
  cases hm : w.mMatchesIDs.lookup id with
  | none => exact ⟨_, _, rfl⟩
  | some m =>
    have hmtx : (w.matchCtx m).mtch.mPlayerMtx = false := hfree id m hm
    dsimp only
    rw [MatchCtx.joinPlayer_some, hmtx, if_neg Bool.false_ne_true]
    split_ifs
    · exact ⟨_, _, rfl⟩
    · exact ⟨_, _, rfl⟩

/-- What the handler does with a text that is JSON. -/
theorem joinMatch_of_parse (hauth : (w.sessions s).isAuthenticated = true)
    (hlock : w.lockUser s = some p) {jsonVal : Json} (hparse : parse buffer = some jsonVal) :
    joinMatch parse w s buffer = (do
      let identObj ← jsonVal.asObject
      let matchId ← Json.objectAt identObj "Match_ID" >>= Json.asString
      let (joinRes, w₁) ← w.addMatchPlayer (some p) matchId
      .ok (w₁.send s .joinMatchResult (w₁.joinReply matchId joinRes))) := by
  unfold joinMatch
  rw [if_pos hauth, hparse, hlock]
  rfl

theorem joinOk_of_malformed (hauth : (w.sessions s).isAuthenticated = true)
    (hparse : parse buffer = none) : JoinOk parse w s p buffer := by
  refine ⟨w.send s .joinMatchResult [0x00, 0x00, 0x00], ?_, ?_, fun _ => ⟨rfl, unchanged_send _ _ _ _⟩⟩
  · unfold joinMatch
    rw [if_pos hauth, hparse]
  · rintro id ⟨members, hobject, -⟩
    rw [hparse] at hobject
    cases hobject

theorem joinOk_of_text (hauth : (w.sessions s).isAuthenticated = true)
    (hlock : w.lockUser s = some p) (hfree : w.MutexesFree) {id : String}
    (h : MatchText parse buffer id) : JoinOk parse w s p buffer := by
  obtain ⟨joinRes, w₁, hadd⟩ := addMatchPlayer_returns hfree p id
  obtain ⟨members, hparse, hid⟩ := h
  refine ⟨w₁.send s .joinMatchResult (w₁.joinReply id joinRes), ?_, fun id' h' => ?_, fun hnot => ?_⟩
  · rw [joinMatch_of_parse hauth hlock hparse]
    refine Exec.bind_eq_ok.mpr ⟨members, rfl, Exec.bind_eq_ok.mpr ⟨id, Json.read_string hid, ?_⟩⟩
    exact Exec.bind_eq_ok.mpr ⟨_, hadd, rfl⟩
  · obtain ⟨members', hparse', hid'⟩ := h'
    cases hparse.symm.trans hparse'
    cases hid.symm.trans hid'
    exact ⟨joinRes, w₁, hadd, rfl⟩
  · exact absurd ⟨members, hparse, hid⟩ (hnot id)

theorem text_of_joinMatch_ok (hauth : (w.sessions s).isAuthenticated = true)
    (hlock : w.lockUser s = some p) {jsonVal : Json} (hparse : parse buffer = some jsonVal)
    (h : joinMatch parse w s buffer = .ok w') : ∃ id, MatchText parse buffer id := by
  rw [joinMatch_of_parse hauth hlock hparse] at h
  obtain ⟨members, hobject, h⟩ := Exec.bind_eq_ok.mp h
  obtain ⟨id, hread, -⟩ := Exec.bind_eq_ok.mp h
  obtain ⟨value, hat, hstring⟩ := Exec.bind_eq_ok.mp hread
  refine ⟨id, members, ?_, ?_⟩
  · rw [hparse, Json.asObject_eq_ok hobject]
  · rw [Json.objectAt_eq_ok hat, Json.asString_eq_ok hstring]

/-- The handler treats a text as it should if and only if it is no JSON at all or names
a match. -/
theorem joinOk_iff (hauth : (w.sessions s).isAuthenticated = true)
    (hlock : w.lockUser s = some p) (hfree : w.MutexesFree) :
    JoinOk parse w s p buffer ↔ parse buffer = none ∨ ∃ id, MatchText parse buffer id := by
  constructor
  · rintro ⟨w', hret, -⟩
    cases hparse : parse buffer with
    | none => exact Or.inl rfl
    | some jsonVal => exact Or.inr (text_of_joinMatch_ok hauth hlock hparse hret)
  · rintro (hparse | ⟨id, htext⟩)
    · exact joinOk_of_malformed hauth hparse
    · exact joinOk_of_text hauth hlock hfree htext

/-- In every state of a run and for every text: a session with a live player has both
texts treated as they should be, if and only if they are no JSON or have the shape that
the handler expects. -/
theorem handlers_ok_iff (parse : List UInt8 → Option Json) (serialize : Json → List UInt8)
    (tr : List (World × Event)) (w : World) (h : (system parse serialize).Exec tr w)
    (user : Token) (s : SessionRef) (p : PlayerRef) (hlive : w.mSocketUsers.lookup user = some s)
    (hlock : w.lockUser s = some p) (now : UInt64) (buffer : List UInt8) :
    (IdentifyOk parse now w s buffer ↔
      parse buffer = none ∨ ∃ identity, Player.IdentityText parse buffer identity) ∧
    (JoinOk parse w s p buffer ↔ parse buffer = none ∨ ∃ id, MatchText parse buffer id) := by
  obtain ⟨hw, hinv⟩ := verdict_wf (exec_verdict h)
  obtain ⟨huser, halive⟩ := hw.lockUser.mp hlock
  obtain ⟨t, ht⟩ := alive_enlisted (exec_verdict h) p halive
  -- the player was authorised for this session, which is authenticated since
  have howner := (hinv.user_owner s (hinv.live_opened s ⟨user, hlive⟩) p huser).2
  obtain rfl : t = s := Option.some.inj (ht.owner.symm.trans howner)
  exact ⟨identifyOk_iff, joinOk_iff ht.authenticated hlock (exec_mutexesFree h)⟩

/-! ### A session that is logged in -/

theorem login_handlers_ok : IdentifyOk sampleParse 0 loginWorld 0 (identityText "2") ∧
    JoinOk sampleParse loginWorld 0 0 matchText := by
  have h := handlers_ok_iff sampleParse (fun _ => []) loginRun loginWorld (loginRun_exec _)
    "a" 0 0 rfl rfl 0
  refine ⟨(h _).1.mpr (Or.inr ⟨⟨"", "", 2, 0⟩, _, rfl, ?_⟩),
    (h _).2.mpr (Or.inr ⟨"m", _, rfl, rfl⟩)⟩
  exact ⟨rfl, rfl, ⟨2, rfl, rfl⟩, ⟨0, rfl, rfl⟩⟩

def arrayText : List UInt8 := Json.asciiBytes "[]"

/-- `json::parse` on an empty array and on a negative UserID as well. -/
def shapesParse (text : List UInt8) : Option Json :=
  if text = arrayText then some (.array [])
  else if text = identityText "-1" then some (identityJson (-1))
  else sampleParse text

theorem loginRun_exec_shapes (serialize : Json → List UInt8) :
    (system shapesParse serialize).Exec loginRun loginWorld := by
  have h0 : (system shapesParse serialize).Exec [] emptyWorld :=
    .nil ⟨rfl, rfl, rfl, rfl, rfl, rfl, rfl, rfl, rfl⟩
  have h1 := h0.next (.connect "a") connectedWorld rfl
  have h2 := h1.next .addNext addedWorld ⟨0, [], rfl, rfl⟩
  exact h2.next (.dispatch "a" (submitIdentity (identityText "1")) 0) loginWorld rfl

/-- The empty array is JSON, and both handlers throw. The UserID -1 is accepted. -/
theorem array_throws : ∃ tr w, (system shapesParse fun _ => []).Exec tr w ∧
    w.mSocketUsers.lookup "a" = some 0 ∧ w.lockUser 0 = some 0 ∧
    ¬ IdentifyOk shapesParse 0 w 0 arrayText ∧ ¬ JoinOk shapesParse w 0 0 arrayText ∧
    isIdentified shapesParse 0 w 0 (identityText "-1") = .ok true := by
  refine ⟨_, loginWorld, loginRun_exec_shapes _, rfl, rfl, ?_, ?_, rfl⟩
  · rintro ⟨w', -, hret, -⟩
    have herror : userIdentify shapesParse 0 loginWorld 0 arrayText = .error .uncaught := rfl
    rw [herror] at hret
    cases hret
  · rintro ⟨w', hret, -⟩
    have herror : joinMatch shapesParse loginWorld 0 arrayText = .error .uncaught := rfl
    rw [herror] at hret
    cases hret

end World

end GameServer
