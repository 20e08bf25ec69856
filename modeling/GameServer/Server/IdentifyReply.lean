import GameServer.Server.Identify

/-! What the client hears of its `Submit_Identity`. A session that is turned away is
closed first, and a closed session is sent nothing. -/

namespace GameServer

open Lib

/-- A text that holds an identity is accepted by `SetIdentity`. -/
theorem Player.setIdentity_of_identityOf {parse : List UInt8 → Option Json}
    {jsonIdentity : List UInt8} {identity : PlayerIdentity}
    (h : identityOf parse jsonIdentity = some identity) (p : Player) :
    setIdentity parse p jsonIdentity = ({ p with mIdentity := identity }, .ok true) := by
  unfold identityOf at h
  split at h
  · cases h
  · next jsonVal hparse =>
    split at h
    · next identity' hread =>
      cases h
      unfold readIdentity at hread
      obtain ⟨identObj, hobj, hread⟩ := Exec.bind_eq_ok.mp hread
      obtain ⟨userName, hname, hread⟩ := Exec.bind_eq_ok.mp hread
      obtain ⟨distroID, hdistro, hread⟩ := Exec.bind_eq_ok.mp hread
      obtain ⟨userID, hid, hread⟩ := Exec.bind_eq_ok.mp hread
      obtain ⟨distributor, hdist, hread⟩ := Exec.bind_eq_ok.mp hread
      cases hread
      unfold setIdentity
      rw [hparse]
      simp only [assign, hobj, hname, hdistro, hid, hdist]
    · cases h

namespace World

variable {w w' : World} {s : SessionRef} {authorized : Bool} {parse : List UInt8 → Option Json}
  {now : UInt64} {buffer : List UInt8}

/-- The call has put the new player into `m_players` and the session is authenticated. -/
def LoggedIn (w w' : World) (s : SessionRef) : Prop :=
  (∃ id, w.mPlayers.lookup id = none ∧ w'.mPlayers.lookup id = some w.nextPlayer) ∧
    (w'.sessions s).isAuthenticated = true

/-- One `Identify_Result` is sent, which says whether the call logged the player in, and
zero to whoever is turned away. -/
def Answered (authorized : Bool) (parse : List UInt8 → Option Json) (now : UInt64) (w : World)
    (s : SessionRef) (buffer : List UInt8) : Prop :=
  ∃ w' res, userIdentifyWith authorized parse now w s buffer = .ok w' ∧
    w'.sent = w.sent ++ [(s, .identifyResult, [res])] ∧
    (res = 0x01 ↔ w.LoggedIn w' s) ∧
    ((authorized && w.accepts parse buffer) = false → res = 0x00)

theorem send_of_not_connected (h : (w.sessions s).connected = false) (command : OpCodes.Client)
    (data : List UInt8) : w.send s command data = w :=
  if_neg (by simp [h])

theorem connected_loggingIn (x : Player) :
    ((w.loggingIn s x).sessions s).connected = (w.sessions s).connected :=
  setSession_field SocketUser.connected w s
    (fun y => { y with user := some w.nextPlayer, hasUser := true }) (fun _ => rfl) s

/-- Whoever is turned away is told nothing. -/
theorem sent_of_rejected (hc : (w.sessions s).connected = true)
    (hacc : (authorized && w.accepts parse buffer) = false)
    (h : userIdentifyWith authorized parse now w s buffer = .ok w') : w'.sent = w.sent := by
  obtain ⟨x, -, -, ⟨hacc', -⟩ | ⟨-, data, rfl⟩⟩ := userIdentifyWith_returns h
  · rw [hacc] at hacc'
    cases hacc'
  · have hopen := (connected_loggingIn x).trans hc
    have hclosed : (((w.loggingIn s x).close s).sessions s).connected = false := by
      have hself : ((w.loggingIn s x).setSession s SocketUser.closed).sessions s =
          SocketUser.closed ((w.loggingIn s x).sessions s) := Function.update_self ..
      rw [close_of_connected hopen]
      exact congrArg SocketUser.connected hself
    rw [send_of_not_connected hclosed, close_of_connected hopen]
    rfl

/-- Whoever is accepted is told so, and logged in. -/
theorem sent_of_accepted (hc : (w.sessions s).connected = true)
    (hacc : (authorized && w.accepts parse buffer) = true)
    (h : userIdentifyWith authorized parse now w s buffer = .ok w') :
    w'.sent = w.sent ++ [(s, .identifyResult, [0x01])] ∧ w.LoggedIn w' s := by
  obtain ⟨x, -, -, ⟨-, hfree, -, rfl⟩ | ⟨hacc', -⟩⟩ := userIdentifyWith_returns h
  · have hself : ((w.loggingIn s x).setAuthenticated s).sessions s =
        { (w.loggingIn s x).sessions s with isAuthenticated := true } := Function.update_self ..
    have hopen : (((w.loggingIn s x).setAuthenticated s).sessions s).connected = true := by
      rw [hself]
      exact (connected_loggingIn x).trans hc
    rw [release, send, if_pos hopen]
    refine ⟨rfl, ⟨x.getUserID, by simpa [hasPlayer] using hfree, AList.lookup_insert _⟩, ?_⟩
    change (((w.loggingIn s x).setAuthenticated s).sessions s).isAuthenticated = true
    rw [hself]
  · rw [hacc] at hacc'
    cases hacc'

/-- An accepted identity is handled to the end. -/
theorem userIdentifyWith_of_accepts (authorized : Bool) (now : UInt64) (s : SessionRef)
    (hacc : w.accepts parse buffer = true) :
    ∃ w', userIdentifyWith authorized parse now w s buffer = .ok w' := by
  have hid : ∃ identity, Player.identityOf parse buffer = some identity := by
    unfold accepts at hacc
    split at hacc
    · cases hacc
    · next identity hid => exact ⟨identity, hid⟩
  obtain ⟨identity, hid⟩ := hid
  have hauth : ∀ x : Player, x.mSocketUser = some s → ∃ w₁,
      (w.loggingIn s x).playerAuthenticated w.nextPlayer authorized = .ok w₁ := by
    intro x hx
    rw [playerAuthenticated_loggingIn hx]
    split_ifs
    · exact ⟨_, rfl⟩
    · exact ⟨_, rfl⟩
  unfold userIdentifyWith
  dsimp only
  rw [loggingIn_eq, Player.setIdentity_of_identityOf hid]
  obtain ⟨w₁, hw₁⟩ := hauth
    { ((w.makePlayer now).setUser s w.nextPlayer).players w.nextPlayer with mIdentity := identity }
    (by simp [makePlayer, setUser, setSession, setPlayer, Player.construct, Player.setSocketUser])
  exact ⟨_, Exec.bind_eq_ok.mpr ⟨w₁, hw₁, rfl⟩⟩

/-- The client is answered if and only if its identity is well-formed, authorised and of
a user who is not logged in. -/
theorem answered_iff (authorized : Bool) (parse : List UInt8 → Option Json) (now : UInt64)
    (w : World) (s : SessionRef) (buffer : List UInt8) (hc : (w.sessions s).connected = true) :
    Answered authorized parse now w s buffer ↔
      authorized = true ∧ w.accepts parse buffer = true := by
  rw [← Bool.and_eq_true_iff]
  constructor
  · rintro ⟨w', res, h, hsent, -⟩
    by_contra hacc
    have hnone := sent_of_rejected hc (Bool.eq_false_of_not_eq_true hacc) h
    rw [hnone] at hsent
    exact absurd (congrArg List.length hsent) (by simp)
  · intro hacc
    obtain ⟨w', h⟩ :=
      userIdentifyWith_of_accepts authorized now s (Bool.and_eq_true_iff.mp hacc).2
    obtain ⟨hsent, hlogged⟩ := sent_of_accepted hc hacc h
    refine ⟨w', 0x01, h, hsent, iff_of_true rfl hlogged, fun hrejected => ?_⟩
    rw [hacc] at hrejected
    cases hrejected

/-! ### One session -/

/-- The first identity of the session is answered. -/
theorem first_identity_answered : Answered true sampleParse 0 addedWorld 0 (identityText "1") :=
  (answered_iff true sampleParse 0 addedWorld 0 (identityText "1") rfl).mpr ⟨rfl, rfl⟩

/-- A text that is no JSON is not answered, nor is the identity of a user who is logged in. -/
theorem rejected_identity_unanswered : ∃ tr w, (system sampleParse fun _ => []).Exec tr w ∧
    w.mSocketUsers.lookup "a" = some 0 ∧ (w.sessions 0).connected = true ∧
    ¬ Answered true sampleParse 0 w 0 [] ∧ ¬ Answered true sampleParse 0 w 0 (identityText "1") := by
  have hunanswered : ∀ buffer, (true && loginWorld.accepts sampleParse buffer) = false →
      ¬ Answered true sampleParse 0 loginWorld 0 buffer := by
    rintro buffer hacc ⟨w', res, h, hsent, -⟩
    rw [sent_of_rejected rfl hacc h] at hsent
    exact absurd (congrArg List.length hsent) (by simp)
  exact ⟨_, loginWorld, loginRun_exec _, rfl, rfl, hunanswered _ rfl, hunanswered _ rfl⟩

end World

end GameServer
