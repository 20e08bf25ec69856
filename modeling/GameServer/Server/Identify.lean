import GameServer.Server.Abstraction

/-! `UserIdentify`, with the verdict of the authenticator left open: the ways in which
it returns, and the registry after it. -/

namespace GameServer

open Lib

namespace World

variable {w w' : World} {s : SessionRef} {p : PlayerRef}

/-- `UserIdentify` with an authenticator that gives the verdict `authorized`. -/
def userIdentifyWith (authorized : Bool) (parse : List UInt8 → Option Json) (now : UInt64)
    (w : World) (s : SessionRef) (buffer : List UInt8) : Exec World :=
  let player := w.nextPlayer
  let w := (w.makePlayer now).setUser s player
  let r := Player.setIdentity parse (w.players player) buffer
  let w := w.setPlayer player fun _ => r.1
  match r.2 with
  | .error f => .error f
  | .ok isIdentified => do
    let w ← if isIdentified then w.playerAuthenticated player authorized else .ok (w.close s)
    let w := w.send s .identifyResult [if isIdentified then 0x01 else 0x00]
    .ok { w with held := w.held.erase player }

/-- The authenticator of the server authorises everybody. -/
theorem userIdentifyWith_true : userIdentifyWith true = userIdentify := rfl

/-- The identity is well-formed and nobody of its UserID is logged in. -/
def accepts (parse : List UInt8 → Option Json) (w : World) (buffer : List UInt8) : Bool :=
  match Player.identityOf parse buffer with
  | none => false
  | some identity => !w.hasPlayer identity.userID

/-- A handler holds the new player `x` of the session. -/
def loggingIn (w : World) (s : SessionRef) (x : Player) : World :=
  { w with
    players := Function.update w.players w.nextPlayer x
    nextPlayer := w.nextPlayer + 1
    sessions := Function.update w.sessions s
      { w.sessions s with user := some w.nextPlayer, hasUser := true }
    held := w.nextPlayer :: w.held }

theorem loggingIn_eq (now : UInt64) (x : Player) :
    ((w.makePlayer now).setUser s w.nextPlayer).setPlayer w.nextPlayer (fun _ => x) =
      w.loggingIn s x := by
  simp [makePlayer, setUser, setSession, setPlayer, loggingIn]

theorem send_eq (w : World) (s : SessionRef) (command : OpCodes.Client) (data : List UInt8) :
    ∃ sent, w.send s command data = { w with sent := sent } := by
  unfold send
  split_ifs
  · exact ⟨_, rfl⟩
  · exact ⟨w.sent, rfl⟩

theorem loggingIn_players_self (x : Player) : (w.loggingIn s x).players w.nextPlayer = x :=
  Function.update_self ..

theorem loggingIn_players_of_lt (x : Player) (hp : p < w.nextPlayer) :
    (w.loggingIn s x).players p = w.players p :=
  Function.update_of_ne hp.ne ..

theorem playerAuthenticated_loggingIn {x : Player} (hx : x.mSocketUser = some s)
    (authorized : Bool) : (w.loggingIn s x).playerAuthenticated w.nextPlayer authorized =
      if authorized && !w.hasPlayer x.getUserID then
        .ok { (w.loggingIn s x).setAuthenticated s with
          mPlayers := w.mPlayers.insert x.getUserID w.nextPlayer }
      else .ok ((w.loggingIn s x).close s) := by
  rw [playerAuthenticated, loggingIn_players_self, hx]
  change (if authorized = true then if w.hasPlayer x.getUserID = true then _ else _ else _) = _
  cases authorized with
  | false => rfl
  | true => cases w.hasPlayer x.getUserID <;> rfl

/-- The end of `UserIdentify`: the answer is sent and the player is let go. -/
theorem answer_eq (w : World) (hheld : w.held = [p]) (data : List UInt8) :
    ∃ sent, { w.send s .identifyResult data with
        held := (w.send s .identifyResult data).held.erase p } =
      { w with held := [], sent := sent } := by
  obtain ⟨sent, hsend⟩ := send_eq w s .identifyResult data
  refine ⟨sent, ?_⟩
  rw [hsend]
  simp [hheld]

/-- The handler lets the player go. -/
def release (w : World) (p : PlayerRef) : World := { w with held := w.held.erase p }

/-- The two ways in which `UserIdentify` returns: the player is registered and the
session told so, or the session is closed and then told what `SetIdentity` returned. -/
theorem userIdentifyWith_returns {authorized : Bool} {parse : List UInt8 → Option Json}
    {now : UInt64} {buffer : List UInt8}
    (h : userIdentifyWith authorized parse now w s buffer = .ok w') :
    ∃ x : Player, x.socketUsers = [s] ∧ x.mSocketUser = some s ∧
      (((authorized && w.accepts parse buffer) = true ∧ w.hasPlayer x.getUserID = false ∧
        Player.identityOf parse buffer = some x.mIdentity ∧
        w' = (send { (w.loggingIn s x).setAuthenticated s with
          mPlayers := w.mPlayers.insert x.getUserID w.nextPlayer } s .identifyResult
            [0x01]).release w.nextPlayer) ∨
      ((authorized && w.accepts parse buffer) = false ∧ ∃ data,
        w' = (((w.loggingIn s x).close s).send s .identifyResult data).release w.nextPlayer)) := by
  have hown : (((w.makePlayer now).setUser s w.nextPlayer).players w.nextPlayer).socketUsers = [s] ∧
      (((w.makePlayer now).setUser s w.nextPlayer).players w.nextPlayer).mSocketUser = some s := by
    simp [makePlayer, setUser, setSession, setPlayer, Player.construct, Player.setSocketUser]
  unfold userIdentifyWith at h
  dsimp only at h
  rw [loggingIn_eq] at h
  generalize ((w.makePlayer now).setUser s w.nextPlayer).players w.nextPlayer = x₀ at h hown
  rcases hr : Player.setIdentity parse x₀ buffer with ⟨x, _ | isIdentified⟩
  · rw [hr] at h
    cases h
  · rw [hr] at h
    dsimp only at h
    rcases Player.setIdentity_eq hr with ⟨hp, rfl, rfl⟩ | ⟨identity, hp, hx, rfl⟩
    · refine ⟨x, hown.1, hown.2, Or.inr ⟨?_, [0x00], ?_⟩⟩
      · have hreject := Player.identityOf_of_parse_eq_none hp
        simp [accepts, hreject]
      · rw [if_neg Bool.false_ne_true] at h
        cases h
        rfl
    · have hown' : x.socketUsers = [s] ∧ x.mSocketUser = some s ∧ x.mIdentity = identity := by
        rw [hx]
        exact ⟨hown.1, hown.2, rfl⟩
      obtain ⟨hsessions, hsession, rfl⟩ := hown'
      refine ⟨x, hsessions, hsession, ?_⟩
      rw [if_pos rfl] at h
      obtain ⟨w₁, hw₁, h⟩ := Exec.bind_eq_ok.mp h
      have haccepts : w.accepts parse buffer = !w.hasPlayer x.getUserID := by
        rw [accepts, hp]
        rfl
      rw [playerAuthenticated_loggingIn hsession, ← haccepts] at hw₁
      split_ifs at hw₁ with hacc
      · cases hw₁
        cases h
        have hfree : w.hasPlayer x.getUserID = false := by
          simpa [haccepts] using (Bool.and_eq_true_iff.mp hacc).2
        exact Or.inl ⟨hacc, hfree, hp, rfl⟩
      · cases hw₁
        cases h
        exact Or.inr ⟨Bool.eq_false_of_not_eq_true hacc, _, rfl⟩

/-- The same up to what was sent, when no other handler is running. -/
theorem userIdentifyWith_ok {authorized : Bool} {parse : List UInt8 → Option Json} {now : UInt64}
    {buffer : List UInt8} (hheld : w.held = [])
    (h : userIdentifyWith authorized parse now w s buffer = .ok w') :
    ∃ x : Player, x.socketUsers = [s] ∧ x.mSocketUser = some s ∧ ∃ sent,
      ((authorized && w.accepts parse buffer) = true ∧ w.hasPlayer x.getUserID = false ∧
        Player.identityOf parse buffer = some x.mIdentity ∧
        w' = { (w.loggingIn s x).setAuthenticated s with
          mPlayers := w.mPlayers.insert x.getUserID w.nextPlayer
          held := []
          sent := sent }) ∨
      ((authorized && w.accepts parse buffer) = false ∧
        w' = { (w.loggingIn s x).close s with held := [], sent := sent }) := by
  have hlogging : ∀ x, (w.loggingIn s x).held = [w.nextPlayer] := fun x => by
    simp [loggingIn, hheld]
  obtain ⟨x, hsessions, hsession, ⟨hacc, hfree, hid, hw'⟩ | ⟨hacc, data, hw'⟩⟩ :=
    userIdentifyWith_returns h
  · obtain ⟨sent, hsent⟩ := answer_eq (s := s)
      { (w.loggingIn s x).setAuthenticated s with
        mPlayers := w.mPlayers.insert x.getUserID w.nextPlayer } (hlogging x) [0x01]
    exact ⟨x, hsessions, hsession, sent, Or.inl ⟨hacc, hfree, hid, hw'.trans hsent⟩⟩
  · obtain ⟨sent, hsent⟩ := answer_eq (s := s) ((w.loggingIn s x).close s)
      (close_held.trans (hlogging x)) data
    exact ⟨x, hsessions, hsession, sent, Or.inr ⟨hacc, hw'.trans hsent⟩⟩

theorem userIdentify_ok {parse : List UInt8 → Option Json} {now : UInt64} {buffer : List UInt8}
    (hheld : w.held = []) (h : userIdentify parse now w s buffer = .ok w') :
    ∃ x : Player, x.socketUsers = [s] ∧ x.mSocketUser = some s ∧ ∃ sent,
      (w.accepts parse buffer = true ∧ w.hasPlayer x.getUserID = false ∧
        Player.identityOf parse buffer = some x.mIdentity ∧
        w' = { (w.loggingIn s x).setAuthenticated s with
          mPlayers := w.mPlayers.insert x.getUserID w.nextPlayer
          held := []
          sent := sent }) ∨
      (w.accepts parse buffer = false ∧
        w' = { (w.loggingIn s x).close s with held := [], sent := sent }) := by
  rw [← userIdentifyWith_true] at h
  simpa only [Bool.true_and] using userIdentifyWith_ok hheld h

theorem abs_loggingIn {x : Player} (hx : x.socketUsers = [s]) (ho : x.mSocketUser = some s) :
    (w.loggingIn s x).abs = { w.abs.create s w.nextPlayer x.getUserID with
      online := insert w.nextPlayer w.abs.online } := by
  have hplayer : ∀ q, (w.loggingIn s x).players q =
      if q = w.nextPlayer then x else w.players q :=
    fun q => Function.update_apply ..
  have hsession : ∀ {α : Type} (g : SocketUser → α), (∀ y u h, g { y with user := u, hasUser := h } = g y) →
      ∀ t, g ((w.loggingIn s x).sessions t) = g (w.sessions t) := by
    intro α g hg t
    exact setSession_field g w s (fun y => { y with user := some w.nextPlayer, hasUser := true })
      (fun y => hg y _ _) t
  apply Registry.ext <;> try rfl
  · ext t
    exact Bool.eq_iff_iff.mp (hsession SocketUser.connected (fun _ _ _ => rfl) t)
  · ext t
    exact Bool.eq_iff_iff.mp (hsession SocketUser.isAuthenticated (fun _ _ _ => rfl) t)
  · funext t
    show (Function.update w.sessions s _ t).user = Function.update w.abs.user s _ t
    rw [Function.update_apply, Function.update_apply]
    split_ifs <;> rfl
  · ext q
    exact Nat.lt_succ_iff_lt_or_eq.trans or_comm
  · funext q
    show ((w.loggingIn s x).players q).socketUsers.head? = Function.update w.abs.owner _ _ q
    rw [hplayer, Function.update_apply]
    split_ifs
    · rw [hx]
      rfl
    · rfl
  · funext q
    show ((w.loggingIn s x).players q).getUserID = Function.update w.abs.userID _ _ q
    rw [hplayer, Function.update_apply]
    split_ifs <;> rfl
  · ext q
    show ((w.loggingIn s x).players q).mSocketUser ≠ none ↔ q = w.nextPlayer ∨ _
    rw [hplayer]
    split_ifs with h
    · simp [h, ho]
    · simp [h, abs]

theorem Keyed.loggingIn (hw : w.Keyed) (hinv : w.abs.Inv) {x : Player} (hx : x.socketUsers = [s]) :
    (w.loggingIn s x).Keyed where
  queue := hw.queue
  token t r h := by
    have htoken := setSession_field SocketUser.sessionToken w s
      (fun y => { y with user := some w.nextPlayer, hasUser := true }) (fun _ => rfl) r
    exact htoken.trans (hw.token t r h)
  userID id p h := by
    rw [loggingIn_players_of_lt x (hinv.registered_created p ⟨id, h⟩)]
    exact hw.userID id p h
  once p hp := by
    rcases Nat.lt_succ_iff_lt_or_eq.mp hp with hp | rfl
    · rw [loggingIn_players_of_lt x hp]
      exact hw.once p hp
    · rw [loggingIn_players_self]
      exact ⟨s, hx⟩

theorem registered_insert {x : Player} (hfree : w.hasPlayer x.getUserID = false) :
    {q | ∃ id, (w.mPlayers.insert x.getUserID w.nextPlayer).lookup id = some q} =
      insert w.nextPlayer w.abs.registered := by
  have hnone : w.mPlayers.lookup x.getUserID = none := by simpa [hasPlayer] using hfree
  ext q
  constructor
  · rintro ⟨id, h⟩
    rcases (lookup_insert_eq_some hnone).mp h with ⟨-, rfl⟩ | h
    · exact Or.inl rfl
    · exact Or.inr ⟨id, h⟩
  · rintro (rfl | ⟨id, h⟩)
    · exact ⟨_, (lookup_insert_eq_some hnone).mpr (Or.inl ⟨rfl, rfl⟩)⟩
    · exact ⟨id, (lookup_insert_eq_some hnone).mpr (Or.inr h)⟩

theorem abs_setAuthenticated (w : World) (s : SessionRef) : (w.setAuthenticated s).abs =
    { w.abs with authenticated := insert s w.abs.authenticated } := by
  let set (x : SocketUser) : SocketUser := { x with isAuthenticated := true }
  apply Registry.ext <;> try rfl
  · ext t
    exact Bool.eq_iff_iff.mp (setSession_field SocketUser.connected w s set (fun _ => rfl) t)
  · ext t
    show (Function.update w.sessions s _ t).isAuthenticated = true ↔ t = s ∨ _
    rw [Function.update_apply]
    split_ifs with h <;> simp [h, abs]
  · exact funext (setSession_field SocketUser.user w s set fun _ => rfl)

theorem WF.userIdentifyWith (hw : w.WF) (hinv : w.abs.Inv) (hs : s ∈ w.abs.live) {authorized : Bool}
    {parse : List UInt8 → Option Json} {now : UInt64} {buffer : List UInt8}
    (h : userIdentifyWith authorized parse now w s buffer = .ok w') :
    w'.WF ∧ Registry.Step w.abs
      (.identify s w.nextPlayer (authorized && w.accepts parse buffer)) w'.abs := by
  have hnew : w.nextPlayer ∉ w.abs.created := lt_irrefl w.nextPlayer
  obtain ⟨x, hx, ho, sent, ⟨hacc, hfree, -, rfl⟩ | ⟨hacc, rfl⟩⟩ :=
    userIdentifyWith_ok hw.held h
  · have hkeyed := hw.toKeyed.loggingIn hinv hx
    have hnone : w.mPlayers.lookup x.getUserID = none := by simpa [hasPlayer] using hfree
    refine ⟨⟨⟨hkeyed.queue, fun t r hr => ?_, fun id p hp => ?_, hkeyed.once⟩, rfl⟩, ?_⟩
    · refine Eq.trans ?_ (hkeyed.token t r hr)
      exact setSession_field SocketUser.sessionToken (w.loggingIn s x) s
        (fun y => { y with isAuthenticated := true }) (fun _ => rfl) r
    · rcases (lookup_insert_eq_some hnone).mp hp with ⟨rfl, rfl⟩ | hp
      · exact congrArg Player.getUserID (loggingIn_players_self (s := s) x)
      · exact hkeyed.userID id p hp
    · have hstep := Registry.Step.accept (u := x.getUserID) hs hnew fun q ⟨id, hq⟩ heq => by
        have hid : id = x.getUserID := (hw.userID id q hq).symm.trans heq
        rw [hid, hnone] at hq
        cases hq
      have habs : World.abs { (w.loggingIn s x).setAuthenticated s with
            mPlayers := w.mPlayers.insert x.getUserID w.nextPlayer, held := [], sent := sent } =
          { ((w.loggingIn s x).setAuthenticated s).abs with
            registered := insert w.nextPlayer w.abs.registered } := by
        rw [← registered_insert hfree]
        rfl
      rw [hacc, habs, abs_setAuthenticated, abs_loggingIn hx ho]
      exact hstep
  · have hkeyed := (hw.toKeyed.loggingIn hinv hx).close (s := s)
    refine ⟨⟨⟨hkeyed.queue, hkeyed.token, hkeyed.userID, hkeyed.once⟩, rfl⟩, ?_⟩
    have habs : World.abs { (w.loggingIn s x).close s with held := [], sent := sent } =
        ((w.loggingIn s x).close s).abs := rfl
    rw [hacc, habs, abs_close_eq, abs_loggingIn hx ho]
    refine Registry.Step.reject hs hnew fun q hq => ?_
    have hother : (w.loggingIn s x).lockUser s ≠ some q := by
      have hself : (w.loggingIn s x).abs.user s = some w.nextPlayer := by
        rw [abs_loggingIn hx ho]
        exact Registry.create_user_self w.abs s w.nextPlayer x.getUserID
      intro hlock
      have huser := (lockUser_eq_some.mp hlock).1
      rw [hself] at huser
      exact hq (Option.some.inj huser).symm
    refine ⟨fun ho => ho.1.resolve_left hq, fun ho => ⟨Or.inr ho, fun hcut => hother hcut.2⟩⟩

theorem WF.userIdentify (hw : w.WF) (hinv : w.abs.Inv) (hs : s ∈ w.abs.live)
    {parse : List UInt8 → Option Json} {now : UInt64} {buffer : List UInt8}
    (h : userIdentify parse now w s buffer = .ok w') :
    w'.WF ∧ Registry.Step w.abs (.identify s w.nextPlayer (w.accepts parse buffer)) w'.abs :=
  WF.userIdentifyWith hw hinv hs (userIdentifyWith_true ▸ h)

end World

end GameServer
