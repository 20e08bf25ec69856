import GameServer.Lib.Lookup
import GameServer.Server.Registry
import GameServer.Server.World

/-! What the registry keeps of the server's state, and what closing, removing and
adding sessions and the calls of a match do to it. -/

namespace GameServer

open Lib

namespace World

def abs (w : World) : Registry SessionRef PlayerRef UserID where
  opened := {s | s < w.nextSession}
  queued := {s | s ∈ w.mQueueUserAdd}
  live := {s | ∃ token, w.mSocketUsers.lookup token = some s}
  connected := {s | (w.sessions s).connected = true}
  authenticated := {s | (w.sessions s).isAuthenticated = true}
  user s := (w.sessions s).user
  created := {p | p < w.nextPlayer}
  owner p := (w.players p).socketUsers.head?
  userID p := (w.players p).getUserID
  registered := {p | ∃ id, w.mPlayers.lookup id = some p}
  rostered := {p | ∃ m < w.nextMatch, p ∈ (w.matchAt m).mPlayers.values}
  online := {p | (w.players p).mSocketUser ≠ none}

/-- The tables are keyed by what their entries say, and a session or a player is
used once. -/
structure Keyed (w : World) : Prop where
  queue : w.mQueueUserAdd.Nodup
  token : ∀ t s, w.mSocketUsers.lookup t = some s → (w.sessions s).sessionToken = t
  userID : ∀ id p, w.mPlayers.lookup id = some p → (w.players p).getUserID = id
  once : ∀ p < w.nextPlayer, ∃ s, (w.players p).socketUsers = [s]

/-- Between two steps no handler is running. -/
structure WF (w : World) : Prop extends Keyed w where
  held : w.held = []

variable {w w' : World} {s : SessionRef} {p : PlayerRef}

/-- Steps that add nothing to the tables and keep the keys. -/
theorem Keyed.frame (hw : w.Keyed) (queue : w'.mQueueUserAdd = w.mQueueUserAdd)
    (live : ∀ t s, w'.mSocketUsers.lookup t = some s → w.mSocketUsers.lookup t = some s)
    (token : ∀ s, (w'.sessions s).sessionToken = (w.sessions s).sessionToken)
    (registered : ∀ id p, w'.mPlayers.lookup id = some p → w.mPlayers.lookup id = some p)
    (userID : ∀ p, (w'.players p).getUserID = (w.players p).getUserID)
    (socketUsers : ∀ p, (w'.players p).socketUsers = (w.players p).socketUsers)
    (nextPlayer : w'.nextPlayer = w.nextPlayer) : w'.Keyed where
  queue := by
    rw [queue]
    exact hw.queue
  token t s h := (token s).trans (hw.token t s (live t s h))
  userID id p h := (userID p).trans (hw.userID id p (registered id p h))
  once p hp := by
    rw [socketUsers]
    exact hw.once p (nextPlayer ▸ hp)

/-- Neither what is sent nor which removals are asked for matters. -/
theorem WF.outside (hw : w.WF) (remove : List Token)
    (sent : List (SessionRef × OpCodes.Client × List UInt8)) :
    WF { w with mQueueUserRemove := remove, sent := sent } :=
  ⟨⟨hw.queue, hw.token, hw.userID, hw.once⟩, hw.held⟩

/-! ### Sessions, players and their fields -/

/-- An update that keeps `g` of a session keeps it of all sessions. -/
theorem setSession_field {α : Type} (g : SocketUser → α) (w : World) (s : SessionRef)
    (f : SocketUser → SocketUser) (hf : ∀ x, g (f x) = g x) (t : SessionRef) :
    g ((w.setSession s f).sessions t) = g (w.sessions t) := by
  show g (Function.update w.sessions s (f (w.sessions s)) t) = g (w.sessions t)
  rw [Function.update_apply]
  split_ifs with h
  · rw [h, hf]
  · rfl

theorem setPlayer_field {α : Type} (g : Player → α) (w : World) (p : PlayerRef)
    (f : Player → Player) (hf : ∀ x, g (f x) = g x) (q : PlayerRef) :
    g ((w.setPlayer p f).players q) = g (w.players q) := by
  show g (Function.update w.players p (f (w.players p)) q) = g (w.players q)
  rw [Function.update_apply]
  split_ifs with h
  · rw [h, hf]
  · rfl

theorem alive_iff : w.alive p = true ↔ p ∈ w.held ∨ w.abs.Alive p := by
  have hreg : p ∈ w.mPlayers.entries.map Sigma.snd ↔ p ∈ w.abs.registered := by
    constructor
    · intro h
      obtain ⟨⟨id, q⟩, hmem, rfl⟩ := List.mem_map.mp h
      exact ⟨id, AList.mem_lookup_iff.mpr hmem⟩
    · rintro ⟨id, h⟩
      exact List.mem_map.mpr ⟨⟨id, p⟩, AList.mem_lookup_iff.mp h, rfl⟩
  have hroster : (∃ m < w.nextMatch, p ∈ (w.matchAt m).mPlayers.values) ↔ p ∈ w.abs.rostered :=
    Iff.rfl
  simp only [alive, Bool.or_eq_true, List.contains_iff_mem, List.any_eq_true, List.mem_range, hreg,
    hroster, or_assoc, Registry.Alive]

theorem lockUser_eq_some :
    w.lockUser s = some p ↔ w.abs.user s = some p ∧ (p ∈ w.held ∨ w.abs.Alive p) := by
  rw [lockUser, Option.filter_eq_some_iff, alive_iff]
  rfl

theorem WF.lockUser (hw : w.WF) :
    w.lockUser s = some p ↔ w.abs.user s = some p ∧ w.abs.Alive p := by
  rw [lockUser_eq_some, hw.held]
  simp

/-! ### Closing and removing sessions -/

/-- The players after a close: the session's player is cut off. -/
def cutOff (w : World) (s : SessionRef) : PlayerRef → Player := fun q =>
  if w.lockUser s = some q then (w.players q).disconnected else w.players q

theorem cutOff_field {α : Type} (g : Player → α) (hg : ∀ x : Player, g x.disconnected = g x)
    (q : PlayerRef) : g (w.cutOff s q) = g (w.players q) := by
  unfold cutOff
  split_ifs
  · exact hg _
  · rfl

def SocketUser.closed (x : SocketUser) : SocketUser :=
  { x with connected := false, udpEnabled := false }

theorem close_of_not_connected (h : (w.sessions s).connected = false) : w.close s = w := by
  rw [close, if_neg (by simp [h])]

theorem disconnectUser_eq : w.disconnectUser s = { w with players := w.cutOff s } := by
  have hplayers : (w.disconnectUser s).players = w.cutOff s := by
    funext q
    unfold disconnectUser cutOff
    cases hl : w.lockUser s with
    | none => simp
    | some p =>
      show Function.update w.players p (w.players p).disconnected q = _
      rw [Function.update_apply]
      by_cases hq : q = p
      · simp [hq]
      · simp [hq, Ne.symm hq]
  rw [← hplayers]
  unfold disconnectUser
  split <;> rfl

theorem close_of_connected (h : (w.sessions s).connected = true) :
    w.close s = { w.setSession s SocketUser.closed with
      players := w.cutOff s
      mQueueUserRemove := w.mQueueUserRemove ++ [(w.sessions s).sessionToken] } := by
  have huser := setSession_field SocketUser.user w s SocketUser.closed (fun _ => rfl) s
  have htoken := setSession_field SocketUser.sessionToken w s SocketUser.closed (fun _ => rfl) s
  have hcut : (w.setSession s SocketUser.closed).cutOff s = w.cutOff s := by
    unfold cutOff lockUser
    rw [huser]
    rfl
  rw [close, if_pos h, ← hcut, ← htoken]
  exact congrArg (fun x : World => x.removePlayer (x.sessions s).sessionToken) disconnectUser_eq

theorem abs_close_eq (w : World) (s : SessionRef) :
    (w.close s).abs = { w.abs with
      connected := w.abs.connected \ {s}
      online := w.abs.online \ {p | s ∈ w.abs.connected ∧ w.lockUser s = some p} } := by
  cases hc : (w.sessions s).connected with
  | false =>
    have hs : s ∉ w.abs.connected := fun h => absurd (hc.symm.trans h) (by decide)
    rw [close_of_not_connected hc, Set.sdiff_singleton_eq_self hs]
    simp [hs]
  | true =>
    rw [close_of_connected hc]
    apply Registry.ext <;> try rfl
    · ext t
      show (Function.update w.sessions s _ t).connected = true ↔ _
      rw [Function.update_apply]
      by_cases ht : t = s
      · simp [ht, SocketUser.closed]
      · simp [ht, abs]
    · ext t
      exact Bool.eq_iff_iff.mp
        (setSession_field SocketUser.isAuthenticated w s SocketUser.closed (fun _ => rfl) t)
    · exact funext (setSession_field SocketUser.user w s SocketUser.closed fun _ => rfl)
    · funext q
      exact congrArg List.head? (cutOff_field Player.socketUsers (fun _ => rfl) q)
    · funext q
      exact cutOff_field Player.getUserID (fun _ => rfl) q
    · ext q
      show (w.cutOff s q).mSocketUser ≠ none ↔ _
      have hs : s ∈ w.abs.connected := hc
      by_cases hq : w.lockUser s = some q
      · simp [cutOff, hq, hs, Player.disconnected]
      · simp [cutOff, hq, abs]

theorem WF.abs_close (hw : w.WF) : (w.close s).abs = w.abs.close s := by
  rw [abs_close_eq]
  simp only [hw.lockUser]
  rfl

theorem Keyed.close (hw : w.Keyed) : (w.close s).Keyed := by
  cases hc : (w.sessions s).connected with
  | false => rwa [close_of_not_connected hc]
  | true =>
    rw [close_of_connected hc]
    exact hw.frame rfl (fun _ _ h => h)
      (setSession_field SocketUser.sessionToken w s SocketUser.closed fun _ => rfl) (fun _ _ h => h)
      (cutOff_field Player.getUserID fun _ => rfl) (cutOff_field Player.socketUsers fun _ => rfl) rfl

theorem close_held : (w.close s).held = w.held := by
  cases hc : (w.sessions s).connected with
  | false => rw [close_of_not_connected hc]
  | true =>
    rw [close_of_connected hc]
    rfl

theorem WF.close (hw : w.WF) : (w.close s).WF :=
  ⟨hw.toKeyed.close, close_held.trans hw.held⟩

/-- The players that are left when the one with `id` is erased. -/
theorem WF.registered_erase (hw : w.WF) (id : UserID) :
    {q | ∃ i, (w.mPlayers.erase id).lookup i = some q} =
      w.abs.registered \ {q | w.abs.userID q = id} := by
  ext q
  constructor
  · rintro ⟨i, h⟩
    obtain ⟨hne, h⟩ := lookup_erase_eq_some.mp h
    exact ⟨⟨i, h⟩, fun hid => hne ((hw.userID i q h).symm.trans hid)⟩
  · rintro ⟨⟨i, h⟩, hid⟩
    refine ⟨i, lookup_erase_eq_some.mpr ⟨fun heq => hid ?_, h⟩⟩
    exact (hw.userID i q h).trans heq

theorem userDisconnected_eq : w.userDisconnected s = { w with
    mPlayers := match w.lockUser s with
      | none => w.mPlayers
      | some p => w.mPlayers.erase (w.players p).getUserID } := by
  unfold userDisconnected
  cases w.lockUser s with
  | none => rfl
  | some p =>
    dsimp only
    split_ifs with h
    · rfl
    · rw [erase_of_lookup_eq_none (Option.not_isSome_iff_eq_none.mp h)]

theorem WF.abs_userDisconnected (hw : w.WF) : (w.userDisconnected s).abs = w.abs.forget s := by
  rw [userDisconnected_eq]
  cases hl : w.lockUser s with
  | none =>
    have hnot : ∀ p, ¬ (w.abs.user s = some p ∧ w.abs.Alive p) := by
      intro p h
      rw [hw.lockUser.mpr h] at hl
      cases hl
    apply Registry.ext <;> try rfl
    ext q
    refine ⟨fun h => ⟨h, ?_⟩, fun h => h.1⟩
    rintro ⟨p, hu, hp, -⟩
    exact hnot p ⟨hu, hp⟩
  | some p =>
    obtain ⟨hu, hp⟩ := hw.lockUser.mp hl
    apply Registry.ext <;> try rfl
    refine (hw.registered_erase _).trans ?_
    congr 1
    ext q
    refine ⟨fun h => ⟨p, hu, hp, h⟩, ?_⟩
    rintro ⟨r, hr, -, h⟩
    rw [hu] at hr
    cases hr
    exact h

theorem WF.userDisconnected (hw : w.WF) : (w.userDisconnected s).WF := by
  rw [userDisconnected_eq]
  refine ⟨hw.frame rfl (fun _ _ h => h) (fun _ => rfl) (fun id p h => ?_) (fun _ => rfl)
    (fun _ => rfl) rfl, hw.held⟩
  revert h
  show (match w.lockUser s with
    | none => w.mPlayers
    | some p => w.mPlayers.erase (w.players p).getUserID).lookup id = some p → _
  cases w.lockUser s with
  | none => exact fun h => h
  | some q => exact fun h => (lookup_erase_eq_some.mp h).2

/-- Erasing a token takes its session out of the table. -/
theorem WF.live_erase (hw : w.WF) {user : Token} (hs : w.mSocketUsers.lookup user = some s) :
    {t | ∃ token, (w.mSocketUsers.erase user).lookup token = some t} = w.abs.live \ {s} := by
  ext t
  constructor
  · rintro ⟨token, h⟩
    obtain ⟨hne, h⟩ := lookup_erase_eq_some.mp h
    refine ⟨⟨token, h⟩, ?_⟩
    rintro rfl
    exact hne ((hw.token token t h).symm.trans (hw.token user t hs))
  · rintro ⟨⟨token, h⟩, hne⟩
    refine ⟨token, lookup_erase_eq_some.mpr ⟨?_, h⟩⟩
    rintro rfl
    exact hne (Option.some.inj (h.symm.trans hs))

theorem close_mSocketUsers : (w.close s).mSocketUsers = w.mSocketUsers := by
  cases hc : (w.sessions s).connected with
  | false => rw [close_of_not_connected hc]
  | true =>
    rw [close_of_connected hc]
    rfl

theorem doRemovePlayer_of_some {user : Token} (h : w.mSocketUsers.lookup user = some s) :
    w.doRemovePlayer user =
      { (w.userDisconnected s).close s with mSocketUsers := w.mSocketUsers.erase user } := by
  have htable : ((w.userDisconnected s).close s).mSocketUsers = w.mSocketUsers := by
    rw [close_mSocketUsers, userDisconnected_eq]
  rw [doRemovePlayer, h, ← htable]

theorem WF.abs_doRemovePlayer (hw : w.WF) {user : Token} (h : w.mSocketUsers.lookup user = some s) :
    (w.doRemovePlayer user).abs =
      { (w.abs.forget s).close s with live := w.abs.live \ {s} } := by
  rw [doRemovePlayer_of_some h, ← hw.live_erase h, ← hw.abs_userDisconnected,
    ← hw.userDisconnected.abs_close]
  rfl

theorem WF.doRemovePlayer (hw : w.WF) (user : Token) : (w.doRemovePlayer user).WF := by
  cases h : w.mSocketUsers.lookup user with
  | none =>
    rw [World.doRemovePlayer, h]
    exact hw
  | some s =>
    rw [doRemovePlayer_of_some h]
    have hclose : ((w.userDisconnected s).close s).WF := hw.userDisconnected.close
    refine ⟨hclose.frame rfl (fun t r hr => ?_) (fun _ => rfl) (fun _ _ h => h) (fun _ => rfl)
      (fun _ => rfl) rfl, hclose.held⟩
    rw [close_mSocketUsers, userDisconnected_eq]
    exact (lookup_erase_eq_some.mp hr).2

/-! ### New sessions -/

theorem abs_connect (w : World) (token : Token) :
    (w.connect token).abs = w.abs.connect w.nextSession := by
  have hsession : ∀ t, (w.connect token).sessions t =
      if t = w.nextSession then ⟨none, false, token, true, true, false⟩ else w.sessions t :=
    fun t => Function.update_apply ..
  apply Registry.ext <;> try rfl
  · ext t
    exact Nat.lt_succ_iff_lt_or_eq.trans or_comm
  · ext t
    show t ∈ w.mQueueUserAdd ++ [w.nextSession] ↔ t = w.nextSession ∨ t ∈ w.mQueueUserAdd
    rw [List.mem_append, List.mem_singleton, or_comm]
  · ext t
    show ((w.connect token).sessions t).connected = true ↔ t = w.nextSession ∨ _
    rw [hsession]
    split_ifs with h <;> simp [h, abs]
  · ext t
    show ((w.connect token).sessions t).isAuthenticated = true ↔
      (w.sessions t).isAuthenticated = true ∧ t ≠ w.nextSession
    rw [hsession]
    split_ifs with h <;> simp [h]
  · funext t
    show ((w.connect token).sessions t).user = Function.update w.abs.user w.nextSession none t
    rw [hsession, Function.update_apply]
    split_ifs <;> rfl

theorem WF.connect (hw : w.WF) (hinv : w.abs.Inv) (token : Token) : (w.connect token).WF where
  held := hw.held
  queue := by
    refine List.nodup_append.mpr ⟨hw.queue, List.nodup_singleton _, ?_⟩
    rintro t ht _ hs rfl
    rw [List.mem_singleton.mp hs] at ht
    exact lt_irrefl w.nextSession (hinv.queued_opened _ ht)
  token t s h := by
    have hopened : s < w.nextSession := hinv.live_opened s ⟨t, h⟩
    have hsession : (w.connect token).sessions s = w.sessions s :=
      Function.update_of_ne hopened.ne ..
    rw [hsession]
    exact hw.token t s h
  userID := hw.userID
  once := hw.once

/-- The user of a queued session is not set yet, so `UserConnected` does nothing. -/
theorem doAddPlayer_eq (hu : w.abs.user s = none) : w.doAddPlayer s =
    if w.hasPlayerSession (w.sessions s).sessionToken then .ok w
    else .ok { w with mSocketUsers := w.mSocketUsers.insert (w.sessions s).sessionToken s } := by
  have hlock : lockUser { w with
      mSocketUsers := w.mSocketUsers.insert (w.sessions s).sessionToken s } s = none := by
    show (w.sessions s).user.filter _ = none
    rw [show (w.sessions s).user = none from hu]
    rfl
  unfold doAddPlayer userConnected
  rw [hlock]
  simp

theorem WF.addNext (hw : w.WF) (hinv : w.abs.Inv) {rest : List SessionRef}
    (hq : w.mQueueUserAdd = s :: rest)
    (h : { w with mQueueUserAdd := rest }.doAddPlayer s = .ok w') :
    w'.WF ∧ Registry.Step w.abs (.add s) w'.abs := by
  have hqueued : s ∈ w.abs.queued := by
    show s ∈ w.mQueueUserAdd
    simp [hq]
  have hnodup : s ∉ rest ∧ rest.Nodup := List.nodup_cons.mp (hq ▸ hw.queue)
  have hrest : {t | t ∈ rest} = w.abs.queued \ {s} := by
    ext t
    show t ∈ rest ↔ t ∈ w.mQueueUserAdd ∧ t ≠ s
    rw [hq, List.mem_cons]
    refine ⟨fun ht => ⟨Or.inr ht, fun heq => hnodup.1 (heq ▸ ht)⟩, fun ht => ht.1.resolve_left ht.2⟩
  rw [doAddPlayer_eq (w := { w with mQueueUserAdd := rest }) (hinv.queued_new s hqueued).1] at h
  split_ifs at h with hhas
  · cases h
    refine ⟨⟨⟨hnodup.2, hw.token, hw.userID, hw.once⟩, hw.held⟩, ?_⟩
    have hstep := Registry.Step.add hqueued (Set.empty_subset {s})
    rw [← hrest, Set.union_empty] at hstep
    exact hstep
  · cases h
    have hnone : w.mSocketUsers.lookup (w.sessions s).sessionToken = none :=
      Option.not_isSome_iff_eq_none.mp hhas
    refine ⟨⟨⟨hnodup.2, fun t r hr => ?_, hw.userID, hw.once⟩, hw.held⟩, ?_⟩
    · rcases (lookup_insert_eq_some hnone).mp hr with ⟨rfl, rfl⟩ | hr
      · rfl
      · exact hw.token t r hr
    · have hlive : {t | ∃ token, (w.mSocketUsers.insert (w.sessions s).sessionToken s).lookup token =
          some t} = w.abs.live ∪ {s} := by
        ext t
        constructor
        · rintro ⟨token, ht⟩
          rcases (lookup_insert_eq_some hnone).mp ht with ⟨-, rfl⟩ | ht
          · exact Or.inr rfl
          · exact Or.inl ⟨token, ht⟩
        · rintro (⟨token, ht⟩ | rfl)
          · exact ⟨token, (lookup_insert_eq_some hnone).mpr (Or.inr ht)⟩
          · exact ⟨_, (lookup_insert_eq_some hnone).mpr (Or.inl ⟨rfl, rfl⟩)⟩
      have hstep := Registry.Step.add hqueued (Set.Subset.refl {s})
      rw [← hrest, ← hlive] at hstep
      exact hstep

/-! ### Matches -/

theorem abs_createMatch (id : String) (shortId : UInt16) :
    (w.createMatch id shortId).abs = w.abs := by
  unfold createMatch
  split_ifs
  · rfl
  · apply Registry.ext <;> try rfl
    ext p
    show (∃ m < w.nextMatch + 1, p ∈ (Function.update w.matchAt w.nextMatch _ m).mPlayers.values) ↔
      ∃ m < w.nextMatch, p ∈ (w.matchAt m).mPlayers.values
    constructor
    · rintro ⟨m, hm, hp⟩
      rw [Function.update_apply] at hp
      split_ifs at hp with h
      · cases hp
      · exact ⟨m, (Nat.lt_succ_iff_lt_or_eq.mp hm).resolve_right h, hp⟩
    · rintro ⟨m, hm, hp⟩
      refine ⟨m, Nat.lt_succ_of_lt hm, ?_⟩
      rwa [Function.update_of_ne hm.ne]

theorem WF.createMatch (hw : w.WF) (id : String) (shortId : UInt16) :
    (w.createMatch id shortId).WF := by
  unfold World.createMatch
  split_ifs
  · exact hw
  · exact ⟨⟨hw.queue, hw.token, hw.userID, hw.once⟩, hw.held⟩

/-- Calls of one match change the rosters only. -/
theorem abs_setMatchCtx {m : MatchRef} {c : MatchCtx}
    (userID : ∀ q, (c.players q).getUserID = (w.players q).getUserID)
    (socketUsers : ∀ q, (c.players q).socketUsers = (w.players q).socketUsers)
    (mSocketUser : ∀ q, (c.players q).mSocketUser = (w.players q).mSocketUser) :
    (w.setMatchCtx m c).abs = { w.abs with rostered := (w.setMatchCtx m c).abs.rostered } := by
  apply Registry.ext <;> try rfl
  · funext q
    exact congrArg List.head? (socketUsers q)
  · exact funext userID
  · ext q
    exact not_congr (by rw [← mSocketUser q]; rfl)

theorem WF.setMatchCtx (hw : w.WF) {m : MatchRef} {c : MatchCtx}
    (userID : ∀ q, (c.players q).getUserID = (w.players q).getUserID)
    (socketUsers : ∀ q, (c.players q).socketUsers = (w.players q).socketUsers) :
    (w.setMatchCtx m c).WF :=
  ⟨hw.frame rfl (fun _ _ h => h) (fun _ => rfl) (fun _ _ h => h) userID socketUsers rfl, hw.held⟩

theorem rostered_setMatchCtx {m : MatchRef} {c : MatchCtx} {q : PlayerRef}
    (h : q ∈ (w.setMatchCtx m c).abs.rostered) :
    q ∈ w.abs.rostered ∨ m < w.nextMatch ∧ q ∈ c.mtch.mPlayers.values := by
  obtain ⟨n, hn, hq⟩ := h
  replace hq : q ∈ (Function.update w.matchAt m c.mtch n).mPlayers.values := hq
  rw [Function.update_apply] at hq
  split_ifs at hq with hnm
  · exact Or.inr ⟨hnm ▸ hn, hq⟩
  · exact Or.inl ⟨n, hn, hq⟩

/-- What the match thread does is invisible. -/
theorem WF.quiet (hw : w.WF) {m : MatchRef} {c : MatchCtx} (h : (w.matchCtx m).Quiet c) :
    (w.setMatchCtx m c).WF ∧ (w.setMatchCtx m c).abs = w.abs := by
  have hid := h.field Player.getUserID fun _ _ _ _ _ => rfl
  have hown := h.field Player.socketUsers fun _ _ _ _ _ => rfl
  have honline := h.field Player.mSocketUser fun _ _ _ _ _ => rfl
  refine ⟨hw.setMatchCtx hid hown, ?_⟩
  rw [abs_setMatchCtx hid hown honline]
  have hmatch : ∀ n, ((w.setMatchCtx m c).matchAt n).mPlayers = (w.matchAt n).mPlayers := by
    intro n
    show (Function.update w.matchAt m c.mtch n).mPlayers = _
    rw [Function.update_apply]
    split_ifs with hn
    · rw [hn]
      exact h.mPlayers
    · rfl
  have hrostered : (w.setMatchCtx m c).abs.rostered = w.abs.rostered := by
    ext q
    show (∃ n < w.nextMatch, q ∈ ((w.setMatchCtx m c).matchAt n).mPlayers.values) ↔ _
    simp only [hmatch]
    rfl
  rw [hrostered]

end World

end GameServer
