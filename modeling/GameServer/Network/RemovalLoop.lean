import GameServer.Lib.Lookup
import GameServer.Network.QueueStatistics

/-! The removal loop of `Update`, alone. `DoRemovePlayer` of a connected session closes it,
and `Close` asks for the removal of the same session again, so the queue grows while it
is drained. -/

namespace GameServer

open Lib

/-- The server with the sessions that `UserDisconnected` was called for, in order. -/
structure RemovalLoop where
  server : AsyncServer
  disconnected : List SessionRef

namespace RemovalLoop

/-- `DoRemovePlayer`: `UserDisconnected` comes before `Close`. -/
def doRemovePlayer (x : RemovalLoop) (user : Token) : Exec RemovalLoop :=
  match x.server.mSocketUsers.lookup user with
  | none => .ok x
  | some userObj => do
    let server ← x.server.doRemovePlayer user
    .ok ⟨server, x.disconnected ++ [userObj]⟩

/-- The request at the head of the queue is taken. -/
def pop (x : RemovalLoop) (rest : List Token) : RemovalLoop :=
  { x with server := { x.server with mQueueUserRemove := rest } }

/-! ### One removal -/

/-- Session `u` of token `user` is closed and erased. A connected session is asked to be
removed once more. -/
structure Removes (x : RemovalLoop) (user : Token) (u : SessionRef) (x' : RemovalLoop) : Prop where
  disconnected : x'.disconnected = x.disconnected ++ [u]
  mSocketUsers : x'.server.mSocketUsers = x.server.mSocketUsers.erase user
  mUdpIdMap : x'.server.mUdpIdMap = x.server.mUdpIdMap.erase (x.server.users u).udpID
  mQueueUserRemove : x'.server.mQueueUserRemove = x.server.mQueueUserRemove ++
    if (x.server.users u).connected then [(x.server.users u).sessionToken] else []
  users : ∀ v, v ≠ u → x'.server.users v = x.server.users v
  sessionToken : (x'.server.users u).sessionToken = (x.server.users u).sessionToken

/-- `Close` returns. -/
def Closable (s : AsyncServer) (u : SessionRef) : Prop :=
  (s.users u).connected = true → (s.users u).udpConnectionClient ≠ none

theorem doRemovePlayer_none {x : RemovalLoop} {user : Token}
    (hnone : x.server.mSocketUsers.lookup user = none) : x.doRemovePlayer user = .ok x := by
  simp [doRemovePlayer, hnone]

theorem doRemovePlayer_some {x x' : RemovalLoop} {user : Token} {u : SessionRef}
    (hu : x.server.mSocketUsers.lookup user = some u) (h : x.doRemovePlayer user = .ok x') :
    Closable x.server u ∧ x.Removes user u x' := by
  simp only [doRemovePlayer, hu] at h
  obtain ⟨server, hserver, h⟩ := Exec.bind_eq_ok.mp h
  cases h
  rcases AsyncServer.doRemovePlayer_ok hserver with ⟨hnone, -⟩ | ⟨v, t, hv, hclose, rfl⟩
  · rw [hu] at hnone
    cases hnone
  · rw [hu] at hv
    cases hv
    refine ⟨AsyncServer.client_of_close hclose, ?_⟩
    rcases AsyncServer.close_ok hclose with ⟨hc, rfl⟩ | ⟨hc, rfl⟩
    · exact ⟨rfl, rfl, rfl, by simp [AsyncServer.erased, AsyncServer.populateUserList, hc],
        fun v _ => rfl, rfl⟩
    · refine ⟨rfl, rfl, rfl, ?_, fun v hne => Function.update_of_ne hne .., ?_⟩
      · simp [AsyncServer.erased, AsyncServer.populateUserList, AsyncServer.removePlayer,
          AsyncServer.setUser, hc]
      · simp [AsyncServer.erased, AsyncServer.populateUserList, AsyncServer.removePlayer]

theorem doRemovePlayer_of_closable {x : RemovalLoop} {user : Token} {u : SessionRef}
    (hu : x.server.mSocketUsers.lookup user = some u) (hclosable : Closable x.server u) :
    ∃ x', x.doRemovePlayer user = .ok x' := by
  obtain ⟨t, ht⟩ := AsyncServer.close_of_client hclosable
  simp only [doRemovePlayer, hu, AsyncServer.doRemovePlayer, ht]
  exact ⟨_, rfl⟩

/-! ### The loop -/

/-- The sessions that are left. -/
def sessions (x : RemovalLoop) : ℕ := x.server.mSocketUsers.entries.length

theorem sessions_erase {x x' : RemovalLoop} {user : Token} {u : SessionRef}
    (hu : x.server.mSocketUsers.lookup user = some u) (h : x.Removes user u x') :
    x'.sessions < x.sessions := by
  have hmem : user ∈ x.server.mSocketUsers := AList.lookup_isSome.mp (by rw [hu]; rfl)
  obtain ⟨v, l₁, l₂, -, hentries, herase⟩ := List.exists_of_kerase (AList.mem_keys.mp hmem)
  have hlen : (x.server.mSocketUsers.erase user).entries.length <
      x.server.mSocketUsers.entries.length := by
    change (List.kerase user x.server.mSocketUsers.entries).length < _
    rw [herase, hentries]
    simp
  rw [sessions, sessions, h.mSocketUsers]
  exact hlen

/-- Each turn takes a session away, or leaves the sessions and shortens the queue. -/
theorem turn_decreases {x x' : RemovalLoop} {user : Token} {rest : List Token}
    (hq : x.server.mQueueUserRemove = user :: rest)
    (h : (x.pop rest).doRemovePlayer user = .ok x') :
    x'.sessions < x.sessions ∨
      x'.sessions = x.sessions ∧
        x'.server.mQueueUserRemove.length < x.server.mQueueUserRemove.length := by
  cases hu : (x.pop rest).server.mSocketUsers.lookup user with
  | none =>
    rw [doRemovePlayer_none hu] at h
    cases h
    rw [hq]
    exact .inr ⟨rfl, Nat.lt_succ_self _⟩
  | some u =>
    have hlt : x'.sessions < (x.pop rest).sessions :=
      sessions_erase hu (doRemovePlayer_some hu h).2
    exact .inl hlt

/-- `while (!m_queue_user_remove.empty())`. It ends because each turn takes a session
away or shortens the queue. -/
def removeLoop (x : RemovalLoop) : Exec RemovalLoop :=
  match _hq : x.server.mQueueUserRemove with
  | [] => .ok x
  | user :: rest =>
    match _h : (x.pop rest).doRemovePlayer user with
    | .error f => .error f
    | .ok x' => removeLoop x'
termination_by (x.sessions, x.server.mQueueUserRemove.length)
decreasing_by
  rcases turn_decreases _hq _h with hlt | ⟨heq, hlt⟩
  · exact Prod.Lex.left _ _ hlt
  · rw [heq]
    exact Prod.Lex.right _ hlt

theorem removeLoop_nil {x : RemovalLoop} (hq : x.server.mQueueUserRemove = []) :
    x.removeLoop = .ok x := by
  rw [removeLoop]
  split
  · rfl
  · next h =>
    rw [hq] at h
    cases h

theorem removeLoop_cons {x : RemovalLoop} {user : Token} {rest : List Token}
    (hq : x.server.mQueueUserRemove = user :: rest) :
    x.removeLoop = (x.pop rest).doRemovePlayer user >>= removeLoop := by
  rw [removeLoop]
  split
  · next h =>
    rw [hq] at h
    cases h
  · next h =>
    rw [hq] at h
    cases h
    split
    · next hf => rw [hf]; rfl
    · next hx => rw [hx]; rfl

/-! ### What is left -/

/-- Sessions are stored under their tokens. -/
def Keyed (s : AsyncServer) : Prop :=
  ∀ t u, s.mSocketUsers.lookup t = some u → (s.users u).sessionToken = t

/-- No two sessions have the same UDP id. -/
def DistinctIds (s : AsyncServer) : Prop :=
  ∀ t t' u u', s.mSocketUsers.lookup t = some u → s.mSocketUsers.lookup t' = some u' →
    (s.users u).udpID = (s.users u').udpID → t = t'

/-- The loop has removed the queued sessions and nothing else. -/
structure Drained (x x' : RemovalLoop) : Prop where
  queue : x'.server.mQueueUserRemove = []
  mSocketUsers : ∀ t, x'.server.mSocketUsers.lookup t =
    if t ∈ x.server.mQueueUserRemove then none else x.server.mSocketUsers.lookup t
  disconnected : ∃ removed, x'.disconnected = x.disconnected ++ removed ∧ removed.Nodup ∧
    ∀ u, u ∈ removed ↔ ∃ t ∈ x.server.mQueueUserRemove, x.server.mSocketUsers.lookup t = some u
  mUdpIdMap : ∀ t u, x'.server.mSocketUsers.lookup t = some u →
    x'.server.mUdpIdMap.lookup (x.server.users u).udpID =
      x.server.mUdpIdMap.lookup (x.server.users u).udpID

/-- Every session that is asked to be removed can be closed. -/
def QueueClosable (s : AsyncServer) : Prop :=
  ∀ t ∈ s.mQueueUserRemove, ∀ u, s.mSocketUsers.lookup t = some u → Closable s u

/-! ### One turn, seen from before and after -/

section Turn

variable {x y : RemovalLoop} {user : Token} {rest : List Token} {u : SessionRef}

theorem Removes.lookup_iff (h : x.Removes user u y) {t : Token} {v : SessionRef} :
    y.server.mSocketUsers.lookup t = some v ↔
      t ≠ user ∧ x.server.mSocketUsers.lookup t = some v := by
  rw [h.mSocketUsers]
  exact lookup_erase_eq_some

/-- Another token's session is another session. -/
theorem Keyed.ne (hx : Keyed x.server) (hu : x.server.mSocketUsers.lookup user = some u)
    {t : Token} {v : SessionRef} (hv : x.server.mSocketUsers.lookup t = some v) (ht : t ≠ user) :
    v ≠ u := by
  rintro rfl
  exact ht ((hx t v hv).symm.trans (hx user v hu))

theorem Removes.keyed (h : x.Removes user u y) (hx : Keyed x.server) : Keyed y.server := by
  intro t v hv
  have hold := (h.lookup_iff.mp hv).2
  by_cases hvu : v = u
  · rw [hvu, h.sessionToken, ← hvu]
    exact hx t v hold
  · rw [h.users v hvu]
    exact hx t v hold

/-- What a session that stays looks like. -/
theorem Removes.stays (h : x.Removes user u y) (hx : Keyed x.server)
    (hu : x.server.mSocketUsers.lookup user = some u) {t : Token} {v : SessionRef}
    (hv : y.server.mSocketUsers.lookup t = some v) : y.server.users v = x.server.users v := by
  obtain ⟨ht, hold⟩ := h.lookup_iff.mp hv
  exact h.users v (hx.ne hu hold ht)

theorem Removes.distinctIds (h : x.Removes user u y) (hx : Keyed x.server)
    (hu : x.server.mSocketUsers.lookup user = some u) (hids : DistinctIds x.server) :
    DistinctIds y.server := by
  intro t t' v v' hv hv' hid
  rw [h.stays hx hu hv, h.stays hx hu hv'] at hid
  exact hids t t' v v' (h.lookup_iff.mp hv).2 (h.lookup_iff.mp hv').2 hid

/-- The session's own token is what `Close` pushes. -/
theorem Removes.mem_queue (h : x.Removes user u y) (hx : Keyed x.server)
    (hu : x.server.mSocketUsers.lookup user = some u) {t : Token} (ht : t ≠ user) :
    t ∈ y.server.mQueueUserRemove ↔ t ∈ x.server.mQueueUserRemove := by
  rw [h.mQueueUserRemove, hx user u hu, List.mem_append, or_iff_left]
  split_ifs
  · simpa using ht
  · exact List.not_mem_nil

theorem Drained.nil (hq : x.server.mQueueUserRemove = []) : Drained x x := by
  refine ⟨hq, fun t => ?_, ⟨[], (List.append_nil _).symm, List.nodup_nil, fun u => ?_⟩,
    fun _ _ _ => rfl⟩
  · rw [hq, if_neg List.not_mem_nil]
  · simp [hq]

/-- A request for a session that is not there. -/
theorem Drained.unknown {x' : RemovalLoop} (hq : x.server.mQueueUserRemove = user :: rest)
    (hnone : x.server.mSocketUsers.lookup user = none) (hd : Drained (x.pop rest) x') :
    Drained x x' := by
  obtain ⟨removed, hlist, hnodup, hmem⟩ := hd.disconnected
  refine ⟨hd.queue, fun t => ?_, ⟨removed, hlist, hnodup, fun v => ?_⟩, hd.mUdpIdMap⟩
  · rw [hd.mSocketUsers, hq]
    by_cases ht : t = user
    · rw [ht, if_pos List.mem_cons_self]
      split_ifs
      · rfl
      · exact hnone
    · simp only [List.mem_cons, ht, false_or]
      rfl
  · rw [hmem, hq]
    constructor
    · rintro ⟨t, ht, hv⟩
      exact ⟨t, List.mem_cons_of_mem _ ht, hv⟩
    · rintro ⟨t, ht, hv⟩
      rcases List.mem_cons.mp ht with rfl | ht
      · rw [hnone] at hv
        cases hv
      · exact ⟨t, ht, hv⟩

/-- A request for a session that is there. -/
theorem Drained.known {x' : RemovalLoop} (hq : x.server.mQueueUserRemove = user :: rest)
    (hx : Keyed x.server) (hids : DistinctIds x.server)
    (hu : x.server.mSocketUsers.lookup user = some u) (h : (x.pop rest).Removes user u y)
    (hd : Drained y x') : Drained x x' := by
  have hqueue : ∀ t, t ≠ user → (t ∈ y.server.mQueueUserRemove ↔ t ∈ rest) := fun t ht =>
    h.mem_queue hx hu ht
  have hlookup : ∀ t v, y.server.mSocketUsers.lookup t = some v ↔
      t ≠ user ∧ x.server.mSocketUsers.lookup t = some v := fun t v => h.lookup_iff
  obtain ⟨removed, hlist, hnodup, hmem⟩ := hd.disconnected
  have hfresh : u ∉ removed := by
    intro hin
    obtain ⟨t, -, ht⟩ := (hmem u).mp hin
    obtain ⟨hne, hold⟩ := (hlookup t u).mp ht
    exact hx.ne hu hold hne rfl
  refine ⟨hd.queue, fun t => ?_, ⟨u :: removed, ?_, List.nodup_cons.mpr ⟨hfresh, hnodup⟩,
    fun v => ?_⟩, fun t v hv => ?_⟩
  · rw [hd.mSocketUsers, h.mSocketUsers, hq]
    by_cases ht : t = user
    · rw [ht, if_pos List.mem_cons_self, AList.lookup_erase, ite_self]
    · simp only [hqueue t ht, List.mem_cons, ht, false_or, AList.lookup_erase_ne ht]
      rfl
  · rw [hlist, h.disconnected, List.append_assoc]
    rfl
  · rw [List.mem_cons, hmem, hq]
    constructor
    · rintro (rfl | ⟨t, ht, hv⟩)
      · exact ⟨user, List.mem_cons_self, hu⟩
      · obtain ⟨hne, hold⟩ := (hlookup t v).mp hv
        exact ⟨t, List.mem_cons_of_mem _ ((hqueue t hne).mp ht), hold⟩
    · rintro ⟨t, ht, hv⟩
      by_cases hne : t = user
      · rw [hne, hu] at hv
        exact .inl (Option.some.inj hv).symm
      · have hrest := (List.mem_cons.mp ht).resolve_left hne
        exact .inr ⟨t, (hqueue t hne).mpr hrest, (hlookup t v).mpr ⟨hne, hv⟩⟩
  · -- a session that stays has neither the token nor the id of the removed one
    have hy : y.server.mSocketUsers.lookup t = some v := by
      rw [hd.mSocketUsers] at hv
      split_ifs at hv
      exact hv
    obtain ⟨hne, hold⟩ := (hlookup t v).mp hy
    have hmap := hd.mUdpIdMap t v hv
    have hid : (x.server.users v).udpID ≠ (x.server.users u).udpID := fun heq =>
      hne (hids t user v u hold hu heq)
    have huser : y.server.users v = x.server.users v := h.stays hx hu hy
    have herase : y.server.mUdpIdMap = x.server.mUdpIdMap.erase (x.server.users u).udpID :=
      h.mUdpIdMap
    rw [huser, herase, AList.lookup_erase_ne hid] at hmap
    exact hmap

end Turn

/-- A run of the loop to its end removes the queued sessions and nothing else, and has
closed each of them. -/
theorem removeLoop_drains (x : RemovalLoop) (hx : Keyed x.server) (hids : DistinctIds x.server)
    {x' : RemovalLoop} (h : x.removeLoop = .ok x') :
    Drained x x' ∧ QueueClosable x.server := by
  induction x using removeLoop.induct with
  | case1 x hq =>
    rw [removeLoop_nil hq] at h
    cases h
    refine ⟨.nil hq, fun t ht => ?_⟩
    rw [hq] at ht
    cases ht
  | case2 x user rest hq f hf =>
    rw [removeLoop_cons hq, hf] at h
    cases h
  | case3 x user rest hq y hy ih =>
    rw [removeLoop_cons hq, hy] at h
    have hrest : y.removeLoop = .ok x' := h
    cases hu : (x.pop rest).server.mSocketUsers.lookup user with
    | none =>
      rw [doRemovePlayer_none hu] at hy
      cases hy
      obtain ⟨hd, hclosable⟩ := ih hx hids hrest
      refine ⟨hd.unknown hq hu, fun t ht v hv => ?_⟩
      rw [hq] at ht
      rcases List.mem_cons.mp ht with rfl | ht
      · have hnone : x.server.mSocketUsers.lookup t = none := hu
        rw [hnone] at hv
        cases hv
      · exact hclosable t ht v hv
    | some u =>
      obtain ⟨hclose, hremoves⟩ := doRemovePlayer_some hu hy
      have hkeyed : Keyed y.server := hremoves.keyed hx
      obtain ⟨hd, hclosable⟩ := ih hkeyed (hremoves.distinctIds hx hu hids) hrest
      refine ⟨hd.known hq hx hids hu hremoves, fun t ht v hv => ?_⟩
      by_cases hne : t = user
      · have heq : x.server.mSocketUsers.lookup user = some u := hu
        rw [hne, heq] at hv
        cases hv
        exact hclose
      · rw [hq] at ht
        have hin := (List.mem_cons.mp ht).resolve_left hne
        have hyv : y.server.mSocketUsers.lookup t = some v := hremoves.lookup_iff.mpr ⟨hne, hv⟩
        have hyq : t ∈ y.server.mQueueUserRemove := (hremoves.mem_queue hx hu hne).mpr hin
        have hstays : y.server.users v = x.server.users v := hremoves.stays hx hu hyv
        have hcl := hclosable t hyq v hyv
        unfold Closable at hcl ⊢
        rwa [hstays] at hcl

/-- The loop does not fail when the sessions of its queue can be closed. -/
theorem removeLoop_returns (x : RemovalLoop) (hx : Keyed x.server)
    (hclosable : QueueClosable x.server) : ∃ x', x.removeLoop = .ok x' := by
  induction x using removeLoop.induct with
  | case1 x hq => exact ⟨x, removeLoop_nil hq⟩
  | case2 x user rest hq f hf =>
    cases hu : (x.pop rest).server.mSocketUsers.lookup user with
    | none =>
      rw [doRemovePlayer_none hu] at hf
      cases hf
    | some u =>
      have hin : user ∈ x.server.mQueueUserRemove := by
        rw [hq]
        exact List.mem_cons_self
      obtain ⟨y, hy⟩ := doRemovePlayer_of_closable hu (hclosable user hin u hu)
      rw [hy] at hf
      cases hf
  | case3 x user rest hq y hy ih =>
    rw [removeLoop_cons hq, hy]
    cases hu : (x.pop rest).server.mSocketUsers.lookup user with
    | none =>
      rw [doRemovePlayer_none hu] at hy
      cases hy
      refine ih hx fun t ht v hv => hclosable t ?_ v hv
      rw [hq]
      exact List.mem_cons_of_mem _ ht
    | some u =>
      have hremoves := (doRemovePlayer_some hu hy).2
      have hkeyed : Keyed y.server := hremoves.keyed hx
      refine ih hkeyed fun t ht v hv => ?_
      obtain ⟨hne, hold⟩ := hremoves.lookup_iff.mp hv
      have hin : t ∈ x.server.mQueueUserRemove := by
        rw [hq]
        exact List.mem_cons_of_mem _ ((hremoves.mem_queue hx hu hne).mp ht)
      have hstays : y.server.users v = x.server.users v := hremoves.stays hx hu hv
      have hcl := hclosable t hin v hold
      unfold Closable at hcl ⊢
      rwa [hstays]

/-- The removal loop ends and is exact if and only if no queued session is connected
without its UDP connection. -/
theorem removeLoop_exact_iff (x : RemovalLoop) (hx : Keyed x.server) (hids : DistinctIds x.server) :
    (∃ x', x.removeLoop = .ok x' ∧ Drained x x') ↔ QueueClosable x.server := by
  constructor
  · rintro ⟨x', h, -⟩
    exact (removeLoop_drains x hx hids h).2
  · intro hclosable
    obtain ⟨x', h⟩ := removeLoop_returns x hx hclosable
    exact ⟨x', h, (removeLoop_drains x hx hids h).1⟩

/-! ### Two queues -/

/-- Session 0 with token `"A"` alone. -/
theorem keyed_single {s : AsyncServer} (hs : s.mSocketUsers = AList.insert "A" 0 ∅)
    (htoken : (s.users 0).sessionToken = "A") : Keyed s ∧ DistinctIds s := by
  have hlookup : ∀ t u, s.mSocketUsers.lookup t = some u → t = "A" ∧ u = 0 := by
    intro t u h
    rw [hs] at h
    rcases (lookup_insert_eq_some rfl).mp h with hin | hempty
    · exact hin
    · cases hempty
  refine ⟨fun t u h => ?_, fun t t' u u' h h' _ => ?_⟩
  · obtain ⟨rfl, rfl⟩ := hlookup t u h
    exact htoken
  · rw [(hlookup t u h).1, (hlookup t' u' h').1]

/-- One connected session, asked to be removed twice, and an unknown token. -/
def pairQueue : RemovalLoop :=
  ⟨⟨fun _ => ⟨.finished, "A", true, true, 5, some 51000⟩, AList.insert "A" 0 ∅,
    AList.insert 5 0 ∅, [0], [], ["A", "C", "A"], .removeLoop⟩, []⟩

theorem pairQueue_drained : ∃ x', pairQueue.removeLoop = .ok x' ∧ Drained pairQueue x' :=
  (removeLoop_exact_iff pairQueue (keyed_single rfl rfl).1 (keyed_single rfl rfl).2).mpr
    fun _ _ _ _ _ => nofun

/-- A session that `Update` has just added, and whose handshake has not come to
`EnableUdp`. -/
theorem handshake_not_drained : ∃ tr s, AsyncServer.system.Exec tr s ∧ s.update = .removeLoop ∧
    Keyed s ∧ DistinctIds s ∧ ¬ ∃ x', removeLoop ⟨s, []⟩ = .ok x' ∧ Drained ⟨s, []⟩ x' := by
  have h0 : AsyncServer.system.Exec [] AsyncServer.emptyServer := .nil AsyncServer.emptyServer_init
  have h1 := (h0.next (.connect 0 5 51000) _ rfl).next (.update false) _ rfl
  have h2 := (h1.next (.update false) _ rfl).next (.removePlayer "A") _ rfl
  refine ⟨_, _, h2, rfl, (keyed_single rfl rfl).1, (keyed_single rfl rfl).2, ?_⟩
  rintro ⟨x', hloop, -⟩
  have hclosable := (removeLoop_drains _ (keyed_single rfl rfl).1 (keyed_single rfl rfl).2 hloop).2
  exact hclosable "A" (List.mem_singleton_self _) 0 rfl rfl rfl

end RemovalLoop

end GameServer
