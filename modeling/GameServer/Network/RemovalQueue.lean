import GameServer.Network.QueueStatistics
import GameServer.Network.SessionTables

/-! Removal requests between the two loops of `Update`. A request that is popped
while its session still waits in `m_queue_user_add` removes nothing, and the session
is added afterwards. -/

namespace GameServer

open Lib

namespace AsyncServer

/-! ### Requests and pops -/

/-- The token that `Close` of the session pushes to `m_queue_user_remove`. -/
def closeRequest (s : AsyncServer) (u : SessionRef) : Option Token :=
  if (s.users u).connected && (s.users u).udpConnectionClient.isSome then
    some (s.users u).sessionToken
  else none

/-- The token whose removal a step asks for: a call of `RemovePlayer` by a handler, by
`Close` or by a session that timed out. -/
def requests : AsyncServer × ConnectEvent → Option Token
  | (_, .removePlayer user) => some user
  | (s, .close u) => s.closeRequest u
  | (s, .update timedOut) =>
    match s.update with
    | .users (u :: _) => if timedOut then some (s.users u).sessionToken else none
    | .removeLoop => s.mQueueUserRemove.head?.bind fun user =>
        (s.mSocketUsers.lookup user).bind s.closeRequest
    | _ => none
  | _ => none

/-- The request that a step takes from `m_queue_user_remove`, and those behind it. -/
def popped : AsyncServer × ConnectEvent → Option (Token × List Token)
  | (s, .update _) =>
    match s.update, s.mQueueUserRemove with
    | .removeLoop, user :: rest => some (user, rest)
    | _, _ => none
  | _ => none

/-- `RemovePlayer` was called for the session after its `AddPlayer`. -/
def Requested (tr : List (AsyncServer × ConnectEvent)) (u : SessionRef) : Prop :=
  ∃ x ∈ tr, requests x = some (x.1.users u).sessionToken ∧ (x.1.users u).pc ≠ .addPlayer

/-- The last request for a session is not popped while the session waits to be added. -/
def PopsInTime (past : List (AsyncServer × ConnectEvent)) (x : AsyncServer × ConnectEvent) : Prop :=
  ∀ user rest, popped x = some (user, rest) → ∀ u ∈ x.1.mQueueUserAdd,
    (x.1.users u).sessionToken = user → Requested past u → user ∈ rest

/-! ### What a step does to the queues -/

structure Advances (s : AsyncServer) (e : ConnectEvent) (s' : AsyncServer) : Prop where
  sessionToken : ∀ u, (s'.users u).sessionToken = (s.users u).sessionToken
  added : ∀ u, (s.users u).pc ≠ .addPlayer → (s'.users u).pc ≠ .addPlayer
  /-- a session is known from its `AddPlayer` on -/
  known : ∀ u, u ∈ s'.mQueueUserAdd ∨ s'.Live u →
    (u ∈ s.mQueueUserAdd ∨ s.Live u) ∨ (s.users u).pc = .addPlayer
  keyed : ∀ t u, s'.mSocketUsers.lookup t = some u →
    s.mSocketUsers.lookup t = some u ∨ t = (s.users u).sessionToken
  /-- a request stays in the queue, or is popped and its session is gone from the table -/
  kept : ∀ user ∈ s.mQueueUserRemove, user ∈ s'.mQueueUserRemove ∨
    ∃ rest, popped (s, e) = some (user, rest) ∧ user ∉ rest ∧
      s'.mSocketUsers.lookup user = none ∧ s'.mQueueUserAdd = s.mQueueUserAdd

theorem SameTables.advances {s s' : AsyncServer} (h : SameTables s s') (e : ConnectEvent)
    (hremove : s.mQueueUserRemove ⊆ s'.mQueueUserRemove) : Advances s e s' := by
  refine ⟨h.sessionToken, fun u hu => ?_, fun u hu => Or.inl ?_, fun t u ht => Or.inl ?_,
    fun user hu => Or.inl (hremove hu)⟩
  · rw [h.pc]
    exact hu
  · rw [h.mQueueUserAdd, h.live] at hu
    exact hu
  · rw [h.mSocketUsers] at ht
    exact ht

theorem mQueueUserRemove_close {s s' : AsyncServer} {u : SessionRef} (h : s.close u = .ok s') :
    s.mQueueUserRemove ⊆ s'.mQueueUserRemove := by
  rcases close_ok h with ⟨-, rfl⟩ | ⟨-, rfl⟩
  · exact List.Subset.refl _
  · exact List.subset_append_left _ _

/-- A step of a handshake, from its first one on. -/
theorem advances_setUser {s t : AsyncServer} (e : ConnectEvent) {u : SessionRef}
    {f : ConnectingUser → ConnectingUser} (htoken : ∀ x, (f x).sessionToken = x.sessionToken)
    (hpc : (f (s.users u)).pc ≠ .addPlayer) (husers : t.users = s.users)
    (htable : t.mSocketUsers = s.mSocketUsers) (hremove : t.mQueueUserRemove = s.mQueueUserRemove)
    (hadd : ∀ v ∈ t.mQueueUserAdd, v ∈ s.mQueueUserAdd ∨ (s.users v).pc = .addPlayer) :
    Advances s e (t.setUser u f) := by
  refine ⟨fun v => ?_, fun v hv => ?_, fun v hv => ?_, fun tok v hv => Or.inl ?_,
    fun user hu => Or.inl ?_⟩
  · rw [setUser_field ConnectingUser.sessionToken t u f htoken, husers]
  · by_cases huv : v = u
    · rw [huv, setUser_self, husers]
      exact hpc
    · rw [setUser_of_ne t f huv, husers]
      exact hv
  · rcases hv with hv | ⟨tok, hv⟩
    · exact (hadd v hv).imp_left Or.inl
    · change t.mSocketUsers.lookup tok = some v at hv
      rw [htable] at hv
      exact Or.inl (Or.inr ⟨tok, hv⟩)
  · change t.mSocketUsers.lookup tok = some v at hv
    rw [htable] at hv
    exact hv
  · change user ∈ t.mQueueUserRemove
    rw [hremove]
    exact hu

theorem advances_connectStep {s s' : AsyncServer} {u : SessionRef} {udpId port : UInt16}
    (h : s.connectStep u udpId port = some s') : Advances s (.connect u udpId port) s' := by
  unfold connectStep at h
  split at h
  · next hpc =>
    cases h
    refine advances_setUser _ (t := { s with mQueueUserAdd := s.mQueueUserAdd ++ [u] })
      (fun _ => rfl) nofun rfl rfl rfl fun v hv => ?_
    rcases List.mem_append.mp hv with hv | hv
    · exact Or.inl hv
    · rw [List.mem_singleton.mp hv]
      exact Or.inr hpc
  · split_ifs at h
    · cases h
      exact (SameTables.refl s).advances _ (List.Subset.refl _)
    · cases h
      exact advances_setUser _ (fun _ => rfl) nofun rfl rfl rfl fun _ hv => Or.inl hv
  · cases h
    exact advances_setUser _ (fun _ => rfl) nofun rfl rfl rfl fun _ hv => Or.inl hv
  · cases h
    exact advances_setUser _ (t := s.mapped u _) (fun _ => rfl) nofun rfl rfl rfl
      fun _ hv => Or.inl hv
  · cases h
    exact advances_setUser _ (fun _ => rfl) nofun rfl rfl rfl fun _ hv => Or.inl hv
  · cases h

theorem advances_doAddPlayer {s : AsyncServer} (e : ConnectEvent) {u : SessionRef}
    {rest : List SessionRef} (hq : s.mQueueUserAdd = u :: rest) :
    Advances s e ({ s with mQueueUserAdd := rest }.doAddPlayer u) := by
  have hfirst : u ∈ s.mQueueUserAdd := by
    rw [hq]
    exact List.mem_cons_self
  have hlater : ∀ v ∈ rest, v ∈ s.mQueueUserAdd := fun v hv => by
    rw [hq]
    exact List.mem_cons_of_mem _ hv
  rw [doAddPlayer_eq]
  split_ifs with hhas
  · exact ⟨fun _ => rfl, fun _ hv => hv, fun v hv => Or.inl (hv.imp_left (hlater v)),
      fun t v ht => Or.inl ht, fun user hu => Or.inl hu⟩
  · have hnone : s.mSocketUsers.lookup (s.users u).sessionToken = none := by
      simpa [hasPlayerSession] using hhas
    refine ⟨fun _ => rfl, fun _ hv => hv, fun v hv => Or.inl ?_, fun t v ht => ?_,
      fun user hu => Or.inl hu⟩
    · rcases hv with hv | ⟨t, ht⟩
      · exact Or.inl (hlater v hv)
      · rcases (lookup_insert_eq_some hnone).mp ht with ⟨-, rfl⟩ | ht
        · exact Or.inl hfirst
        · exact Or.inr ⟨t, ht⟩
    · rcases (lookup_insert_eq_some hnone).mp ht with ⟨ht, rfl⟩ | ht
      · exact Or.inr ht
      · exact Or.inl ht

/-- A request that is taken from the queue is gone with its session. -/
theorem kept_of_pop {s s' : AsyncServer} {user : Token} {rest : List Token} {timedOut : Bool}
    (hpc : s.update = .removeLoop) (hq : s.mQueueUserRemove = user :: rest)
    (hremove : rest ⊆ s'.mQueueUserRemove) (hgone : s'.mSocketUsers.lookup user = none)
    (hadd : s'.mQueueUserAdd = s.mQueueUserAdd) :
    ∀ u ∈ s.mQueueUserRemove, u ∈ s'.mQueueUserRemove ∨
      ∃ rest, popped (s, .update timedOut) = some (u, rest) ∧ u ∉ rest ∧
        s'.mSocketUsers.lookup u = none ∧ s'.mQueueUserAdd = s.mQueueUserAdd := by
  intro u hu
  by_cases hmem : u ∈ rest
  · exact Or.inl (hremove hmem)
  · rw [hq] at hu
    obtain rfl := (List.mem_cons.mp hu).resolve_right hmem
    refine Or.inr ⟨rest, ?_, hmem, hgone, hadd⟩
    simp only [popped, hpc, hq]

theorem advances_doRemovePlayer {s s' : AsyncServer} {user : Token} {rest : List Token}
    (timedOut : Bool) (hpc : s.update = .removeLoop) (hq : s.mQueueUserRemove = user :: rest)
    (h : { s with mQueueUserRemove := rest }.doRemovePlayer user = .ok s') :
    Advances s (.update timedOut) s' := by
  rcases doRemovePlayer_ok h with ⟨hnone, rfl⟩ | ⟨u, t, hu, hclose, rfl⟩
  · exact ⟨fun _ => rfl, fun _ hv => hv, fun v hv => Or.inl hv, fun t v ht => Or.inl ht,
      kept_of_pop hpc hq (List.Subset.refl _) hnone rfl⟩
  · have ht := sameTables_close hclose
    refine ⟨ht.sessionToken, fun v hv => ?_, fun v hv => Or.inl ?_, fun tok v hv => Or.inl ?_,
      kept_of_pop hpc hq (mQueueUserRemove_close hclose) (AList.lookup_erase _ _) ht.mQueueUserAdd⟩
    · exact fun hpc => hv ((ht.pc v).symm.trans hpc)
    · rcases hv with hv | ⟨tok, hv⟩
      · exact Or.inl (ht.mQueueUserAdd ▸ hv)
      · exact Or.inr ((ht.live v).mp ⟨tok, (lookup_erase_eq_some.mp hv).2⟩)
    · have hold := (lookup_erase_eq_some.mp hv).2
      rw [ht.mSocketUsers] at hold
      exact hold

theorem advances_step {s s' : AsyncServer} {e : ConnectEvent} (h : Step s e s') :
    Advances s e s' := by
  cases e with
  | connect u udpId port => exact advances_connectStep h
  | update timedOut =>
    rcases updateStep_cases h with ⟨u, rest, -, hq, rfl⟩ | ⟨user, rest, hpc, hq, h⟩ |
      ⟨u, rest, -, -, rfl⟩ | ⟨pc, rfl, -⟩
    · exact advances_doAddPlayer _ hq
    · exact advances_doRemovePlayer timedOut hpc hq h
    · have hsame : SameTables s
          { s.removePlayer (s.users u).sessionToken with update := .users rest } :=
        { SameTables.refl s with }
      exact hsame.advances _ (List.subset_append_left _ _)
    · have hsame : SameTables s { s with update := pc } := { SameTables.refl s with }
      exact hsame.advances _ (List.Subset.refl _)
  | removePlayer user =>
    cases h
    have hsame : SameTables s (s.removePlayer user) := { SameTables.refl s with }
    exact hsame.advances _ (List.subset_append_left _ _)
  | close u => exact (sameTables_close h.2).advances _ (mQueueUserRemove_close h.2)

/-! ### A request is in the queue when the step is done -/

theorem closeRequest_close {s s' : AsyncServer} {u : SessionRef} {user : Token}
    (h : s.close u = .ok s') (hreq : s.closeRequest u = some user) :
    user ∈ s'.mQueueUserRemove := by
  unfold closeRequest at hreq
  split_ifs at hreq with hc
  cases hreq
  rcases close_ok h with ⟨hdone, -⟩ | ⟨-, rfl⟩
  · rw [hdone] at hc
    cases hc
  · exact List.mem_append_right _ (List.mem_singleton.mpr rfl)

theorem close_of_request {s : AsyncServer} {u : SessionRef} {user : Token}
    (hreq : s.closeRequest u = some user) : ∃ s', s.close u = .ok s' := by
  unfold closeRequest at hreq
  split_ifs at hreq with hc
  obtain ⟨hconnected, hclient⟩ := Bool.and_eq_true_iff.mp hc
  obtain ⟨port, hport⟩ := Option.isSome_iff_exists.mp hclient
  unfold close
  rw [if_pos hconnected, hport]
  exact ⟨_, rfl⟩

/-- `DoRemovePlayer` closes a session that is still connected. -/
theorem doRemovePlayer_of_request {s : AsyncServer} {first user : Token} {u : SessionRef}
    (hu : s.mSocketUsers.lookup first = some u) (hreq : s.closeRequest u = some user) :
    ∃ s', s.doRemovePlayer first = .ok s' ∧ user ∈ s'.mQueueUserRemove := by
  obtain ⟨t, hclose⟩ := close_of_request hreq
  have hmem := closeRequest_close hclose hreq
  refine ⟨t.erased first (s.users u).udpID, ?_, hmem⟩
  unfold doRemovePlayer
  rw [hu]
  dsimp only
  rw [hclose]
  rfl

/-- The removal loop takes the first request. -/
theorem updateStep_removal {s s' t : AsyncServer} {timedOut : Bool} {first : Token}
    {rest : List Token} (hpc : s.update = .removeLoop) (hq : s.mQueueUserRemove = first :: rest)
    (hdo : { s with mQueueUserRemove := rest }.doRemovePlayer first = .ok t)
    (h : s.updateStep timedOut = some s') : s' = t := by
  obtain ⟨users, table, idMap, list, add, remove, update⟩ := s
  subst hpc hq
  unfold updateStep at h
  dsimp only at h
  rw [hdo] at h
  exact (Option.some.inj h).symm

theorem requests_pushed {s s' : AsyncServer} {e : ConnectEvent} {user : Token} (h : Step s e s')
    (hreq : requests (s, e) = some user) : user ∈ s'.mQueueUserRemove := by
  cases e with
  | connect u udpId port => cases hreq
  | removePlayer user =>
    cases h
    cases hreq
    exact List.mem_append_right _ (List.mem_singleton.mpr rfl)
  | close u => exact closeRequest_close h.2 hreq
  | update timedOut =>
    change s.updateStep timedOut = some s' at h
    unfold requests at hreq
    dsimp only at hreq
    split at hreq
    · next u rest hpc =>
      split_ifs at hreq with htime
      cases hreq
      rw [updateStep, hpc] at h
      dsimp only at h
      rw [if_pos htime] at h
      cases h
      exact List.mem_append_right _ (List.mem_singleton.mpr rfl)
    · next hpc =>
      obtain ⟨first, hfirst, hreq⟩ := Option.bind_eq_some_iff.mp hreq
      obtain ⟨u, hu, hreq⟩ := Option.bind_eq_some_iff.mp hreq
      obtain ⟨rest, hq⟩ := List.head?_eq_some_iff.mp hfirst
      obtain ⟨t, hdo, hmem⟩ :=
        doRemovePlayer_of_request (s := { s with mQueueUserRemove := rest }) hu hreq
      rw [updateStep_removal hpc hq hdo h]
      exact hmem
    · cases hreq

/-! ### A run -/

/-- Whoever is owed a removal has a request in the queue. -/
structure Owed (tr : List (AsyncServer × ConnectEvent)) (s : AsyncServer) : Prop where
  keyed : ∀ t u, s.mSocketUsers.lookup t = some u → (s.users u).sessionToken = t
  added : ∀ u, Requested tr u → (s.users u).pc ≠ .addPlayer
  queue : ∀ u, Requested tr u → u ∈ s.mQueueUserAdd ∨ s.Live u →
    (s.users u).sessionToken ∈ s.mQueueUserRemove

theorem owed_init {s : AsyncServer} (h : s.Init) : Owed [] s := by
  refine ⟨fun t u ht => ?_, ?_, ?_⟩
  · rw [h.mSocketUsers] at ht
    cases ht
  · rintro u ⟨x, hx, -⟩
    cases hx
  · rintro u ⟨x, hx, -⟩
    cases hx

section Requested

variable {tr : List (AsyncServer × ConnectEvent)} {s : AsyncServer} {e : ConnectEvent}
  {u : SessionRef}

theorem Requested.here (hreq : requests (s, e) = some (s.users u).sessionToken)
    (hpc : (s.users u).pc ≠ .addPlayer) : Requested (tr ++ [(s, e)]) u :=
  ⟨(s, e), List.mem_append_right _ (List.mem_singleton.mpr rfl), hreq, hpc⟩

theorem Requested.next (h : Requested tr u) : Requested (tr ++ [(s, e)]) u := by
  obtain ⟨x, hx, hreq⟩ := h
  exact ⟨x, List.mem_append_left _ hx, hreq⟩

theorem requested_snoc (h : Requested (tr ++ [(s, e)]) u) :
    Requested tr u ∨ requests (s, e) = some (s.users u).sessionToken ∧
      (s.users u).pc ≠ .addPlayer := by
  obtain ⟨x, hx, hreq⟩ := h
  rcases List.mem_append.mp hx with hx | hx
  · exact Or.inl ⟨x, hx, hreq⟩
  · rw [List.mem_singleton.mp hx] at hreq
    exact Or.inr hreq

end Requested

theorem owed_step {tr : List (AsyncServer × ConnectEvent)} {s s' : AsyncServer} {e : ConnectEvent}
    (hs : Owed tr s) (hpop : PopsInTime tr (s, e)) (h : Step s e s') :
    Owed (tr ++ [(s, e)]) s' := by
  have hadv := advances_step h
  have hkeyed : ∀ t u, s'.mSocketUsers.lookup t = some u → (s'.users u).sessionToken = t := by
    intro t u ht
    rw [hadv.sessionToken]
    rcases hadv.keyed t u ht with hold | heq
    · exact hs.keyed t u hold
    · exact heq.symm
  refine ⟨hkeyed, fun u hu => ?_, fun u hu hknown => ?_⟩
  · rcases requested_snoc hu with hu | ⟨-, hpc⟩
    · exact hadv.added u (hs.added u hu)
    · exact hadv.added u hpc
  · rw [hadv.sessionToken]
    rcases requested_snoc hu with hu | ⟨hreq, -⟩
    · have hbefore := (hadv.known u hknown).resolve_right (hs.added u hu)
      rcases hadv.kept _ (hs.queue u hu hbefore) with hmem | ⟨rest, hpopped, hnot, hgone, hadd⟩
      · exact hmem
      · rcases hknown with hwait | ⟨t, ht⟩
        · rw [hadd] at hwait
          exact absurd (hpop _ rest hpopped u hwait rfl hu) hnot
        · have htoken := hkeyed t u ht
          rw [hadv.sessionToken] at htoken
          rw [← htoken, hgone] at ht
          cases ht
    · exact requests_pushed h hreq

theorem owed_of_popsInTime {tr : List (AsyncServer × ConnectEvent)} {s : AsyncServer}
    (h : system.Exec tr s) (hpops : AtEach PopsInTime tr) : Owed tr s := by
  induction h with
  | nil hi => exact owed_init hi
  | snoc _ hst ih =>
    obtain ⟨hpops, hlast⟩ := (atEach_snoc PopsInTime _ _).mp hpops
    exact owed_step (ih hpops) hlast hst

/-- In every run in which no session waits while the last request for it is popped,
whoever was asked to be removed is gone, and not about to come, once
`m_queue_user_remove` is empty again. -/
theorem requested_gone (tr : List (AsyncServer × ConnectEvent)) (s : AsyncServer)
    (h : system.Exec tr s) (hpops : AtEach PopsInTime tr) (hremove : s.mQueueUserRemove = []) :
    ∀ u, Requested tr u → ¬ s.Live u ∧ u ∉ s.mQueueUserAdd := by
  intro u hu
  have hqueue := (owed_of_popsInTime h hpops).queue u hu
  rw [hremove] at hqueue
  exact ⟨fun hlive => absurd (hqueue (Or.inr hlive)) (List.not_mem_nil),
    fun hwait => absurd (hqueue (Or.inl hwait)) (List.not_mem_nil)⟩

/-! ### A request that is served, and one that is lost -/

theorem inTime_of_empty {past : List (AsyncServer × ConnectEvent)}
    {x : AsyncServer × ConnectEvent} (h : x.1.mQueueUserAdd = []) : PopsInTime past x := by
  intro user rest _ u hu
  rw [h] at hu
  cases hu

theorem inTime_of_none {past : List (AsyncServer × ConnectEvent)}
    {x : AsyncServer × ConnectEvent} (h : popped x = none) : PopsInTime past x := by
  intro user rest hpopped
  rw [h] at hpopped
  cases hpopped

theorem removed_in_time : ∃ tr s, system.Exec tr s ∧ Requested tr 0 ∧ ¬ s.Live 0 := by
  have h0 : system.Exec [] emptyServer := .nil emptyServer_init
  have h1 := (h0.next (.connect 0 5 51000) _ rfl).next (.connect 0 5 51000) _ rfl
  have h2 := (h1.next (.connect 0 5 51000) _ rfl).next (.connect 0 5 51000) _ rfl
  have h3 := (h2.next (.connect 0 5 51000) _ rfl).next (.update false) _ rfl
  have h4 := (h3.next (.removePlayer "A") _ rfl).next (.update false) _ rfl
  have h5 := (h4.next (.update false) _ rfl).next (.update false) _ rfl
  refine ⟨_, _, h5, .next (.next (.next (.here rfl nofun))),
    (requested_gone _ _ h5 ?_ rfl 0 (.next (.next (.next (.here rfl nofun))))).1⟩
  simp only [atEach_snoc, atEach_nil, true_and]
  exact ⟨⟨⟨⟨⟨⟨⟨⟨⟨inTime_of_none rfl, inTime_of_none rfl⟩, inTime_of_none rfl⟩,
    inTime_of_none rfl⟩, inTime_of_none rfl⟩, inTime_of_none rfl⟩, inTime_of_none rfl⟩,
    inTime_of_none rfl⟩, inTime_of_empty rfl⟩, inTime_of_empty rfl⟩

/-- The request comes when the adds of this `Update` are done, and is popped before
those of the next. -/
theorem request_lost : ∃ tr s, system.Exec tr s ∧ s.mQueueUserAdd = [] ∧
    s.mQueueUserRemove = [] ∧ Requested tr 0 ∧ s.Live 0 := by
  have h0 : system.Exec [] emptyServer := .nil emptyServer_init
  have h1 := (h0.next (.update false) _ rfl).next (.connect 0 5 51000) _ rfl
  have h2 := (h1.next (.connect 0 5 51000) _ rfl).next (.connect 0 5 51000) _ rfl
  have h3 := (h2.next (.connect 0 5 51000) _ rfl).next (.connect 0 5 51000) _ rfl
  have h4 := (h3.next (.removePlayer "A") _ rfl).next (.update false) _ rfl
  have h5 := (h4.next (.update false) _ rfl).next (.update false) _ rfl
  have h6 := (h5.next (.update false) _ rfl).next (.update false) _ rfl
  have h7 := (h6.next (.update false) _ rfl).next (.update false) _ rfl
  exact ⟨_, _, h7, rfl, rfl, .next (.next (.next (.next (.next (.next (.next
    (.here rfl nofun))))))), "A", rfl⟩

end AsyncServer

end GameServer
