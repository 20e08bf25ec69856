import GameServer.Network.Handshake

/-! Which sessions `Update` can find without a UDP connection when it adds up the
send queues. -/

namespace GameServer

open Lib

namespace AsyncServer

/-- The main thread can come across the session. -/
def Listed (s : AsyncServer) (u : SessionRef) : Prop :=
  u ∈ s.mQueueUserAdd ∨ (∃ t, s.mSocketUsers.lookup t = some u) ∨ u ∈ s.mSocketUserList ∨
    u ∈ s.update.remaining

/-- Handshakes stand where they stood, and no session is newly listed. -/
structure Keeps (s s' : AsyncServer) : Prop where
  pc : ∀ u, (s'.users u).pc = (s.users u).pc
  client : ∀ u, (s'.users u).udpConnectionClient = (s.users u).udpConnectionClient
  listed : ∀ u, s'.Listed u → s.Listed u

theorem Keeps.refl (s : AsyncServer) : Keeps s s := ⟨fun _ => rfl, fun _ => rfl, fun _ h => h⟩

theorem Keeps.trans {s s' s'' : AsyncServer} (h : Keeps s s') (h' : Keeps s' s'') : Keeps s s'' :=
  ⟨fun u => (h'.pc u).trans (h.pc u), fun u => (h'.client u).trans (h.client u),
    fun u hu => h.listed u (h'.listed u hu)⟩

theorem mem_users {m : AList fun _ : Token => SessionRef} {u : SessionRef}
    (h : u ∈ m.entries.map Sigma.snd) : ∃ t, m.lookup t = some u := by
  obtain ⟨⟨t, v⟩, hmem, rfl⟩ := List.mem_map.mp h
  exact ⟨t, AList.mem_lookup_iff.mpr hmem⟩

theorem keeps_populateUserList (s : AsyncServer) : Keeps s s.populateUserList := by
  refine ⟨fun _ => rfl, fun _ => rfl, fun u hu => ?_⟩
  rcases hu with hu | hu | hu | hu
  · exact Or.inl hu
  · exact Or.inr (Or.inl hu)
  · exact Or.inr (Or.inl (mem_users hu))
  · exact Or.inr (Or.inr (Or.inr hu))

theorem keeps_removePlayer (s : AsyncServer) (user : Token) : Keeps s (s.removePlayer user) :=
  ⟨fun _ => rfl, fun _ => rfl, fun _ h => h⟩

theorem keeps_setUser (s : AsyncServer) (u : SessionRef) (f : ConnectingUser → ConnectingUser)
    (hpc : ∀ x, (f x).pc = x.pc) (hclient : ∀ x, (f x).udpConnectionClient = x.udpConnectionClient) :
    Keeps s (s.setUser u f) :=
  ⟨setUser_field ConnectingUser.pc s u f hpc,
    setUser_field ConnectingUser.udpConnectionClient s u f hclient, fun _ h => h⟩

theorem keeps_close {s s' : AsyncServer} {u : SessionRef} (h : s.close u = .ok s') :
    Keeps s s' := by
  rcases close_ok h with ⟨-, rfl⟩ | ⟨-, rfl⟩
  · exact .refl _
  · refine Keeps.trans ?_ (keeps_removePlayer _ _)
    apply keeps_setUser
    · intro x
      rfl
    · intro x
      rfl

theorem keeps_doRemovePlayer {s s' : AsyncServer} {user : Token}
    (h : s.doRemovePlayer user = .ok s') : Keeps s s' := by
  rcases doRemovePlayer_ok h with ⟨-, rfl⟩ | ⟨v, t, -, hclose, rfl⟩
  · exact .refl _
  · refine (keeps_close hclose).trans (Keeps.trans ?_ (keeps_populateUserList _))
    refine ⟨fun _ => rfl, fun _ => rfl, fun u hu => ?_⟩
    rcases hu with hu | ⟨tok, hu⟩ | hu
    · exact Or.inl hu
    · by_cases htok : tok = user
      · rw [htok, AList.lookup_erase] at hu
        cases hu
      · exact Or.inr (Or.inl ⟨tok, by rwa [AList.lookup_erase_ne htok] at hu⟩)
    · exact Or.inr (Or.inr hu)

theorem Keeps.doAddPlayer {s s' : AsyncServer} {user : SessionRef} (h : Keeps s s')
    (hu : s.Listed user) : Keeps s (s'.doAddPlayer user) := by
  unfold AsyncServer.doAddPlayer
  split_ifs
  · exact h
  · refine Keeps.trans ?_ (keeps_populateUserList _)
    refine ⟨h.pc, h.client, fun v hv => ?_⟩
    rcases hv with hv | ⟨tok, hv⟩ | hv
    · exact h.listed v (Or.inl hv)
    · by_cases htok : tok = (s'.users user).sessionToken
      · rw [htok, AList.lookup_insert] at hv
        cases hv
        exact hu
      · exact h.listed v (Or.inr (Or.inl ⟨tok, by rwa [AList.lookup_insert_ne htok] at hv⟩))
    · exact h.listed v (Or.inr (Or.inr hv))

/-- Moving on in `Update` to a position with nothing new to loop over. -/
theorem keeps_update (s : AsyncServer) (pc : UpdatePc)
    (h : ∀ u ∈ pc.remaining, s.Listed u) : Keeps s { s with update := pc } := by
  refine ⟨fun _ => rfl, fun _ => rfl, fun u hu => ?_⟩
  rcases hu with hu | hu | hu | hu
  · exact Or.inl hu
  · exact Or.inr (Or.inl hu)
  · exact Or.inr (Or.inr (Or.inl hu))
  · exact h u hu

/-- A step of `Update` leaves the handshakes alone. -/
theorem keeps_updateStep {s s' : AsyncServer} {timedOut : Bool}
    (h : s.updateStep timedOut = some s') : Keeps s s' := by
  rcases updateStep_cases h with ⟨u, rest, -, hq, rfl⟩ | ⟨user, rest, -, -, h⟩ |
    ⟨u, rest, hpc, -, rfl⟩ | ⟨pc, rfl, hpc⟩
  · have hpop : Keeps s { s with mQueueUserAdd := rest } := by
      refine ⟨fun _ => rfl, fun _ => rfl, fun v hv => ?_⟩
      rcases hv with hv | hv
      · exact Or.inl (by rw [hq]; exact List.mem_cons_of_mem _ hv)
      · exact Or.inr hv
    exact hpop.doAddPlayer (Or.inl (by rw [hq]; exact List.mem_cons_self ..))
  · have hpop : Keeps s { s with mQueueUserRemove := rest } :=
      ⟨fun _ => rfl, fun _ => rfl, fun _ hu => hu⟩
    exact hpop.trans (keeps_doRemovePlayer h)
  · refine (keeps_removePlayer s (s.users u).sessionToken).trans (keeps_update _ _ fun v hv => ?_)
    refine Or.inr (Or.inr (Or.inr ?_))
    change v ∈ s.update.remaining
    rw [hpc]
    exact List.mem_cons_of_mem _ hv
  · exact keeps_update s pc fun v hv => Or.inr (Or.inr (hpc v hv))

/-! ### The invariant -/

structure Inv (s : AsyncServer) : Prop where
  /-- only `EnableUdp` sets the client -/
  client : ∀ u, (s.users u).udpConnectionClient ≠ none ↔ (s.users u).pc = .finished
  /-- the main thread hears of a session by `AddPlayer` -/
  added : ∀ u, s.Listed u → (s.users u).pc ≠ .addPlayer

theorem Keeps.inv {s s' : AsyncServer} (h : Keeps s s') (hs : s.Inv) : s'.Inv := by
  refine ⟨fun u => ?_, fun u hu => ?_⟩
  · rw [h.client, h.pc]
    exact hs.client u
  · rw [h.pc]
    exact hs.added u (h.listed u hu)

theorem inv_init {s : AsyncServer} (h : s.Init) : s.Inv := by
  refine ⟨fun u => ?_, fun u hu => ?_⟩
  · simp [h.pc, h.udpConnectionClient]
  · simp [Listed, h.mQueueUserAdd, h.mSocketUsers, h.mSocketUserList, h.update,
      UpdatePc.remaining] at hu

/-- A handshake step that makes the session known, or moves it on. -/
theorem inv_setUser {s t : AsyncServer} {u : SessionRef} (hs : s.Inv) (ht : t.users = s.users)
    (hl : ∀ v, t.Listed v → v = u ∨ s.Listed v) (f : ConnectingUser → ConnectingUser)
    (hpc : (f (s.users u)).pc ≠ .addPlayer)
    (hclient : (f (s.users u)).udpConnectionClient ≠ none ↔ (f (s.users u)).pc = .finished) :
    (t.setUser u f).Inv := by
  refine ⟨fun v => ?_, fun v hv => ?_⟩
  · by_cases hvu : v = u
    · rw [hvu, setUser_self, ht]
      exact hclient
    · rw [setUser_of_ne t f hvu, ht]
      exact hs.client v
  · by_cases hvu : v = u
    · rw [hvu, setUser_self, ht]
      exact hpc
    · rw [setUser_of_ne t f hvu, ht]
      exact hs.added v ((hl v hv).resolve_left hvu)

theorem inv_connectStep {s s' : AsyncServer} {u : SessionRef} {udpId port : UInt16} (hs : s.Inv)
    (h : s.connectStep u udpId port = some s') : s'.Inv := by
  have hclient := hs.client u
  unfold connectStep at h
  split at h
  · next hpc =>
    cases h
    rw [hpc] at hclient
    refine inv_setUser hs (t := { s with mQueueUserAdd := s.mQueueUserAdd ++ [u] }) rfl ?_ _ nofun ?_
    · intro v hv
      rcases hv with hv | hv
      · rcases List.mem_append.mp hv with hv | hv
        · exact Or.inr (Or.inl hv)
        · exact Or.inl (List.mem_singleton.mp hv)
      · exact Or.inr (Or.inr hv)
    · exact ⟨fun h => absurd (hclient.mp h) nofun, nofun⟩
  · next hpc =>
    rw [hpc] at hclient
    split_ifs at h
    · cases h
      exact hs
    · cases h
      exact inv_setUser hs rfl (fun v hv => Or.inr hv) _ nofun
        ⟨fun h => absurd (hclient.mp h) nofun, nofun⟩
  · next id hpc =>
    rw [hpc] at hclient
    cases h
    exact inv_setUser hs rfl (fun v hv => Or.inr hv) _ nofun
      ⟨fun h => absurd (hclient.mp h) nofun, nofun⟩
  · next id hpc =>
    rw [hpc] at hclient
    cases h
    exact inv_setUser hs (t := { s with mUdpIdMap := s.mUdpIdMap.insert id u }) rfl
      (fun v hv => Or.inr hv) _ nofun ⟨fun h => absurd (hclient.mp h) nofun, nofun⟩
  · cases h
    exact inv_setUser hs rfl (fun v hv => Or.inr hv) _ nofun ⟨fun _ => rfl, fun _ => nofun⟩
  · cases h

theorem inv_step {s s' : AsyncServer} {e : ConnectEvent} (hs : s.Inv) (h : Step s e s') :
    s'.Inv := by
  cases e with
  | connect u udpId port => exact inv_connectStep hs h
  | update timedOut => exact (keeps_updateStep h).inv hs
  | removePlayer user =>
    cases h
    exact (keeps_removePlayer s user).inv hs
  | close u => exact (keeps_close h.2).inv hs

/-! ### The reads -/

/-- The session whose UDP connection a step of `Get_UDP_Send_Queue_Size_All` reads. -/
def readsClient : AsyncServer × ConnectEvent → Option SessionRef
  | (s, .update _) =>
    match s.update with
    | .udpQueueSize (u :: _) => some u
    | _ => none
  | _ => none

/-- `AddPlayer` is done and `EnableUdp` is not. -/
def UnderWay (s : AsyncServer) (u : SessionRef) : Prop :=
  (s.users u).pc ≠ .addPlayer ∧ (s.users u).pc ≠ .finished

instance (s : AsyncServer) (u : SessionRef) : Decidable (s.UnderWay u) :=
  inferInstanceAs (Decidable (_ ∧ _))

theorem readsClient_listed {s : AsyncServer} {e : ConnectEvent} {u : SessionRef}
    (h : readsClient (s, e) = some u) : s.Listed u := by
  unfold readsClient at h
  split at h
  · next heq =>
    cases heq
    split at h
    · next hpc =>
      cases h
      refine Or.inr (Or.inr (Or.inr ?_))
      rw [hpc]
      exact List.mem_cons_self ..
    · cases h
  · cases h

/-- In a run every session that `Get_UDP_Send_Queue_Size_All` reads has its UDP
connection, if and only if no session is read during its handshake. -/
theorem clientsRead_iff_not_underWay (tr : List (AsyncServer × ConnectEvent)) (s : AsyncServer)
    (h : system.Exec tr s) :
    (∀ x ∈ tr, ∀ u ∈ readsClient x, (x.1.users u).udpConnectionClient ≠ none) ↔
      ∀ x ∈ tr, ∀ u ∈ readsClient x, ¬ x.1.UnderWay u := by
  have hinv : ∀ x ∈ tr, x.1.Inv := h.forall_trace Inv (fun _ => inv_init) fun _ _ _ => inv_step
  refine forall₂_congr fun x hx => forall₂_congr fun u hu => ?_
  have hadd := (hinv x hx).added u (readsClient_listed hu)
  rw [(hinv x hx).client u, UnderWay, not_and, not_not]
  exact ⟨fun h _ => h, fun h => h hadd⟩

/-! ### A session that is read in time, and one that is read too early -/

def emptyServer : AsyncServer :=
  ⟨fun _ => ⟨.addPlayer, "A", true, false, 0, none⟩, ∅, ∅, [], [], [], .addLoop⟩

theorem emptyServer_init : emptyServer.Init :=
  ⟨fun _ => rfl, fun _ => rfl, rfl, rfl, rfl, rfl, rfl, rfl⟩

theorem handshake_then_read : ∃ tr s, system.Exec tr s ∧
    (∃ x ∈ tr, readsClient x = some 0) ∧
    ∀ x ∈ tr, ∀ u ∈ readsClient x, (x.1.users u).udpConnectionClient ≠ none := by
  have h0 : system.Exec [] emptyServer := .nil emptyServer_init
  have h1 := (h0.next (.connect 0 5 51000) _ rfl).next (.connect 0 5 51000) _ rfl
  have h2 := (h1.next (.connect 0 5 51000) _ rfl).next (.connect 0 5 51000) _ rfl
  have h3 := (h2.next (.connect 0 5 51000) _ rfl).next (.update false) _ rfl
  have h4 := (h3.next (.update false) _ rfl).next (.update false) _ rfl
  have h5 := (h4.next (.update false) _ rfl).next (.update false) _ rfl
  have h6 := (h5.next (.update false) _ rfl).next (.update false) _ rfl
  have h7 := (h6.next (.update false) _ rfl).next (.update false) _ rfl
  refine ⟨_, _, h7, by decide, (clientsRead_iff_not_underWay _ _ h7).mpr ?_⟩
  decide

/-- `Update` runs through before the handshake that follows `AddPlayer`. -/
theorem read_before_enableUdp : ∃ tr s, system.Exec tr s ∧ s.update = .crashed ∧
    ¬ ∀ x ∈ tr, ∀ u ∈ readsClient x, (x.1.users u).udpConnectionClient ≠ none := by
  have h0 : system.Exec [] emptyServer := .nil emptyServer_init
  have h1 := (h0.next (.connect 0 5 51000) _ rfl).next (.update false) _ rfl
  have h2 := (h1.next (.update false) _ rfl).next (.update false) _ rfl
  have h3 := (h2.next (.update false) _ rfl).next (.update false) _ rfl
  have h4 := (h3.next (.update false) _ rfl).next (.update false) _ rfl
  exact ⟨_, _, h4.next (.update false) _ rfl, rfl, by decide⟩

end AsyncServer

end GameServer
