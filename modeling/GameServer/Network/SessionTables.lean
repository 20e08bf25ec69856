import GameServer.Lib.Lookup
import GameServer.Network.QueueStatistics

/-! The session tables. What they keep they keep statement by statement, with any step of
`Update` between two statements of a handshake; they agree when every handshake runs in
one go. `Update` takes one statement after the other, so that a run may consist of whole
`Update`s or stop within one. -/

namespace GameServer

open Lib

namespace AsyncServer

/-! ### The runs -/

/-- A step of the handshake of `u`, whatever `Get_New_UDP_ID` draws. -/
def Connects (u : SessionRef) (s s' : AsyncServer) : Prop :=
  ∃ udpId port, s.connectStep u udpId port = some s'

/-- `HandleStartConnect_Finished(true)` from its first statement to its last. -/
def Handshake (u : SessionRef) (s s' : AsyncServer) : Prop :=
  (s.users u).pc = .addPlayer ∧ Relation.ReflTransGen (Connects u) s s' ∧
    (s'.users u).pc = .finished

inductive TablesEvent where
  /-- a connection finishes its handshake -/
  | handshake (user : SessionRef)
  /-- the main thread takes the next step of `Update` -/
  | update (timedOut : Bool)
  | removePlayer (user : Token)
  /-- a connected session is closed -/
  | close (user : SessionRef)
  deriving DecidableEq, Repr

def TablesStep (s : AsyncServer) (e : TablesEvent) (s' : AsyncServer) : Prop :=
  match e with
  | .handshake u => Handshake u s s'
  | .update timedOut => s.updateStep timedOut = some s'
  | .removePlayer user => s' = s.removePlayer user
  | .close u => (s.users u).pc = .finished ∧ s.close u = .ok s'

/-- Nobody has connected, and no two sessions have one token. -/
structure TablesInit (s : AsyncServer) : Prop extends Init s where
  distinct : ∀ u v, (s.users u).sessionToken = (s.users v).sessionToken → u = v

def tables : System AsyncServer TablesEvent := ⟨TablesInit, TablesStep⟩

/-- The session is in `m_socket_users`. -/
def Live (s : AsyncServer) (u : SessionRef) : Prop := ∃ t, s.mSocketUsers.lookup t = some u

structure TablesAgree (s : AsyncServer) : Prop where
  mapped : ∀ u, s.Live u → s.mUdpIdMap.lookup (s.users u).udpID = some u
  owned : ∀ i u, s.mUdpIdMap.lookup i = some u →
    (s.users u).udpID = i ∧ (s.Live u ∨ u ∈ s.mQueueUserAdd)
  listed : s.mSocketUserList.Perm (s.mSocketUsers.entries.map Sigma.snd)
  distinct : ∀ u v, s.Live u → s.Live v → (s.users u).udpID = (s.users v).udpID → u = v

/-- Only a session that this step takes out of `m_socket_users` loses its id. -/
def UnmapsRemoved (s : AsyncServer) (_ : TablesEvent) (s' : AsyncServer) : Prop :=
  ∀ i u, s.mUdpIdMap.lookup i = some u →
    s'.mUdpIdMap.lookup i = some u ∨ (s.Live u ∧ ¬ s'.Live u)

/-- The server with the id of `u` in its map. -/
def mapped (s : AsyncServer) (u : SessionRef) (udpId : UInt16) : AsyncServer :=
  { s with mUdpIdMap := s.mUdpIdMap.insert udpId u }

/-! ### What every interleaving keeps -/

/-- The session is in `m_socket_users`, or waits for `Update` to put it there. -/
def Known (s : AsyncServer) (u : SessionRef) : Prop := s.Live u ∨ u ∈ s.mQueueUserAdd

/-- What the tables hold of a session at each statement of its handshake. -/
def Entered (s : AsyncServer) (u : SessionRef) : Prop :=
  match (s.users u).pc with
  | .addPlayer => ¬ s.Known u
  | .getNewUdpId => s.Known u
  | .setUdpId udpId => s.Known u ∧ s.mUdpIdMap.lookup udpId = none
  | .addUdpId udpId =>
    s.Known u ∧ s.mUdpIdMap.lookup udpId = none ∧ (s.users u).udpID = udpId
  | .enableUdp => s.Known u ∧ s.mUdpIdMap.lookup (s.users u).udpID = some u
  | .finished => s.Known u → s.mUdpIdMap.lookup (s.users u).udpID = some u

structure TablesInv (s : AsyncServer) : Prop where
  distinct : ∀ u v, (s.users u).sessionToken = (s.users v).sessionToken → u = v
  entered : ∀ u, s.Entered u
  keyed : ∀ t u, s.mSocketUsers.lookup t = some u → (s.users u).sessionToken = t
  queue : s.mQueueUserAdd.Nodup
  apart : ∀ u ∈ s.mQueueUserAdd, ¬ s.Live u
  owned : ∀ i u, s.mUdpIdMap.lookup i = some u → (s.users u).udpID = i ∧ s.Known u ∧
    ((s.users u).pc = .enableUdp ∨ (s.users u).pc = .finished)
  listed : s.mSocketUserList = s.mSocketUsers.entries.map Sigma.snd

section Entered

variable {s s' : AsyncServer} {u : SessionRef}

/-- A step that keeps what is known of the session, and its id. -/
theorem Entered.keep (h : s.Entered u) (hpc : (s'.users u).pc = (s.users u).pc)
    (hid : (s'.users u).udpID = (s.users u).udpID) (hknown : s'.Known u ↔ s.Known u)
    (hfree : s.UnderWay u → ∀ i, s.mUdpIdMap.lookup i = none → s'.mUdpIdMap.lookup i = none)
    (hmap : ∀ i, s.mUdpIdMap.lookup i = some u → s'.mUdpIdMap.lookup i = some u) :
    s'.Entered u := by
  unfold UnderWay at hfree
  unfold Entered at h ⊢
  rw [hpc, hid]
  cases hc : (s.users u).pc with
  | addPlayer =>
    rw [hc] at h
    exact fun hu => h (hknown.mp hu)
  | getNewUdpId =>
    rw [hc] at h
    exact hknown.mpr h
  | setUdpId udpId =>
    rw [hc] at h hfree
    exact ⟨hknown.mpr h.1, hfree ⟨nofun, nofun⟩ _ h.2⟩
  | addUdpId udpId =>
    rw [hc] at h hfree
    exact ⟨hknown.mpr h.1, hfree ⟨nofun, nofun⟩ _ h.2.1, h.2.2⟩
  | enableUdp =>
    rw [hc] at h
    exact ⟨hknown.mpr h.1, hmap _ h.2⟩
  | finished =>
    rw [hc] at h
    exact fun hu => hmap _ (h (hknown.mp hu))

/-- A session whose handshake is under way is known. -/
theorem TablesInv.known (hs : s.TablesInv) (hu : s.UnderWay u) : s.Known u := by
  have h := hs.entered u
  unfold Entered at h
  split at h
  · next hpc => exact absurd hpc hu.1
  · exact h
  · exact h.1
  · exact h.1
  · exact h.1
  · next hpc => exact absurd hpc hu.2

theorem TablesInv.added (hs : s.TablesInv) (hu : s.Known u) : (s.users u).pc ≠ .addPlayer := by
  intro hpc
  have h := hs.entered u
  unfold Entered at h
  rw [hpc] at h
  exact h hu

theorem TablesInv.mapped (hs : s.TablesInv) (hpc : (s.users u).pc = .finished)
    (hu : s.Known u) : s.mUdpIdMap.lookup (s.users u).udpID = some u := by
  have h := hs.entered u
  unfold Entered at h
  rw [hpc] at h
  exact h hu

/-- Between handshakes the tables agree. -/
theorem TablesInv.agree (hs : s.TablesInv) (hidle : ∀ u, ¬ s.UnderWay u) : s.TablesAgree := by
  have hmapped : ∀ u, s.Live u → s.mUdpIdMap.lookup (s.users u).udpID = some u := fun u hu =>
    hs.mapped (by_contra fun hpc => hidle u ⟨hs.added (.inl hu), hpc⟩) (.inl hu)
  refine ⟨hmapped, fun i u hi => ?_, ?_, fun u v hu hv heq => ?_⟩
  · exact ⟨(hs.owned i u hi).1, (hs.owned i u hi).2.1⟩
  · rw [hs.listed]
  · have hmap := hmapped u hu
    rw [heq, hmapped v hv] at hmap
    exact (Option.some.inj hmap).symm

end Entered

theorem tablesInv_init {s : AsyncServer} (h : s.TablesInit) : s.TablesInv := by
  have hknown : ∀ u, ¬ s.Known u := by
    rintro u (⟨t, ht⟩ | hu)
    · rw [h.mSocketUsers] at ht
      cases ht
    · rw [h.mQueueUserAdd] at hu
      cases hu
  refine ⟨h.distinct, fun u => ?_, fun t u htu => absurd (.inl ⟨t, htu⟩) (hknown u), ?_,
    fun u hu => absurd (.inr hu) (hknown u), fun i u hi => ?_, ?_⟩
  · unfold Entered
    rw [h.pc]
    exact hknown u
  · rw [h.mQueueUserAdd]
    exact List.nodup_nil
  · rw [h.mUdpIdMap] at hi
    cases hi
  · rw [h.mSocketUserList, h.mSocketUsers]
    rfl

/-! ### A statement of a handshake -/

section Connect

variable {s s' t : AsyncServer} {u : SessionRef} {udpId port : UInt16}

/-- A statement of the handshake of `u`, the only one under way: the other sessions keep
their places. -/
theorem tablesInv_setUser {f : ConnectingUser → ConnectingUser} (hs : s.TablesInv)
    (hone : ∀ v, s.UnderWay v → v = u) (husers : t.users = s.users)
    (htable : t.mSocketUsers = s.mSocketUsers) (hlist : t.mSocketUserList = s.mSocketUserList)
    (htoken : ∀ x, (f x).sessionToken = x.sessionToken) (hqueue : t.mQueueUserAdd.Nodup)
    (hmem : ∀ v, v ≠ u → (v ∈ t.mQueueUserAdd ↔ v ∈ s.mQueueUserAdd))
    (hapart : u ∈ t.mQueueUserAdd → ¬ s.Live u)
    (hmap : ∀ i v, v ≠ u → (t.mUdpIdMap.lookup i = some v ↔ s.mUdpIdMap.lookup i = some v))
    (howned : ∀ i, t.mUdpIdMap.lookup i = some u → (f (s.users u)).udpID = i ∧ t.Known u ∧
      ((f (s.users u)).pc = .enableUdp ∨ (f (s.users u)).pc = .finished))
    (hself : (t.setUser u f).Entered u) : (t.setUser u f).TablesInv := by
  have hlive : ∀ v, t.Live v ↔ s.Live v := by
    intro v
    rw [Live, htable]
    rfl
  have hknown : ∀ v, v ≠ u → (t.Known v ↔ s.Known v) := fun v hv =>
    or_congr (hlive v) (hmem v hv)
  have hsession : ∀ v, ((t.setUser u f).users v).sessionToken = (s.users v).sessionToken := by
    intro v
    rw [setUser_field ConnectingUser.sessionToken t u f htoken, husers]
  have hother : ∀ v, v ≠ u → (t.setUser u f).users v = s.users v := by
    intro v hv
    rw [setUser_of_ne t f hv, husers]
  refine ⟨fun v w heq => ?_, fun v => ?_, fun tok v ht => ?_, hqueue, fun v hv hdead => ?_,
    fun i v hi => ?_, ?_⟩
  · rw [hsession, hsession] at heq
    exact hs.distinct v w heq
  · rcases eq_or_ne v u with rfl | hv
    · exact hself
    · refine (hs.entered v).keep (by rw [hother v hv]) (by rw [hother v hv]) (hknown v hv)
        (fun hway => absurd (hone v hway) hv) fun i hi => (hmap i v hv).mpr hi
  · change t.mSocketUsers.lookup tok = some v at ht
    rw [htable] at ht
    rw [hsession]
    exact hs.keyed tok v ht
  · have hold := (hlive v).mp hdead
    rcases eq_or_ne v u with rfl | hvu
    · exact hapart hv hold
    · exact hs.apart v ((hmem v hvu).mp hv) hold
  · rcases eq_or_ne v u with rfl | hv
    · rw [setUser_self, husers]
      exact howned i hi
    · rw [hother v hv]
      obtain ⟨hid, hold, hpc⟩ := hs.owned i v ((hmap i v hv).mp hi)
      exact ⟨hid, (hknown v hv).mpr hold, hpc⟩
  · change t.mSocketUserList = t.mSocketUsers.entries.map Sigma.snd
    rw [hlist, htable]
    exact hs.listed

/-- Before `Add_UDP_ID` no id belongs to the session. -/
theorem TablesInv.unmapped (hs : s.TablesInv) (hpc : (s.users u).pc ≠ .enableUdp)
    (hdone : (s.users u).pc ≠ .finished) (i : UInt16) : s.mUdpIdMap.lookup i ≠ some u := by
  intro hi
  rcases (hs.owned i u hi).2.2 with h | h
  · exact hpc h
  · exact hdone h

theorem tablesInv_connectStep (hs : s.TablesInv) (hone : ∀ v, s.UnderWay v → v = u)
    (h : s.connectStep u udpId port = some s') : s'.TablesInv := by
  have hu := hs.entered u
  have hunmapped := hs.unmapped (u := u)
  unfold Entered at hu
  unfold connectStep at h
  cases hpc : (s.users u).pc with
  | addPlayer =>
    rw [hpc] at h hu hunmapped
    cases h
    obtain ⟨hdead, hnew⟩ := not_or.mp hu
    refine tablesInv_setUser hs hone rfl rfl rfl (fun _ => rfl) ?_ (fun v hv => ?_)
      (fun _ => hdead) (fun _ _ _ => Iff.rfl) (fun i hi => absurd hi (hunmapped nofun nofun i)) ?_
    · exact List.nodup_append.mpr ⟨hs.queue, List.nodup_singleton u, fun v hv w hw => by
        rintro rfl
        rw [List.mem_singleton.mp hw] at hv
        exact hnew hv⟩
    · simp [hv]
    · unfold Entered
      rw [setUser_self]
      exact .inr (List.mem_append_right _ List.mem_cons_self)
  | getNewUdpId =>
    simp only [hpc] at h hu hunmapped
    split_ifs at h with hused
    · cases h
      exact hs
    · cases h
      refine tablesInv_setUser hs hone rfl rfl rfl (fun _ => rfl) hs.queue (fun _ _ => Iff.rfl)
        (hs.apart u) (fun _ _ _ => Iff.rfl) (fun i hi => absurd hi (hunmapped nofun nofun i)) ?_
      have hfree : s.mUdpIdMap.lookup udpId = none := by simpa [hasUdpId] using hused
      unfold Entered
      rw [setUser_self]
      exact ⟨hu, hfree⟩
  | setUdpId id =>
    rw [hpc] at h hu hunmapped
    cases h
    refine tablesInv_setUser hs hone rfl rfl rfl (fun _ => rfl) hs.queue (fun _ _ => Iff.rfl)
      (hs.apart u) (fun _ _ _ => Iff.rfl) (fun i hi => absurd hi (hunmapped nofun nofun i)) ?_
    unfold Entered
    rw [setUser_self]
    exact ⟨hu.1, hu.2, rfl⟩
  | addUdpId id =>
    rw [hpc] at h hu hunmapped
    cases h
    obtain ⟨hknown, hfree, rfl⟩ := hu
    refine tablesInv_setUser (t := s.mapped u (s.users u).udpID) hs hone rfl rfl rfl
      (fun _ => rfl) hs.queue (fun _ _ => Iff.rfl) (hs.apart u) (fun i v hv => ?_)
      (fun i hi => ?_) ?_
    · refine (lookup_insert_eq_some hfree).trans ⟨fun h => ?_, .inr⟩
      exact h.resolve_left fun h => hv h.2
    · rcases (lookup_insert_eq_some hfree).mp hi with ⟨rfl, -⟩ | hi
      · exact ⟨rfl, hknown, .inl rfl⟩
      · exact absurd hi (hunmapped nofun nofun i)
    · unfold Entered
      rw [setUser_self]
      exact ⟨hknown, AList.lookup_insert _⟩
  | enableUdp =>
    rw [hpc] at h hu
    cases h
    refine tablesInv_setUser hs hone rfl rfl rfl (fun _ => rfl) hs.queue (fun _ _ => Iff.rfl)
      (hs.apart u) (fun _ _ _ => Iff.rfl) (fun i hi => ?_) ?_
    · exact ⟨(hs.owned i u hi).1, (hs.owned i u hi).2.1, .inr rfl⟩
    · unfold Entered
      rw [setUser_self]
      exact fun _ => hu.2
  | finished =>
    rw [hpc] at h
    cases h

/-- No entry of `m_udp_id_map` is lost. -/
theorem connectStep_maps (hs : s.TablesInv) (h : s.connectStep u udpId port = some s') {i : UInt16}
    {v : SessionRef} (hi : s.mUdpIdMap.lookup i = some v) : s'.mUdpIdMap.lookup i = some v := by
  have hu := hs.entered u
  unfold Entered at hu
  unfold connectStep at h
  cases hpc : (s.users u).pc with
  | getNewUdpId =>
    simp only [hpc] at h
    split_ifs at h <;> cases h <;> exact hi
  | addUdpId id =>
    rw [hpc] at h hu
    cases h
    exact (lookup_insert_eq_some hu.2.1).mpr (.inr hi)
  | addPlayer | setUdpId id | enableUdp =>
    rw [hpc] at h
    cases h
    exact hi
  | finished =>
    rw [hpc] at h
    cases h

/-- What a statement of the handshake of `u` leaves alone. -/
structure ConnectFrame (s : AsyncServer) (u : SessionRef) (s' : AsyncServer) : Prop where
  users : ∀ v, v ≠ u → s'.users v = s.users v
  connected : (s'.users u).connected = (s.users u).connected
  mSocketUsers : s'.mSocketUsers = s.mSocketUsers
  mQueueUserAdd : s.mQueueUserAdd <+: s'.mQueueUserAdd
  update : s'.update = s.update

theorem connectStep_frame (h : s.connectStep u udpId port = some s') : ConnectFrame s u s' := by
  unfold connectStep at h
  split at h
  · cases h
    exact ⟨fun _ hv => setUser_of_ne _ _ hv, by rw [setUser_self], rfl, List.prefix_append _ _, rfl⟩
  · split_ifs at h
    · cases h
      exact ⟨fun _ _ => rfl, rfl, rfl, List.prefix_refl _, rfl⟩
    · cases h
      exact ⟨fun _ hv => setUser_of_ne _ _ hv, by rw [setUser_self], rfl, List.prefix_refl _, rfl⟩
  · cases h
    exact ⟨fun _ hv => setUser_of_ne _ _ hv, by rw [setUser_self], rfl, List.prefix_refl _, rfl⟩
  · cases h
    exact ⟨fun _ hv => setUser_of_ne _ _ hv, by rw [setUser_self], rfl, List.prefix_refl _, rfl⟩
  · cases h
    exact ⟨fun _ hv => setUser_of_ne _ _ hv, by rw [setUser_self], rfl, List.prefix_refl _, rfl⟩
  · cases h

theorem ConnectFrame.known (h : ConnectFrame s u s') {v : SessionRef} (hv : s.Known v) :
    s'.Known v := by
  refine hv.imp (fun hlive => ?_) fun hq => h.mQueueUserAdd.subset hq
  rw [Live, h.mSocketUsers]
  exact hlive

theorem underWay_connectStep (h : s.connectStep u udpId port = some s')
    (hone : ∀ v, s.UnderWay v → v = u) (v : SessionRef) (hv : s'.UnderWay v) : v = u := by
  by_contra hne
  refine hne (hone v ?_)
  rwa [UnderWay, (connectStep_frame h).users v hne] at hv

end Connect

/-! ### A step of `Update` -/

theorem lookup_token {s : AsyncServer} {u : SessionRef} {rest : List SessionRef}
    (hs : s.TablesInv) (hq : s.mQueueUserAdd = u :: rest) :
    s.mSocketUsers.lookup (s.users u).sessionToken = none := by
  cases hlook : s.mSocketUsers.lookup (s.users u).sessionToken with
  | none => rfl
  | some v =>
    have heq := hs.distinct v u (hs.keyed _ v hlook)
    rw [heq] at hlook
    exact absurd ⟨_, hlook⟩ (hs.apart u (by rw [hq]; exact List.mem_cons_self))

theorem doAddPlayer_first {s : AsyncServer} {u : SessionRef} {rest : List SessionRef}
    (hs : s.TablesInv) (hq : s.mQueueUserAdd = u :: rest) :
    { s with mQueueUserAdd := rest }.doAddPlayer u = { s with mQueueUserAdd := rest }.added u := by
  rw [doAddPlayer_eq]
  exact if_neg (by simp [hasPlayerSession, lookup_token hs hq])

/-- The first session that waits goes from the queue to the table. -/
theorem known_added {s : AsyncServer} {u : SessionRef} {rest : List SessionRef}
    (hs : s.TablesInv) (hq : s.mQueueUserAdd = u :: rest) (v : SessionRef) :
    ({ s with mQueueUserAdd := rest }.added u).Known v ↔ s.Known v := by
  have hnone := lookup_token hs hq
  constructor
  · rintro (⟨t, ht⟩ | hv)
    · rcases (lookup_insert_eq_some hnone).mp ht with ⟨-, rfl⟩ | ht
      · exact .inr (by rw [hq]; exact List.mem_cons_self)
      · exact .inl ⟨t, ht⟩
    · exact .inr (by rw [hq]; exact List.mem_cons_of_mem _ hv)
  · rintro (⟨t, ht⟩ | hv)
    · exact .inl ⟨t, (lookup_insert_eq_some hnone).mpr (.inr ht)⟩
    · rw [hq] at hv
      rcases List.mem_cons.mp hv with rfl | hv
      · exact .inl ⟨_, AList.lookup_insert _⟩
      · exact .inr hv

theorem tablesInv_added {s : AsyncServer} {u : SessionRef} {rest : List SessionRef}
    (hs : s.TablesInv) (hq : s.mQueueUserAdd = u :: rest) :
    ({ s with mQueueUserAdd := rest }.added u).TablesInv := by
  have hnone := lookup_token hs hq
  have hknown := known_added hs hq
  have hqueue := hs.queue
  rw [hq] at hqueue
  obtain ⟨hnot, hrest⟩ := List.nodup_cons.mp hqueue
  refine ⟨hs.distinct, fun v => ?_, fun t v ht => ?_, hrest, ?_, fun i v hi => ?_, rfl⟩
  · exact (hs.entered v).keep rfl rfl (hknown v) (fun _ _ hi => hi) fun _ hi => hi
  · rcases (lookup_insert_eq_some hnone).mp ht with ⟨ht, hv⟩ | hold
    · rw [ht, hv]
      rfl
    · exact hs.keyed t v hold
  · rintro v hv ⟨t, ht⟩
    rcases (lookup_insert_eq_some hnone).mp ht with ⟨-, rfl⟩ | hold
    · exact hnot hv
    · exact hs.apart v (by rw [hq]; exact List.mem_cons_of_mem _ hv) ⟨t, hold⟩
  · obtain ⟨hid, hold, hpc⟩ := hs.owned i v hi
    exact ⟨hid, (hknown v).mpr hold, hpc⟩

/-! ### A removal -/

/-- The tables are the same, and so is what they hold of the sessions. -/
structure SameTables (s s' : AsyncServer) : Prop where
  pc : ∀ u, (s'.users u).pc = (s.users u).pc
  sessionToken : ∀ u, (s'.users u).sessionToken = (s.users u).sessionToken
  udpID : ∀ u, (s'.users u).udpID = (s.users u).udpID
  mSocketUsers : s'.mSocketUsers = s.mSocketUsers
  mUdpIdMap : s'.mUdpIdMap = s.mUdpIdMap
  mSocketUserList : s'.mSocketUserList = s.mSocketUserList
  mQueueUserAdd : s'.mQueueUserAdd = s.mQueueUserAdd

theorem SameTables.refl (s : AsyncServer) : SameTables s s :=
  ⟨fun _ => rfl, fun _ => rfl, fun _ => rfl, rfl, rfl, rfl, rfl⟩

theorem SameTables.live {s s' : AsyncServer} (h : SameTables s s') (u : SessionRef) :
    s'.Live u ↔ s.Live u := by
  rw [Live, h.mSocketUsers]
  rfl

theorem SameTables.known {s s' : AsyncServer} (h : SameTables s s') (u : SessionRef) :
    s'.Known u ↔ s.Known u := by
  rw [Known, h.live, h.mQueueUserAdd]
  rfl

theorem SameTables.tablesInv {s s' : AsyncServer} (h : SameTables s s') (hs : s.TablesInv) :
    s'.TablesInv := by
  refine ⟨fun u v huv => ?_, fun u => ?_, fun t u ht => ?_, ?_, fun u hu hlive => ?_,
    fun i u hi => ?_, ?_⟩
  · rw [h.sessionToken, h.sessionToken] at huv
    exact hs.distinct u v huv
  · refine (hs.entered u).keep (h.pc u) (h.udpID u) (h.known u) (fun _ i hi => ?_) fun i hi => ?_
    · rwa [h.mUdpIdMap]
    · rwa [h.mUdpIdMap]
  · rw [h.mSocketUsers] at ht
    rw [h.sessionToken]
    exact hs.keyed t u ht
  · rw [h.mQueueUserAdd]
    exact hs.queue
  · rw [h.mQueueUserAdd] at hu
    exact hs.apart u hu ((h.live u).mp hlive)
  · rw [h.mUdpIdMap] at hi
    rw [h.udpID, h.known, h.pc]
    exact hs.owned i u hi
  · rw [h.mSocketUserList, h.mSocketUsers]
    exact hs.listed

/-- `Connected` and `UdpEnabled` are in no table. -/
theorem sameTables_flags (s : AsyncServer) (u : SessionRef) :
    SameTables s (s.setUser u fun x => { x with connected := false, udpEnabled := false }) where
  pc := setUser_field ConnectingUser.pc s u _ fun _ => rfl
  sessionToken := setUser_field ConnectingUser.sessionToken s u _ fun _ => rfl
  udpID := setUser_field ConnectingUser.udpID s u _ fun _ => rfl
  mSocketUsers := rfl
  mUdpIdMap := rfl
  mSocketUserList := rfl
  mQueueUserAdd := rfl

theorem sameTables_close {s s' : AsyncServer} {u : SessionRef} (h : s.close u = .ok s') :
    SameTables s s' := by
  rcases close_ok h with ⟨-, rfl⟩ | ⟨-, rfl⟩
  · exact .refl _
  · exact { sameTables_flags s u with }

theorem not_live_erased {s : AsyncServer} {user : Token} {u : SessionRef} (hs : s.TablesInv)
    (hu : s.mSocketUsers.lookup user = some u) (udpId : UInt16) :
    ¬ (s.erased user udpId).Live u := by
  rintro ⟨t, ht⟩
  obtain ⟨hne, ht⟩ := lookup_erase_eq_some.mp ht
  exact hne ((hs.keyed t u ht).symm.trans (hs.keyed user u hu))

/-- The removed session is known no more, and the others are as before. -/
theorem known_erased {s : AsyncServer} {user : Token} {u : SessionRef} (hs : s.TablesInv)
    (hu : s.mSocketUsers.lookup user = some u) (udpId : UInt16) (v : SessionRef) :
    (s.erased user udpId).Known v ↔ s.Known v ∧ v ≠ u := by
  have hgone := not_live_erased hs hu udpId
  constructor
  · rintro (⟨t, ht⟩ | hv)
    · refine ⟨.inl ⟨t, (lookup_erase_eq_some.mp ht).2⟩, ?_⟩
      rintro rfl
      exact hgone ⟨t, ht⟩
    · refine ⟨.inr hv, ?_⟩
      rintro rfl
      exact hs.apart v hv ⟨user, hu⟩
  · rintro ⟨⟨t, ht⟩ | hv, hne⟩
    · refine .inl ⟨t, lookup_erase_eq_some.mpr ⟨?_, ht⟩⟩
      rintro rfl
      rw [hu] at ht
      exact hne (Option.some.inj ht).symm
    · exact .inr hv

theorem tablesInv_erased {s : AsyncServer} {user : Token} {u : SessionRef} (hs : s.TablesInv)
    (hu : s.mSocketUsers.lookup user = some u) (hpc : (s.users u).pc = .finished) :
    (s.erased user (s.users u).udpID).TablesInv := by
  have hknown := known_erased hs hu (s.users u).udpID
  have hmine := hs.mapped hpc (.inl ⟨user, hu⟩)
  have hother : ∀ i v, v ≠ u → s.mUdpIdMap.lookup i = some v → i ≠ (s.users u).udpID := by
    rintro i v hne hi rfl
    rw [hmine] at hi
    exact hne (Option.some.inj hi).symm
  refine ⟨hs.distinct, fun v => ?_, fun t v ht => hs.keyed t v (lookup_erase_eq_some.mp ht).2,
    hs.queue, fun v hv hdead => ?_, fun i v hi => ?_, rfl⟩
  · rcases eq_or_ne v u with rfl | hne
    · have hgone : ¬ (s.erased user (s.users v).udpID).Known v := fun h => ((hknown v).mp h).2 rfl
      unfold Entered
      rw [show ((s.erased user (s.users v).udpID).users v).pc = .finished from hpc]
      exact fun h => absurd h hgone
    · refine (hs.entered v).keep rfl rfl ((hknown v).trans (and_iff_left hne)) (fun _ i hi => ?_)
        fun i hi => lookup_erase_eq_some.mpr ⟨hother i v hne hi, hi⟩
      cases hi' : (s.mUdpIdMap.erase (s.users u).udpID).lookup i with
      | none => exact hi'
      | some w =>
        rw [(lookup_erase_eq_some.mp hi').2] at hi
        cases hi
  · obtain ⟨t, ht⟩ := hdead
    exact hs.apart v hv ⟨t, (lookup_erase_eq_some.mp ht).2⟩
  · obtain ⟨hne, hi⟩ := lookup_erase_eq_some.mp hi
    obtain ⟨hid, hold, hpc⟩ := hs.owned i v hi
    refine ⟨hid, (hknown v).mpr ⟨hold, ?_⟩, hpc⟩
    rintro rfl
    exact hne hid.symm

/-- A step of `Update` adds the first session that waits, removes one that it could close,
or leaves the tables as they are. -/
theorem updateStep_tables {s s' : AsyncServer} {timedOut : Bool} (hs : s.TablesInv)
    (h : s.updateStep timedOut = some s') :
    (∃ u rest, s.mQueueUserAdd = u :: rest ∧ s' = { s with mQueueUserAdd := rest }.added u) ∨
    (∃ user u t, s.mSocketUsers.lookup user = some u ∧
      ((s.users u).connected = true → (s.users u).udpConnectionClient ≠ none) ∧ SameTables s t ∧
      s' = t.erased user (t.users u).udpID) ∨ SameTables s s' := by
  have hsame := SameTables.refl s
  rcases updateStep_cases h with ⟨u, rest, -, hq, rfl⟩ | ⟨user, rest, -, -, h⟩ |
    ⟨u, rest, -, -, rfl⟩ | ⟨pc, rfl, -⟩
  · exact Or.inl ⟨u, rest, hq, doAddPlayer_first hs hq⟩
  · have hpop : SameTables s { s with mQueueUserRemove := rest } := { hsame with }
    rcases doRemovePlayer_ok h with ⟨-, rfl⟩ | ⟨u, t, hu, hclose, rfl⟩
    · exact Or.inr (Or.inr hpop)
    · have ht := sameTables_close hclose
      have hclient := client_of_close hclose
      refine Or.inr (Or.inl ⟨user, u, t, hu, hclient, { ht with }, ?_⟩)
      rw [ht.udpID]
  · exact Or.inr (Or.inr { hsame with })
  · exact Or.inr (Or.inr { hsame with })

/-- The sessions that `Update` can close have come to the end of their handshakes. -/
def ClosesFinished (s : AsyncServer) : Prop :=
  ∀ u, s.Live u → ((s.users u).connected = true → (s.users u).udpConnectionClient ≠ none) →
    (s.users u).pc = .finished

theorem tablesInv_updateStep {s s' : AsyncServer} {timedOut : Bool} (hs : s.TablesInv)
    (hfinished : s.ClosesFinished) (h : s.updateStep timedOut = some s') : s'.TablesInv := by
  rcases updateStep_tables hs h with ⟨u, rest, hq, rfl⟩ | ⟨user, u, t, hu, hclient, ht, rfl⟩ | hsame
  · exact tablesInv_added hs hq
  · have hpc := hfinished u ⟨user, hu⟩ hclient
    rw [← ht.mSocketUsers] at hu
    rw [← ht.pc] at hpc
    exact tablesInv_erased (ht.tablesInv hs) hu hpc
  · exact hsame.tablesInv hs

theorem tablesInv_removePlayer {s : AsyncServer} (hs : s.TablesInv) (user : Token) :
    (s.removePlayer user).TablesInv :=
  SameTables.tablesInv { SameTables.refl s with } hs

/-! ### Handshakes in one go -/

/-- No handshake is under way, and every session that is known has its id. -/
structure HandshakesDone (s : AsyncServer) : Prop where
  tables : s.TablesInv
  idle : ∀ u, ¬ s.UnderWay u

theorem HandshakesDone.closesFinished {s : AsyncServer} (hs : s.HandshakesDone) : s.ClosesFinished :=
  fun u hu _ => by_contra fun hpc => hs.idle u ⟨hs.tables.added (.inl hu), hpc⟩

/-- The statements of one handshake, one after the other. -/
theorem connects_keep {s s' : AsyncServer} {u : SessionRef} (hs : s.TablesInv)
    (hone : ∀ v, s.UnderWay v → v = u) (h : Relation.ReflTransGen (Connects u) s s') :
    s'.TablesInv ∧ (∀ v, s'.UnderWay v → v = u) ∧
      ∀ i v, s.mUdpIdMap.lookup i = some v → s'.mUdpIdMap.lookup i = some v := by
  induction h with
  | refl => exact ⟨hs, hone, fun _ _ hi => hi⟩
  | tail _ hstep ih =>
    obtain ⟨hs, hone, hmap⟩ := ih
    obtain ⟨udpId, port, hstep⟩ := hstep
    exact ⟨tablesInv_connectStep hs hone hstep, underWay_connectStep hstep hone,
      fun i v hi => connectStep_maps hs hstep (hmap i v hi)⟩

theorem handshake_keeps {s s' : AsyncServer} {u : SessionRef} (hs : s.HandshakesDone)
    (h : Handshake u s s') : s'.HandshakesDone ∧
      ∀ i v, s.mUdpIdMap.lookup i = some v → s'.mUdpIdMap.lookup i = some v := by
  obtain ⟨-, hsteps, hdone⟩ := h
  obtain ⟨htables, hone, hmap⟩ :=
    connects_keep hs.tables (fun v hv => absurd hv (hs.idle v)) hsteps
  refine ⟨⟨htables, fun v hv => ?_⟩, hmap⟩
  rw [hone v hv] at hv
  exact hv.2 hdone

theorem Keeps.idle {s s' : AsyncServer} (h : Keeps s s') (hs : ∀ u, ¬ s.UnderWay u)
    (u : SessionRef) : ¬ s'.UnderWay u := by
  rw [UnderWay, h.pc]
  exact hs u

theorem handshakesDone_step {s s' : AsyncServer} {e : TablesEvent} (hs : s.HandshakesDone)
    (h : TablesStep s e s') : s'.HandshakesDone := by
  cases e with
  | handshake u => exact (handshake_keeps hs h).1
  | update timedOut =>
    exact ⟨tablesInv_updateStep hs.tables hs.closesFinished h, (keeps_updateStep h).idle hs.idle⟩
  | removePlayer user =>
    cases h
    exact ⟨tablesInv_removePlayer hs.tables user, hs.idle⟩
  | close u => exact ⟨(sameTables_close h.2).tablesInv hs.tables, (keeps_close h.2).idle hs.idle⟩

theorem unmapsRemoved_step {s s' : AsyncServer} {e : TablesEvent} (hs : s.HandshakesDone)
    (h : TablesStep s e s') : UnmapsRemoved s e s' := by
  intro i v hi
  cases e with
  | handshake u => exact .inl ((handshake_keeps hs h).2 i v hi)
  | update timedOut =>
    rcases updateStep_tables hs.tables h with ⟨u, rest, hq, rfl⟩ |
      ⟨user, u, t, hu, hclient, ht, rfl⟩ | hsame
    · exact Or.inl hi
    · have hpc := hs.closesFinished u ⟨user, hu⟩ hclient
      rw [← ht.mUdpIdMap] at hi
      rw [← ht.mSocketUsers] at hu
      rw [← ht.pc] at hpc
      have ht' := ht.tablesInv hs.tables
      by_cases hid : i = (t.users u).udpID
      · rw [hid, ht'.mapped hpc (Or.inl ⟨user, hu⟩)] at hi
        obtain rfl := Option.some.inj hi
        exact Or.inr ⟨(ht.live u).mp ⟨user, hu⟩, not_live_erased ht' hu _⟩
      · exact Or.inl (lookup_erase_eq_some.mpr ⟨hid, hi⟩)
    · rw [hsame.mUdpIdMap]
      exact Or.inl hi
  | removePlayer user =>
    cases h
    exact Or.inl hi
  | close u =>
    rw [(sameTables_close h.2).mUdpIdMap]
    exact Or.inl hi

theorem handshakesDone_init {s : AsyncServer} (h : s.TablesInit) : s.HandshakesDone :=
  ⟨tablesInv_init h, fun u hu => hu.1 (h.pc u)⟩

/-- The three tables agree in every state of a run, and a removal takes the id of the
removed session alone. -/
theorem tables_agree (tr : List (AsyncServer × TablesEvent)) (s : AsyncServer)
    (h : tables.Exec tr s) :
    (∀ x ∈ visited tr s, x.TablesAgree) ∧ ∀ x ∈ steps tr s, UnmapsRemoved x.1 x.2.1 x.2.2 := by
  refine (h.safe_steps_iff HandshakesDone TablesAgree UnmapsRemoved (fun _ _ _ => True)
    (fun _ => handshakesDone_init) (fun _ hs => hs.tables.agree hs.idle)
    (fun _ _ _ hs _ => handshakesDone_step hs)
    fun _ _ _ hs hst => iff_true_intro (unmapsRemoved_step hs hst)).mpr fun _ _ => trivial

/-! ### Two sessions, of which one leaves -/

/-- Session `u` has the token of `u` letters. -/
def letters (u : SessionRef) : Token := String.ofList (List.replicate u 'A')

def lettersServer : AsyncServer :=
  ⟨fun u => ⟨.addPlayer, letters u, true, false, 0, none⟩, ∅, ∅, [], [], [], .addLoop⟩

theorem lettersServer_init : lettersServer.TablesInit := by
  refine ⟨⟨fun _ => rfl, fun _ => rfl, rfl, rfl, rfl, rfl, rfl, rfl⟩, fun u v h => ?_⟩
  have hlist := congrArg String.toList h
  rw [show (lettersServer.users u).sessionToken = String.ofList (List.replicate u 'A') from rfl,
    show (lettersServer.users v).sessionToken = String.ofList (List.replicate v 'A') from rfl,
    String.toList_ofList, String.toList_ofList] at hlist
  simpa using congrArg List.length hlist

theorem two_sessions_agree : ∃ tr s, tables.Exec tr s ∧
    s.mUdpIdMap.lookup 5 = none ∧ s.mUdpIdMap.lookup 6 = some 1 ∧ s.mSocketUserList = [1] ∧
    ∀ x ∈ visited tr s, x.TablesAgree := by
  have h0 : tables.Exec [] lettersServer := .nil lettersServer_init
  have h1 := h0.next (.handshake 0) _ ⟨rfl, .head ⟨5, 51000, rfl⟩ (.head ⟨5, 51000, rfl⟩
    (.head ⟨5, 51000, rfl⟩ (.head ⟨5, 51000, rfl⟩ (.single ⟨5, 51000, rfl⟩)))), rfl⟩
  have h2 := h1.next (.handshake 1) _ ⟨rfl, .head ⟨6, 51001, rfl⟩ (.head ⟨6, 51001, rfl⟩
    (.head ⟨6, 51001, rfl⟩ (.head ⟨6, 51001, rfl⟩ (.single ⟨6, 51001, rfl⟩)))), rfl⟩
  have h3 := (h2.next (.removePlayer (letters 0)) _ rfl).next (.update false) _ rfl
  have h4 := (h3.next (.update false) _ rfl).next (.update false) _ rfl
  have h5 := h4.next (.update false) _ rfl
  exact ⟨_, _, h5, rfl, rfl, rfl, (tables_agree _ _ h5).1⟩

end AsyncServer

end GameServer
