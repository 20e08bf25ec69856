import GameServer.Network.Receive
import GameServer.Network.RemovalQueue

/-! The length reads of the TCP sessions, beside the tables that the sessions are in.
`handle_read` starts the next read or asks for the removal of its session, except after
an error of the length read other than 10054, which it only logs. -/

namespace GameServer

open Lib

/-- The length read of a session. -/
inductive Reader where
  /-- `HandleStartConnect_Finished` has not called `Start_Read` yet -/
  | unstarted
  | pending
  /-- `handle_read` is called -/
  | handling (error : Option ℕ) (lengthBuff : UInt8 × UInt8)
  /-- `handle_read` has returned and not called `Start_Read` -/
  | ended
  deriving DecidableEq, Repr

/-- A length read is pending or in progress. -/
def Reader.reads : Reader → Bool
  | .pending | .handling _ _ => true
  | .unstarted | .ended => false

/-- What the call of `handle_read` leaves behind. -/
def ReadOutcome.reader : ReadOutcome → Reader
  | .delivered _ => .pending
  | .closed | .stopped | .removed => .ended

/-- The sessions of a server and their readers. -/
structure ReadingServer where
  server : AsyncServer
  reader : SessionRef → Reader
  /-- a call of `Close` has cleared `Connected` and not called `RemovePlayer` yet -/
  closing : SessionRef → Bool
  /-- the tokens that `RemovePlayer` was called with so far; read by proofs only -/
  removals : List Token

namespace AsyncServer

/-- What `handle_read` does to the session at its end. A delivered frame goes to the
command queues, which the tables do not depend on. -/
def finishRead (s : AsyncServer) (u : SessionRef) : ReadOutcome → Exec AsyncServer
  | .closed => s.close u
  | .removed => .ok (s.removePlayer (s.users u).sessionToken)
  | .stopped | .delivered _ => .ok s

/-- The removal that it asks for. -/
def readRequest (s : AsyncServer) (u : SessionRef) : ReadOutcome → Option Token
  | .closed => s.closeRequest u
  | .removed => some (s.users u).sessionToken
  | .stopped | .delivered _ => none

/-- `Connected` and `UdpEnabled` are cleared. -/
def disconnected (s : AsyncServer) (u : SessionRef) : AsyncServer :=
  s.setUser u fun x => { x with connected := false, udpEnabled := false }

end AsyncServer

namespace ReadingServer

def setReader (s : ReadingServer) (u : SessionRef) (r : Reader) : ReadingServer :=
  { s with reader := Function.update s.reader u r }

inductive Event where
  | server (event : AsyncServer.ConnectEvent)
  /-- the last statement of `HandleStartConnect_Finished` -/
  | startRead (user : SessionRef)
  /-- the length read ends -/
  | lengthRead (user : SessionRef) (error : Option ℕ) (lengthBuff : UInt8 × UInt8)
  /-- `handle_read` comes to its end, with what `is_open` told and the body read found -/
  | handleRead (user : SessionRef) (isOpen : Bool) (stream : List UInt8)
  /-- another thread calls `Close` and comes to the connections, which it joins -/
  | closeBegin (user : SessionRef)
  | closeEnd (user : SessionRef)

def Step (s : ReadingServer) (e : Event) (s' : ReadingServer) : Prop :=
  match e with
  | .server event => ∃ t, AsyncServer.Step s.server event t ∧
      s' = { s with
        server := t
        removals := s.removals ++ (AsyncServer.requests (s.server, event)).toList }
  | .startRead u => (s.server.users u).pc = .finished ∧ s.reader u = .unstarted ∧
      s' = s.setReader u .pending
  | .lengthRead u error lengthBuff => s.reader u = .pending ∧
      s' = s.setReader u (.handling error lengthBuff)
  | .handleRead u isOpen stream => ∃ error lengthBuff outcome rest t,
      s.reader u = .handling error lengthBuff ∧
      GameServer.handleRead (s.server.users u).sessionToken error isOpen lengthBuff stream =
        (outcome, rest) ∧
      s.server.finishRead u outcome = .ok t ∧
      s' = { s.setReader u outcome.reader with
        server := t
        removals := s.removals ++ (s.server.readRequest u outcome).toList }
  | .closeBegin u => (s.server.users u).pc = .finished ∧ (s.server.users u).connected = true ∧
      s' = { s with
        server := s.server.disconnected u
        closing := Function.update s.closing u true }
  | .closeEnd u => s.closing u = true ∧
      s' = { s with
        server := s.server.removePlayer (s.server.users u).sessionToken
        closing := Function.update s.closing u false
        removals := s.removals ++ [(s.server.users u).sessionToken] }

/-- A server nobody has connected to. -/
structure Init (s : ReadingServer) : Prop where
  server : s.server.Init
  reader : ∀ u, s.reader u = .unstarted
  closing : ∀ u, s.closing u = false
  removals : s.removals = []

def system : System ReadingServer Event := ⟨Init, Step⟩

/-- A session in `m_socket_users` whose handshake is over has a length read pending or
in progress, or its removal was queued. -/
def Attended (s : ReadingServer) : Prop :=
  ∀ u, s.server.Live u → s.reader u ≠ .unstarted →
    (s.reader u).reads = true ∨ (s.server.users u).sessionToken ∈ s.removals

/-- What a step has to find: unless the removal of the session was queued before, a
length read that failed failed with 10054 and `Close` finds the session connected, and a
session whose reading has ended is not added. -/
def InOrder (s : ReadingServer) (e : Event) : Prop :=
  match e with
  | .handleRead u _ _ => ∀ code lengthBuff, s.reader u = .handling (some code) lengthBuff →
      s.server.Live u → (s.server.users u).sessionToken ∈ s.removals ∨
        code = 10054 ∧ (s.server.users u).connected = true
  | .server (.update _) => ∀ u rest, s.server.update = .addLoop →
      s.server.mQueueUserAdd = u :: rest →
      s.server.hasPlayerSession (s.server.users u).sessionToken = false →
      s.reader u = .ended → (s.server.users u).sessionToken ∈ s.removals
  | _ => True

end ReadingServer

/-! ### Who gets into the table -/

namespace AsyncServer

variable {s s' : AsyncServer}

/-- The step adds `u` to `m_socket_users`. -/
def Adds (s : AsyncServer) (e : ConnectEvent) (u : SessionRef) : Prop :=
  (∃ timedOut, e = .update timedOut) ∧ s.update = .addLoop ∧
    (∃ rest, s.mQueueUserAdd = u :: rest) ∧
    s.hasPlayerSession (s.users u).sessionToken = false

theorem mSocketUsers_connectStep {u : SessionRef} {udpId port : UInt16}
    (h : s.connectStep u udpId port = some s') : s'.mSocketUsers = s.mSocketUsers := by
  unfold connectStep at h
  split at h
  · cases h
    rfl
  · split_ifs at h
    · cases h
      rfl
    · cases h
      rfl
  · cases h
    rfl
  · cases h
    rfl
  · cases h
    rfl
  · cases h

theorem live_step {e : ConnectEvent} {u : SessionRef} (h : Step s e s') (hlive : s'.Live u) :
    s.Live u ∨ s.Adds e u := by
  obtain ⟨t, ht⟩ := hlive
  cases e with
  | connect v udpId port =>
    rw [mSocketUsers_connectStep h] at ht
    exact .inl ⟨t, ht⟩
  | removePlayer user =>
    cases h
    exact .inl ⟨t, ht⟩
  | close v => exact .inl (((sameTables_close h.2).live u).mp ⟨t, ht⟩)
  | update timedOut =>
    rcases updateStep_cases h with ⟨v, rest, hpc, hq, rfl⟩ | ⟨user, rest, hpc, hq, h⟩ |
      ⟨v, rest, -, -, rfl⟩ | ⟨pc, rfl, -⟩
    · rw [doAddPlayer_eq] at ht
      split_ifs at ht with hhas
      · exact .inl ⟨t, ht⟩
      · have hnone : s.mSocketUsers.lookup (s.users v).sessionToken = none := by
          simpa [hasPlayerSession] using hhas
        rcases (lookup_insert_eq_some hnone).mp ht with ⟨-, rfl⟩ | ht
        · exact .inr ⟨⟨timedOut, rfl⟩, hpc, ⟨rest, hq⟩, Bool.eq_false_iff.mpr hhas⟩
        · exact .inl ⟨t, ht⟩
    · rcases doRemovePlayer_ok h with ⟨-, rfl⟩ | ⟨v, r, -, hclose, rfl⟩
      · exact .inl ⟨t, ht⟩
      · exact .inl (((sameTables_close hclose).live u).mp ⟨t, (lookup_erase_eq_some.mp ht).2⟩)
    · exact .inl ⟨t, ht⟩
    · exact .inl ⟨t, ht⟩

/-- A step that adds a session asks for no removal. -/
theorem live_of_adds {e : ConnectEvent} {u : SessionRef} (hadds : s.Adds e u) (h : Step s e s') :
    s'.Live u ∧ requests (s, e) = none := by
  obtain ⟨⟨timedOut, rfl⟩, hpc, ⟨rest, hq⟩, hhas⟩ := hadds
  change s.updateStep timedOut = some s' at h
  unfold updateStep at h
  rw [hpc] at h
  dsimp only at h
  rw [hq] at h
  cases h
  refine ⟨⟨(s.users u).sessionToken, ?_⟩, ?_⟩
  · rw [doAddPlayer_eq, if_neg (by simpa [hasPlayerSession] using hhas)]
    exact AList.lookup_insert _
  · simp only [requests, hpc]

theorem sameTables_removePlayer (s : AsyncServer) (user : Token) :
    SameTables s (s.removePlayer user) :=
  { SameTables.refl s with }

theorem sameTables_finishRead {u : SessionRef} {outcome : ReadOutcome}
    (h : s.finishRead u outcome = .ok s') : SameTables s s' := by
  cases outcome with
  | closed => exact sameTables_close h
  | removed =>
    cases h
    exact sameTables_removePlayer s _
  | stopped | delivered _ =>
    cases h
    exact SameTables.refl s

/-- `Close` of a session that is connected asks for its removal. -/
theorem closeRequest_of_connected {u : SessionRef} (h : s.close u = .ok s')
    (hc : (s.users u).connected = true) : s.closeRequest u = some (s.users u).sessionToken := by
  unfold close at h
  rw [if_pos hc] at h
  unfold closeRequest
  cases hport : (s.users u).udpConnectionClient with
  | none =>
    rw [hport] at h
    cases h
  | some port => rw [hc, Option.isSome_some, Bool.and_self, if_pos rfl]

theorem closeRequest_of_disconnected {u : SessionRef} (hc : (s.users u).connected = false) :
    s.closeRequest u = none := by
  rw [closeRequest, hc, Bool.false_and, if_neg Bool.false_ne_true]

end AsyncServer

/-- An error of the length read ends the reading; otherwise the next read is started or
the session is to be removed. -/
theorem handleRead_cases {user : Token} {error : Option ℕ} {isOpen : Bool}
    {lengthBuff : UInt8 × UInt8} {stream rest : List UInt8} {outcome : ReadOutcome}
    (h : handleRead user error isOpen lengthBuff stream = (outcome, rest)) :
    (∃ code, error = some code ∧ outcome = if code = 10054 then .closed else .stopped) ∨
      error = none ∧ (outcome = .removed ∨ ∃ command, outcome = .delivered command) := by
  unfold handleRead at h
  cases error with
  | some code =>
    refine .inl ⟨code, rfl, ?_⟩
    dsimp only at h
    split_ifs at h ⊢
    · exact (congrArg Prod.fst h).symm
    · exact (congrArg Prod.fst h).symm
  | none =>
    refine .inr ⟨rfl, ?_⟩
    dsimp only at h
    split_ifs at h
    · exact .inl (congrArg Prod.fst h).symm
    · exact .inl (congrArg Prod.fst h).symm
    · exact .inl (congrArg Prod.fst h).symm
    · exact .inr ⟨_, (congrArg Prod.fst h).symm⟩

namespace ReadingServer

variable {s s' : ReadingServer} {e : Event} {u v : SessionRef}

theorem setReader_self (s : ReadingServer) (u : SessionRef) (r : Reader) :
    (s.setReader u r).reader u = r :=
  Function.update_self ..

theorem setReader_of_ne (s : ReadingServer) (r : Reader) (h : v ≠ u) :
    (s.setReader u r).reader v = s.reader v :=
  Function.update_of_ne h ..

/-! ### A step -/

theorem attended_init (h : s.Init) : s.Attended := by
  rintro u ⟨t, ht⟩
  rw [h.server.mSocketUsers] at ht
  cases ht

/-- Whoever is in the table now was there with the same reader, or has a reader, or is to
be removed. -/
theorem Attended.kept (hs : s.Attended)
    (htoken : ∀ u, (s'.server.users u).sessionToken = (s.server.users u).sessionToken)
    (hremovals : s.removals ⊆ s'.removals)
    (h : ∀ u, s'.server.Live u → s'.reader u ≠ .unstarted →
      (s.server.Live u ∧ s'.reader u = s.reader u) ∨ (s'.reader u).reads = true ∨
        (s.server.users u).sessionToken ∈ s'.removals) : s'.Attended := by
  intro u hlive hstarted
  rw [htoken]
  rcases h u hlive hstarted with ⟨hold, heq⟩ | hdone
  · rw [heq] at hstarted ⊢
    exact (hs u hold hstarted).imp_right fun hmem => hremovals hmem
  · exact hdone

/-- A read that is started or ends. -/
theorem Attended.setReader (hs : s.Attended) (u : SessionRef) {r : Reader} (hr : r.reads = true) :
    (s.setReader u r).Attended := by
  refine hs.kept (fun _ => rfl) (List.Subset.refl _) fun v hlive _ => ?_
  by_cases hv : v = u
  · rw [hv, setReader_self]
    exact .inr (.inl hr)
  · exact .inl ⟨hlive, setReader_of_ne s r hv⟩

theorem attended_server {event : AsyncServer.ConnectEvent} {t : AsyncServer} (hs : s.Attended)
    (horder : s.InOrder (.server event)) (h : AsyncServer.Step s.server event t) :
    Attended { s with
      server := t
      removals := s.removals ++ (AsyncServer.requests (s.server, event)).toList } := by
  refine hs.kept (AsyncServer.advances_step h).sessionToken (List.subset_append_left _ _) ?_
  intro u hlive hstarted
  rcases AsyncServer.live_step h hlive with hold | ⟨⟨timedOut, rfl⟩, hpc, ⟨rest, hq⟩, hhas⟩
  · exact .inl ⟨hold, rfl⟩
  · right
    cases hreader : s.reader u with
    | unstarted => exact absurd hreader hstarted
    | pending | handling _ _ => exact .inl rfl
    | ended => exact .inr (List.mem_append_left _ (horder u rest hpc hq hhas hreader))

theorem attended_handleRead {error : Option ℕ} {lengthBuff : UInt8 × UInt8} {isOpen : Bool}
    {stream rest : List UInt8} {outcome : ReadOutcome} {t : AsyncServer} (hs : s.Attended)
    (horder : s.InOrder (.handleRead u isOpen stream))
    (hreader : s.reader u = .handling error lengthBuff)
    (hread : handleRead (s.server.users u).sessionToken error isOpen lengthBuff stream =
      (outcome, rest)) (ht : s.server.finishRead u outcome = .ok t) :
    Attended { s.setReader u outcome.reader with
      server := t
      removals := s.removals ++ (s.server.readRequest u outcome).toList } := by
  have hsame := AsyncServer.sameTables_finishRead ht
  refine hs.kept hsame.sessionToken (List.subset_append_left _ _) fun v hlive _ => ?_
  replace hlive := (hsame.live v).mp hlive
  dsimp only
  by_cases hv : v = u
  · subst hv
    right
    rw [setReader_self]
    rcases handleRead_cases hread with ⟨code, rfl, houtcome⟩ | ⟨-, rfl | ⟨command, rfl⟩⟩
    · rcases horder code lengthBuff hreader hlive with hmem | ⟨rfl, hc⟩
      · exact .inr (List.mem_append_left _ hmem)
      · rw [if_pos rfl] at houtcome
        subst houtcome
        have hreq := AsyncServer.closeRequest_of_connected ht hc
        right
        rw [AsyncServer.readRequest, hreq]
        exact List.mem_append_right _ List.mem_cons_self
    · exact .inr (List.mem_append_right _ List.mem_cons_self)
    · exact .inl rfl
  · exact .inl ⟨hlive, setReader_of_ne s _ hv⟩

theorem attended_step (hs : s.Attended) (horder : s.InOrder e) (h : Step s e s') :
    s'.Attended := by
  cases e with
  | server event =>
    obtain ⟨t, ht, rfl⟩ := h
    exact attended_server hs horder ht
  | startRead u =>
    obtain ⟨-, -, rfl⟩ := h
    exact hs.setReader u rfl
  | lengthRead u error lengthBuff =>
    obtain ⟨-, rfl⟩ := h
    exact hs.setReader u rfl
  | handleRead u isOpen stream =>
    obtain ⟨error, lengthBuff, outcome, rest, t, hreader, hread, ht, rfl⟩ := h
    exact attended_handleRead hs horder hreader hread ht
  | closeBegin u =>
    obtain ⟨-, -, rfl⟩ := h
    have hsame : AsyncServer.SameTables s.server (s.server.disconnected u) :=
      AsyncServer.sameTables_flags s.server u
    exact hs.kept hsame.sessionToken (List.Subset.refl _) fun v hlive _ =>
      .inl ⟨(hsame.live v).mp hlive, rfl⟩
  | closeEnd u =>
    obtain ⟨-, rfl⟩ := h
    have hsame := AsyncServer.sameTables_removePlayer s.server (s.server.users u).sessionToken
    exact hs.kept hsame.sessionToken (List.subset_append_left _ _) fun v hlive _ =>
      .inl ⟨(hsame.live v).mp hlive, rfl⟩

theorem not_attended (hlive : s.server.Live u) (hreader : s.reader u = .ended)
    (hnone : (s.server.users u).sessionToken ∉ s.removals) : ¬ s.Attended := by
  intro hs
  rcases hs u hlive (by rw [hreader]; exact nofun) with hreads | hmem
  · rw [hreader] at hreads
    cases hreads
  · exact hnone hmem

theorem not_attended_handleRead {isOpen : Bool} {stream : List UInt8}
    (h : Step s (.handleRead u isOpen stream) s') {code : ℕ} {lengthBuff : UInt8 × UInt8}
    (hreader : s.reader u = .handling (some code) lengthBuff) (hlive : s.server.Live u)
    (hnone : (s.server.users u).sessionToken ∉ s.removals)
    (hcode : code = 10054 → (s.server.users u).connected = false) : ¬ s'.Attended := by
  obtain ⟨error, lengthBuff', outcome, rest, t, hreader', hread, ht, rfl⟩ := h
  have hsame := AsyncServer.sameTables_finishRead ht
  obtain ⟨rfl, rfl⟩ := Reader.handling.inj (hreader.symm.trans hreader')
  obtain ⟨hended, hrequest⟩ : outcome.reader = .ended ∧ s.server.readRequest u outcome = none := by
    rcases handleRead_cases hread with ⟨code', heq, rfl⟩ | ⟨heq, -⟩
    · obtain rfl := Option.some.inj heq
      split_ifs with hreset
      · exact ⟨rfl, AsyncServer.closeRequest_of_disconnected (hcode hreset)⟩
      · exact ⟨rfl, rfl⟩
    · cases heq
  refine not_attended (u := u) ((hsame.live u).mpr hlive) ?_ ?_
  · dsimp only
    rw [setReader_self, hended]
  · dsimp only
    rw [hsame.sessionToken, hrequest, Option.toList_none, List.append_nil]
    exact hnone

/-- A step that is not in order leaves a session without a reader. -/
theorem not_attended_of_not_inOrder (horder : ¬ s.InOrder e) (h : Step s e s') :
    ¬ s'.Attended := by
  cases e with
  | handleRead u isOpen stream =>
    simp only [InOrder, not_forall, not_or, not_and, Bool.not_eq_true] at horder
    obtain ⟨code, lengthBuff, hreader, hlive, hnone, hcode⟩ := horder
    exact not_attended_handleRead h hreader hlive hnone hcode
  | server event =>
    obtain ⟨t, ht, rfl⟩ := h
    cases event with
    | update timedOut =>
      simp only [InOrder, not_forall] at horder
      obtain ⟨u, rest, hpc, hq, hhas, hreader, hnone⟩ := horder
      obtain ⟨hlive, hrequest⟩ :=
        AsyncServer.live_of_adds ⟨⟨timedOut, rfl⟩, hpc, ⟨rest, hq⟩, hhas⟩ ht
      refine not_attended (u := u) hlive hreader ?_
      dsimp only
      rw [(AsyncServer.advances_step ht).sessionToken, hrequest, Option.toList_none,
        List.append_nil]
      exact hnone
    | _ => exact absurd trivial horder
  | _ => exact absurd trivial horder

/-! ### A run -/

/-- In every run every session in `m_socket_users` has a reader or a removal, wherever
the run is, if and only if every step finds what it has to. -/
theorem attended_iff_inOrder (tr : List (ReadingServer × Event)) (s : ReadingServer)
    (h : system.Exec tr s) :
    (∀ x ∈ visited tr s, x.Attended) ↔ ∀ x ∈ tr, x.1.InOrder x.2 :=
  h.safe_iff Attended Attended InOrder (fun _ => attended_init) (fun _ hs => hs)
    (fun _ _ _ => attended_step) fun _ _ _ _ => not_attended_of_not_inOrder

/-! ### A session that is reset, and one whose client hangs up -/

def emptyReading : ReadingServer :=
  ⟨AsyncServer.emptyServer, fun _ => .unstarted, fun _ => false, []⟩

/-- Session 0 when its handshake is over and `Update` has added it. -/
theorem reading_exec : ∃ tr s, system.Exec tr s ∧ s.server.Live 0 ∧ s.reader 0 = .pending ∧
    (s.server.users 0).connected = true ∧ (s.server.users 0).udpConnectionClient.isSome ∧
    s.removals = [] ∧ ∀ x ∈ tr, x.1.InOrder x.2 := by
  have h0 : system.Exec [] emptyReading := .nil ⟨AsyncServer.emptyServer_init, fun _ => rfl,
    fun _ => rfl, rfl⟩
  have h1 := h0.next (.server (.connect 0 5 51000)) _ ⟨_, rfl, rfl⟩
  have h2 := h1.next (.server (.connect 0 5 51000)) _ ⟨_, rfl, rfl⟩
  have h3 := h2.next (.server (.connect 0 5 51000)) _ ⟨_, rfl, rfl⟩
  have h4 := h3.next (.server (.connect 0 5 51000)) _ ⟨_, rfl, rfl⟩
  have h5 := h4.next (.server (.connect 0 5 51000)) _ ⟨_, rfl, rfl⟩
  have h6 := h5.next (.startRead 0) _ ⟨rfl, rfl, rfl⟩
  have h7 := h6.next (.server (.update false)) _ ⟨_, rfl, rfl⟩
  refine ⟨_, _, h7, ⟨"A", rfl⟩, rfl, rfl, rfl, rfl, fun x hx => ?_⟩
  simp only [List.nil_append, List.cons_append, List.mem_cons, List.not_mem_nil, or_false] at hx
  rcases hx with rfl | rfl | rfl | rfl | rfl | rfl | rfl
  · trivial
  · trivial
  · trivial
  · trivial
  · trivial
  · trivial
  · -- the session that is added is the one that reads
    rintro u rest - hq - hended
    cases hq
    cases hended

theorem reset_attended : ∃ tr s, system.Exec tr s ∧ s.server.Live 0 ∧ s.reader 0 = .ended ∧
    s.Attended := by
  obtain ⟨tr, s, h, hlive, hreader, hc, hclient, hremovals, horder⟩ := reading_exec
  obtain ⟨port, hport⟩ := Option.isSome_iff_exists.mp hclient
  have hclose : s.server.close 0 = .ok ((s.server.disconnected 0).removePlayer
      (s.server.users 0).sessionToken) := by
    unfold AsyncServer.close
    rw [if_pos hc, hport]
    rfl
  have h1 := h.next (.lengthRead 0 (some 10054) (0, 0)) _ ⟨hreader, rfl⟩
  have h2 := h1.next (.handleRead 0 true []) _
    ⟨_, _, .closed, [], _, setReader_self .., rfl, hclose, rfl⟩
  have hended : ((s.setReader 0 (.handling (some 10054) (0, 0))).setReader 0 .ended).reader 0 =
      .ended := setReader_self ..
  refine ⟨_, _, h2, ?_, hended, ?_⟩
  · exact ((AsyncServer.sameTables_close hclose).live 0).mpr hlive
  · refine (attended_iff_inOrder _ _ h2).mpr (fun x hx => ?_) _ (by simp [visited])
    simp only [List.mem_append, List.mem_singleton] at hx
    rcases hx with (hx | rfl) | rfl
    · exact horder x hx
    · trivial
    · intro code lengthBuff hreader' _
      cases (setReader_self s 0 _).symm.trans hreader'
      exact .inr ⟨rfl, hc⟩

/-- The client hangs up: the length read ends with end of file, which is logged. -/
theorem eof_unattended : ∃ tr s, system.Exec tr s ∧ s.server.Live 0 ∧ s.reader 0 = .ended ∧
    s.removals = [] ∧ ¬ s.Attended := by
  obtain ⟨tr, s, h, hlive, hreader, -, -, hremovals, -⟩ := reading_exec
  have h1 := h.next (.lengthRead 0 (some 2) (0, 0)) _ ⟨hreader, rfl⟩
  have h2 := h1.next (.handleRead 0 true []) _
    ⟨_, _, .stopped, [], _, setReader_self .., rfl, rfl, rfl⟩
  have hended : ((s.setReader 0 (.handling (some 2) (0, 0))).setReader 0 .ended).reader 0 = .ended :=
    setReader_self ..
  have hnone : s.removals ++ [] = [] := by rw [hremovals, List.append_nil]
  refine ⟨_, _, h2, hlive, hended, hnone, ?_⟩
  refine not_attended (u := 0) hlive hended ?_
  change _ ∉ s.removals ++ []
  rw [hnone]
  exact List.not_mem_nil

end ReadingServer

end GameServer
