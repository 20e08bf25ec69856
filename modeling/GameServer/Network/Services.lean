import GameServer.Lib.IoService

/-! The two `io_service`s and the threads that run them. `tcp_server` starts an accept
before its thread, and every handled accept starts the next; the thread of
`udp_main_server` runs a service that has no work before the first client is there. -/

namespace GameServer

open Lib Lib.IoService

/-! ### UDP -/

/-- An operation of a `udp_connection`, named by its place among all that were made. -/
inductive UdpOp where
  | receive (c : ℕ)
  | send (c : ℕ)
  deriving DecidableEq, Repr

structure UdpService where
  history : List (Call UdpOp)
  /-- `m_run` of `udp_main_server` -/
  mRun : Bool
  /-- `m_running` of every `udp_connection` -/
  connections : List Bool

namespace UdpService

inductive Event where
  /-- the loop of a `RunService` calls `run`: that of `udp_main_server`, or that of a
  connection -/
  | run (connection : Option ℕ)
  /-- the constructor of a `udp_connection` -/
  | create
  /-- `handle_receive` or `handle_send` -/
  | handler (o : UdpOp)
  | startSend (c : ℕ)
  | closeConnection (c : ℕ)
  | close
  deriving DecidableEq, Repr

/-- Every exit of `handle_receive` starts the next receive. -/
def handlerStarts : UdpOp → List UdpOp
  | .receive c => [.receive c]
  | .send _ => []

def Step (invokes : List (Call UdpOp) → UdpOp → Prop) (s : UdpService) (e : Event)
    (s' : UdpService) : Prop :=
  match e with
  | .run none => s.mRun = true ∧ s' = { s with history := s.history ++ [.run] }
  | .run (some c) => s.connections[c]? = some true ∧ s.mRun = true ∧
      s' = { s with history := s.history ++ [.run] }
  | .create => s' = { s with
      history := s.history ++ [.start (.receive s.connections.length)]
      connections := s.connections ++ [true] }
  | .handler o => invokes s.history o ∧
      s' = { s with history := s.history ++ handling o (handlerStarts o) }
  | .startSend c => c < s.connections.length ∧
      s' = { s with history := s.history ++ [.start (.send c)] }
  | .closeConnection c => s' = { s with connections := s.connections.set c false }
  | .close => s' = { s with mRun := false, history := s.history ++ [.stop] }

/-- The constructor of `udp_main_server` starts its thread and nothing else. -/
structure Init (s : UdpService) : Prop where
  history : s.history = []
  mRun : s.mRun = true
  connections : s.connections = []

def system (invokes : List (Call UdpOp) → UdpOp → Prop) : System UdpService Event :=
  ⟨Init, Step invokes⟩

/-- The step is a call of `run`. -/
def Event.runs : Event → Bool
  | .run _ => true
  | _ => false

/-- The step is a handler. -/
def Event.handles : Event → Bool
  | .handler _ => true
  | _ => false

variable {invokes : List (Call UdpOp) → UdpOp → Prop} {tr : List (UdpService × Event)}
  {s s' : UdpService}

/-- Until a connection is made there is no work and no handler. -/
theorem idle_of_no_create (hdoc : Documented invokes) (h : (system invokes).Exec tr s)
    (hnone : ∀ x ∈ tr, x.2 ≠ .create) :
    outstanding s.history = [] ∧ s.connections = [] ∧ ∀ x ∈ tr, x.2.handles = false := by
  induction h with
  | nil hi => exact ⟨by rw [hi.history]; rfl, hi.connections, List.forall_mem_nil _⟩
  | @snoc tr s s' e _ hst ih =>
    obtain ⟨hnone, hlast⟩ := (forall_trace_snoc (fun _ e => e ≠ .create) tr s e).mp hnone
    obtain ⟨hwork, hconnections, hquiet⟩ := ih hnone
    have hquiet' : e.handles = false → ∀ x ∈ tr ++ [(s, e)], x.2.handles = false := fun he =>
      (forall_trace_snoc (fun _ e => e.handles = false) tr s e).mpr ⟨hquiet, he⟩
    cases e with
    | run connection =>
      have hs' : s' = { s with history := s.history ++ [.run] } := by
        cases connection with
        | none => exact hst.2
        | some c => exact hst.2.2
      rw [hs']
      exact ⟨by simp [workAfter, hwork], hconnections, hquiet' rfl⟩
    | create => exact absurd rfl hlast
    | handler o =>
      have hmem := hdoc.started _ _ hst.1
      rw [hwork] at hmem
      cases hmem
    | startSend c =>
      have hlt := hst.1
      rw [hconnections] at hlt
      cases hlt
    | closeConnection c =>
      cases hst
      exact ⟨hwork, by simp [hconnections], hquiet' rfl⟩
    | close =>
      cases hst
      exact ⟨by simp [workAfter, hwork], hconnections, hquiet' rfl⟩

theorem history_step {e : Event} (h : Step invokes s e s') : s.history <+: s'.history := by
  cases e with
  | run connection =>
    cases connection with
    | none =>
      obtain ⟨-, rfl⟩ := h
      exact List.prefix_append _ _
    | some c =>
      obtain ⟨-, -, rfl⟩ := h
      exact List.prefix_append _ _
  | create | close =>
    cases h
    exact List.prefix_append _ _
  | handler o | startSend c =>
    obtain ⟨-, rfl⟩ := h
    exact List.prefix_append _ _
  | closeConnection c =>
    cases h
    exact List.prefix_refl _

/-- When the thread of the service gets to `run` before the first client is there, no
handler of any UDP connection is ever invoked. -/
theorem udp_silent (hdoc : Documented invokes) (past future : List (UdpService × Event))
    (x : UdpService × Event) (s : UdpService) (h : (system invokes).Exec (past ++ x :: future) s)
    (hrun : x.2.runs = true) (hnone : ∀ y ∈ past, y.2 ≠ .create) :
    ∀ y ∈ past ++ x :: future, y.2.handles = false := by
  have hsince := h.since (fun seg s => Stopped s.history ∧ ∀ y ∈ seg, y.2.handles = false) ?_ ?_
  · have hpast : (system invokes).Exec past x.1 := by
      clear hsince
      induction future using List.reverseRecOn generalizing s with
      | nil => exact (System.Exec.snoc_iff.mp h).1
      | append_singleton future y ih =>
        rw [← List.cons_append, ← List.append_assoc] at h
        exact ih _ (System.Exec.snoc_iff.mp h).1
    intro y hy
    rcases List.mem_append.mp hy with hy | hy
    · exact (idle_of_no_create hdoc hpast hnone).2.2 y hy
    · rcases List.mem_cons.mp hy with rfl | hy
      · cases hev : y.2 with
        | run _ => rfl
        | _ =>
          rw [hev] at hrun
          cases hrun
      · exact hsince.2 y hy
  · intro t hpast hst
    have hidle := (idle_of_no_create hdoc hpast hnone).1
    refine ⟨?_, List.forall_mem_nil _⟩
    cases hev : x.2 with
    | run connection =>
      rw [hev] at hst
      have ht : t = { x.1 with history := x.1.history ++ [.run] } := by
        cases connection with
        | none => exact hst.2
        | some c => exact hst.2.2
      rw [ht]
      exact (stopped_snoc _ _).mpr (.inr hidle)
    | _ =>
      rw [hev] at hrun
      cases hrun
  · rintro seg t e t' ⟨hstopped, hquiet⟩ hst
    obtain ⟨more, hmore⟩ := history_step hst
    refine ⟨by rw [← hmore]; exact hstopped.append more, ?_⟩
    refine (forall_trace_snoc (fun _ e => e.handles = false) seg t e).mpr ⟨hquiet, ?_⟩
    cases e with
    | handler o => exact absurd hst.1 (hdoc.stopped _ _ hstopped)
    | _ => rfl

/-- The thread starts at once; then a client comes, and its datagrams stay unread. -/
theorem udp_silent_run : ∃ tr s, (system Invokes).Exec tr s ∧
    outstanding s.history = [.receive 0, .send 0] ∧ ∀ y ∈ tr, y.2.handles = false := by
  have h0 : (system Invokes).Exec [] ⟨[], true, []⟩ := .nil ⟨rfl, rfl, rfl⟩
  have h1 := h0.next (.run none) _ ⟨rfl, rfl⟩
  have h2 := h1.next .create _ rfl
  have h3 := h2.next (.run (some 0)) _ ⟨rfl, rfl, rfl⟩
  have h4 := h3.next (.startSend 0) _ ⟨by decide, rfl⟩
  exact ⟨_, _, h4, by decide, udp_silent documented_invokes [] _ _ _ h4 rfl (List.forall_mem_nil _)⟩

end UdpService

/-! ### TCP -/

/-- An operation of a `tcp_connection`; an accept is one of the connection it is for. -/
inductive TcpOp where
  | accept (c : ℕ)
  /-- the length read of `Start_Initial_Connect` -/
  | firstLength (c : ℕ)
  /-- the length read of `Start_Read` -/
  | length (c : ℕ)
  | write (c : ℕ)
  deriving DecidableEq, Repr

def TcpOp.isAccept : TcpOp → Bool
  | .accept _ => true
  | _ => false

/-- The handler has a call that may throw, and no `catch`: `remote_endpoint` after an
accept, the blocking read and the bind of `udp_connection` after a first length. The
blocking read of `handle_read` is in a `try`. -/
def TcpOp.mayThrow : TcpOp → Bool
  | .accept _ | .firstLength _ => true
  | .length _ | .write _ => false

/-- How a handler is left. -/
inductive Outcome where
  /-- after its next read was started -/
  | continues
  | ends
  /-- by an exception, which leaves `run` and `RunService` too -/
  | throws
  deriving DecidableEq, Repr

structure TcpService where
  history : List (Call TcpOp)
  mRun : Bool
  /-- the connections made so far -/
  next : ℕ
  /-- an exception has left the thread of the service -/
  terminated : Bool

namespace TcpService

inductive Event where
  /-- the loop of `RunService` calls `run` -/
  | run
  | handler (o : TcpOp) (outcome : Outcome)
  | startWrite (c : ℕ)
  | close
  deriving DecidableEq, Repr

/-- The handler is left by an exception. -/
def Event.throws : Event → Bool
  | .handler _ .throws => true
  | _ => false

/-- `handle_accept` starts the next accept before all else. -/
def handlerStarts (next : ℕ) (o : TcpOp) (outcome : Outcome) : List TcpOp :=
  match o with
  | .accept c => .accept next :: if outcome = .continues then [.firstLength c] else []
  | .firstLength c | .length c => if outcome = .continues then [.length c] else []
  | .write _ => []

/-- What a handler does; one that throws does not return. -/
def handled (next : ℕ) (o : TcpOp) (outcome : Outcome) : List (Call TcpOp) :=
  if outcome = .throws then
    .invoked o :: (handlerStarts next o outcome).map Call.start
  else handling o (handlerStarts next o outcome)

def Step (invokes : List (Call TcpOp) → TcpOp → Prop) (s : TcpService) (e : Event)
    (s' : TcpService) : Prop :=
  s.terminated = false ∧
  match e with
  | .run => s.mRun = true ∧ s' = { s with history := s.history ++ [.run] }
  | .handler o outcome => invokes s.history o ∧ (outcome = .throws → o.mayThrow = true) ∧
      s' = { s with
        history := s.history ++ handled s.next o outcome
        next := if o.isAccept then s.next + 1 else s.next
        terminated := e.throws }
  | .startWrite c => c < s.next ∧ s' = { s with history := s.history ++ [.start (.write c)] }
  | .close => s' = { s with mRun := false, history := s.history ++ [.stop] }

/-- The constructor of `tcp_server` starts an accept, and then its thread. -/
structure Init (s : TcpService) : Prop where
  history : s.history = [.start (.accept 0)]
  mRun : s.mRun = true
  next : s.next = 1
  terminated : s.terminated = false

def system (invokes : List (Call TcpOp) → TcpOp → Prop) : System TcpService Event :=
  ⟨Init, Step invokes⟩

/-- The accepts that are pending. -/
def accepts (s : TcpService) : List TcpOp := (outstanding s.history).filter TcpOp.isAccept

variable {invokes : List (Call TcpOp) → TcpOp → Prop} {tr : List (TcpService × Event)}
  {s s' : TcpService}

/-- One accept is pending, and the service was never without work. -/
structure Inv (s : TcpService) : Prop where
  accepts : s.accepts = [.accept (s.next - 1)]
  next : 1 ≤ s.next
  working : ¬ Stopped s.history

theorem Inv.outstanding_ne_nil (hs : s.Inv) : outstanding s.history ≠ [] := by
  intro hnil
  have haccepts := hs.accepts
  simp [TcpService.accepts, hnil] at haccepts

/-- A handler takes its own operation off the work, and that of an accept has started
the next one before. -/
theorem accepts_handling {o : TcpOp} (hs : s.Inv) (ho : o ∈ outstanding s.history)
    (outcome : Outcome) :
    ((outstanding s.history ++ handlerStarts s.next o outcome).erase o).filter TcpOp.isAccept =
      [.accept ((if o.isAccept then s.next + 1 else s.next) - 1)] := by
  have hlist : (outstanding s.history).filter TcpOp.isAccept = [.accept (s.next - 1)] := hs.accepts
  rw [List.erase_append_left _ ho, List.filter_append, ← List.erase_filter, hlist]
  cases o with
  | accept c =>
    have hmem : TcpOp.accept c ∈ (outstanding s.history).filter TcpOp.isAccept :=
      List.mem_filter.mpr ⟨ho, rfl⟩
    rw [hlist, List.mem_singleton] at hmem
    rw [hmem, List.erase_cons_head]
    cases outcome <;> rfl
  | firstLength c | length c => cases outcome <;> simp [handlerStarts, TcpOp.isAccept]
  | write c => simp [handlerStarts, TcpOp.isAccept]

theorem inv_init (h : s.Init) : s.Inv := by
  refine ⟨?_, ?_, ?_⟩
  · rw [accepts, h.history, h.next]
    rfl
  · rw [h.next]
  · rw [h.history, ← List.nil_append [Call.start _], stopped_snoc]
    simp [not_stopped_nil, Stops]

theorem inv_step {e : Event} (hdoc : Documented invokes) (hs : s.Inv) (he : e ≠ .close)
    (h : Step invokes s e s') (hlive : s'.terminated = false) : s'.Inv := by
  obtain ⟨-, h⟩ := h
  cases e with
  | run =>
    obtain ⟨-, rfl⟩ := h
    refine ⟨?_, hs.next, ?_⟩
    · rw [← hs.accepts]
      simp [accepts, workAfter]
    · rw [stopped_snoc]
      exact not_or.mpr ⟨hs.working, hs.outstanding_ne_nil⟩
  | handler o outcome =>
    obtain ⟨hinvoked, -, rfl⟩ := h
    have hlist := accepts_handling hs (hdoc.started _ _ hinvoked) outcome
    have hhandled : handled s.next o outcome =
        handling o (handlerStarts s.next o outcome) := by
      refine if_neg ?_
      rintro rfl
      cases hlive
    refine ⟨?_, ?_, ?_⟩
    · rw [accepts, hhandled, outstanding_handling]
      exact hlist
    · have hnext := hs.next
      dsimp only
      split_ifs <;> omega
    · rw [hhandled, stopped_handling]
      refine not_or.mpr ⟨hs.working, fun hnil => ?_⟩
      rw [hnil] at hlist
      cases hlist
  | startWrite c =>
    obtain ⟨-, rfl⟩ := h
    refine ⟨?_, hs.next, ?_⟩
    · rw [← hs.accepts]
      simp [accepts, workAfter, TcpOp.isAccept]
    · rw [stopped_snoc]
      simp [hs.working, Stops]
  | close => exact absurd rfl he

theorem terminated_step {e : Event} (h : Step invokes s e s') :
    s.terminated = false ∧ s'.terminated = e.throws := by
  obtain ⟨hlive, h⟩ := h
  refine ⟨hlive, ?_⟩
  cases e with
  | handler o outcome =>
    obtain ⟨-, -, rfl⟩ := h
    rfl
  | run | startWrite c =>
    obtain ⟨-, rfl⟩ := h
    exact hlive
  | close =>
    cases h
    exact hlive

/-- A run goes on until an exception leaves a handler, and no step comes after it. -/
theorem terminated_iff (h : (system invokes).Exec tr s) :
    s.terminated = true ↔ ∃ x ∈ tr, x.2.throws = true := by
  induction h with
  | nil hi => simp [hi.terminated]
  | @snoc tr s s' e _ hst ih =>
    obtain ⟨hlive, hends⟩ := terminated_step hst
    have hbefore : ¬ ∃ x ∈ tr, x.2.throws = true := by
      rw [← ih, hlive]
      exact Bool.false_ne_true
    rw [hends]
    constructor
    · exact fun he => ⟨(s, e), List.mem_append_right _ List.mem_cons_self, he⟩
    · rintro ⟨x, hx, hthrows⟩
      rcases List.mem_append.mp hx with hx | hx
      · exact absurd ⟨x, hx, hthrows⟩ hbefore
      · rwa [List.mem_singleton.mp hx] at hthrows

/-- Only the handlers of an accept and of a first length throw. -/
theorem exec_mayThrow (h : (system invokes).Exec tr s) (o : TcpOp)
    (hmem : ∃ x ∈ tr, x.2 = .handler o .throws) : o.mayThrow = true := by
  obtain ⟨⟨t, e⟩, hx, he⟩ := hmem
  have hstep : ∀ x ∈ steps tr s, x.2.1 = .handler o .throws → o.mayThrow = true := by
    refine h.forall_steps (fun _ e _ => e = .handler o .throws → o.mayThrow = true) ?_
    rintro _ s e _ _ hst rfl
    exact hst.2.2.1 rfl
  exact (forall_steps_iff (fun _ e => e = .handler o .throws → o.mayThrow = true) tr s).mp
    hstep (t, e) hx he

theorem exec_inv (hdoc : Documented invokes) (h : (system invokes).Exec tr s)
    (hopen : ∀ x ∈ tr, x.2 ≠ .close) (hlive : s.terminated = false) : s.Inv := by
  induction h with
  | nil hi => exact inv_init hi
  | @snoc tr s s' e _ hst ih =>
    obtain ⟨hopen, he⟩ := (forall_trace_snoc (fun _ e => e ≠ .close) tr s e).mp hopen
    exact inv_step hdoc (ih hopen (terminated_step hst).1) he hst hlive

theorem exec_stopped (h : (system invokes).Exec tr s) (hclosed : ∃ x ∈ tr, x.2 = .close) :
    Stopped s.history ∧ s.mRun = false := by
  induction h with
  | nil _ => simp at hclosed
  | @snoc tr s s' e _ hst ih =>
    obtain ⟨-, hst⟩ := hst
    by_cases he : e = .close
    · subst he
      cases hst
      exact ⟨(stopped_snoc _ _).mpr (.inr trivial), rfl⟩
    · obtain ⟨x, hx, hxe⟩ := hclosed
      have hbefore : ∃ x ∈ tr, x.2 = .close := by
        rcases List.mem_append.mp hx with hx | hx
        · exact ⟨x, hx, hxe⟩
        · rw [List.mem_singleton.mp hx] at hxe
          exact absurd hxe he
      obtain ⟨hstopped, hrun⟩ := ih hbefore
      cases e with
      | run | startWrite c =>
        obtain ⟨-, rfl⟩ := hst
        exact ⟨hstopped.append _, hrun⟩
      | handler o outcome =>
        obtain ⟨-, -, rfl⟩ := hst
        exact ⟨hstopped.append _, hrun⟩
      | close => exact absurd rfl he

/-- What the TCP service does over a run. -/
structure AcceptsUntilClose (invokes : List (Call TcpOp) → TcpOp → Prop)
    (tr : List (TcpService × Event)) (s : TcpService) : Prop where
  /-- until `close` is called and while no exception has ended the process, the service
  was never without work, so that no call of `run` returns, and one accept is pending -/
  working : (∀ x ∈ tr, x.2 ≠ .close) → s.terminated = false →
    ¬ Stopped s.history ∧ outstanding s.history ≠ [] ∧ s.accepts = [.accept (s.next - 1)]
  /-- afterwards no handler is invoked -/
  closed : (∃ x ∈ tr, x.2 = .close) →
    Stopped s.history ∧ s.mRun = false ∧ ∀ o, ¬ invokes s.history o
  /-- the exception comes from the handler of an accept or of a first length -/
  ended : s.terminated = true ↔
    ∃ x ∈ tr, ∃ o : TcpOp, o.mayThrow = true ∧ x.2 = .handler o .throws

theorem tcp_accepts_until_close (hdoc : Documented invokes) (tr : List (TcpService × Event))
    (s : TcpService) (h : (system invokes).Exec tr s) : AcceptsUntilClose invokes tr s := by
  refine ⟨fun hopen hlive => ?_, fun hclosed => ?_, ?_⟩
  · have hs := exec_inv hdoc h hopen hlive
    exact ⟨hs.working, hs.outstanding_ne_nil, hs.accepts⟩
  · obtain ⟨hstopped, hrun⟩ := exec_stopped h hclosed
    exact ⟨hstopped, hrun, fun o => hdoc.stopped _ o hstopped⟩
  · rw [terminated_iff h]
    constructor
    · rintro ⟨⟨t, e⟩, hx, hthrows⟩
      cases e with
      | handler o outcome =>
        cases outcome with
        | throws => exact ⟨_, hx, o, exec_mayThrow h o ⟨_, hx, rfl⟩, rfl⟩
        | continues | ends => cases hthrows
      | run | startWrite c | close => cases hthrows
    · rintro ⟨x, hx, o, -, he⟩
      exact ⟨x, hx, by rw [he]; rfl⟩

/-- A client connects and its first frame is read; then the server is closed, or the client
closes its socket after the length of its first frame. -/
theorem tcp_accepts_run : ∃ tr s, (system Invokes).Exec tr s ∧ s.accepts = [.accept 1] ∧
    (∃ tr' s', (system Invokes).Exec tr' s' ∧ ∀ o, ¬ Invokes s'.history o) ∧
    ∃ tr' s', (system Invokes).Exec tr' s' ∧ s'.terminated = true := by
  have hopen : ¬ Stopped ([.start (.accept 0)] ++ [.run] : List (Call TcpOp)) := by
    rw [stopped_snoc, ← List.nil_append [Call.start _], stopped_snoc]
    simp [not_stopped_nil, Stops, outstanding, workAfter]
  have h0 : (system Invokes).Exec [] ⟨[.start (.accept 0)], true, 1, false⟩ :=
    .nil ⟨rfl, rfl, rfl, rfl⟩
  have h1 := h0.next .run _ ⟨rfl, rfl, rfl⟩
  have h2 := h1.next (.handler (.accept 0) .continues) _ ⟨rfl, ⟨by decide, hopen⟩, fun _ => rfl, rfl⟩
  have hall := (tcp_accepts_until_close documented_invokes _ _ h2).working (by simp) rfl
  have h3 := h2.next .close _ ⟨rfl, rfl⟩
  have h4 := h2.next (.handler (.firstLength 0) .throws) _
    ⟨rfl, ⟨by decide, hall.1⟩, fun _ => rfl, rfl⟩
  refine ⟨_, _, h2, hall.2.2, ⟨_, _, h3,
    ((tcp_accepts_until_close documented_invokes _ _ h3).closed ?_).2.2⟩, _, _, h4,
    (tcp_accepts_until_close documented_invokes _ _ h4).ended.mpr ?_⟩
  · exact ⟨_, List.mem_append_right _ List.mem_cons_self, rfl⟩
  · exact ⟨_, List.mem_append_right _ List.mem_cons_self, .firstLength 0, rfl, rfl⟩

end TcpService

end GameServer
