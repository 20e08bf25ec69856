import GameServer.Network.UdpCommands
import GameServer.Network.UdpServer

/-! The receives of a `udp_connection` around its `Close`. Every exit of
`handle_receive` calls `start_receive`, also the one that the aborted receive of a
closed socket takes, and none of them tests `m_running`. -/

namespace GameServer

open Lib

/-- `boost::system::error_code`. -/
structure ErrorCode where
  value : ℤ
  what : String
  deriving DecidableEq, Repr

/-- The two arguments of `handle_receive`. -/
structure Completion where
  error : Option ErrorCode
  transfered : ℕ
  deriving DecidableEq, Repr

/-- The calls that `handle_receive` makes. -/
inductive ReceiveStmt where
  | log (line : String)
  /-- `Receive_UDP` on the bytes after the size field -/
  | receiveUdp (size : UInt16) (endpoint : Address)
  | startReceive
  deriving DecidableEq, Repr

/-- The statements of `udp_connection::Close`. -/
inductive CloseStmt where
  | log (line : String)
  | stopRunning
  | closeSocket
  | joinSends
  | eraseConnection
  deriving DecidableEq, Repr

def closeBody : List CloseStmt :=
  [.log "close UDP service.", .stopRunning, .closeSocket, .joinSends, .eraseConnection]

/-- A `udp_connection` with its receives and its calls under way. -/
structure ReceiveChain where
  connection : UdpConnection
  mRecvBuff : RecvBuff
  socketOpen : Bool
  /-- `m_thread_sends` runs -/
  sending : Bool
  /-- calls of `async_receive_from` that are not completed -/
  pending : ℕ
  /-- completed receives whose handler has not been called -/
  completions : List Completion
  /-- the calls of `handle_receive`, each with the statements it has left -/
  handlers : List (List ReceiveStmt)
  /-- the statements that `Close` has left, once it is called -/
  closing : Option (List CloseStmt)

namespace ReceiveChain

/-- `udp_connection::handle_receive`. -/
def handleReceive (s : ReceiveChain) (c : Completion) : List ReceiveStmt :=
  match c.error with
  | some error =>
    if error.value = 10061 then [.startReceive]
    else
      [.log ("UDP Receive Error (" ++ toString error.value ++ "): " ++ error.what), .startReceive]
  | none =>
    if c.transfered ≤ 0 then [.log "UDP Receive Buffer empty!", .startReceive]
    else [.receiveUdp s.mRecvBuff.sizeField s.connection.mClientEndpoint.address, .startReceive]

/-- `start_receive` takes one more receive to the socket; the other calls leave the
receives alone. -/
def exec (s : ReceiveChain) : ReceiveStmt → ReceiveChain
  | .startReceive => { s with pending := s.pending + 1 }
  | .log _ | .receiveUdp _ _ => s

/-- `none` when the statement waits. -/
def closeExec (s : ReceiveChain) : CloseStmt → Option ReceiveChain
  | .stopRunning => some { s with connection := { s.connection with mRunning := false } }
  | .closeSocket => some { s with socketOpen := false }
  | .joinSends => if s.sending then none else some s
  | .log _ | .eraseConnection => some s

/-- What a receive writes: the datagram and where it came from. -/
def fill (s : ReceiveChain) (datagram : Option Datagram) (source : Option Endpoint) : ReceiveChain :=
  { s with
    mRecvBuff := (datagram.map s.mRecvBuff.receive).getD s.mRecvBuff
    connection := { s.connection with mClientEndpoint := source.getD s.connection.mClientEndpoint } }

inductive Event where
  /-- the socket completes a receive -/
  | complete (error : Option ErrorCode) (datagram : Option Datagram) (source : Option Endpoint)
  /-- the service calls the handler of a completed receive -/
  | call
  /-- a handler executes `stmt` -/
  | resume (stmt : ReceiveStmt)
  | return
  /-- `Close` is called -/
  | close
  /-- the call of `Close` executes its next statement -/
  | closeNext
  /-- `RunSend` leaves its loop -/
  | sendEnds

def Step (s : ReceiveChain) (e : Event) (s' : ReceiveChain) : Prop :=
  match e with
  -- a receive of a closed socket ends with an error
  | .complete error datagram source => 0 < s.pending ∧ (s.socketOpen = false → error ≠ none) ∧
      s' = { s.fill datagram source with
        pending := s.pending - 1
        completions := s.completions ++
          [⟨error, (datagram.map fun d => d.bytes.length).getD 0⟩] }
  | .call => ∃ l c r, s.completions = l ++ c :: r ∧
      s' = { s with completions := l ++ r, handlers := s.handlers ++ [s.handleReceive c] }
  | .resume stmt => ∃ l rest r, s.handlers = l ++ (stmt :: rest) :: r ∧
      s' = exec { s with handlers := l ++ rest :: r } stmt
  | .return => ∃ l r, s.handlers = l ++ [] :: r ∧ s' = { s with handlers := l ++ r }
  | .close => s.closing = none ∧ s' = { s with closing := some closeBody }
  | .closeNext => ∃ stmt rest t, s.closing = some (stmt :: rest) ∧ s.closeExec stmt = some t ∧
      s' = { t with closing := some rest }
  | .sendEnds => s.connection.mRunning = false ∧ s' = { s with sending := false }

/-- The constructor has called `start_receive` and started the threads. -/
structure Init (addr : Address) (s : ReceiveChain) : Prop where
  connection : ∃ port, s.connection = .new addr port
  socketOpen : s.socketOpen = true
  sending : s.sending = true
  pending : s.pending = 1
  completions : s.completions = []
  handlers : s.handlers = []
  closing : s.closing = none

def system (addr : Address) : System ReceiveChain Event := ⟨Init addr, Step⟩

/-! ### What is to come to an end -/

/-- `m_running` is false. -/
def Stopped (s : ReceiveChain) : Prop := s.connection.mRunning = false

/-- `Close` has returned. -/
def Closed (s : ReceiveChain) : Prop := s.closing = some []

/-- No receive is started from a state with the mark. -/
def EndsOnce (mark : ReceiveChain → Prop) (tr : List (ReceiveChain × Event)) : Prop :=
  ∀ x ∈ tr, mark x.1 → x.2 ≠ .resume .startReceive

/-- No handler has a statement left. -/
def Idle (s : ReceiveChain) : Prop := ∀ stmts ∈ s.handlers, stmts = []

/-! ### One receive at a time -/

/-- `start_receive` is the last statement and comes once. -/
def Rearms (stmts : List ReceiveStmt) : Prop :=
  ∃ before, stmts = before ++ [.startReceive] ∧ .startReceive ∉ before

variable {addr : Address} {s s' : ReceiveChain} {tr : List (ReceiveChain × Event)} {e : Event}

theorem rearms_handleReceive (s : ReceiveChain) (c : Completion) : Rearms (s.handleReceive c) := by
  unfold handleReceive
  cases c.error with
  | some error =>
    dsimp only
    split_ifs
    · exact ⟨[], rfl, List.not_mem_nil⟩
    · exact ⟨[_], rfl, by simp⟩
  | none =>
    dsimp only
    split_ifs
    · exact ⟨[_], rfl, by simp⟩
    · exact ⟨[_], rfl, by simp⟩

theorem rearms_cons {stmt : ReceiveStmt} {rest : List ReceiveStmt} : Rearms (stmt :: rest) ↔
    (stmt = .startReceive ∧ rest = []) ∨ (stmt ≠ .startReceive ∧ Rearms rest) := by
  constructor
  · rintro ⟨before, heq, hnot⟩
    cases before with
    | nil =>
      obtain ⟨rfl, rfl⟩ := List.cons.inj heq
      exact .inl ⟨rfl, rfl⟩
    | cons b before =>
      obtain ⟨rfl, rfl⟩ := List.cons.inj heq
      rw [List.mem_cons, not_or] at hnot
      exact .inr ⟨Ne.symm hnot.1, before, rfl, hnot.2⟩
  · rintro (⟨rfl, rfl⟩ | ⟨hne, before, rfl, hnot⟩)
    · exact ⟨[], rfl, List.not_mem_nil⟩
    · refine ⟨stmt :: before, rfl, ?_⟩
      rw [List.mem_cons, not_or]
      exact ⟨Ne.symm hne, hnot⟩

theorem Rearms.ne_nil {stmts : List ReceiveStmt} (h : Rearms stmts) : stmts ≠ [] := by
  obtain ⟨before, rfl, -⟩ := h
  exact List.append_ne_nil_of_right_ne_nil _ (List.cons_ne_nil _ _)

/-- How many handlers have a statement left. -/
def busy (s : ReceiveChain) : ℕ := s.handlers.countP fun stmts => !stmts.isEmpty

/-- One receive is with the socket, completed, or being handled. -/
structure OneReceive (s : ReceiveChain) : Prop where
  rearms : ∀ stmts ∈ s.handlers, stmts = [] ∨ Rearms stmts
  one : s.pending + s.completions.length + s.busy = 1

theorem idle_iff : s.Idle ↔ s.busy = 0 := by
  rw [busy, List.countP_eq_zero]
  simp [Idle]

theorem busy_eq {l r : List (List ReceiveStmt)} {stmts : List ReceiveStmt}
    (h : s.handlers = l ++ stmts :: r) :
    s.busy = (l ++ r).countP (fun stmts => !stmts.isEmpty) + if stmts = [] then 0 else 1 := by
  rw [busy, h, List.countP_append, List.countP_cons, List.countP_append]
  cases stmts <;> simp [Nat.add_assoc]

theorem forall_mem_insert {P : List ReceiveStmt → Prop} {l r : List (List ReceiveStmt)}
    {stmts : List ReceiveStmt} (h : ∀ x ∈ l ++ r, P x) (hnew : P stmts) :
    ∀ x ∈ l ++ stmts :: r, P x := by
  simp only [List.mem_append, List.mem_cons] at h ⊢
  rintro x (hx | rfl | hx)
  · exact h x (.inl hx)
  · exact hnew
  · exact h x (.inr hx)

theorem oneReceive_init (h : Init addr s) : s.OneReceive := by
  constructor
  · rw [h.handlers]
    exact fun _ hmem => absurd hmem List.not_mem_nil
  · rw [busy, h.handlers, h.completions, h.pending]
    rfl

theorem exec_of_ne {stmt : ReceiveStmt} (h : stmt ≠ .startReceive) : s.exec stmt = s := by
  cases stmt with
  | startReceive => exact absurd rfl h
  | log _ | receiveUdp _ _ => rfl

/-- What a statement of `Close` leaves alone. -/
theorem closeExec_eq {stmt : CloseStmt} {t : ReceiveChain} (h : s.closeExec stmt = some t) :
    t.pending = s.pending ∧ t.completions = s.completions ∧ t.handlers = s.handlers ∧
      t.closing = s.closing ∧ (s.Stopped → t.Stopped) := by
  cases stmt with
  | stopRunning =>
    cases h
    exact ⟨rfl, rfl, rfl, rfl, fun _ => rfl⟩
  | closeSocket | log _ | eraseConnection =>
    cases h
    exact ⟨rfl, rfl, rfl, rfl, id⟩
  | joinSends =>
    simp only [closeExec] at h
    split_ifs at h
    cases h
    exact ⟨rfl, rfl, rfl, rfl, id⟩

theorem oneReceive_step (hs : s.OneReceive) (h : Step s e s') : s'.OneReceive := by
  have hone := hs.one
  cases e with
  | complete error datagram source =>
    obtain ⟨hpending, -, rfl⟩ := h
    refine ⟨hs.rearms, ?_⟩
    change s.pending - 1 + (s.completions ++ [_]).length + s.busy = 1
    rw [List.length_append, List.length_singleton]
    omega
  | call =>
    obtain ⟨l, c, r, hc, rfl⟩ := h
    constructor
    · intro stmts hmem
      rcases List.mem_append.mp hmem with hmem | hmem
      · exact hs.rearms stmts hmem
      · rw [List.mem_singleton.mp hmem]
        exact .inr (rearms_handleReceive s c)
    · have hbusy := busy_eq (s := { s with
        completions := l ++ r, handlers := s.handlers ++ [s.handleReceive c] }) rfl
      rw [if_neg (rearms_handleReceive s c).ne_nil, List.append_nil] at hbusy
      rw [hc, List.length_append, List.length_cons] at hone
      rw [hbusy]
      change s.pending + (l ++ r).length + (s.busy + 1) = 1
      rw [List.length_append]
      omega
  | resume stmt =>
    obtain ⟨l, rest, r, hstmts, rfl⟩ := h
    have hothers : ∀ stmts ∈ l ++ r, stmts = [] ∨ Rearms stmts := by
      intro stmts hmem
      apply hs.rearms
      rw [hstmts]
      exact ((List.sublist_cons_self _ r).append_left l).subset hmem
    have hrearms : Rearms (stmt :: rest) :=
      (hs.rearms _ (by simp [hstmts])).resolve_left (List.cons_ne_nil _ _)
    have hold := busy_eq hstmts
    rw [if_neg (List.cons_ne_nil _ _)] at hold
    rcases rearms_cons.mp hrearms with ⟨rfl, rfl⟩ | ⟨hne, hrest⟩
    · -- the last statement: the receive is with the socket again
      have hnew := busy_eq (s := exec { s with handlers := l ++ [] :: r } .startReceive) rfl
      rw [if_pos rfl] at hnew
      refine ⟨forall_mem_insert hothers (.inl rfl), ?_⟩
      change s.pending + 1 + s.completions.length + _ = 1
      omega
    · have hnew := busy_eq (s := { s with handlers := l ++ rest :: r }) rfl
      rw [if_neg hrest.ne_nil] at hnew
      rw [exec_of_ne hne]
      refine ⟨forall_mem_insert hothers (.inr hrest), ?_⟩
      change s.pending + s.completions.length + _ = 1
      omega
  | «return» =>
    obtain ⟨l, r, hstmts, rfl⟩ := h
    have hold := busy_eq hstmts
    refine ⟨fun stmts hmem => hs.rearms stmts ?_, ?_⟩
    · rw [hstmts]
      exact ((List.sublist_cons_self _ r).append_left l).subset hmem
    · change s.pending + s.completions.length + (l ++ r).countP _ = 1
      rw [if_pos rfl] at hold
      omega
  | close =>
    obtain ⟨-, rfl⟩ := h
    exact ⟨hs.rearms, hone⟩
  | closeNext =>
    obtain ⟨stmt, rest, t, -, ht, rfl⟩ := h
    obtain ⟨hpending, hcompletions, hhandlers, -⟩ := closeExec_eq ht
    constructor
    · change ∀ stmts ∈ t.handlers, _
      rw [hhandlers]
      exact hs.rearms
    · change t.pending + t.completions.length + t.handlers.countP _ = 1
      rw [hpending, hcompletions, hhandlers]
      exact hone
  | sendEnds =>
    obtain ⟨-, rfl⟩ := h
    exact ⟨hs.rearms, hone⟩

theorem exec_oneReceive (h : (system addr).Exec tr s) : s.OneReceive :=
  h.inv OneReceive (fun _ => oneReceive_init) fun _ _ _ => oneReceive_step

/-! ### The marks stay -/

/-- Nothing sets `m_running` again, and `Close` is called once. -/
theorem marks_step (h : Step s e s') : (s.Stopped → s'.Stopped) ∧ (s.Closed → s'.Closed) := by
  cases e with
  | complete error datagram source =>
    obtain ⟨-, -, rfl⟩ := h
    exact ⟨id, id⟩
  | call =>
    obtain ⟨l, c, r, -, rfl⟩ := h
    exact ⟨id, id⟩
  | resume stmt =>
    obtain ⟨l, rest, r, -, rfl⟩ := h
    cases stmt <;> exact ⟨id, id⟩
  | «return» =>
    obtain ⟨l, r, -, rfl⟩ := h
    exact ⟨id, id⟩
  | close =>
    obtain ⟨hnone, rfl⟩ := h
    refine ⟨id, fun hs => ?_⟩
    cases hnone.symm.trans hs
  | closeNext =>
    obtain ⟨stmt, rest, t, hsome, ht, rfl⟩ := h
    refine ⟨(closeExec_eq ht).2.2.2.2, fun hs => ?_⟩
    cases hsome.symm.trans hs
  | sendEnds =>
    obtain ⟨-, rfl⟩ := h
    exact ⟨id, id⟩

/-! ### A chain that is left alone -/

/-- Until it starts the next receive, a handler that has statements left keeps having
them. -/
theorem busy_le (hs : s.OneReceive) (h : Step s e s') (hne : e ≠ .resume .startReceive) :
    s.busy ≤ s'.busy := by
  cases e with
  | call =>
    obtain ⟨l, c, r, -, rfl⟩ := h
    exact (List.sublist_append_left _ _).countP_le
  | resume stmt =>
    obtain ⟨l, rest, r, hstmts, rfl⟩ := h
    have hstmt : stmt ≠ .startReceive := fun heq => hne (heq ▸ rfl)
    have hrearms : Rearms (stmt :: rest) :=
      (hs.rearms _ (by simp [hstmts])).resolve_left (List.cons_ne_nil _ _)
    have hrest : Rearms rest := by
      rcases rearms_cons.mp hrearms with ⟨heq, -⟩ | ⟨-, hrest⟩
      · exact absurd heq hstmt
      · exact hrest
    rw [exec_of_ne hstmt, busy_eq hstmts, if_neg (List.cons_ne_nil _ _),
      busy_eq (s := { s with handlers := l ++ rest :: r }) rfl, if_neg hrest.ne_nil]
  | «return» =>
    obtain ⟨l, r, hstmts, rfl⟩ := h
    rw [busy_eq hstmts, if_pos rfl]
    exact le_rfl
  | complete error datagram source =>
    obtain ⟨-, -, rfl⟩ := h
    exact le_rfl
  | close | sendEnds =>
    obtain ⟨-, rfl⟩ := h
    exact le_rfl
  | closeNext =>
    obtain ⟨stmt, rest, t, -, ht, rfl⟩ := h
    rw [busy, ← (closeExec_eq ht).2.2.1]
    exact le_rfl

theorem not_idle_of_start (h : Step s (.resume .startReceive) s') : ¬ s.Idle := by
  obtain ⟨l, rest, r, hstmts, -⟩ := h
  intro hidle
  exact List.cons_ne_nil _ _ (hidle (.startReceive :: rest) (by simp [hstmts]))

theorem endsOnce_snoc {mark : ReceiveChain → Prop} :
    EndsOnce mark (tr ++ [(s, e)]) ↔ EndsOnce mark tr ∧ (mark s → e ≠ .resume .startReceive) :=
  forall_trace_snoc (fun (s : ReceiveChain) (e : Event) => mark s → e ≠ .resume .startReceive) tr s e

/-- Once a mark is set that stays: no receive is started and no handler is left half
way, if and only if no handler ever has a statement left. -/
theorem endsOnce_iff {mark : ReceiveChain → Prop}
    (hmark : ∀ s e s', mark s → Step s e s' → mark s') (h : (system addr).Exec tr s) :
    EndsOnce mark tr ∧ (mark s → s.Idle) ↔ ∀ x ∈ visited tr s, mark x → x.Idle := by
  induction h with
  | nil hi => simp [EndsOnce, visited]
  | @snoc tr s s' e hr hst ih =>
    rw [forall_visited_snoc, ← ih, endsOnce_snoc, and_assoc, and_assoc]
    refine and_congr_right fun _ => and_congr_left fun hidle' => ?_
    constructor
    · -- whoever had statements left before the step still has some after it
      intro hne hm
      have hle := busy_le (exec_oneReceive hr) hst (hne hm)
      have hzero := idle_iff.mp (hidle' (hmark s e s' hm hst))
      rw [hzero] at hle
      exact idle_iff.mpr (Nat.le_zero.mp hle)
    · rintro hidle hm rfl
      exact not_idle_of_start hst (hidle hm)

/-! ### A chain that is served -/

/-- The run goes on until a receive is started, and the mark is still there. -/
def StartsAgain (addr : Address) (mark : ReceiveChain → Prop) (tr : List (ReceiveChain × Event)) :
    Prop :=
  ∃ seg y s', (system addr).Exec (tr ++ seg) y ∧ mark y ∧ Step y (.resume .startReceive) s'

section Served

variable {mark : ReceiveChain → Prop} (hmark : ∀ s e s', mark s → Step s e s' → mark s')

include hmark

theorem startsAgain_of_step (h : (system addr).Exec tr s) (hm : mark s) (hst : Step s e s')
    (hnext : (system addr).Exec (tr ++ [(s, e)]) s' → mark s' →
      StartsAgain addr mark (tr ++ [(s, e)])) : StartsAgain addr mark tr := by
  obtain ⟨seg, y, s'', hy, hm', hst'⟩ := hnext (h.next e s' hst) (hmark s e s' hm hst)
  rw [List.append_assoc] at hy
  exact ⟨_, y, s'', hy, hm', hst'⟩

/-- By induction on the statements before the last one. -/
theorem startsAgain_of_handler {before : List ReceiveStmt} {l r : List (List ReceiveStmt)}
    (hnot : .startReceive ∉ before) (h : (system addr).Exec tr s) (hm : mark s)
    (hs : s.handlers = l ++ (before ++ [.startReceive]) :: r) : StartsAgain addr mark tr := by
  induction before generalizing tr s with
  | nil =>
    refine ⟨[], s, _, ?_, hm, l, [], r, hs, rfl⟩
    rw [List.append_nil]
    exact h
  | cons stmt before ih =>
    rw [List.mem_cons, not_or] at hnot
    have hst : Step s (.resume stmt)
        (exec { s with handlers := l ++ (before ++ [.startReceive]) :: r } stmt) :=
      ⟨l, _, r, hs, rfl⟩
    rw [exec_of_ne (Ne.symm hnot.1)] at hst
    exact startsAgain_of_step hmark h hm hst fun h' hm' => ih hnot.2 h' hm' rfl

theorem startsAgain_of_completion {c : Completion} {l r : List Completion}
    (h : (system addr).Exec tr s) (hm : mark s) (hs : s.completions = l ++ c :: r) :
    StartsAgain addr mark tr := by
  have hst : Step s .call
      { s with completions := l ++ r, handlers := s.handlers ++ [s.handleReceive c] } :=
    ⟨l, c, r, hs, rfl⟩
  obtain ⟨before, heq, hnot⟩ := rearms_handleReceive s c
  rw [heq] at hst
  exact startsAgain_of_step hmark h hm hst fun h' hm' =>
    startsAgain_of_handler hmark hnot h' hm' rfl

/-- The receive is with the socket, which completes it, is completed, or is handled. -/
theorem startsAgain (h : (system addr).Exec tr s) (hm : mark s) : StartsAgain addr mark tr := by
  have hs := exec_oneReceive h
  have hone := hs.one
  by_cases hidle : s.Idle
  · rw [idle_iff.mp hidle] at hone
    cases hc : s.completions with
    | nil =>
      rw [hc, List.length_nil] at hone
      have hst : Step s (.complete (some ⟨125, "Operation canceled"⟩) none none) _ :=
        ⟨by omega, fun _ => Option.some_ne_none _, rfl⟩
      exact startsAgain_of_step hmark h hm hst fun h' hm' =>
        startsAgain_of_completion hmark (l := []) h' hm' (by rw [hc])
    | cons c rest => exact startsAgain_of_completion hmark h hm (l := []) hc
  · obtain ⟨stmts, hmem, hne⟩ : ∃ stmts ∈ s.handlers, stmts ≠ [] := by
      simpa [Idle] using hidle
    obtain ⟨before, rfl, hnot⟩ := (hs.rearms stmts hmem).resolve_left hne
    obtain ⟨l, r, heq⟩ := List.append_of_mem hmem
    exact startsAgain_of_handler hmark hnot h hm heq

end Served

theorem StartsAgain.not_endsOnce {mark : ReceiveChain → Prop} (h : StartsAgain addr mark tr) :
    ∃ seg s', (system addr).Exec (tr ++ seg) s' ∧ ¬ EndsOnce mark (tr ++ seg) := by
  obtain ⟨seg, y, s', hy, hm, hst⟩ := h
  refine ⟨seg ++ [(y, .resume .startReceive)], s', ?_, fun hends => ?_⟩
  · rw [← List.append_assoc]
    exact hy.next _ _ hst
  · exact hends (y, .resume .startReceive) (by simp) hm rfl

/-- After `m_running` is cleared, and after `Close` has returned: no receive is started
and no handler is left half way, if and only if no handler ever has a statement left to
execute. No state is safe from it: some continuation starts a receive. -/
theorem receive_chain_iff (addr : Address) (mark : ReceiveChain → Prop)
    (hmark : mark = Stopped ∨ mark = Closed) (tr : List (ReceiveChain × Event)) (s : ReceiveChain)
    (h : (system addr).Exec tr s) :
    (EndsOnce mark tr ∧ (mark s → s.Idle) ↔ ∀ x ∈ visited tr s, mark x → x.Idle) ∧
      (mark s → ∃ seg s', (system addr).Exec (tr ++ seg) s' ∧ ¬ EndsOnce mark (tr ++ seg)) := by
  have hstays : ∀ s e s', mark s → Step s e s' → mark s' := by
    rcases hmark with rfl | rfl
    · exact fun _ _ _ hs h => (marks_step h).1 hs
    · exact fun _ _ _ hs h => (marks_step h).2 hs
  exact ⟨endsOnce_iff hstays h, fun hm => (startsAgain hstays h hm).not_endsOnce⟩

/-! ### One call of `Close` -/

def openChain : ReceiveChain := ⟨.new 7 51003, zeroBuff, true, true, 1, [], [], none⟩

def closedChain : ReceiveChain :=
  { openChain with
    connection := { openChain.connection with mRunning := false }
    socketOpen := false
    sending := false
    closing := some [] }

/-- `Close` runs to its end before the aborted receive is completed. -/
theorem closedChain_exec : ∃ tr, (system 7).Exec tr closedChain ∧ ∀ x ∈ tr, x.1.handlers = [] := by
  have h0 : (system 7).Exec [] openChain := .nil ⟨⟨51003, rfl⟩, rfl, rfl, rfl, rfl, rfl, rfl⟩
  have h1 := h0.next .close _ ⟨rfl, rfl⟩
  have h2 := h1.next .closeNext _ ⟨_, _, _, rfl, rfl, rfl⟩
  have h3 := h2.next .closeNext _ ⟨_, _, _, rfl, rfl, rfl⟩
  have h4 := h3.next .sendEnds _ ⟨rfl, rfl⟩
  have h5 := h4.next .closeNext _ ⟨_, _, _, rfl, rfl, rfl⟩
  have h6 := h5.next .closeNext _ ⟨_, _, _, rfl, rfl, rfl⟩
  have h7 := h6.next .closeNext closedChain ⟨_, _, _, rfl, rfl, rfl⟩
  refine ⟨_, h7, fun x hx => ?_⟩
  simp only [List.nil_append, List.cons_append, List.mem_cons, List.not_mem_nil, or_false] at hx
  rcases hx with rfl | rfl | rfl | rfl | rfl | rfl | rfl <;> rfl

/-- Nothing is received after `Close` as long as the service calls no handler; when it
goes on the next receive is started. -/
theorem closed_chain_rests : ∃ tr, (system 7).Exec tr closedChain ∧ EndsOnce Stopped tr ∧
    ∃ seg s', (system 7).Exec (tr ++ seg) s' ∧ ¬ EndsOnce Stopped (tr ++ seg) := by
  obtain ⟨tr, h, hnone⟩ := closedChain_exec
  obtain ⟨hiff, hagain⟩ := receive_chain_iff 7 Stopped (.inl rfl) tr closedChain h
  refine ⟨tr, h, (hiff.mpr ?_).1, hagain rfl⟩
  intro x hx _ stmts hmem
  rcases List.mem_append.mp hx with hx | hx
  · obtain ⟨y, hy, rfl⟩ := List.mem_map.mp hx
    rw [hnone y hy] at hmem
    cases hmem
  · rw [List.mem_singleton.mp hx] at hmem
    cases hmem

/-- `Close` has returned, the aborted receive is completed, and its handler starts a
receive on the closed socket. -/
theorem aborted_receive_rearms : ∃ tr s, (system 7).Exec tr s ∧ s.pending = 1 ∧
    ¬ EndsOnce Closed tr ∧ ¬ EndsOnce Stopped tr := by
  obtain ⟨tr, h, -⟩ := closedChain_exec
  have h1 := h.next (.complete (some ⟨125, "Operation canceled"⟩) none none) _
    ⟨Nat.zero_lt_one, fun _ => Option.some_ne_none _, rfl⟩
  have h2 := h1.next .call _ ⟨[], _, [], rfl, rfl⟩
  have h3 := h2.next (.resume (.log "UDP Receive Error (125): Operation canceled")) _
    ⟨[], _, [], rfl, rfl⟩
  have h4 := h3.next (.resume .startReceive) _ ⟨[], _, [], rfl, rfl⟩
  refine ⟨_, _, h4, rfl, fun hends => ?_, fun hends => ?_⟩
  · exact (endsOnce_snoc.mp hends).2 rfl rfl
  · exact (endsOnce_snoc.mp hends).2 rfl rfl

end ReceiveChain

end GameServer
