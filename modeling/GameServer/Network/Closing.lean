import GameServer.Network.SenderSafety

/-! `tcp_connection::close` and `udp_connection::Close` against the sender thread:
`m_running` is cleared, the socket is closed and the thread is joined, while the
thread, the completion handlers and the `Send` calls already under way go on. The
closer is the main thread, so the service threads still run the handlers. -/

namespace GameServer

open Lib

/-- The thread has started a write and not yet taken its completion. -/
def SenderPc.awaits : SenderPc → Bool
  | .numDoSends | .acquire1 => true
  | _ => false

namespace Sender

/-! ### While `m_running` is set -/

/-- The completion that the thread waits for has come or will come. -/
def Awaited (s : Sender) : Prop :=
  s.thread.awaits = true → 1 ≤ s.writes.length + s.mSendsSemaphore1

theorem callStep_same {s t : Sender} {permits : ℕ} {pc : CallPc} {pc' : Option CallPc}
    (h : s.callStep permits pc = some (t, pc')) :
    t.thread = s.thread ∧ t.mRunning = s.mRunning ∧ t.writes = s.writes ∧
      t.mSendsSemaphore1 = s.mSendsSemaphore1 := by
  cases pc with
  | lock sending =>
    simp only [callStep] at h
    split_ifs at h
    cases h
    exact ⟨rfl, rfl, rfl, rfl⟩
  | _ =>
    cases h
    exact ⟨rfl, rfl, rfl, rfl⟩

theorem awaited_call {s s' : Sender} (hs : s.Awaited) (h : Step s .call s') : s'.Awaited := by
  obtain ⟨before, pc, after, permits, t, pc', -, -, hstep, rfl⟩ := h
  obtain ⟨hthread, -, hwrites, h1⟩ := callStep_same hstep
  unfold Awaited at hs ⊢
  dsimp only
  rwa [hthread, hwrites, h1]

theorem awaited_complete {s s' : Sender} (h : Step s .complete s') : s'.Awaited := by
  obtain ⟨before, w, after, permits, -, hp, rfl⟩ := h
  intro _
  have hone := hp.1
  dsimp only
  omega

/-- Only the entry of `start_send` sends the thread to wait without a write. -/
theorem awaited_thread {s s' : Sender} (hinv : s.Inv) (hs : s.Awaited)
    (hstart : s.thread = .startSend → s.mRunning = true) (h : s.threadStep = some s') :
    s'.Awaited := by
  cases threadStep_move h with
  | writeTcp hthread | writeUdp hthread =>
    intro _
    simp only [List.length_append, List.length_singleton]
    omega
  | numDoSends hthread =>
    have hlen := hs (by rw [hthread]; rfl)
    exact fun _ => hlen
  | unlockEmpty hthread => exact absurd hthread hinv.nonempty
  | startEnd hthread hrun =>
    rw [hstart hthread] at hrun
    cases hrun
  | _ => exact nofun

/-- The thread leaves `m_running` alone and ends only at the loop test of `RunSend`. -/
theorem threadStep_running {s s' : Sender} (h : s.threadStep = some s') :
    s'.mRunning = s.mRunning ∧ (s'.thread = .exited → s.mRunning = false) := by
  cases threadStep_move h with
  | runEnd hthread hrun => exact ⟨rfl, fun _ => hrun⟩
  | _ => exact ⟨rfl, nofun⟩

/-- What holds of the thread until `close` is called. -/
def BeforeClose (s : Sender) : Prop := s.mRunning = true → s.Awaited ∧ s.thread ≠ .exited

theorem beforeClose_step {s s' : Sender} {e : Event} (hinv : s.Inv) (hs : s.BeforeClose)
    (h : Step s e s') : s'.BeforeClose := by
  cases e with
  | send sending =>
    cases h
    exact hs
  | call =>
    have hcall := h
    obtain ⟨before, pc, after, permits, t, pc', -, -, hstep, rfl⟩ := h
    obtain ⟨hthread, hrun, -, -⟩ := callStep_same hstep
    intro hrunning
    obtain ⟨hawaited, hexit⟩ := hs (hrun ▸ hrunning)
    refine ⟨awaited_call hawaited hcall, ?_⟩
    dsimp only
    rwa [hthread]
  | thread =>
    obtain ⟨hrun, hexit⟩ := threadStep_running h
    intro hrunning
    rw [hrun] at hrunning
    refine ⟨awaited_thread hinv (hs hrunning).1 (fun _ => hrunning) h, fun he => ?_⟩
    rw [hexit he] at hrunning
    cases hrunning
  | complete =>
    have hawaited := awaited_complete h
    obtain ⟨before, w, after, permits, -, -, rfl⟩ := h
    exact fun hrunning => ⟨hawaited, (hs hrunning).2⟩
  | stop =>
    cases h
    exact nofun

theorem exec_beforeClose {tr : List (Sender × Event)} {s : Sender} (h : system.Exec tr s) :
    s.Inv ∧ s.BeforeClose :=
  h.inv (fun s => s.Inv ∧ s.BeforeClose)
    (fun s hi => ⟨inv_init hi, fun _ => ⟨by simp [Awaited, hi.thread, SenderPc.awaits], by simp [hi.thread]⟩⟩)
    fun _ _ _ hs hst => ⟨inv_step hs.1 hst, beforeClose_step hs.1 hs.2 hst⟩

end Sender

/-! ### Closing -/

/-- The next statement of `close`, after `m_running = false`. -/
inductive CloserPc where
  | socketClose
  | join
  /-- `m_connections.erase(m_port)`, on UDP only -/
  | erase
  | closed
  deriving DecidableEq, Repr

/-- A connection that is being closed. -/
structure Closing where
  sender : Sender
  mPort : UInt16
  /-- the keys of `m_udp_server->m_connections` -/
  mConnections : List UInt16
  closer : CloserPc

inductive ClosingEvent where
  | closer
  /-- a `Send` call that was under way takes a step -/
  | call
  | thread
  | complete
  deriving DecidableEq, Repr

namespace Closing

/-- The next statement of the closer; `none` while it waits and after the end. A
socket that is closed ends its writes with an error; their handlers still run. -/
def closerStep (c : Closing) : Option Closing :=
  match c.closer with
  | .socketClose => some { c with closer := .join }
  | .join =>
    if c.sender.thread = .exited then
      some { c with closer := match c.sender.type with
        | .tcp => .closed
        | .udp => .erase }
    else none
  | .erase =>
    some { c with mConnections := c.mConnections.filter (· ≠ c.mPort), closer := .closed }
  | .closed => none

def Step (c : Closing) (e : ClosingEvent) (c' : Closing) : Prop :=
  match e with
  | .closer => c.closerStep = some c'
  | .call => ∃ t, Sender.Step c.sender .call t ∧ c' = { c with sender := t }
  | .thread => ∃ t, Sender.Step c.sender .thread t ∧ c' = { c with sender := t }
  | .complete => ∃ t, Sender.Step c.sender .complete t ∧ c' = { c with sender := t }

/-- `close` has just cleared `m_running` of the connection `s`. -/
structure Init (s : Sender) (c : Closing) : Prop where
  sender : c.sender = { s with mRunning := false }
  closer : c.closer = .socketClose

/-- What can happen from the call of `close` on, when nobody calls `Send` any more. -/
def system (s : Sender) : System Closing ClosingEvent := ⟨Init s, Step⟩

/-- The closer waits for a thread that has not exited, and neither the thread nor a
completion handler can take a step. A thread that ran over the buffer is not waited
for: the process is gone. -/
structure Stuck (c : Closing) : Prop where
  join : c.closer = .join
  exited : c.sender.thread ≠ .exited
  crashed : ∀ msg, c.sender.thread ≠ .crashed msg
  thread : ¬ ∃ c', Step c .thread c'
  complete : ¬ ∃ c', Step c .complete c'

end Closing

namespace Sender

/-- The thread is not between the two tests of `m_running`, has a permit when it is at
the second semaphore, and finds `m_send_lock` free. -/
structure Closable (s : Sender) : Prop where
  start : s.thread ≠ .startSend
  permit : s.thread = .acquire2 → s.mSendsSemaphore2 ≠ 0
  lock : s.thread = .acquire2 ∨ s.thread = .lock → ∀ pc ∈ s.calls, pc = .release

/-! ### A closable connection closes -/

theorem Inv.lock_free {s : Sender} (hs : s.Inv) (hthread : s.thread.holdsLock = false)
    (hcalls : ∀ pc ∈ s.calls, pc.holdsLock = false) : s.mSendLock = false := by
  have hlock := hs.lock
  have hnone : s.calls.countP CallPc.holdsLock = 0 :=
    List.countP_eq_zero.mpr fun pc hpc => by simp [hcalls pc hpc]
  rw [hthread, hnone] at hlock
  cases hl : s.mSendLock with
  | false => rfl
  | true =>
    rw [hl] at hlock
    cases hlock

/-- A step of a call releases a permit, or happens while the thread is elsewhere. -/
theorem closable_call {s s' : Sender} (hs : s.Closable) (h : Step s .call s') : s'.Closable := by
  obtain ⟨before, pc, after, permits, t, pc', hcalls, hp, hstep, rfl⟩ := h
  obtain ⟨hthread, -, -, -⟩ := callStep_same hstep
  have hmem : pc ∈ s.calls := by simp [hcalls]
  refine ⟨fun h => hs.start (hthread ▸ h), fun h => ?_, fun h => ?_⟩
  · have hrel := hs.lock (Or.inl (hthread ▸ h)) pc hmem
    rw [hrel] at hstep
    cases hstep
    exact Nat.one_le_iff_ne_zero.mp hp.1
  · have hall := hs.lock (hthread ▸ h)
    have hrel := hall pc hmem
    rw [hrel] at hstep
    cases hstep
    intro x hx
    apply hall
    simp only [Option.toList_none, List.append_nil, List.mem_append] at hx
    rw [hcalls, List.mem_append, List.mem_cons]
    tauto

/-- With `m_running` cleared the thread goes back to neither semaphore. -/
theorem closable_thread {s s' : Sender} (hs : s.Closable) (hrun : s.mRunning = false)
    (h : s.threadStep = some s') : s'.Closable := by
  cases threadStep_move h with
  | runSend hthread hrunning =>
    rw [hrun] at hrunning
    cases hrunning
  | startSend hthread | startEnd hthread => exact absurd hthread hs.start
  | acquire2 hthread => exact ⟨nofun, nofun, fun _ => hs.lock (Or.inl hthread)⟩
  | _ => exact ⟨nofun, nofun, nofun⟩

/-- While the connection is closed, the thread has all it needs to get to its end. -/
structure ClosingInv (s : Sender) : Prop where
  inv : s.Inv
  running : s.mRunning = false
  awaited : s.Awaited
  closable : s.Closable

theorem closingInv_step {s s' : Sender} {e : Event} (hs : s.ClosingInv)
    (he : e = .call ∨ e = .thread ∨ e = .complete) (h : Step s e s') : s'.ClosingInv := by
  have hinv := inv_step hs.inv h
  rcases he with rfl | rfl | rfl
  · refine ⟨hinv, ?_, awaited_call hs.awaited h, closable_call hs.closable h⟩
    obtain ⟨before, pc, after, permits, t, pc', -, -, hstep, rfl⟩ := h
    exact (callStep_same hstep).2.1.trans hs.running
  · refine ⟨hinv, (threadStep_running h).1.trans hs.running, ?_, closable_thread hs.closable hs.running h⟩
    exact awaited_thread hs.inv hs.awaited (fun hthread => absurd hthread hs.closable.start) h
  · have hawaited := awaited_complete h
    obtain ⟨before, w, after, permits, -, -, rfl⟩ := h
    exact ⟨hinv, hs.running, hawaited, hs.closable.start, hs.closable.permit, hs.closable.lock⟩

/-- What the thread waits for is not there. -/
inductive Blocked (s : Sender) : Prop where
  | acquire1 (hthread : s.thread = .acquire1) (hzero : s.mSendsSemaphore1 = 0)
  | acquire2 (hthread : s.thread = .acquire2) (hzero : s.mSendsSemaphore2 = 0)
  | lock (hthread : s.thread = .lock) (hlock : s.mSendLock = true)

theorem Blocked.threadStep_eq_none {s : Sender} (h : s.Blocked) : s.threadStep = none := by
  cases h with
  | acquire1 hthread hzero | acquire2 hthread hzero =>
    simp only [threadStep, hthread]
    exact if_pos hzero
  | lock hthread hlock =>
    simp only [threadStep, hthread]
    exact if_pos hlock

theorem Blocked.not_ended {s : Sender} (h : s.Blocked) :
    s.thread ≠ .exited ∧ ∀ msg, s.thread ≠ .crashed msg := by
  cases h with
  | acquire1 hthread | acquire2 hthread | lock hthread =>
    rw [hthread]
    exact ⟨nofun, nofun⟩

theorem blocked_of_eq_none {s : Sender} (h : s.threadStep = none) (hexit : s.thread ≠ .exited)
    (hcrash : ∀ msg, s.thread ≠ .crashed msg) : s.Blocked := by
  cases hthread : s.thread with
  | acquire1 =>
    simp only [threadStep, hthread] at h
    split_ifs at h with hzero
    exact .acquire1 hthread hzero
  | acquire2 =>
    simp only [threadStep, hthread] at h
    split_ifs at h with hzero
    exact .acquire2 hthread hzero
  | lock =>
    simp only [threadStep, hthread] at h
    split_ifs at h with hlock
    exact .lock hthread hlock
  | front =>
    simp only [threadStep, hthread] at h
    split at h
    · cases h
    · cases h
  | copy msg =>
    simp only [threadStep, hthread] at h
    split_ifs at h
  | exited => exact absurd hthread hexit
  | crashed msg => exact absurd hthread (hcrash msg)
  | _ =>
    simp only [threadStep, hthread] at h
    cases h

/-- Wherever the thread is before its end, it can move, or a handler can. -/
theorem ClosingInv.moves {s : Sender} (hs : s.ClosingInv) (hexit : s.thread ≠ .exited)
    (hcrash : ∀ msg, s.thread ≠ .crashed msg) :
    (∃ t, Step s .thread t) ∨ ∃ t, Step s .complete t := by
  by_cases hnone : s.threadStep = none
  · right
    cases blocked_of_eq_none hnone hexit hcrash with
    | acquire1 hthread hzero =>
      have hlen := hs.awaited (by rw [hthread]; rfl)
      obtain ⟨w, rest, hw⟩ := List.exists_cons_of_length_pos (by omega : 0 < s.writes.length)
      exact ⟨_, [], w, rest, 1, hw, ⟨le_refl 1, Nat.le_add_left 1 _⟩, rfl⟩
    | acquire2 hthread hzero => exact absurd hzero (hs.closable.permit hthread)
    | lock hthread hlock =>
      have hfree : s.mSendLock = false := by
        refine hs.inv.lock_free (by rw [hthread]; rfl) fun pc hpc => ?_
        rw [hs.closable.lock (Or.inr hthread) pc hpc]
        rfl
      rw [hlock] at hfree
      cases hfree
  · obtain ⟨t, ht⟩ := Option.ne_none_iff_exists'.mp hnone
    exact Or.inl ⟨t, ht⟩

end Sender

namespace Closing

theorem step_sender {c c' : Closing} {e : ClosingEvent} (h : Step c e c') :
    c'.sender = c.sender ∨
      ∃ e', (e' = .call ∨ e' = .thread ∨ e' = .complete) ∧ Sender.Step c.sender e' c'.sender := by
  cases e with
  | closer =>
    left
    change c.closerStep = some c' at h
    unfold closerStep at h
    split at h
    · cases h
      rfl
    · split_ifs at h
      cases h
      rfl
    · cases h
      rfl
    · cases h
  | call =>
    obtain ⟨t, ht, rfl⟩ := h
    exact Or.inr ⟨_, Or.inl rfl, ht⟩
  | thread =>
    obtain ⟨t, ht, rfl⟩ := h
    exact Or.inr ⟨_, Or.inr (Or.inl rfl), ht⟩
  | complete =>
    obtain ⟨t, ht, rfl⟩ := h
    exact Or.inr ⟨_, Or.inr (Or.inr rfl), ht⟩

theorem exec_closingInv {s : Sender} (h0 : Sender.ClosingInv { s with mRunning := false })
    {tr : List (Closing × ClosingEvent)} {c : Closing} (h : (system s).Exec tr c) :
    c.sender.ClosingInv := by
  refine h.inv (fun c => c.sender.ClosingInv) (fun c hi => ?_) fun c e c' hc hst => ?_
  · rw [hi.sender]
    exact h0
  · rcases step_sender hst with heq | ⟨e', he', hst⟩
    · rw [heq]
      exact hc
    · exact Sender.closingInv_step hc he' hst

theorem not_stuck {c : Closing} (hc : c.sender.ClosingInv) : ¬ c.Stuck := by
  intro hstuck
  rcases hc.moves hstuck.exited hstuck.crashed with ⟨t, ht⟩ | ⟨t, ht⟩
  · exact hstuck.thread ⟨_, t, ht, rfl⟩
  · exact hstuck.complete ⟨_, t, ht, rfl⟩

/-! ### A connection that is not closable gets stuck -/

variable {s : Sender}

/-- The closer reaches its `join` at once. -/
def AtJoin (s : Sender) (c : Closing) : Prop := c.sender = s ∧ c.closer = .join

theorem exec_atJoin (s : Sender) : ∃ tr c, (system s).Exec tr c ∧
    AtJoin { s with mRunning := false } c := by
  have h0 : (system s).Exec [] ⟨{ s with mRunning := false }, 0, [], .socketClose⟩ := .nil ⟨rfl, rfl⟩
  exact ⟨_, _, h0.next .closer _ rfl, rfl, rfl⟩

/-- A step of the sender while the closer waits. -/
theorem exec_atJoin_step {t t' : Sender} {e : Sender.Event}
    (h : ∃ tr c, (system s).Exec tr c ∧ AtJoin t c) (he : e = .call ∨ e = .thread)
    (hst : Sender.Step t e t') : ∃ tr c, (system s).Exec tr c ∧ AtJoin t' c := by
  obtain ⟨tr, c, h, rfl, hjoin⟩ := h
  rcases he with rfl | rfl
  · exact ⟨_, _, h.next .call { c with sender := t' } ⟨t', hst, rfl⟩, rfl, hjoin⟩
  · exact ⟨_, _, h.next .thread { c with sender := t' } ⟨t', hst, rfl⟩, rfl, hjoin⟩

/-- The thread waits for something that is not there, and no write is outstanding. -/
theorem stuck_of_blocked {t : Sender} (h : ∃ tr c, (system s).Exec tr c ∧ AtJoin t c)
    (hblocked : t.Blocked) (hwrites : t.writes = []) :
    ∃ tr c, (system s).Exec tr c ∧ c.Stuck := by
  obtain ⟨tr, c, h, rfl, hjoin⟩ := h
  obtain ⟨hexit, hcrash⟩ := hblocked.not_ended
  refine ⟨tr, c, h, hjoin, hexit, hcrash, ?_, ?_⟩
  · rintro ⟨c', t, ht, -⟩
    rw [Sender.Step, hblocked.threadStep_eq_none] at ht
    cases ht
  · rintro ⟨c', t, ⟨before, w, after, permits, hw, -, -⟩, -⟩
    rw [hwrites] at hw
    exact absurd hw (by simp)

theorem writes_of_ownsBuffer (hs : s.Inv) (hthread : s.thread.ownsBuffer = true) :
    s.writes = [] ∧ s.mSendsSemaphore1 = 0 := by
  have hbuffer := hs.buffer
  rw [hthread, Bool.toNat_true] at hbuffer
  exact ⟨List.length_eq_zero_iff.mp (by omega), by omega⟩

/-- A call that has its lock still to take or to leave keeps the thread off the queue. -/
theorem stuck_at_lock {t : Sender} (h : ∃ tr c, (system s).Exec tr c ∧ AtJoin t c)
    (hinv : t.Inv) (hthread : t.thread = .lock) {pc : CallPc} (hpc : pc ∈ t.calls)
    (hrel : pc ≠ .release) : ∃ tr c, (system s).Exec tr c ∧ c.Stuck := by
  have hwrites := (writes_of_ownsBuffer hinv (by rw [hthread]; rfl)).1
  by_cases hlock : t.mSendLock = true
  · exact stuck_of_blocked h (.lock hthread hlock) hwrites
  · have hfree : t.mSendLock = false := by simpa using hlock
    have hcalls : pc.holdsLock = false := by
      have hcount := hinv.lock
      rw [hfree, Bool.toNat_false, Nat.add_eq_zero_iff] at hcount
      simpa using List.countP_eq_zero.mp hcount.1 pc hpc
    obtain ⟨before, after, hsplit⟩ := List.append_of_mem hpc
    cases pc with
    | lock sending =>
      have hst : Sender.Step t .call { t with
          mSendLock := true, calls := before ++ [.push sending] ++ after } :=
        ⟨before, _, after, t.mSendsSemaphore2 + 1, { t with mSendLock := true }, _, hsplit,
          ⟨Nat.le_add_left 1 _, le_refl _⟩, by rw [Sender.callStep, hfree]; rfl, rfl⟩
      exact stuck_of_blocked (exec_atJoin_step h (Or.inl rfl) hst) (.lock hthread rfl) hwrites
    | release => exact absurd rfl hrel
    | _ => cases hcalls

theorem stuck_of_not_closable (hs : s.Inv) (h : ¬ s.Closable) :
    ∃ tr c, (system s).Exec tr c ∧ c.Stuck := by
  have hclear : Sender.Inv { s with mRunning := false } := Sender.inv_step hs (e := .stop) rfl
  have hjoin := exec_atJoin s
  by_cases hstart : s.thread = .startSend
  · obtain ⟨hwrites, hzero⟩ := writes_of_ownsBuffer hs (by rw [hstart]; rfl)
    have hmove : Sender.ThreadMove { s with mRunning := false } _ := .startEnd hstart rfl
    exact stuck_of_blocked (exec_atJoin_step hjoin (Or.inr rfl) hmove.step)
      (.acquire1 rfl hzero) hwrites
  · by_cases hpermit : s.thread = .acquire2 ∧ s.mSendsSemaphore2 = 0
    · have hwrites := (writes_of_ownsBuffer hs (by rw [hpermit.1]; rfl)).1
      exact stuck_of_blocked hjoin (.acquire2 hpermit.1 hpermit.2) hwrites
    · have hlock : ∃ pc ∈ s.calls, pc ≠ .release ∧ (s.thread = .acquire2 ∨ s.thread = .lock) := by
        by_contra hnone
        refine h ⟨hstart, fun h2 hzero => hpermit ⟨h2, hzero⟩, fun hl pc hpc => ?_⟩
        by_contra hrel
        exact hnone ⟨pc, hpc, hrel, hl⟩
      obtain ⟨pc, hpc, hrel, h2 | hl⟩ := hlock
      · have hmove : Sender.ThreadMove { s with mRunning := false } _ :=
          .acquire2 h2 fun hzero => hpermit ⟨h2, hzero⟩
        have hinv := Sender.inv_step (e := .thread) hclear hmove.step
        exact stuck_at_lock (exec_atJoin_step hjoin (Or.inr rfl) hmove.step) hinv rfl hpc hrel
      · exact stuck_at_lock hjoin hclear hl hpc hrel

/-- No closing of a running connection gets stuck, if and only if it is closable when
`close` clears `m_running`. -/
theorem never_stuck_iff_closable (tr : List (Sender × Sender.Event)) (s : Sender)
    (h : Sender.system.Exec tr s) (hrun : s.mRunning = true) :
    (∀ tr' c, (system s).Exec tr' c → ¬ c.Stuck) ↔ s.Closable := by
  obtain ⟨hinv, hbefore⟩ := Sender.exec_beforeClose h
  constructor
  · intro hnever
    by_contra hclosable
    obtain ⟨tr', c, hexec, hstuck⟩ := stuck_of_not_closable hinv hclosable
    exact hnever tr' c hexec hstuck
  · intro hclosable tr' c hexec
    refine not_stuck (exec_closingInv ⟨Sender.inv_step hinv (e := .stop) rfl, rfl, ?_, ?_⟩ hexec)
    · exact (hbefore hrun).1
    · exact ⟨hclosable.start, hclosable.permit, hclosable.lock⟩

/-! ### A close during a write, and one of an idle connection -/

theorem writing_close_never_stuck : Sender.writingSender.mRunning = true ∧
    ∀ tr' c, (system Sender.writingSender).Exec tr' c → ¬ c.Stuck := by
  obtain ⟨tr, h⟩ := Sender.writingSender_exec
  refine ⟨rfl, (never_stuck_iff_closable tr _ h rfl).mpr ⟨nofun, nofun, fun hthread => ?_⟩⟩
  rcases hthread with hthread | hthread
  · cases hthread
  · cases hthread

/-- The thread waits for a message that never comes. -/
theorem idle_close_stuck : ∃ tr s, Sender.system.Exec tr s ∧ s.mRunning = true ∧
    s.calls = [] ∧ s.pushed = [] ∧ ∃ tr' c, (system s).Exec tr' c ∧ c.Stuck := by
  have h := (Sender.freshSender_exec.next .thread _ rfl).next .thread _ rfl
  obtain ⟨hinv, -⟩ := Sender.exec_beforeClose h
  exact ⟨_, _, h, rfl, rfl, rfl, stuck_of_not_closable hinv fun hc => hc.permit rfl rfl⟩

end Closing

end GameServer
