import GameServer.Network.Sender

/-! Safety of the send path: permits, pushes and pops are counted against each
other, and the two semaphores keep the buffer with one write at a time. -/

namespace GameServer

open Lib

/-! ### What a program counter stands for -/

/-- The call holds `m_send_lock`. -/
def CallPc.holdsLock : CallPc → Bool
  | .push _ | .queueLen | .numTrySends | .unlock => true
  | .lock _ | .release => false

/-- The call has pushed its frame and not yet counted it. -/
def CallPc.uncounted : CallPc → Bool
  | .queueLen => true
  | _ => false

/-- The call has pushed its frame and not yet released the permit for it. -/
def CallPc.unreleased : CallPc → Bool
  | .queueLen | .numTrySends | .unlock | .release => true
  | .lock _ | .push _ => false

namespace SenderPc

/-- The thread holds `m_send_lock`. -/
def holdsLock : SenderPc → Bool
  | .front | .queueLen _ | .unlock _ | .unlockEmpty => true
  | _ => false

/-- The thread holds a permit of `m_sends_semaphore_2` and has not popped yet. -/
def holdsPermit : SenderPc → Bool
  | .lock | .front => true
  | _ => false

/-- The thread has popped a frame and not yet counted it. -/
def uncounted : SenderPc → Bool
  | .queueLen _ => true
  | _ => false

/-- The thread may still use the buffer before it waits for a completion. -/
def ownsBuffer : SenderPc → Bool
  | .numDoSends | .acquire1 | .exited | .crashed _ => false
  | _ => true

/-- The frame that was popped and is not handed over. -/
def inHand : SenderPc → List (List UInt8)
  | .queueLen msg | .unlock msg | .copy msg | .write msg | .crashed msg => [msg]
  | _ => []

end SenderPc

namespace Sender

/-! ### The statements of the sender thread -/

/-- What the thread does in one step, from each of its statements. -/
inductive ThreadMove (s : Sender) : Sender → Prop where
  | runSend (hthread : s.thread = .runSend) (hrun : s.mRunning = true) :
    ThreadMove s { s with thread := .startSend }
  | runEnd (hthread : s.thread = .runSend) (hrun : s.mRunning = false) :
    ThreadMove s { s with thread := .exited }
  | startSend (hthread : s.thread = .startSend) (hrun : s.mRunning = true) :
    ThreadMove s { s with thread := .acquire2 }
  | startEnd (hthread : s.thread = .startSend) (hrun : s.mRunning = false) :
    ThreadMove s { s with thread := .acquire1 }
  | acquire2 (hthread : s.thread = .acquire2) (hpos : s.mSendsSemaphore2 ≠ 0) :
    ThreadMove s { s with mSendsSemaphore2 := s.mSendsSemaphore2 - 1, thread := .lock }
  | lock (hthread : s.thread = .lock) (hfree : s.mSendLock = false) :
    ThreadMove s { s with mSendLock := true, thread := .front }
  | front {msg : List UInt8} {rest : List (List UInt8)} (hthread : s.thread = .front)
    (hq : s.mSendMessages = msg :: rest) :
    ThreadMove s { s with mSendMessages := rest, thread := .queueLen msg }
  | frontEmpty (hthread : s.thread = .front) (hq : s.mSendMessages = []) :
    ThreadMove s { s with thread := .unlockEmpty }
  | queueLen {msg : List UInt8} (hthread : s.thread = .queueLen msg) :
    ThreadMove s { s with mSendQueueLen := s.mSendQueueLen - 1, thread := .unlock msg }
  | unlock {msg : List UInt8} (hthread : s.thread = .unlock msg) :
    ThreadMove s { s with mSendLock := false, thread := .copy msg }
  | unlockEmpty (hthread : s.thread = .unlockEmpty) :
    ThreadMove s { s with mSendLock := false, thread := .acquire1 }
  | copy {msg : List UInt8} (hthread : s.thread = .copy msg) (hfits : msg.length ≤ sendBufferSize) :
    ThreadMove s { s with
      mSendBuffer := fun i => if i < msg.length then msg.getD i 0 else s.mSendBuffer i
      thread := .write msg }
  | overrun {msg : List UInt8} (hthread : s.thread = .copy msg)
    (hlong : ¬ msg.length ≤ sendBufferSize) : ThreadMove s { s with thread := .crashed msg }
  | writeTcp {msg : List UInt8} (hthread : s.thread = .write msg) (htype : s.type = .tcp) :
    ThreadMove s { s with
      writes := s.writes ++ [s.bufferBytes msg.length]
      handed := s.handed ++ [s.bufferBytes msg.length]
      thread := .acquire1 }
  | writeUdp {msg : List UInt8} (hthread : s.thread = .write msg) (htype : s.type = .udp) :
    ThreadMove s { s with
      writes := s.writes ++ [s.bufferBytes msg.length]
      handed := s.handed ++ [s.bufferBytes msg.length]
      thread := .numDoSends }
  | numDoSends (hthread : s.thread = .numDoSends) :
    ThreadMove s { s with mNumDoSends := s.mNumDoSends + 1, thread := .acquire1 }
  | acquire1 (hthread : s.thread = .acquire1) (hpos : s.mSendsSemaphore1 ≠ 0) :
    ThreadMove s { s with mSendsSemaphore1 := s.mSendsSemaphore1 - 1, thread := .runSend }

theorem threadStep_move {s s' : Sender} (h : s.threadStep = some s') : s.ThreadMove s' := by
  cases hthread : s.thread with
  | runSend =>
    simp only [threadStep, hthread] at h
    cases h
    split_ifs with hrun
    · exact .runSend hthread hrun
    · exact .runEnd hthread (by simpa using hrun)
  | startSend =>
    simp only [threadStep, hthread] at h
    cases h
    split_ifs with hrun
    · exact .startSend hthread hrun
    · exact .startEnd hthread (by simpa using hrun)
  | acquire2 =>
    simp only [threadStep, hthread] at h
    split_ifs at h with hzero
    cases h
    exact .acquire2 hthread hzero
  | lock =>
    simp only [threadStep, hthread] at h
    split_ifs at h with hlock
    cases h
    exact .lock hthread (by simpa using hlock)
  | front =>
    simp only [threadStep, hthread] at h
    split at h
    · next hq =>
      cases h
      exact .frontEmpty hthread hq
    · next hq =>
      cases h
      exact .front hthread hq
  | queueLen msg =>
    simp only [threadStep, hthread] at h
    cases h
    exact .queueLen hthread
  | unlock msg =>
    simp only [threadStep, hthread] at h
    cases h
    exact .unlock hthread
  | unlockEmpty =>
    simp only [threadStep, hthread] at h
    cases h
    exact .unlockEmpty hthread
  | copy msg =>
    simp only [threadStep, hthread] at h
    split_ifs at h with hfits
    · cases h
      exact .copy hthread hfits
    · cases h
      exact .overrun hthread hfits
  | write msg =>
    simp only [threadStep, hthread] at h
    cases h
    split
    · next htype => exact .writeTcp hthread htype
    · next htype => exact .writeUdp hthread htype
  | numDoSends =>
    simp only [threadStep, hthread] at h
    cases h
    exact .numDoSends hthread
  | acquire1 =>
    simp only [threadStep, hthread] at h
    split_ifs at h with hzero
    cases h
    exact .acquire1 hthread hzero
  | exited | crashed msg =>
    simp only [threadStep, hthread] at h
    cases h

theorem ThreadMove.step {s s' : Sender} (h : s.ThreadMove s') : s.threadStep = some s' := by
  cases h with
  | runSend hthread hrun | runEnd hthread hrun | startSend hthread hrun | startEnd hthread hrun =>
    simp only [threadStep, hthread, hrun]
    rfl
  | lock hthread hfree =>
    simp only [threadStep, hthread, hfree]
    rfl
  | front hthread hq | frontEmpty hthread hq =>
    simp only [threadStep, hthread, hq]
  | acquire2 hthread hpos | acquire1 hthread hpos =>
    simp only [threadStep, hthread]
    exact if_neg hpos
  | copy hthread hfits =>
    simp only [threadStep, hthread]
    exact if_pos hfits
  | overrun hthread hlong =>
    simp only [threadStep, hthread]
    exact if_neg hlong
  | queueLen hthread | unlock hthread | unlockEmpty hthread | numDoSends hthread =>
    simp only [threadStep, hthread]
  | writeTcp hthread htype | writeUdp hthread htype =>
    simp only [threadStep, hthread, htype]

/-! ### The invariant -/

structure Inv (s : Sender) : Prop where
  lock : s.calls.countP CallPc.holdsLock + s.thread.holdsLock.toNat = s.mSendLock.toNat
  permits : s.mSendsSemaphore2 + s.thread.holdsPermit.toNat + s.calls.countP CallPc.unreleased ≤
    s.mSendMessages.length
  buffer : s.writes.length + s.mSendsSemaphore1 + s.thread.ownsBuffer.toNat ≤ 1
  frames : s.pushed = s.handed ++ s.thread.inHand ++ s.mSendMessages
  length : s.mSendQueueLen + s.calls.countP CallPc.uncounted =
    s.mSendMessages.length + s.thread.uncounted.toNat
  copied : ∀ msg, s.thread = .write msg → s.bufferBytes msg.length = msg
  intact : ∀ w ∈ s.writes, s.bufferBytes w.length = w
  nonempty : s.thread ≠ .unlockEmpty

theorem inv_init {s : Sender} (h : s.Init) : s.Inv := by
  refine ⟨?_, ?_, ?_, ?_, ?_, ?_, ?_, ?_⟩ <;>
    simp [h.mSendMessages, h.mSendQueueLen, h.mSendLock, h.mSendsSemaphore1, h.mSendsSemaphore2,
      h.calls, h.thread, h.writes, h.pushed, h.handed, SenderPc.holdsLock, SenderPc.holdsPermit,
      SenderPc.ownsBuffer, SenderPc.inHand, SenderPc.uncounted]

theorem inv_send {s : Sender} (hs : s.Inv) (sending : List UInt8) :
    ({ s with calls := s.calls ++ [.lock sending] } : Sender).Inv := by
  refine ⟨?_, ?_, hs.buffer, hs.frames, ?_, hs.copied, hs.intact, hs.nonempty⟩
  · simpa [List.countP_append, CallPc.holdsLock] using hs.lock
  · simpa [List.countP_append, CallPc.unreleased] using hs.permits
  · simpa [List.countP_append, CallPc.uncounted] using hs.length

theorem countP_at (p : CallPc → Bool) (before after : List CallPc) (pc : CallPc) :
    (before ++ pc :: after).countP p = before.countP p + after.countP p + (p pc).toNat := by
  rw [List.countP_append, List.countP_cons]
  cases p pc <;> simp [Nat.add_assoc]

theorem countP_replaced (p : CallPc → Bool) (before after : List CallPc) (pc' : Option CallPc) :
    (before ++ pc'.toList ++ after).countP p =
      before.countP p + after.countP p + (pc'.any p).toNat := by
  cases pc' with
  | none => simp
  | some pc => rw [Option.toList_some, List.append_assoc, List.singleton_append, countP_at,
      Option.any_some]

/-- The invariant after a step of one call, with what the other calls count for. -/
theorem inv_replaced {t : Sender} {before after : List CallPc} {pc' : Option CallPc}
    (lock : before.countP CallPc.holdsLock + after.countP CallPc.holdsLock +
      (pc'.any CallPc.holdsLock).toNat + t.thread.holdsLock.toNat = t.mSendLock.toNat)
    (permits : t.mSendsSemaphore2 + t.thread.holdsPermit.toNat +
      (before.countP CallPc.unreleased + after.countP CallPc.unreleased +
        (pc'.any CallPc.unreleased).toNat) ≤ t.mSendMessages.length)
    (buffer : t.writes.length + t.mSendsSemaphore1 + t.thread.ownsBuffer.toNat ≤ 1)
    (frames : t.pushed = t.handed ++ t.thread.inHand ++ t.mSendMessages)
    (length : t.mSendQueueLen + (before.countP CallPc.uncounted + after.countP CallPc.uncounted +
      (pc'.any CallPc.uncounted).toNat : ℕ) = t.mSendMessages.length + t.thread.uncounted.toNat)
    (copied : ∀ msg, t.thread = .write msg → t.bufferBytes msg.length = msg)
    (intact : ∀ w ∈ t.writes, t.bufferBytes w.length = w) (nonempty : t.thread ≠ .unlockEmpty) :
    ({ t with calls := before ++ pc'.toList ++ after } : Sender).Inv := by
  refine ⟨?_, ?_, buffer, frames, ?_, copied, intact, nonempty⟩
  · rw [countP_replaced]
    exact lock
  · rw [countP_replaced]
    exact permits
  · rw [countP_replaced]
    exact length

theorem inv_call {s t : Sender} {before after : List CallPc} {pc : CallPc}
    {pc' : Option CallPc} {permits : ℕ} (hs : s.Inv) (hcalls : s.calls = before ++ pc :: after)
    (hp : Released s.mSendsSemaphore2 permits) (h : s.callStep permits pc = some (t, pc')) :
    ({ t with calls := before ++ pc'.toList ++ after } : Sender).Inv := by
  obtain ⟨hlock, hpermits, hbuffer, hframes, hlen, hcopied, hintact, hne⟩ := hs
  rw [hcalls, countP_at] at hlock hpermits hlen
  cases pc with
  | lock sending =>
    simp only [callStep] at h
    split_ifs at h with hfree
    cases h
    refine inv_replaced ?_ hpermits hbuffer hframes hlen hcopied hintact hne
    simp only [hfree, Option.any, CallPc.holdsLock, Bool.toNat_true, Bool.toNat_false] at hlock ⊢
    omega
  | push sending =>
    cases h
    refine inv_replaced hlock ?_ hbuffer ?_ ?_ hcopied hintact hne
    · simp only [Option.any, CallPc.unreleased, Bool.toNat_true, Bool.toNat_false,
        List.length_append, List.length_singleton] at hpermits ⊢
      omega
    · rw [hframes, List.append_assoc]
    · simp only [Option.any, CallPc.uncounted, Bool.toNat_true, Bool.toNat_false,
        List.length_append, List.length_singleton] at hlen ⊢
      omega
  | queueLen =>
    cases h
    refine inv_replaced ?_ ?_ hbuffer hframes ?_ hcopied hintact hne
    · cases s.type <;> exact hlock
    · cases s.type <;> exact hpermits
    · simp only [CallPc.uncounted, Bool.toNat_true] at hlen
      cases s.type <;> simp only [Option.any, CallPc.uncounted, Bool.toNat_false] <;> omega
  | numTrySends =>
    cases h
    exact inv_replaced hlock hpermits hbuffer hframes hlen hcopied hintact hne
  | unlock =>
    cases h
    refine inv_replaced ?_ hpermits hbuffer hframes hlen hcopied hintact hne
    have hle := s.mSendLock.toNat_le
    simp only [Option.any, CallPc.holdsLock, Bool.toNat_true, Bool.toNat_false] at hlock ⊢
    omega
  | release =>
    cases h
    refine inv_replaced hlock ?_ hbuffer hframes hlen hcopied hintact hne
    have hle := hp.2
    simp only [Option.any, CallPc.unreleased, Bool.toNat_true, Bool.toNat_false] at hpermits ⊢
    omega

theorem bufferBytes_copy (s : Sender) (msg : List UInt8) :
    ({ s with
      mSendBuffer := fun i => if i < msg.length then msg.getD i 0 else s.mSendBuffer i
      thread := .write msg } : Sender).bufferBytes msg.length = msg := by
  apply List.ext_getElem
  · simp [bufferBytes]
  · intro i h₁ h₂
    simp [bufferBytes, h₂]

/-! ### The sender thread -/

section Thread

variable {s s' : Sender} {msg : List UInt8}

/-- The permit that the thread holds is backed by a frame. -/
theorem Inv.front_nonempty (hs : s.Inv) (hthread : s.thread = .front) : s.mSendMessages ≠ [] := by
  intro hnil
  have hpermits := hs.permits
  rw [hthread, hnil] at hpermits
  simp only [SenderPc.holdsPermit, Bool.toNat_true, List.length_nil] at hpermits
  omega

/-- The thread owns the buffer, so no write is outstanding. -/
theorem Inv.copy_writes (hs : s.Inv) (hthread : s.thread = .copy msg) : s.writes = [] := by
  have hbuffer := hs.buffer
  rw [hthread] at hbuffer
  simp only [SenderPc.ownsBuffer, Bool.toNat_true] at hbuffer
  exact List.length_eq_zero_iff.mp (by omega)

theorem inv_front {rest : List (List UInt8)} (hs : s.Inv) (hthread : s.thread = .front)
    (hq : s.mSendMessages = msg :: rest) :
    ({ s with mSendMessages := rest, thread := .queueLen msg } : Sender).Inv := by
  obtain ⟨hlock, hpermits, hbuffer, hframes, hlen, -, hintact, -⟩ := hs
  rw [hthread] at hlock hpermits hbuffer hframes hlen
  rw [hq] at hpermits hframes hlen
  refine ⟨hlock, ?_, hbuffer, ?_, ?_, nofun, hintact, nofun⟩
  · simp only [SenderPc.holdsPermit, Bool.toNat_true, Bool.toNat_false, List.length_cons]
      at hpermits ⊢
    omega
  · simpa [SenderPc.inHand] using hframes
  · simp only [SenderPc.uncounted, Bool.toNat_true, Bool.toNat_false, List.length_cons] at hlen ⊢
    omega

theorem inv_copy (hs : s.Inv) (hthread : s.thread = .copy msg) :
    ({ s with
      mSendBuffer := fun i => if i < msg.length then msg.getD i 0 else s.mSendBuffer i
      thread := .write msg } : Sender).Inv := by
  have hnil := hs.copy_writes hthread
  obtain ⟨hlock, hpermits, hbuffer, hframes, hlen, -, -, -⟩ := hs
  rw [hthread] at hlock hpermits hbuffer hframes hlen
  refine ⟨hlock, hpermits, hbuffer, hframes, hlen, ?_, ?_, nofun⟩
  · intro msg' heq
    cases heq
    exact bufferBytes_copy s msg
  · intro w hw
    replace hw : w ∈ s.writes := hw
    rw [hnil] at hw
    cases hw

theorem inv_write {pc : SenderPc} (hs : s.Inv) (hthread : s.thread = .write msg)
    (hpc : pc = .acquire1 ∨ pc = .numDoSends) :
    ({ s with
      writes := s.writes ++ [s.bufferBytes msg.length]
      handed := s.handed ++ [s.bufferBytes msg.length]
      thread := pc } : Sender).Inv := by
  obtain ⟨hlock, hpermits, hbuffer, hframes, hlen, hcopied, hintact, -⟩ := hs
  have hbytes := hcopied msg hthread
  rw [hthread] at hlock hpermits hbuffer hframes hlen
  have hintact' : ∀ w ∈ s.writes ++ [s.bufferBytes msg.length], s.bufferBytes w.length = w := by
    intro w hw
    rcases List.mem_append.mp hw with hw | hw
    · exact hintact w hw
    · rw [List.mem_singleton.mp hw, hbytes, hbytes]
  have hframes' : s.pushed = (s.handed ++ [s.bufferBytes msg.length]) ++ [] ++ s.mSendMessages := by
    rw [hbytes]
    simpa [SenderPc.inHand] using hframes
  simp only [SenderPc.ownsBuffer, Bool.toNat_true] at hbuffer
  have hone : (s.writes ++ [s.bufferBytes msg.length]).length + s.mSendsSemaphore1 ≤ 1 := by
    rw [List.length_append, List.length_singleton]
    omega
  rcases hpc with rfl | rfl
  · exact ⟨hlock, hpermits, hone, hframes', hlen, nofun, hintact', nofun⟩
  · exact ⟨hlock, hpermits, hone, hframes', hlen, nofun, hintact', nofun⟩

theorem inv_thread (hs : s.Inv) (h : s.threadStep = some s') : s'.Inv := by
  have ⟨hlock, hpermits, hbuffer, hframes, hlen, _, hintact, hne⟩ := hs
  cases threadStep_move h with
  | runSend hthread | startSend hthread | numDoSends hthread =>
    rw [hthread] at hlock hpermits hbuffer hframes hlen
    exact ⟨hlock, hpermits, hbuffer, hframes, hlen, nofun, hintact, nofun⟩
  | runEnd hthread | startEnd hthread | overrun hthread =>
    rw [hthread] at hlock hpermits hbuffer hframes hlen
    exact ⟨hlock, hpermits, (Nat.le_succ _).trans hbuffer, hframes, hlen, nofun, hintact, nofun⟩
  | acquire2 hthread hpos =>
    rw [hthread] at hlock hpermits hbuffer hframes hlen
    refine ⟨hlock, ?_, hbuffer, hframes, hlen, nofun, hintact, nofun⟩
    simp only [SenderPc.holdsPermit, Bool.toNat_true, Bool.toNat_false] at hpermits ⊢
    omega
  | lock hthread hfree =>
    rw [hthread] at hlock hpermits hbuffer hframes hlen
    refine ⟨?_, hpermits, hbuffer, hframes, hlen, nofun, hintact, nofun⟩
    simp only [hfree, SenderPc.holdsLock, Bool.toNat_true, Bool.toNat_false] at hlock ⊢
    omega
  | front hthread hq => exact inv_front hs hthread hq
  | frontEmpty hthread hq => exact absurd hq (hs.front_nonempty hthread)
  | queueLen hthread =>
    rw [hthread] at hlock hpermits hbuffer hframes hlen
    refine ⟨hlock, hpermits, hbuffer, hframes, ?_, nofun, hintact, nofun⟩
    simp only [SenderPc.uncounted, Bool.toNat_true, Bool.toNat_false] at hlen ⊢
    omega
  | unlock hthread =>
    rw [hthread] at hlock hpermits hbuffer hframes hlen
    refine ⟨?_, hpermits, hbuffer, hframes, hlen, nofun, hintact, nofun⟩
    have hle := s.mSendLock.toNat_le
    simp only [SenderPc.holdsLock, Bool.toNat_true, Bool.toNat_false] at hlock ⊢
    omega
  | unlockEmpty hthread => exact absurd hthread hne
  | copy hthread hfits => exact inv_copy hs hthread
  | writeTcp hthread => exact inv_write hs hthread (Or.inl rfl)
  | writeUdp hthread => exact inv_write hs hthread (Or.inr rfl)
  | acquire1 hthread hpos =>
    rw [hthread] at hlock hpermits hbuffer hframes hlen
    refine ⟨hlock, hpermits, ?_, hframes, hlen, nofun, hintact, nofun⟩
    simp only [SenderPc.ownsBuffer, Bool.toNat_true, Bool.toNat_false] at hbuffer ⊢
    omega

end Thread

theorem inv_complete {s : Sender} {before after : List (List UInt8)} {w : List UInt8}
    {permits : ℕ} (hs : s.Inv) (hw : s.writes = before ++ w :: after)
    (hp : Released s.mSendsSemaphore1 permits) :
    ({ s with writes := before ++ after, mSendsSemaphore1 := permits } : Sender).Inv := by
  refine ⟨hs.lock, hs.permits, ?_, hs.frames, hs.length, hs.copied, ?_, hs.nonempty⟩
  · have hone := hs.buffer
    have hle := hp.2
    simp only [hw, List.length_append, List.length_cons] at hone ⊢
    omega
  · intro x hx
    apply hs.intact x
    rw [hw]
    exact (List.sublist_cons_self w after).append_left before |>.mem hx

theorem inv_step {s s' : Sender} {e : Event} (hs : s.Inv) (h : Step s e s') : s'.Inv := by
  cases e with
  | send sending =>
    cases h
    exact inv_send hs _
  | call =>
    obtain ⟨before, pc, after, permits, t, pc', hcalls, hp, hstep, rfl⟩ := h
    exact inv_call hs hcalls hp hstep
  | thread => exact inv_thread hs h
  | complete =>
    obtain ⟨before, w, after, permits, hw, hp, rfl⟩ := h
    exact inv_complete hs hw hp
  | stop =>
    cases h
    exact ⟨hs.lock, hs.permits, hs.buffer, hs.frames, hs.length, hs.copied, hs.intact, hs.nonempty⟩

/-! ### Safety -/

/-- What the send path promises in a state. -/
structure Safe (s : Sender) : Prop where
  /-- at most one asynchronous write is outstanding -/
  oneWrite : s.writes.length ≤ 1
  /-- the buffer is overwritten only while no write from it is outstanding -/
  copyFree : ∀ msg, s.thread = .copy msg → s.writes = []
  /-- the buffer still holds what an outstanding write was started with -/
  intact : ∀ w ∈ s.writes, s.bufferBytes w.length = w
  /-- `start_send` finds a frame once it has its permit -/
  found : s.thread = .front → s.mSendMessages ≠ []
  neverEmpty : s.thread ≠ .unlockEmpty
  /-- frames are handed over in the order of their pushes, each once -/
  inOrder : s.handed <+: s.pushed
  /-- the counter is the queue length while nobody holds the lock -/
  queueLen : s.mSendLock = false → s.mSendQueueLen = s.mSendMessages.length

theorem Inv.safe {s : Sender} (hs : s.Inv) : s.Safe := by
  have hbuffer := hs.buffer
  refine ⟨by omega, fun _ => hs.copy_writes, hs.intact, hs.front_nonempty, hs.nonempty, ?_, ?_⟩
  · rw [hs.frames, List.append_assoc]
    exact List.prefix_append _ _
  · intro hfree
    -- nobody is between an update of the queue and its count
    have hlock := hs.lock
    rw [hfree, Bool.toNat_false] at hlock
    have hcalls : s.calls.countP CallPc.uncounted ≤ s.calls.countP CallPc.holdsLock :=
      List.countP_mono_left fun pc _ => by cases pc <;> simp [CallPc.uncounted, CallPc.holdsLock]
    have hthread : s.thread.uncounted.toNat ≤ s.thread.holdsLock.toNat := by
      cases s.thread <;> simp [SenderPc.uncounted, SenderPc.holdsLock]
    have hlen := hs.length
    omega

/-- Every state of every run is safe, over TCP and over UDP. -/
theorem exec_safe (tr : List (Sender × Event)) (s : Sender) (h : system.Exec tr s) : s.Safe :=
  (h.inv Inv (fun _ => inv_init) fun _ _ _ => inv_step).safe

/-! ### One frame on its way -/

def freshSender : Sender :=
  ⟨.tcp, true, [], 0, 0, 0, false, 0, 0, fun _ => 0, [], .runSend, [], [], []⟩

theorem freshSender_exec : system.Exec [] freshSender :=
  .nil (.mk rfl rfl rfl rfl rfl rfl rfl rfl rfl rfl rfl rfl rfl)

/-- A step of the only call, whose release leaves one permit. -/
theorem step_onlyCall {s t : Sender} {pc : CallPc} {pc' : Option CallPc} (hcalls : s.calls = [pc])
    (h : s.callStep 1 pc = some (t, pc')) : Step s .call { t with calls := pc'.toList } :=
  ⟨[], pc, [], 1, t, pc', hcalls, ⟨le_refl 1, Nat.le_add_left 1 _⟩, h, by simp⟩

/-- The same connection while the frame of the payload `[7]` is written. -/
def writingSender : Sender :=
  { freshSender with
    mSendBuffer := fun i => if i < [1, 0, 7].length then [1, 0, 7].getD i 0 else 0
    thread := .acquire1
    writes := [[1, 0, 7]]
    pushed := [[1, 0, 7]]
    handed := [[1, 0, 7]] }

theorem writingSender_exec : ∃ tr, system.Exec tr writingSender := by
  have h1 := freshSender_exec.next (.send [7]) _ rfl
  have h2 := h1.next .call _ (step_onlyCall rfl rfl)
  have h3 := h2.next .call _ (step_onlyCall rfl rfl)
  have h4 := h3.next .call _ (step_onlyCall rfl rfl)
  have h5 := h4.next .call _ (step_onlyCall rfl rfl)
  have h6 := h5.next .call _ (step_onlyCall rfl rfl)
  have h7 := (((h6.next .thread _ rfl).next .thread _ rfl).next .thread _ rfl)
  have h8 := (((h7.next .thread _ rfl).next .thread _ rfl).next .thread _ rfl)
  exact ⟨_, ((h8.next .thread _ rfl).next .thread _ rfl).next .thread writingSender rfl⟩

/-- The frame of the payload `[7]` is pushed and handed over. -/
theorem one_frame_handed : ∃ tr s, system.Exec tr s ∧ s.handed = [[1, 0, 7]] ∧ s.writes ≠ [] ∧
    s.Safe := by
  obtain ⟨tr, h⟩ := writingSender_exec
  exact ⟨tr, _, h, rfl, by decide, exec_safe tr _ h⟩

end Sender

end GameServer
