import GameServer.Network.SenderSafety

/-! The send queue against its permits. While every release finds its semaphore
below the maximum, permits and messages match, and the sender thread never waits
with a message queued; a second release before the first permit is taken breaks
the match for good. -/

namespace GameServer

open Lib

namespace Sender

/-- The maximum of a `std::binary_semaphore`. -/
def semaphoreMax : ℕ := 1

/-- The sender thread waits for a permit, and no `Send` has one still to release. -/
def Waiting (s : Sender) : Prop :=
  s.thread = .acquire2 ∧ s.mSendsSemaphore2 = 0 ∧ ∀ pc ∈ s.calls, pc.unreleased = false

def NoneStranded (s : Sender) : Prop := s.Waiting → s.mSendMessages = []

/-- A `Send` call releases `m_sends_semaphore_2` in this step, and ends. -/
def Releases2 (s : Sender) (e : Event) (s' : Sender) : Prop :=
  e = .call ∧ ∃ before after, s.calls = before ++ .release :: after ∧ s'.calls = before ++ after

/-- A release in this step finds its semaphore below the maximum. -/
def ReleaseOk (s : Sender) (e : Event) (s' : Sender) : Prop :=
  (Releases2 s e s' → s.mSendsSemaphore2 < semaphoreMax) ∧
    (e = .complete → s.mSendsSemaphore1 < semaphoreMax)

/-- When a `Send` releases, every queued message is one of a `Send` that has its
release still to do, or the one that the sender thread is about to pop. -/
def CaughtUp (s : Sender) (e : Event) (s' : Sender) : Prop :=
  Releases2 s e s' →
    s.mSendMessages.length ≤ s.calls.countP CallPc.unreleased + s.thread.holdsPermit.toNat

/-! ### Permits for all messages -/

/-- Every queued message has a permit, released or still to come. -/
def Backed (s : Sender) : Prop :=
  s.mSendMessages.length ≤
    s.mSendsSemaphore2 + s.thread.holdsPermit.toNat + s.calls.countP CallPc.unreleased

theorem Backed.of_same {s t : Sender} (hs : s.Backed) (hq : t.mSendMessages = s.mSendMessages)
    (h2 : t.mSendsSemaphore2 = s.mSendsSemaphore2) (hc : t.calls = s.calls)
    (hp : t.thread.holdsPermit = s.thread.holdsPermit) : t.Backed := by
  unfold Backed at hs ⊢
  rwa [hq, h2, hc, hp]

theorem backed_call {s t : Sender} {before after : List CallPc} {pc : CallPc}
    {pc' : Option CallPc} {permits : ℕ} (hs : s.Backed) (hcalls : s.calls = before ++ pc :: after)
    (hp : Released s.mSendsSemaphore2 permits) (h : s.callStep permits pc = some (t, pc'))
    (hcaught : pc = .release → s.mSendMessages.length ≤
      s.calls.countP CallPc.unreleased + s.thread.holdsPermit.toNat) :
    ({ t with calls := before ++ pc'.toList ++ after } : Sender).Backed := by
  unfold Backed at hs ⊢
  rw [hcalls, countP_at] at hs hcaught
  rw [countP_replaced]
  cases pc with
  | lock sending =>
    simp only [callStep] at h
    split_ifs at h
    cases h
    exact hs
  | push sending =>
    cases h
    simp only [Option.any, CallPc.unreleased, Bool.toNat_true, Bool.toNat_false,
      List.length_append, List.length_singleton] at hs ⊢
    omega
  | queueLen =>
    cases h
    cases s.type <;> exact hs
  | numTrySends =>
    cases h
    exact hs
  | unlock =>
    cases h
    exact hs
  | release =>
    cases h
    have hle := hcaught rfl
    have hone := hp.1
    simp only [Option.any, CallPc.unreleased, Bool.toNat_true, Bool.toNat_false] at hle ⊢
    omega

theorem backed_thread {s s' : Sender} (hs : s.Backed) (h : s.threadStep = some s') :
    s'.Backed := by
  cases threadStep_move h with
  | acquire2 hthread hpos =>
    unfold Backed at hs ⊢
    simp only [hthread, SenderPc.holdsPermit, Bool.toNat_true, Bool.toNat_false] at hs ⊢
    omega
  | front hthread hq =>
    unfold Backed at hs ⊢
    rw [hthread, hq] at hs
    simp only [SenderPc.holdsPermit, Bool.toNat_true, Bool.toNat_false, List.length_cons] at hs ⊢
    omega
  | frontEmpty hthread hq => simp [Backed, hq]
  | runSend hthread | runEnd hthread | startSend hthread | startEnd hthread | lock hthread
  | queueLen hthread | unlock hthread | unlockEmpty hthread | copy hthread | overrun hthread
  | writeTcp hthread | writeUdp hthread | numDoSends hthread | acquire1 hthread =>
    exact hs.of_same rfl rfl rfl (by rw [hthread]; rfl)

theorem backed_step {s s' : Sender} {e : Event} (hs : s.Backed) (hcaught : CaughtUp s e s')
    (h : Step s e s') : s'.Backed := by
  cases e with
  | send sending =>
    cases h
    unfold Backed at hs ⊢
    simpa [List.countP_append, CallPc.unreleased] using hs
  | call =>
    obtain ⟨before, pc, after, permits, t, pc', hcalls, hp, hstep, rfl⟩ := h
    refine backed_call hs hcalls hp hstep ?_
    rintro rfl
    cases hstep
    exact hcaught ⟨rfl, before, after, hcalls, by simp⟩
  | thread => exact backed_thread hs h
  | complete =>
    obtain ⟨before, w, after, permits, -, -, rfl⟩ := h
    exact hs.of_same rfl rfl rfl rfl
  | stop =>
    cases h
    exact hs.of_same rfl rfl rfl rfl

/-! ### Nothing is stranded -/

/-- Permits and messages match. -/
def Matched (s : Sender) : Prop := s.Inv ∧ s.Backed

theorem matched_init {s : Sender} (h : s.Init) : s.Matched :=
  ⟨inv_init h, by simp [Backed, h.mSendMessages]⟩

theorem Matched.noneStranded {s : Sender} (hs : s.Matched) : s.NoneStranded := by
  intro ⟨hthread, hzero, hcalls⟩
  have hback := hs.2
  unfold Backed at hback
  have hnone : s.calls.countP CallPc.unreleased = 0 :=
    List.countP_eq_zero.mpr fun pc hpc => by simp [hcalls pc hpc]
  rw [hthread, hzero, hnone] at hback
  exact List.length_eq_zero_iff.mp (Nat.le_zero.mp hback)

/-- A write under way means that the sender thread waits for its completion. -/
theorem Inv.complete_free {s s' : Sender} (hs : s.Inv) (h : Step s .complete s') :
    s.mSendsSemaphore1 < semaphoreMax := by
  obtain ⟨before, w, after, permits, hw, -, -⟩ := h
  have hbuffer := hs.buffer
  rw [hw, List.length_append, List.length_cons] at hbuffer
  unfold semaphoreMax
  omega

/-- With permits and messages matched, a free semaphore is one nobody waits behind. -/
theorem Matched.releaseOk_iff {s s' : Sender} {e : Event} (hs : s.Matched) (h : Step s e s') :
    ReleaseOk s e s' ↔ CaughtUp s e s' := by
  have hpermits := hs.1.permits
  have hback := hs.2
  unfold Backed at hback
  have hcomplete : e = .complete → s.mSendsSemaphore1 < semaphoreMax := by
    rintro rfl
    exact hs.1.complete_free h
  constructor
  · intro hok hrel
    have hlt := hok.1 hrel
    unfold semaphoreMax at hlt
    omega
  · intro hcaught
    refine ⟨fun hrel => ?_, hcomplete⟩
    have hle := hcaught hrel
    unfold semaphoreMax
    omega

/-- In a run the sender thread never waits with a message queued, and no release
finds its semaphore at the maximum, if and only if every `Send` releases when the
messages of the `Send` calls before it were taken. -/
theorem noneStranded_iff_caughtUp (tr : List (Sender × Event)) (s : Sender)
    (h : system.Exec tr s) :
    ((∀ x ∈ visited tr s, x.NoneStranded) ∧ ∀ x ∈ steps tr s, ReleaseOk x.1 x.2.1 x.2.2) ↔
      ∀ x ∈ steps tr s, CaughtUp x.1 x.2.1 x.2.2 :=
  h.safe_steps_iff Matched NoneStranded ReleaseOk CaughtUp (fun _ => matched_init)
    (fun _ => Matched.noneStranded)
    (fun _ _ _ hs hc hst => ⟨inv_step hs.1 hst, backed_step hs.2 hc hst⟩)
    fun _ _ _ => Matched.releaseOk_iff

/-! ### One message, and two in a row -/

/-- A `Send` that runs alone leaves its message with a permit. -/
theorem one_send_caughtUp : ∃ tr s, system.Exec tr s ∧
    s.mSendMessages = [[1, 0, 7]] ∧ s.mSendsSemaphore2 = 1 ∧
    (∀ x ∈ visited tr s, x.NoneStranded) ∧ ∀ x ∈ steps tr s, ReleaseOk x.1 x.2.1 x.2.2 := by
  have h1 := freshSender_exec.next (.send [7]) _ rfl
  have h2 := h1.next .call _ (step_onlyCall rfl rfl)
  have h3 := h2.next .call _ (step_onlyCall rfl rfl)
  have h4 := h3.next .call _ (step_onlyCall rfl rfl)
  have h5 := h4.next .call _ (step_onlyCall rfl rfl)
  have h6 := h5.next .call _ (step_onlyCall rfl rfl)
  refine ⟨_, _, h6, rfl, rfl, (noneStranded_iff_caughtUp _ _ h6).mpr fun x hx hrel => ?_⟩
  clear hrel
  revert x
  decide

/-- A second `Send` before the thread takes the first permit: its release finds the
counter at one, and a counter that stays there leaves the second message in the
queue while the thread waits. -/
theorem two_sends_strand : ∃ tr s, system.Exec tr s ∧ s.mRunning = true ∧ s.Waiting ∧
    s.mSendMessages = [[1, 0, 8]] ∧
    ¬ ((∀ x ∈ visited tr s, x.NoneStranded) ∧ ∀ x ∈ steps tr s, ReleaseOk x.1 x.2.1 x.2.2) := by
  have h1 := freshSender_exec.next (.send [7]) _ rfl
  have h2 := h1.next .call _ (step_onlyCall rfl rfl)
  have h3 := h2.next .call _ (step_onlyCall rfl rfl)
  have h4 := h3.next .call _ (step_onlyCall rfl rfl)
  have h5 := h4.next .call _ (step_onlyCall rfl rfl)
  have h6 := h5.next .call _ (step_onlyCall rfl rfl)
  have h7 := h6.next (.send [8]) _ rfl
  have h8 := h7.next .call _ (step_onlyCall rfl rfl)
  have h9 := h8.next .call _ (step_onlyCall rfl rfl)
  have h10 := h9.next .call _ (step_onlyCall rfl rfl)
  have h11 := h10.next .call _ (step_onlyCall rfl rfl)
  have h12 := h11.next .call _ (step_onlyCall rfl rfl)
  have h13 := ((h12.next .thread _ rfl).next .thread _ rfl).next .thread _ rfl
  have h14 := ((h13.next .thread _ rfl).next .thread _ rfl).next .thread _ rfl
  have h15 := ((h14.next .thread _ rfl).next .thread _ rfl).next .thread _ rfl
  have h16 := h15.next .complete _ ⟨[], [1, 0, 7], [], 1, rfl, ⟨le_refl 1, le_refl 1⟩, rfl⟩
  have h17 := ((h16.next .thread _ rfl).next .thread _ rfl).next .thread _ rfl
  refine ⟨_, _, h17, rfl, ⟨rfl, rfl, by decide⟩, rfl, fun h => ?_⟩
  have hnil := h.1 _ (List.mem_append_right _ (List.mem_singleton.mpr rfl)) ⟨rfl, rfl, by decide⟩
  cases hnil

end Sender

end GameServer
