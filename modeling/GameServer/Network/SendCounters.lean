import GameServer.Network.SenderSafety

/-! What the counters of the connections say. `m_send_queue_len` is counted after the
queue, under the lock, but read without it; `m_numTrySends` and `m_numDoSends` are kept
on UDP only. `Update` reports the mean of the queue lengths. -/

namespace GameServer

open Lib

/-- The call has pushed its frame and not yet counted it as a try. -/
def CallPc.untried : CallPc → Bool
  | .queueLen | .numTrySends => true
  | _ => false

/-- The thread has handed a frame over and not yet counted it. -/
def SenderPc.unsent : SenderPc → Bool
  | .numDoSends => true
  | _ => false

namespace Sender

/-- Every frame that was pushed or handed over is counted, or about to be. -/
structure Counted (s : Sender) : Prop where
  tries : s.type = .udp → s.mNumTrySends + s.calls.countP CallPc.untried = s.pushed.length
  sends : s.type = .udp → s.mNumDoSends + s.thread.unsent.toNat = s.handed.length
  tcp : s.type = .tcp → s.mNumTrySends = 0 ∧ s.mNumDoSends = 0 ∧
    .numTrySends ∉ s.calls ∧ s.thread.unsent = false
  nonneg : 0 ≤ s.mNumDoSends

theorem counted_init {s : Sender} (h : s.Init) : s.Counted := by
  refine ⟨?_, ?_, ?_, ?_⟩ <;>
    simp [h.mNumTrySends, h.mNumDoSends, h.calls, h.thread, h.pushed, h.handed, SenderPc.unsent]

/-- A step of one call that leaves the thread and what it counts alone. -/
theorem counted_replaced {t : Sender} {before after : List CallPc} {pc' : Option CallPc}
    (tries : t.type = .udp → t.mNumTrySends + (before.countP CallPc.untried +
      after.countP CallPc.untried + (pc'.any CallPc.untried).toNat : ℕ) = t.pushed.length)
    (sends : t.type = .udp → t.mNumDoSends + t.thread.unsent.toNat = t.handed.length)
    (tcp : t.type = .tcp → t.mNumTrySends = 0 ∧ t.mNumDoSends = 0 ∧
      .numTrySends ∉ before ++ pc'.toList ++ after ∧ t.thread.unsent = false)
    (nonneg : 0 ≤ t.mNumDoSends) :
    ({ t with calls := before ++ pc'.toList ++ after } : Sender).Counted := by
  refine ⟨fun h => ?_, sends, tcp, nonneg⟩
  rw [countP_replaced]
  exact tries h

theorem counted_call {s t : Sender} {before after : List CallPc} {pc : CallPc}
    {pc' : Option CallPc} {permits : ℕ} (hs : s.Counted) (hcalls : s.calls = before ++ pc :: after)
    (h : s.callStep permits pc = some (t, pc')) :
    ({ t with calls := before ++ pc'.toList ++ after } : Sender).Counted := by
  obtain ⟨htries, hsends, htcp, hnonneg⟩ := hs
  rw [hcalls, countP_at] at htries
  have hothers : s.type = .tcp → .numTrySends ≠ pc ∧ .numTrySends ∉ before ++ after := by
    intro htype
    have hnone := (htcp htype).2.2.1
    rw [hcalls] at hnone
    simp only [List.mem_append, List.mem_cons, not_or] at hnone ⊢
    exact ⟨hnone.2.1, hnone.1, hnone.2.2⟩
  have htcp' : ∀ x : Option CallPc, (s.type = .tcp → x ≠ some .numTrySends) →
      s.type = .tcp → s.mNumTrySends = 0 ∧ s.mNumDoSends = 0 ∧
        .numTrySends ∉ before ++ x.toList ++ after ∧ s.thread.unsent = false := by
    intro x hx htype
    obtain ⟨h1, h2, -, h4⟩ := htcp htype
    have hnot := (hothers htype).2
    have hne := hx htype
    refine ⟨h1, h2, ?_, h4⟩
    cases x with
    | none => simpa using hnot
    | some pc =>
      simp only [List.mem_append, not_or, Option.toList_some, List.mem_singleton] at hnot ⊢
      exact ⟨⟨hnot.1, fun heq => hne (by rw [heq])⟩, hnot.2⟩
  cases pc with
  | lock sending =>
    simp only [callStep] at h
    split_ifs at h
    cases h
    exact counted_replaced htries hsends (htcp' _ (by simp)) hnonneg
  | push sending =>
    cases h
    refine counted_replaced (fun htype => ?_) hsends (htcp' _ (by simp)) hnonneg
    have hcount := htries htype
    simp only [CallPc.untried, Option.any, Bool.toNat_true, Bool.toNat_false,
      List.length_append, List.length_singleton] at hcount ⊢
    omega
  | queueLen =>
    cases h
    refine counted_replaced (fun htype => ?_) hsends (htcp' _ fun htype => ?_) hnonneg
    · have htype' : s.type = .udp := htype
      have hcount := htries htype
      simpa [htype', CallPc.untried] using hcount
    · simp [htype]
  | numTrySends =>
    cases h
    refine counted_replaced (fun htype => ?_) hsends (fun htype => ?_) hnonneg
    · have hcount := htries htype
      simp only [CallPc.untried, Option.any, Bool.toNat_true, Bool.toNat_false] at hcount ⊢
      omega
    · exact absurd rfl (hothers htype).1
  | unlock =>
    cases h
    exact counted_replaced htries hsends (htcp' _ (by simp)) hnonneg
  | release =>
    cases h
    exact counted_replaced htries hsends (htcp' _ (by simp)) hnonneg

theorem counted_thread {s s' : Sender} (hs : s.Counted) (h : s.threadStep = some s') :
    s'.Counted := by
  obtain ⟨htries, hsends, htcp, hnonneg⟩ := hs
  cases threadStep_move h with
  | writeTcp hthread htype =>
    refine ⟨htries, fun h => ?_, fun h => ?_, hnonneg⟩
    · rw [htype] at h
      cases h
    · obtain ⟨h1, h2, h3, -⟩ := htcp h
      exact ⟨h1, h2, h3, rfl⟩
  | writeUdp hthread htype =>
    refine ⟨htries, fun h => ?_, fun h => ?_, hnonneg⟩
    · have hcount := hsends h
      rw [hthread] at hcount
      simp only [SenderPc.unsent, Bool.toNat_true, Bool.toNat_false, List.length_append,
        List.length_singleton] at hcount ⊢
      omega
    · rw [htype] at h
      cases h
  | numDoSends hthread =>
    refine ⟨htries, fun h => ?_, fun h => ?_, Int.add_nonneg hnonneg Int.one_nonneg⟩
    · have hcount := hsends h
      rw [hthread] at hcount
      simp only [SenderPc.unsent, Bool.toNat_true, Bool.toNat_false] at hcount ⊢
      omega
    · have hunsent := (htcp h).2.2.2
      rw [hthread] at hunsent
      cases hunsent
  | _ hthread =>
    rw [hthread] at hsends htcp
    exact ⟨htries, hsends, htcp, hnonneg⟩

theorem counted_step {s s' : Sender} {e : Event} (hs : s.Counted) (h : Step s e s') :
    s'.Counted := by
  cases e with
  | send sending =>
    cases h
    refine ⟨fun htype => ?_, hs.sends, fun htype => ?_, hs.nonneg⟩
    · simpa [List.countP_append, CallPc.untried] using hs.tries htype
    · simpa using hs.tcp htype
  | call =>
    obtain ⟨before, pc, after, permits, t, pc', hcalls, -, hstep, rfl⟩ := h
    exact counted_call hs hcalls hstep
  | thread => exact counted_thread hs h
  | complete =>
    obtain ⟨before, w, after, permits, -, -, rfl⟩ := h
    exact ⟨hs.tries, hs.sends, hs.tcp, hs.nonneg⟩
  | stop =>
    cases h
    exact ⟨hs.tries, hs.sends, hs.tcp, hs.nonneg⟩

/-! ### The counters of one connection -/

/-- The counters of a connection are `int`s. -/
def getSendQeueLength (s : Sender) : Int32 := Int32.ofInt s.mSendQueueLen

/-- The counters of the tries and of the sends are never reset. -/
def getNumSendRequests (s : Sender) : Int32 := Int32.ofInt s.mNumTrySends

def getNumSends (s : Sender) : Int32 := Int32.ofInt s.mNumDoSends

/-- What the three getters return in a state, whatever the threads are doing. -/
structure CountsRight (s : Sender) : Prop where
  queueLen_nonneg : 0 ≤ s.getSendQeueLength
  /-- one thread at most is between an update of the queue and its count -/
  queueLen_near : s.getSendQeueLength.toInt ≤ s.mSendMessages.length + 1 ∧
    s.mSendMessages.length ≤ s.getSendQeueLength.toInt + 1
  sends_le : 0 ≤ s.getNumSends ∧ s.getNumSends ≤ s.getNumSendRequests
  /-- over UDP, tries that are no sends yet are frames on their way -/
  waiting : s.type = .udp → s.mSendLock = false → s.thread.unsent = false →
    s.getNumSendRequests.toInt - s.getNumSends.toInt =
      s.mSendMessages.length + s.thread.inHand.length
  tcp : s.type = .tcp → s.getNumSendRequests = 0 ∧ s.getNumSends = 0

theorem Inv.untried_le {s : Sender} (hs : s.Inv) :
    s.calls.countP CallPc.uncounted ≤ s.calls.countP CallPc.untried ∧
    s.calls.countP CallPc.untried ≤ s.calls.countP CallPc.holdsLock ∧
    s.calls.countP CallPc.untried ≤ s.mSendMessages.length := by
  have huncounted : s.calls.countP CallPc.uncounted ≤ s.calls.countP CallPc.untried :=
    List.countP_mono_left fun pc _ => by cases pc <;> simp [CallPc.uncounted, CallPc.untried]
  have hlock : s.calls.countP CallPc.untried ≤ s.calls.countP CallPc.holdsLock :=
    List.countP_mono_left fun pc _ => by cases pc <;> simp [CallPc.untried, CallPc.holdsLock]
  have hunreleased : s.calls.countP CallPc.untried ≤ s.calls.countP CallPc.unreleased :=
    List.countP_mono_left fun pc _ => by cases pc <;> simp [CallPc.untried, CallPc.unreleased]
  have hpermits := hs.permits
  omega

theorem Inv.queueLen_nonneg {s : Sender} (hs : s.Inv) : 0 ≤ s.mSendQueueLen := by
  obtain ⟨huncounted, -, hle⟩ := hs.untried_le
  have hlen := hs.length
  omega

theorem Inv.queueLen_near {s : Sender} (hs : s.Inv) :
    s.mSendQueueLen ≤ s.mSendMessages.length + 1 ∧
      s.mSendMessages.length ≤ s.mSendQueueLen + 1 := by
  obtain ⟨huncounted, hlocked, -⟩ := hs.untried_le
  have hlock := hs.lock
  have hlen := hs.length
  have hheld := s.mSendLock.toNat_le
  have hthread := s.thread.uncounted.toNat_le
  omega

theorem Inv.frames_length {s : Sender} (hs : s.Inv) :
    s.pushed.length = s.handed.length + s.thread.inHand.length + s.mSendMessages.length := by
  have hframes := congrArg List.length hs.frames
  rwa [List.length_append, List.length_append] at hframes

/-- A frame that still counts as queued is in the queue or in the hand of the thread. -/
theorem Inv.queueLen_le {s : Sender} (hs : s.Inv) : s.mSendQueueLen ≤ s.pushed.length := by
  have hlen := hs.length
  have hframes := hs.frames_length
  have hhand : s.thread.uncounted.toNat ≤ s.thread.inHand.length := by
    cases s.thread <;> simp [SenderPc.uncounted, SenderPc.inHand]
  omega

theorem Counted.sends_le {s : Sender} (hs : s.Inv) (hc : s.Counted) :
    s.mNumDoSends ≤ s.mNumTrySends := by
  obtain ⟨-, -, hle⟩ := hs.untried_le
  have hframes := hs.frames_length
  cases htype : s.type with
  | tcp =>
    obtain ⟨htries, hsends, -⟩ := hc.tcp htype
    omega
  | udp =>
    have htries := hc.tries htype
    have hsends := hc.sends htype
    omega

theorem Counted.tries_le {s : Sender} (hc : s.Counted) : s.mNumTrySends ≤ s.pushed.length := by
  cases htype : s.type with
  | tcp =>
    obtain ⟨htries, -⟩ := hc.tcp htype
    omega
  | udp =>
    have htries := hc.tries htype
    omega

/-- A frame that waits is counted as a try and not as a send. -/
theorem Counted.waiting {s : Sender} (hs : s.Inv) (hc : s.Counted) (htype : s.type = .udp)
    (hfree : s.mSendLock = false) (hsent : s.thread.unsent = false) :
    s.mNumTrySends - s.mNumDoSends = s.mSendMessages.length + s.thread.inHand.length := by
  obtain ⟨-, hlocked, -⟩ := hs.untried_le
  have hlock := hs.lock
  have hframes := hs.frames_length
  have htries := hc.tries htype
  have hsends := hc.sends htype
  rw [hfree, Bool.toNat_false] at hlock
  rw [hsent, Bool.toNat_false] at hsends
  omega

/-- Until 2 ^ 31 frames were pushed, no counter leaves the range of its `int`. -/
theorem countsRight_of_inv {s : Sender} (hs : s.Inv) (hc : s.Counted)
    (hint : s.pushed.length < 2 ^ 31) : s.CountsRight := by
  have hnonneg := hs.queueLen_nonneg
  have hle := hs.queueLen_le
  have hsends := hc.sends_le hs
  have htries := hc.tries_le
  have hsends_nonneg := hc.nonneg
  have hqueue : s.getSendQeueLength.toInt = s.mSendQueueLen :=
    Int32.toInt_ofInt_of_le (by omega) (by omega)
  have hrequests : s.getNumSendRequests.toInt = s.mNumTrySends :=
    Int32.toInt_ofInt_of_le (by omega) (by omega)
  have hdone : s.getNumSends.toInt = s.mNumDoSends :=
    Int32.toInt_ofInt_of_le (by omega) (by omega)
  refine ⟨?_, ?_, ⟨?_, ?_⟩, fun htype hfree hsent => ?_, fun htype => ?_⟩
  · rwa [Int32.le_iff_toInt_le, hqueue]
  · rw [hqueue]
    exact hs.queueLen_near
  · rwa [Int32.le_iff_toInt_le, hdone]
  · rwa [Int32.le_iff_toInt_le, hdone, hrequests]
  · rw [hrequests, hdone]
    exact hc.waiting hs htype hfree hsent
  · obtain ⟨htries, hsends, -⟩ := hc.tcp htype
    rw [getNumSendRequests, getNumSends, htries, hsends]
    exact ⟨rfl, rfl⟩

theorem exec_inv {tr : List (Sender × Event)} {s : Sender} (h : system.Exec tr s) :
    s.Inv ∧ s.Counted :=
  h.inv (fun s => s.Inv ∧ s.Counted) (fun _ hi => ⟨inv_init hi, counted_init hi⟩)
    fun _ _ _ hs hst => ⟨inv_step hs.1 hst, counted_step hs.2 hst⟩

/-- The counters are right in every state of every run, over TCP and over UDP, up to the
2 ^ 31st frame. -/
theorem exec_countsRight (tr : List (Sender × Event)) (s : Sender) (h : system.Exec tr s)
    (hint : s.pushed.length < 2 ^ 31) : s.CountsRight := by
  obtain ⟨hinv, hcounted⟩ := exec_inv h
  exact countsRight_of_inv hinv hcounted hint

/-- A connection of the type `type` whose only `Send` has counted its frame. -/
theorem queued_exec (type : Protocal) : ∃ tr s, system.Exec tr s ∧ s.type = type ∧
    s.mSendQueueLen = 1 ∧ s.mSendMessages = [[1, 0, 7]] ∧ s.pushed = [[1, 0, 7]] := by
  have h0 : system.Exec [] { freshSender with type := type } :=
    .nil (.mk rfl rfl rfl rfl rfl rfl rfl rfl rfl rfl rfl rfl rfl)
  have h1 := h0.next (.send [7]) _ rfl
  have h2 := h1.next .call _ (step_onlyCall rfl rfl)
  have h3 := h2.next .call _ (step_onlyCall rfl rfl)
  exact ⟨_, _, h3.next .call _ (step_onlyCall rfl rfl), rfl, rfl, rfl, rfl⟩

theorem queued_countsRight : ∃ s : Sender, s.type = .udp ∧ s.getSendQeueLength = 1 ∧
    s.CountsRight := by
  obtain ⟨tr, s, h, htype, hlen, -, hpushed⟩ := queued_exec .udp
  refine ⟨s, htype, ?_, exec_countsRight tr s h ?_⟩
  · rw [getSendQeueLength, hlen]
    rfl
  · rw [hpushed]
    decide

end Sender

/-! ### The mean over all sessions -/

namespace AsyncServer

/-- `Get_TCP_Send_Queue_Size_All` and its UDP twin, on the lengths that the connections
report: the sum is an `int`, and is divided by a `size_t`. -/
def getSendQueueSizeAll (lengths : List Int32) : Int32 :=
  if lengths.length = 0 then 0
  else
    let res := lengths.foldl (fun res len => res + len) 0
    (res.toInt64.toUInt64 / UInt64.ofNat lengths.length).toUInt32.toInt32

theorem foldl_ofInt (lengths : List ℤ) (start : ℤ) :
    (lengths.map Int32.ofInt).foldl (fun res len => res + len) (Int32.ofInt start) =
      Int32.ofInt (start + lengths.sum) := by
  induction lengths generalizing start with
  | nil => simp
  | cons len lengths ih =>
    rw [List.map_cons, List.foldl_cons, ← Int32.ofInt_add, ih, List.sum_cons, Int.add_assoc]

theorem toInt_toInt32 {n : UInt32} (h : n.toNat < 2 ^ 31) : n.toInt32.toInt = n.toNat := by
  have hbits : 2 * n.toBitVec.toNat < 2 ^ 32 := by
    rw [UInt32.toNat_toBitVec]
    omega
  exact BitVec.toInt_eq_toNat_of_lt hbits

/-- With no length negative and a sum that an `int` holds, it is the mean, rounded down. -/
theorem getSendQueueSizeAll_mean {lengths : List ℤ} (hcount : lengths.length < 2 ^ 64)
    (hnonneg : ∀ len ∈ lengths, 0 ≤ len) (hsum : lengths.sum < 2 ^ 31) :
    (getSendQueueSizeAll (lengths.map Int32.ofInt)).toInt = lengths.sum / lengths.length := by
  unfold getSendQueueSizeAll
  rw [List.length_map]
  split_ifs with hempty
  · simp [hempty]
  · have hzero : 0 ≤ lengths.sum := List.sum_nonneg hnonneg
    have hres : (lengths.map Int32.ofInt).foldl (fun res len => res + len) 0 =
        Int32.ofInt lengths.sum := by
      have h := foldl_ofInt lengths 0
      rwa [Int.zero_add] at h
    have hint : (Int32.ofInt lengths.sum).toInt64.toInt = lengths.sum := by
      rw [Int32.toInt_toInt64, Int32.toInt_ofInt_of_le (by omega) hsum]
    have hword : (Int32.ofInt lengths.sum).toInt64.toUInt64.toNat = lengths.sum.toNat := by
      have hle : (0 : Int64) ≤ (Int32.ofInt lengths.sum).toInt64 := by
        rw [Int64.le_iff_toInt_le, hint]
        exact hzero
      rw [Int64.toNat_toUInt64_of_le hle, Int64.toNatClampNeg, hint]
    have hdiv : lengths.sum.toNat / lengths.length < 2 ^ 31 :=
      (Nat.div_le_self _ _).trans_lt (by omega)
    dsimp only
    rw [hres, toInt_toInt32]
    · rw [UInt64.toNat_toUInt32, UInt64.toNat_div, hword, UInt64.toNat_ofNat_of_lt' hcount,
        Nat.mod_eq_of_lt (by omega), Int.natCast_ediv, Int.toNat_of_nonneg hzero]
    · rw [UInt64.toNat_toUInt32, UInt64.toNat_div, hword, UInt64.toNat_ofNat_of_lt' hcount,
        Nat.mod_eq_of_lt (by omega)]
      exact hdiv

/-- What `Update` reports for the connections of the listed sessions. -/
def reportedQueueLength (connections : List Sender) : ℤ :=
  (getSendQueueSizeAll (connections.map fun s => Int32.ofInt s.mSendQueueLen)).toInt

/-- Each connection is read in some state of its own run. The report is the mean of the
counters rounded down, and at most one more than the longest queue. -/
theorem reportedQueueLength_mean (connections : List Sender)
    (hruns : ∀ s ∈ connections, ∃ tr, Sender.system.Exec tr s)
    (hcount : connections.length < 2 ^ 64)
    (hsum : (connections.map Sender.mSendQueueLen).sum < 2 ^ 31) :
    reportedQueueLength connections =
      (connections.map Sender.mSendQueueLen).sum / connections.length ∧
    0 ≤ reportedQueueLength connections ∧
    ∀ bound : ℕ, (∀ s ∈ connections, s.mSendMessages.length ≤ bound) →
      reportedQueueLength connections ≤ bound + 1 := by
  have hinv : ∀ s ∈ connections, s.Inv := by
    intro s hs
    obtain ⟨tr, h⟩ := hruns s hs
    exact (Sender.exec_inv h).1
  have hnonneg : ∀ len ∈ connections.map Sender.mSendQueueLen, 0 ≤ len := by
    intro len hlen
    obtain ⟨s, hs, rfl⟩ := List.mem_map.mp hlen
    exact (hinv s hs).queueLen_nonneg
  have hmean : reportedQueueLength connections =
      (connections.map Sender.mSendQueueLen).sum / connections.length := by
    have h := getSendQueueSizeAll_mean (by rwa [List.length_map]) hnonneg hsum
    rwa [List.map_map, List.length_map] at h
  refine ⟨hmean, ?_, fun bound hbound => ?_⟩
  · rw [hmean]
    exact Int.ediv_nonneg (List.sum_nonneg hnonneg) (Int.natCast_nonneg _)
  · have hle : (connections.map Sender.mSendQueueLen).sum ≤ connections.length * ((bound : ℤ) + 1) := by
      have hsum_le := List.sum_le_card_nsmul (connections.map Sender.mSendQueueLen) ((bound : ℤ) + 1)
        fun len hlen => by
          obtain ⟨s, hs, rfl⟩ := List.mem_map.mp hlen
          have hnear := (hinv s hs).queueLen_near.1
          have hlong := hbound s hs
          omega
      simpa using hsum_le
    rw [hmean]
    rcases Nat.eq_zero_or_pos connections.length with hzero | hpos
    · rw [hzero]
      simp only [Nat.cast_zero, Int.ediv_zero]
      omega
    · exact Int.ediv_le_of_le_mul (by exact_mod_cast hpos) (by rwa [Int.mul_comm])

/-- Two connections, with one frame in the queue of one of them. -/
theorem reported_mean_zero : ∃ s : Sender, s.mSendQueueLen = 1 ∧
    reportedQueueLength [s, Sender.freshSender] = 0 := by
  obtain ⟨tr, s, h, -, hlen, -⟩ := Sender.queued_exec .tcp
  have hsum : ([s, Sender.freshSender].map Sender.mSendQueueLen).sum = 1 := by
    simp [hlen, Sender.freshSender]
  have hlt : ([s, Sender.freshSender].map Sender.mSendQueueLen).sum < 2 ^ 31 := by
    rw [hsum]
    decide
  refine ⟨s, hlen, ?_⟩
  rw [(reportedQueueLength_mean [s, Sender.freshSender] ?_ (by simp) hlt).1, hsum]
  · simp
  · intro t ht
    rcases List.mem_cons.mp ht with rfl | ht
    · exact ⟨tr, h⟩
    · rw [List.mem_singleton.mp ht]
      exact ⟨[], Sender.freshSender_exec⟩

end AsyncServer

end GameServer
