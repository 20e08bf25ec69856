import GameServer.Match.Joining

/-! The life of one match. `Init` starts the match thread, which sets `m_running` and
`m_match_state` before it enters `GameLoop`, while other threads are inside `JoinPlayer`,
`StartMatch`, `Stop` and `EndMatch`. Nothing orders the writes of one thread against the
tests of another. -/

namespace GameServer

open Lib

/-- A thread that calls into the match. -/
abbrev ThreadRef := ℕ

/-- The enumerator's number in `Match::MatchState`. -/
def MatchState.value : MatchState → ℕ
  | none => 0
  | joinedWaiting => 1
  | started => 2
  | ended => 3

inductive LifecycleCall where
  | init
  | joinPlayer (player : PlayerRef)
  | startMatch
  | stop
  | endMatch
  deriving DecidableEq, Repr

/-- The next statement of a thread that calls into the match. `Stop` is also called by
`EndMatch`, which goes on with `RemoveMatch`. -/
inductive LifecyclePc where
  | idle
  | initCheck
  | initThread
  | join (pc : JoinPc)
  | start (pc : MatchPc)
  | endState
  | stopCheck (ending : Bool)
  | stopClear (ending : Bool)
  | stopJoin (ending : Bool)
  | removeMatch
  /-- `std::thread::join` threw: the thread was joined before, or there is none -/
  | thrown
  deriving DecidableEq, Repr

def LifecycleCall.entry : LifecycleCall → LifecyclePc
  | init => .initCheck
  | joinPlayer p => .join (.check p)
  | startMatch => .start .startCheck
  | stop => .stopCheck false
  | endMatch => .endState

/-- The next statement of `Run` on the match thread. -/
inductive RunPc where
  | absent
  /-- `m_running = true` in `ThreadInit` -/
  | initRunning
  /-- `m_match_state = Joined_Waiting` -/
  | initState
  | initTimes
  /-- the test of `GameLoop` -/
  | loopTest
  /-- inside `AsynUpdate`, at a statement of `StartMatch` or `SendOrientationUpdates`
  or between two operations -/
  | loopBody (pc : MatchPc)
  | exited
  deriving DecidableEq, Repr

structure Lifecycle where
  ctx : MatchCtx
  thread : RunPc
  /-- `m_thread` was joined -/
  threadJoined : Bool
  call : ThreadRef → LifecyclePc
  initCalled : Bool
  /-- `EndMatch` has set `Ended`; read by proofs only -/
  ended : Bool

namespace Lifecycle

def matchState (s : Lifecycle) : MatchState := s.ctx.mtch.mMatchState

def setMatch (s : Lifecycle) (f : Match → Match) : Lifecycle := { s with ctx := s.ctx.setMatch f }

def setCall (s : Lifecycle) (t : ThreadRef) (pc : LifecyclePc) : Lifecycle :=
  { s with call := Function.update s.call t pc }

/-- Where a call of `Stop` returns to. -/
def afterStop (ending : Bool) : LifecyclePc := if ending then .removeMatch else .idle

/-- The next statement of the call that thread `t` is in. -/
def callStep (this : MatchRef) (now : UInt64) (t : ThreadRef) (s : Lifecycle) :
    Option Lifecycle :=
  match s.call t with
  | .idle => none
  | .initCheck =>
    if s.matchState = .none then some (s.setCall t .initThread) else some (s.setCall t .idle)
  | .initThread => some { s.setCall t .idle with thread := .initRunning }
  | .join pc =>
    match Joining.joinStep this ⟨s.ctx, pc, .idle, [], none⟩ with
    | some j =>
      some { s.setCall t (if j.main = .idle then .idle else .join j.main) with ctx := j.ctx }
    | none => none
  | .start pc =>
    match Joining.threadStep now ⟨s.ctx, .idle, pc, [], none⟩ with
    | some j =>
      some { s.setCall t (if j.thread = .idle then .idle else .start j.thread) with ctx := j.ctx }
    | none => none
  | .endState =>
    some { (s.setMatch fun m => { m with mMatchState := .ended }).setCall t (.stopCheck true) with
      ended := true }
  | .stopCheck ending =>
    if s.ctx.mtch.mRunning then some (s.setCall t (.stopClear ending))
    else some (s.setCall t (afterStop ending))
  | .stopClear ending =>
    some ((s.setMatch fun m => { m with mRunning := false }).setCall t (.stopJoin ending))
  | .stopJoin ending =>
    if s.threadJoined then some (s.setCall t .thrown)
    else
      match s.thread with
      | .absent => some (s.setCall t .thrown)
      | .exited => some { s.setCall t (afterStop ending) with threadJoined := true }
      | _ => none
  | .removeMatch => some (s.setCall t .idle)
  | .thrown => none

/-- The next statement of the match thread. -/
def threadStep (now : UInt64) (s : Lifecycle) : Option Lifecycle :=
  match s.thread with
  | .absent => none
  | .initRunning =>
    some { s.setMatch fun m => { m with mRunning := true } with thread := .initState }
  | .initState =>
    some { s.setMatch fun m => { m with mMatchState := .joinedWaiting } with thread := .initTimes }
  | .initTimes =>
    some { s.setMatch fun m => { m with mLastOrientationUpdate := now } with thread := .loopTest }
  | .loopTest => some { s with thread := if s.ctx.mtch.mRunning then .loopBody .idle else .exited }
  | .loopBody .idle => some { s with thread := .loopTest }
  | .loopBody pc =>
    match Joining.threadStep now ⟨s.ctx, .idle, pc, [], none⟩ with
    | some j => some { s with ctx := j.ctx, thread := .loopBody j.thread }
    | none => none
  | .exited => none

/-- An operation of `AsynUpdate` that neither starts the match nor sends orientations. -/
inductive Work where
  | updateOrientation (player : PlayerRef) (buffer : List UInt8)
  | playerEvent (authenticated : SessionRef → Bool) (player : PlayerRef)
      (eventCmd : OpCodes.PlayerEvents) (data : List UInt8)
  | updatePlayers (now now' : UInt64)
  | sendPlayerEvents

def Work.run (c : MatchCtx) : Work → Exec MatchCtx
  | updateOrientation player buffer => c.updateOrientationNetCmd player buffer
  | playerEvent authenticated player eventCmd data =>
    c.submitPlayerEvent authenticated player eventCmd data
  | updatePlayers now now' => c.updatePlayers now now'
  | sendPlayerEvents => do
    let (c, _) ← c.sendPlayerEvents
    .ok c

inductive Event where
  /-- thread `t` calls the match -/
  | call (t : ThreadRef) (c : LifecycleCall)
  /-- thread `t` executes its next statement -/
  | run (t : ThreadRef) (now : UInt64)
  | thread (now : UInt64)
  /-- `AsynUpdate` comes to a `Debug_Start` command -/
  | debugStart
  | sendOrientations
  | work (w : Work)

/-- `Init` is called once; the other calls are free. -/
def Step (this : MatchRef) (s : Lifecycle) (e : Event) (s' : Lifecycle) : Prop :=
  match e with
  | .call t c =>
    s.call t = .idle ∧ (c = .init → s.initCalled = false) ∧
      s' = { s.setCall t c.entry with initCalled := s.initCalled || decide (c = .init) }
  | .run t now => s.callStep this now t = some s'
  | .thread now => s.threadStep now = some s'
  | .debugStart => s.thread = .loopBody .idle ∧ s' = { s with thread := .loopBody .startCheck }
  | .sendOrientations => s.thread = .loopBody .idle ∧ s' = { s with thread := .loopBody .sendCheck }
  | .work w => s.thread = .loopBody .idle ∧ ∃ c, w.run s.ctx = .ok c ∧ s' = { s with ctx := c }

/-- A match as its constructor leaves it: `m_running` is not initialised. -/
structure Init (s : Lifecycle) : Prop where
  state : s.matchState = .none
  thread : s.thread = .absent
  threadJoined : s.threadJoined = false
  call : ∀ t, s.call t = .idle
  initCalled : s.initCalled = false
  ended : s.ended = false

def system (this : MatchRef) : System Lifecycle Event := ⟨Init, Step this⟩

/-- The step is the return of a `JoinPlayer` that let its player in. -/
def JoinsPlayer (s : Lifecycle) (e : Event) : Prop :=
  ∃ t now p, e = .run t now ∧ s.call t = .join (.unlock p)

/-- The step is a loop test of the match thread that passes. -/
def EntersBody (s : Lifecycle) (e : Event) : Prop :=
  ∃ now, e = .thread now ∧ s.thread = .loopTest ∧ s.ctx.mtch.mRunning = true

/-- The step writes `Joined_Waiting` or `Started`. -/
def WritesState (s : Lifecycle) (e : Event) : Prop :=
  (∃ now, e = .thread now ∧ s.thread = .initState) ∨
  (∃ now playerArr, e = .thread now ∧ s.thread = .loopBody (.startState playerArr)) ∨
  ∃ t now playerArr, e = .run t now ∧ s.call t = .start (.startState playerArr)

/-- A statement that acts on a test made earlier, or on none, finds the match not ended. -/
def InTime (s : Lifecycle) (e : Event) : Prop :=
  s.WritesState e ∨ s.JoinsPlayer e ∨ s.EntersBody e → s.matchState ≠ .ended

/-! ### What a statement does to the state -/

end Lifecycle

/-- Inside `StartMatch`. -/
def MatchPc.inStart : MatchPc → Bool
  | .startCheck | .startCount | .startBuffer _ | .startArray | .startLock _ | .startLoop ..
  | .startUnlock _ | .startState _ | .startBroadcast _ | .overran => true
  | .threadInit | .idle | .sendCheck | .sendCount | .sendStore _ | .sendLock | .sendLoop ..
  | .sendUnlock | .sendBroadcast => false

namespace Joining

theorem joinStep_state {this : MatchRef} {s s' : Joining} (h : s.joinStep this = some s') :
    s'.ctx.mtch.mMatchState = s.ctx.mtch.mMatchState := by
  unfold joinStep at h
  split at h
  · cases h
  · split_ifs at h
    · cases h
      rfl
    · cases h
      rfl
  · split_ifs at h
    cases h
    rfl
  · cases h
    rfl
  · cases h
    rfl
  · cases h
    rfl
  · cases h
    rfl

/-- The state is written by `ThreadInit` and at the end of `StartMatch`. -/
theorem threadStep_state {now : UInt64} {s s' : Joining} (h : s.threadStep now = some s')
    (hinit : s.thread ≠ .threadInit) :
    s'.ctx.mtch.mMatchState = s.ctx.mtch.mMatchState ∨
      (∃ playerArr, s.thread = .startState playerArr) ∧ s'.ctx.mtch.mMatchState = .started := by
  cases hpc : s.thread with
  | threadInit => exact absurd hpc hinit
  | startState playerArr =>
    simp only [threadStep, hpc] at h
    cases h
    exact .inr ⟨⟨playerArr, rfl⟩, rfl⟩
  | idle | overran =>
    simp only [threadStep, hpc] at h
    cases h
  | startCheck | startCount | startBuffer | startArray | startUnlock | startBroadcast | sendCheck
  | sendCount | sendUnlock | sendBroadcast =>
    simp only [threadStep, hpc] at h
    cases h
    exact .inl rfl
  | startLock | sendLock =>
    simp only [threadStep, hpc] at h
    split_ifs at h
    cases h
    exact .inl rfl
  | startLoop arraySize playerArr rest =>
    cases rest with
    | nil | cons =>
      simp only [threadStep, hpc] at h
      cases h
      exact .inl rfl
  | sendStore =>
    simp only [threadStep, hpc] at h
    split at h
    · cases h
      exact .inl rfl
    · cases h
      exact .inl rfl
  | sendLoop pIndex rest =>
    cases rest with
    | nil =>
      simp only [threadStep, hpc] at h
      cases h
      exact .inl rfl
    | cons =>
      simp only [threadStep, hpc] at h
      split at h
      · cases h
        exact .inl rfl
      · cases h
        exact .inl rfl

/-- The test of `StartMatch` lets it go on in `Joined_Waiting` only. -/
theorem threadStep_startCheck {now : UInt64} {s s' : Joining} (h : s.threadStep now = some s')
    (hpc : s.thread = .startCheck) :
    s'.thread = .idle ∨ s'.thread = .startCount ∧ s.ctx.mtch.mMatchState = .joinedWaiting := by
  simp only [threadStep, hpc] at h
  cases h
  by_cases hs : s.ctx.mtch.mMatchState = .joinedWaiting
  · exact .inr ⟨if_neg (not_not.mpr hs), hs⟩
  · exact .inl (if_pos hs)

/-- A call of `StartMatch` stays between its statements until it returns. -/
theorem threadStep_inStart {now : UInt64} {s s' : Joining} (h : s.threadStep now = some s')
    (hstart : s.thread.inStart = true) :
    s'.thread = .idle ∨ s'.thread.inStart = true ∧ s'.thread ≠ .startCheck := by
  cases hpc : s.thread with
  | startCheck =>
    rcases threadStep_startCheck h hpc with hidle | ⟨hcount, -⟩
    · exact .inl hidle
    · exact .inr (by simp [hcount, MatchPc.inStart])
  | threadInit | idle | sendCheck | sendCount | sendStore | sendLock | sendLoop | sendUnlock
  | sendBroadcast =>
    rw [hpc] at hstart
    cases hstart
  | overran =>
    simp only [threadStep, hpc] at h
    cases h
  | startBroadcast =>
    simp only [threadStep, hpc] at h
    cases h
    exact .inl rfl
  | startCount | startBuffer | startArray | startUnlock | startState =>
    simp only [threadStep, hpc] at h
    cases h
    exact .inr ⟨rfl, by simp⟩
  | startLock =>
    simp only [threadStep, hpc] at h
    split_ifs at h
    cases h
    exact .inr ⟨rfl, by simp⟩
  | startLoop arraySize playerArr rest =>
    cases rest with
    | nil =>
      simp only [threadStep, hpc] at h
      cases h
      exact .inr ⟨rfl, by simp⟩
    | cons =>
      simp only [threadStep, hpc] at h
      cases h
      dsimp only
      split_ifs
      · exact .inr ⟨rfl, by simp⟩
      · exact .inr ⟨rfl, by simp⟩

/-- Nothing leads back to `ThreadInit`. -/
theorem threadStep_ne_threadInit {now : UInt64} {s s' : Joining} (h : s.threadStep now = some s') :
    s'.thread ≠ .threadInit := by
  unfold threadStep at h
  dsimp only at h
  split at h <;> try split at h
  all_goals
    cases h
    try dsimp only
    try split_ifs
    all_goals nofun

end Joining

/-- The match thread has not written `Joined_Waiting` yet. -/
def RunPc.early : RunPc → Bool
  | .absent | .initRunning | .initState => true
  | .initTimes | .loopTest | .loopBody _ | .exited => false

/-- Inside `Init`. -/
def LifecyclePc.inInit : LifecyclePc → Bool
  | .initCheck | .initThread => true
  | _ => false

namespace Lifecycle

/-! ### The invariant -/

/-- `Ended` is where `EndMatch` left it, and until the match thread has initialised
nobody is past a test of `Joined_Waiting`. -/
structure Inv (s : Lifecycle) : Prop where
  ended : s.ended = true ↔ s.matchState = .ended
  early : s.thread.early = true → s.matchState = .none ∨ s.matchState = .ended
  waiting : s.thread.early = true → ∀ t pc, s.call t = .start pc → pc = .startCheck
  init : ∀ t, (s.call t).inInit = true →
    s.thread = .absent ∧ s.initCalled = true ∧ ∀ t', (s.call t').inInit = true → t' = t
  start : ∀ t pc, s.call t = .start pc → pc.inStart = true
  body : s.thread ≠ .loopBody .threadInit
  uncalled : s.initCalled = false → s.thread = .absent

theorem inv_init {s : Lifecycle} (h : Init s) : s.Inv := by
  refine ⟨?_, fun _ => .inl h.state, fun _ t pc ht => ?_, fun t ht => ?_, fun t pc ht => ?_, ?_,
    fun _ => h.thread⟩
  · rw [h.ended, h.state]
    exact ⟨nofun, nofun⟩
  · rw [h.call t] at ht
    cases ht
  · rw [h.call t] at ht
    cases ht
  · rw [h.call t] at ht
    cases ht
  · rw [h.thread]
    nofun

section Preserved

variable {s : Lifecycle}

theorem setCall_call_self (t : ThreadRef) (pc : LifecyclePc) : (s.setCall t pc).call t = pc :=
  Function.update_self ..

theorem setCall_call_ne {t u : ThreadRef} (pc : LifecyclePc) (h : u ≠ t) :
    (s.setCall t pc).call u = s.call u :=
  Function.update_of_ne h ..

/-- A thread outside `Init` moves on. The state may change while it stays apart from
`Ended`, and once the match thread has initialised. -/
theorem Inv.moved (hs : s.Inv) {c : MatchCtx} {ended : Bool} {t : ThreadRef} {pc : LifecyclePc}
    (hended : ended = true ↔ c.mtch.mMatchState = .ended)
    (hearly : s.thread.early = true → c.mtch.mMatchState = .none ∨ c.mtch.mMatchState = .ended)
    (hinit : pc.inInit = true → (s.call t).inInit = true)
    (hwaiting : s.thread.early = true → ∀ p, pc = .start p → p = .startCheck)
    (hstart : ∀ p, pc = .start p → p.inStart = true) :
    Inv { s.setCall t pc with ctx := c, ended := ended } := by
  have hin : ∀ u, ((s.setCall t pc).call u).inInit = true → (s.call u).inInit = true := by
    intro u hu
    by_cases h : u = t
    · subst h
      rw [setCall_call_self] at hu
      exact hinit hu
    · rwa [setCall_call_ne pc h] at hu
  refine ⟨hended, hearly, fun he u p hu => ?_, fun u hu => ?_, fun u p hu => ?_, hs.body,
    hs.uncalled⟩
  · by_cases h : u = t
    · subst h
      exact hwaiting he p ((setCall_call_self u pc).symm.trans hu)
    · exact hs.waiting he u p ((setCall_call_ne pc h).symm.trans hu)
  · obtain ⟨habsent, hcalled, hone⟩ := hs.init u (hin u hu)
    exact ⟨habsent, hcalled, fun v hv => hone v (hin v hv)⟩
  · by_cases h : u = t
    · subst h
      exact hstart p ((setCall_call_self u pc).symm.trans hu)
    · exact hs.start u p ((setCall_call_ne pc h).symm.trans hu)

/-- The case of a statement that leaves the state and is none of `StartMatch`. -/
theorem Inv.movedTo (hs : s.Inv) {c : MatchCtx} {t : ThreadRef} (pc : LifecyclePc)
    (hc : c.mtch.mMatchState = s.matchState) (hinit : pc.inInit = true → (s.call t).inInit = true)
    (hstart : ∀ p, pc ≠ .start p) : Inv { s.setCall t pc with ctx := c } := by
  refine hs.moved ?_ ?_ hinit (fun _ p hp => absurd hp (hstart p))
    fun p hp => absurd hp (hstart p)
  · rw [hc]
    exact hs.ended
  · rw [hc]
    exact hs.early

theorem Inv.threadJoined (hs : s.Inv) : Inv { s with threadJoined := true } :=
  ⟨hs.ended, hs.early, hs.waiting, hs.init, hs.start, hs.body, hs.uncalled⟩

theorem Inv.stopped (hs : s.Inv) (t : ThreadRef) (ending : Bool) :
    (s.setCall t (Lifecycle.afterStop ending)).Inv := by
  unfold Lifecycle.afterStop
  split_ifs
  · exact hs.movedTo .removeMatch rfl nofun nofun
  · exact hs.movedTo .idle rfl nofun nofun

/-- `Init` starts the match thread. -/
theorem Inv.initThread (hs : s.Inv) {t : ThreadRef} (hpc : s.call t = .initThread) :
    Inv { s.setCall t .idle with thread := .initRunning } := by
  obtain ⟨habsent, hcalled, hone⟩ := hs.init t (by rw [hpc]; rfl)
  have hout : ∀ u, ((s.setCall t .idle).call u).inInit = true → False := by
    intro u hu
    by_cases h : u = t
    · subst h
      rw [setCall_call_self] at hu
      cases hu
    · rw [setCall_call_ne _ h] at hu
      exact h (hone u hu)
  have hsame : ∀ u p, (s.setCall t .idle).call u = .start p → s.call u = .start p := by
    intro u p hu
    by_cases h : u = t
    · subst h
      rw [setCall_call_self] at hu
      cases hu
    · rwa [setCall_call_ne _ h] at hu
  have hearly : s.thread.early = true := by
    rw [habsent]
    rfl
  exact ⟨hs.ended, fun _ => hs.early hearly, fun _ u p hu => hs.waiting hearly u p (hsame u p hu),
    fun u hu => (hout u hu).elim, fun u p hu => hs.start u p (hsame u p hu), nofun,
    fun h => absurd hcalled (by simp [show s.initCalled = false from h])⟩

/-- A statement of `StartMatch` on a calling thread. -/
theorem Inv.startStep (hs : s.Inv) {t : ThreadRef} {now : UInt64} {pc : MatchPc} {j : Joining}
    (hpc : s.call t = .start pc)
    (hj : Joining.threadStep now ⟨s.ctx, .idle, pc, [], none⟩ = some j)
    (htime : (∃ playerArr, pc = .startState playerArr) → s.matchState ≠ .ended) :
    Inv { s.setCall t (if j.thread = .idle then .idle else .start j.thread) with ctx := j.ctx } := by
  have hin := hs.start t pc hpc
  have hkept := Joining.threadStep_inStart hj hin
  have hnext : ∀ p, (if j.thread = .idle then LifecyclePc.idle else .start j.thread) = .start p →
      p = j.thread ∧ j.thread ≠ .idle := by
    intro p hp
    split_ifs at hp with hidle
    cases hp
    exact ⟨rfl, hidle⟩
  have hstart : ∀ p, (if j.thread = .idle then LifecyclePc.idle else .start j.thread) = .start p →
      p.inStart = true := by
    intro p hp
    obtain ⟨rfl, hne⟩ := hnext p hp
    exact (hkept.resolve_left hne).1
  have hinit : (if j.thread = .idle then LifecyclePc.idle else .start j.thread).inInit = true →
      (s.call t).inInit = true := by
    intro h
    split_ifs at h <;> cases h
  -- before the thread has initialised the call is at its test, which fails
  have hwaiting : s.thread.early = true →
      ∀ p, (if j.thread = .idle then LifecyclePc.idle else .start j.thread) = .start p →
        p = .startCheck := by
    intro he p hp
    obtain ⟨-, hne⟩ := hnext p hp
    have hcheck := hs.waiting he t pc hpc
    obtain ⟨-, hjoined⟩ := (Joining.threadStep_startCheck hj hcheck).resolve_left hne
    have hstate : s.matchState = .joinedWaiting := hjoined
    rcases hs.early he with h | h
    · rw [hstate] at h
      cases h
    · rw [hstate] at h
      cases h
  rcases Joining.threadStep_state hj (by rintro rfl; cases hin) with hc | ⟨harr, hc⟩
  · have hstate : j.ctx.mtch.mMatchState = s.matchState := hc
    refine hs.moved ?_ ?_ hinit hwaiting hstart
    · rw [hstate]
      exact hs.ended
    · rw [hstate]
      exact hs.early
  · have hnot : s.ended ≠ true := fun h => htime harr (hs.ended.mp h)
    refine hs.moved ?_ (fun he => ?_) hinit hwaiting hstart
    · rw [hc]
      exact ⟨fun h => absurd h hnot, nofun⟩
    · obtain ⟨playerArr, rfl⟩ := harr
      cases hs.waiting he t _ hpc

theorem Inv.callStep (hs : s.Inv) {this : MatchRef} {now : UInt64} {t : ThreadRef}
    {s' : Lifecycle} (htime : s.InTime (.run t now)) (h : s.callStep this now t = some s') :
    s'.Inv := by
  unfold Lifecycle.callStep at h
  split at h
  · cases h
  · next hpc =>
    split_ifs at h
    · cases h
      exact hs.movedTo .initThread rfl (fun _ => by rw [hpc]; rfl) nofun
    · cases h
      exact hs.movedTo .idle rfl nofun nofun
  · next hpc =>
    cases h
    exact hs.initThread hpc
  · next pc hpc =>
    split at h
    · next j hj =>
      cases h
      refine hs.movedTo _ (Joining.joinStep_state hj) (fun hin => ?_) fun p hp => ?_
      · split_ifs at hin <;> cases hin
      · split_ifs at hp
    · cases h
  · next pc hpc =>
    split at h
    · next j hj =>
      cases h
      refine hs.startStep hpc hj ?_
      rintro ⟨playerArr, rfl⟩
      exact htime (.inl (.inr (.inr ⟨t, now, playerArr, rfl, hpc⟩)))
    · cases h
  · cases h
    exact hs.moved ⟨fun _ => rfl, fun _ => rfl⟩ (fun _ => .inr rfl) nofun nofun nofun
  · split_ifs at h
    · cases h
      exact hs.movedTo _ rfl nofun nofun
    · cases h
      exact hs.stopped t _
  · cases h
    exact hs.movedTo _ rfl nofun nofun
  · split_ifs at h
    · cases h
      exact hs.movedTo .thrown rfl nofun nofun
    · split at h
      · cases h
        exact hs.movedTo .thrown rfl nofun nofun
      · cases h
        exact (hs.stopped t _).threadJoined
      · cases h
  · cases h
    exact hs.movedTo .idle rfl nofun nofun
  · cases h

/-- The match thread moves on, past its initialisation. -/
theorem Inv.threadTo (hs : s.Inv) {c : MatchCtx} {pc : RunPc} (hc : c.mtch.mMatchState = s.matchState)
    (hpc : s.thread ≠ .absent) (hlate : pc.early = true → s.thread.early = true)
    (hbody : pc ≠ .loopBody .threadInit) : Inv { s with ctx := c, thread := pc } := by
  refine ⟨?_, fun he => ?_, fun he => hs.waiting (hlate he), fun t ht => ?_, hs.start, hbody,
    fun h => absurd (hs.uncalled h) hpc⟩
  · change s.ended = true ↔ c.mtch.mMatchState = .ended
    rw [hc]
    exact hs.ended
  · change c.mtch.mMatchState = .none ∨ c.mtch.mMatchState = .ended
    rw [hc]
    exact hs.early (hlate he)
  · exact absurd (hs.init t ht).1 hpc

/-- The match thread writes a state that is not the last one. -/
theorem Inv.threadWrites (hs : s.Inv) {c : MatchCtx} {pc : RunPc} (hstate : s.matchState ≠ .ended)
    (hc : c.mtch.mMatchState ≠ .ended) (hpc : s.thread ≠ .absent) (hlate : pc.early = false)
    (hbody : pc ≠ .loopBody .threadInit) : Inv { s with ctx := c, thread := pc } := by
  have hnot : s.ended ≠ true := fun h => hstate (hs.ended.mp h)
  refine ⟨⟨fun h => absurd h hnot, fun h => absurd h hc⟩, fun he => ?_, fun he => ?_,
    fun t ht => absurd (hs.init t ht).1 hpc, hs.start, hbody,
    fun h => absurd (hs.uncalled h) hpc⟩
  · rw [hlate] at he
    cases he
  · rw [hlate] at he
    cases he

theorem Inv.threadStep (hs : s.Inv) {now : UInt64} {s' : Lifecycle}
    (htime : s.InTime (.thread now)) (h : s.threadStep now = some s') : s'.Inv := by
  unfold Lifecycle.threadStep at h
  split at h
  · cases h
  · next hpc =>
    cases h
    exact hs.threadTo rfl (by rw [hpc]; nofun) (fun _ => by rw [hpc]; rfl) nofun
  · next hpc =>
    cases h
    exact hs.threadWrites (htime (.inl (.inl ⟨now, rfl, hpc⟩))) nofun (by rw [hpc]; nofun) rfl nofun
  · next hpc =>
    cases h
    exact hs.threadTo rfl (by rw [hpc]; nofun) nofun nofun
  · next hpc =>
    cases h
    refine hs.threadTo rfl (by rw [hpc]; nofun) ?_ ?_
    · split_ifs <;> nofun
    · split_ifs <;> nofun
  · next hpc =>
    cases h
    exact hs.threadTo rfl (by rw [hpc]; nofun) nofun nofun
  · next pc _ hpc =>
    split at h
    · next j hj =>
      cases h
      have hbody : RunPc.loopBody j.thread ≠ .loopBody .threadInit := fun h =>
        Joining.threadStep_ne_threadInit hj (RunPc.loopBody.inj h)
      have hinit : pc ≠ .threadInit := by
        rintro rfl
        exact hs.body hpc
      rcases Joining.threadStep_state hj hinit with hc | ⟨⟨playerArr, rfl⟩, hc⟩
      · exact hs.threadTo hc (by rw [hpc]; nofun) nofun hbody
      · refine hs.threadWrites (htime (.inl (.inr (.inl ⟨now, playerArr, rfl, hpc⟩)))) ?_
          (by rw [hpc]; nofun) rfl hbody
        rw [hc]
        nofun
    · cases h
  · cases h

/-- What `AsynUpdate` does besides is done to the players. -/
theorem work_mtch {w : Work} {c c' : MatchCtx} (h : w.run c = .ok c') : c'.mtch = c.mtch := by
  cases w with
  | updateOrientation player buffer =>
    obtain ⟨l, r, rfl⟩ := MatchCtx.updateOrientationNetCmd_ok h
    rfl
  | playerEvent authenticated player eventCmd data =>
    obtain ⟨u, -, rfl⟩ := MatchCtx.submitPlayerEvent_ok h
    split_ifs
    · rfl
    · rfl
  | updatePlayers now now' => exact (MatchCtx.updatePlayers_ok h).1
  | sendPlayerEvents =>
    obtain ⟨⟨c₁, out⟩, hc, h⟩ := Exec.bind_eq_ok.mp h
    cases h
    rcases MatchCtx.sendPlayerEvents_ok hc with rfl | ⟨-, -, rfl⟩
    · rfl
    · rfl

theorem work_state {w : Work} {c c' : MatchCtx} (h : w.run c = .ok c') :
    c'.mtch.mMatchState = c.mtch.mMatchState :=
  congrArg Match.mMatchState (work_mtch h)

/-- A thread that is in no call starts one. -/
theorem Inv.called (hs : s.Inv) {t : ThreadRef} {c : LifecycleCall}
    (hone : c = .init → s.initCalled = false) :
    Inv { s.setCall t c.entry with initCalled := s.initCalled || decide (c = .init) } := by
  by_cases hc : c = .init
  · subst hc
    have hout : ∀ u, ((s.setCall t LifecyclePc.initCheck).call u).inInit = true → u = t := by
      intro u hu
      by_contra hne
      rw [setCall_call_ne _ hne] at hu
      have hcalled := (hs.init u hu).2.1
      rw [hone rfl] at hcalled
      cases hcalled
    have hsame : ∀ u p, (s.setCall t LifecyclePc.initCheck).call u = .start p → s.call u = .start p := by
      intro u p hu
      by_cases h : u = t
      · subst h
        rw [setCall_call_self] at hu
        cases hu
      · rwa [setCall_call_ne _ h] at hu
    refine ⟨hs.ended, hs.early, fun he u p hu => hs.waiting he u p (hsame u p hu), fun u hu => ?_,
      fun u p hu => hs.start u p (hsame u p hu), hs.body, fun _ => hs.uncalled (hone rfl)⟩
    refine ⟨hs.uncalled (hone rfl), by simp, fun v hv => ?_⟩
    rw [hout u hu, hout v hv]
  · have hcalled : (s.initCalled || decide (c = .init)) = s.initCalled := by simp [hc]
    rw [hcalled]
    cases c with
    | init => exact absurd rfl hc
    | joinPlayer p => exact hs.movedTo (.join (.check p)) rfl nofun nofun
    | stop => exact hs.movedTo (.stopCheck false) rfl nofun nofun
    | endMatch => exact hs.movedTo .endState rfl nofun nofun
    | startMatch =>
      refine hs.moved hs.ended hs.early nofun (fun _ p hp => ?_) fun p hp => ?_
      · cases hp
        rfl
      · cases hp
        rfl

theorem Inv.step (hs : s.Inv) {this : MatchRef} {e : Event} {s' : Lifecycle} (htime : s.InTime e)
    (h : Step this s e s') : s'.Inv := by
  cases e with
  | call t c =>
    obtain ⟨-, hone, rfl⟩ := h
    exact hs.called hone
  | run t now => exact hs.callStep htime h
  | thread now => exact hs.threadStep htime h
  | debugStart =>
    obtain ⟨hpc, rfl⟩ := h
    exact hs.threadTo rfl (by rw [hpc]; nofun) nofun nofun
  | sendOrientations =>
    obtain ⟨hpc, rfl⟩ := h
    exact hs.threadTo rfl (by rw [hpc]; nofun) nofun nofun
  | work w =>
    obtain ⟨hpc, c, hw, rfl⟩ := h
    have hkept : Inv { s with ctx := c, thread := s.thread } :=
      hs.threadTo (work_state hw) (by rw [hpc]; nofun) id hs.body
    exact hkept

/-! ### What a statement does to the state -/

theorem value_le_ended (m : MatchState) : m.value ≤ MatchState.ended.value := by
  cases m <;> decide

/-- A statement of a calling thread leaves the state, ends the match or starts it. -/
theorem callStep_state (hs : s.Inv) {this : MatchRef} {now : UInt64} {t : ThreadRef}
    {s' : Lifecycle} (h : s.callStep this now t = some s') :
    s'.matchState = s.matchState ∨ s.call t = .endState ∧ s'.matchState = .ended ∨
      s.WritesState (.run t now) ∧ s'.matchState = .started := by
  unfold callStep at h
  split at h
  · cases h
  · split_ifs at h
    · cases h
      exact .inl rfl
    · cases h
      exact .inl rfl
  · cases h
    exact .inl rfl
  · split at h
    · next j hj =>
      cases h
      exact .inl (Joining.joinStep_state hj)
    · cases h
  · next pc hpc =>
    split at h
    · next j hj =>
      cases h
      have hin := hs.start t pc hpc
      rcases Joining.threadStep_state hj (by rintro rfl; cases hin) with hc | ⟨⟨arr, rfl⟩, hc⟩
      · exact .inl hc
      · exact .inr (.inr ⟨.inr (.inr ⟨t, now, arr, rfl, hpc⟩), hc⟩)
    · cases h
  · next hpc =>
    cases h
    exact .inr (.inl ⟨hpc, rfl⟩)
  · split_ifs at h
    · cases h
      exact .inl rfl
    · cases h
      exact .inl rfl
  · cases h
    exact .inl rfl
  · split_ifs at h
    · cases h
      exact .inl rfl
    · split at h
      · cases h
        exact .inl rfl
      · cases h
        exact .inl rfl
      · cases h
  · cases h
    exact .inl rfl
  · cases h

/-- A statement of the match thread leaves the state or writes it; its first write
comes before any start. -/
theorem threadStep_state (hs : s.Inv) {now : UInt64} {s' : Lifecycle}
    (h : s.threadStep now = some s') :
    s'.matchState = s.matchState ∨
      s.WritesState (.thread now) ∧ (s'.matchState = .started ∨
        s'.matchState = .joinedWaiting ∧ (s.matchState = .none ∨ s.matchState = .ended)) := by
  unfold threadStep at h
  split at h
  · cases h
  · cases h
    exact .inl rfl
  · next hpc =>
    cases h
    exact .inr ⟨.inl ⟨now, rfl, hpc⟩, .inr ⟨rfl, hs.early (by rw [hpc]; rfl)⟩⟩
  · cases h
    exact .inl rfl
  · cases h
    exact .inl rfl
  · cases h
    exact .inl rfl
  · next pc _ hpc =>
    split at h
    · next j hj =>
      cases h
      have hinit : pc ≠ .threadInit := by
        rintro rfl
        exact hs.body hpc
      rcases Joining.threadStep_state hj hinit with hc | ⟨⟨arr, rfl⟩, hc⟩
      · exact .inl hc
      · exact .inr ⟨.inr (.inl ⟨now, arr, rfl, hpc⟩), .inl hc⟩
    · cases h
  · cases h

/-- A step leaves the state, ends the match, or writes `Started`, or `Joined_Waiting`
before any start. -/
theorem step_state (hs : s.Inv) {this : MatchRef} {e : Event} {s' : Lifecycle}
    (h : Step this s e s') :
    s'.matchState = s.matchState ∨
      (∃ t now, e = .run t now ∧ s.call t = .endState) ∧ s'.matchState = .ended ∨
      s.WritesState e ∧ (s'.matchState = .started ∨
        s'.matchState = .joinedWaiting ∧ (s.matchState = .none ∨ s.matchState = .ended)) := by
  cases e with
  | call t c =>
    obtain ⟨-, -, rfl⟩ := h
    exact .inl rfl
  | run t now =>
    rcases callStep_state hs h with hc | ⟨hpc, hc⟩ | ⟨hw, hc⟩
    · exact .inl hc
    · exact .inr (.inl ⟨⟨t, now, rfl, hpc⟩, hc⟩)
    · exact .inr (.inr ⟨hw, .inl hc⟩)
  | thread now =>
    rcases threadStep_state hs h with hc | hw
    · exact .inl hc
    · exact .inr (.inr hw)
  | debugStart =>
    obtain ⟨-, rfl⟩ := h
    exact .inl rfl
  | sendOrientations =>
    obtain ⟨-, rfl⟩ := h
    exact .inl rfl
  | work w =>
    obtain ⟨-, c, hw, rfl⟩ := h
    exact .inl (work_state hw)

/-- A write of the state is one of the two values. -/
theorem writesState_state {this : MatchRef} {e : Event} {s' : Lifecycle} (hw : s.WritesState e)
    (h : Step this s e s') : s'.matchState = .started ∨ s'.matchState = .joinedWaiting := by
  rcases hw with ⟨now, rfl, hpc⟩ | ⟨now, arr, rfl, hpc⟩ | ⟨t, now, arr, rfl, hpc⟩
  · simp only [Step, threadStep, hpc] at h
    cases h
    exact .inr rfl
  · simp only [Step, threadStep, hpc] at h
    cases h
    exact .inl rfl
  · simp only [Step, callStep, hpc] at h
    cases h
    exact .inl rfl

/-! ### Forward -/

/-- What the step does when the match only moves forward. -/
def Advances (s : Lifecycle) (e : Event) (s' : Lifecycle) : Prop :=
  s.matchState.value ≤ s'.matchState.value ∧
    (s.ended = true → ¬ s.JoinsPlayer e ∧ ¬ s.EntersBody e)

/-- A step goes forward if and only if it is in time. -/
theorem Inv.advances_iff (hs : s.Inv) {this : MatchRef} {e : Event} {s' : Lifecycle}
    (h : Step this s e s') : s.Advances e s' ↔ s.InTime e := by
  constructor
  · rintro ⟨hle, hclosed⟩ hact hended
    have hflag := hs.ended.mpr hended
    rcases hact with hw | hj | hb
    · rw [hended] at hle
      rcases writesState_state hw h with hc | hc
      · rw [hc] at hle
        exact absurd hle (by decide)
      · rw [hc] at hle
        exact absurd hle (by decide)
    · exact (hclosed hflag).1 hj
    · exact (hclosed hflag).2 hb
  · intro htime
    refine ⟨?_, fun hflag => ?_⟩
    · rcases step_state hs h with hc | ⟨-, hc⟩ | ⟨hw, hc⟩
      · rw [hc]
      · rw [hc]
        exact value_le_ended _
      · have hne := htime (.inl hw)
        rcases hc with hc | ⟨hc, hold | hold⟩
        · rw [hc]
          cases hstate : s.matchState with
          | ended => exact absurd hstate hne
          | _ => decide
        · rw [hc, hold]
          decide
        · exact absurd hold hne
    · have hended := hs.ended.mp hflag
      exact ⟨fun hj => htime (.inr (.inl hj)) hended, fun hb => htime (.inr (.inr hb)) hended⟩

end Preserved

/-- The state does not go back, and after `EndMatch` has set `Ended` nobody is let in
and the loop of the match thread is not entered again. -/
structure Forward (tr : List (Lifecycle × Event)) (s : Lifecycle) : Prop where
  state : (visited tr s).Pairwise fun a b => a.matchState.value ≤ b.matchState.value
  closed : ∀ x ∈ tr, x.1.ended = true → ¬ x.1.JoinsPlayer x.2 ∧ ¬ x.1.EntersBody x.2

theorem forward_iff_steps (tr : List (Lifecycle × Event)) (s : Lifecycle) :
    Forward tr s ↔ ∀ x ∈ steps tr s, x.1.Advances x.2.1 x.2.2 := by
  have htrans : IsTrans Lifecycle fun a b => a.matchState.value ≤ b.matchState.value :=
    ⟨fun _ _ _ => le_trans⟩
  have hstate := pairwise_visited_iff
    (fun a b : Lifecycle => a.matchState.value ≤ b.matchState.value) tr s
  have hclosed := forall_steps_iff
    (fun a e => a.ended = true → ¬ a.JoinsPlayer e ∧ ¬ a.EntersBody e) tr s
  have hboth : Forward tr s ↔ _ ∧ _ := ⟨fun h => ⟨h.state, h.closed⟩, fun h => ⟨h.1, h.2⟩⟩
  rw [hboth, hstate, ← hclosed]
  simp only [Advances, imp_and, forall_and]

theorem steps_advance_iff (this : MatchRef) {tr : List (Lifecycle × Event)} {s : Lifecycle}
    (h : (system this).Exec tr s) :
    (∀ x ∈ steps tr s, x.1.Advances x.2.1 x.2.2) ↔ ∀ x ∈ tr, x.1.InTime x.2 := by
  have hsteps := forall_steps_iff (fun a e => a.InTime e) tr s
  have hsafe := h.safe_steps_iff Inv (fun _ => True) Advances (fun a e _ => a.InTime e)
    (fun s => inv_init) (fun _ _ => trivial) (fun s e s' hs htime hst => hs.step htime hst)
    fun s e s' hs hst => hs.advances_iff hst
  rw [← hsteps]
  simpa using hsafe

/-- A match only moves forward if and only if whoever acts on an earlier test does so
before it has ended. -/
theorem forward_iff (this : MatchRef) {tr : List (Lifecycle × Event)} {s : Lifecycle}
    (h : (system this).Exec tr s) : Forward tr s ↔ ∀ x ∈ tr, x.1.InTime x.2 := by
  rw [forward_iff_steps]
  exact steps_advance_iff this h

/-! ### A match that goes back -/

def born : Lifecycle :=
  { ctx := MatchCtx.sampleMatch
    thread := .absent
    threadJoined := false
    call := fun _ => .idle
    initCalled := false
    ended := false }

theorem born_exec (this : MatchRef) : (system this).Exec [] born :=
  .nil ⟨rfl, rfl, rfl, fun _ => rfl, rfl, rfl⟩

/-- `EndMatch` between `Init` and the first statements of the thread: the thread takes
the match back to `Joined_Waiting`. -/
theorem not_forward : ¬ ∀ this tr s, (system this).Exec tr s → Forward tr s := by
  intro hall
  have h1 := (born_exec 0).next (.call 0 .init) _ ⟨rfl, fun _ => rfl, rfl⟩
  have h2 := h1.next (.run 0 0) _ rfl
  have h3 := h2.next (.run 0 0) _ rfl
  -- thread 1 ends the match; `m_running` is not set yet, so `Stop` does nothing
  have h4 := h3.next (.call 1 .endMatch) _ ⟨rfl, nofun, rfl⟩
  have h5 := h4.next (.run 1 0) _ rfl
  have h6 := h5.next (.run 1 0) _ rfl
  have h7 := h6.next (.thread 0) _ rfl
  have h8 := h7.next (.thread 0) _ rfl
  have hsteps := (forward_iff_steps _ _).mp (hall _ _ _ h8)
  rw [steps_snoc] at hsteps
  have hlast := (hsteps _ (List.mem_append_right _ (List.mem_singleton_self _))).1
  exact absurd hlast (by decide)

end Lifecycle

end GameServer
