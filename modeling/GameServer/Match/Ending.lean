import GameServer.Match.Lifecycle

/-! A match that is ended between the tests of others. When `EndMatch` sets `Ended` while
nobody is past a test that it would make untrue, and the match thread does not test its
loop before `Stop` has cleared `m_running`, the match only moves forward. -/

namespace GameServer

open Lib

/-! ### Past a test -/

/-- Past the test of `JoinPlayer`. -/
def JoinPc.tested : JoinPc → Bool
  | .lock _ | .setActiveMatch _ | .insert _ | .setMatchInstanceId _ | .unlock _ => true
  | .idle | .check _ => false

/-- Past the test of `StartMatch` and before its write of the state. -/
def MatchPc.tested : MatchPc → Bool
  | .startCount | .startBuffer _ | .startArray | .startLock _ | .startLoop .. | .startUnlock _
  | .startState _ => true
  | .threadInit | .idle | .startCheck | .startBroadcast _ | .sendCheck | .sendCount | .sendStore _
  | .sendLock | .sendLoop .. | .sendUnlock | .sendBroadcast | .overran => false

/-- `Init` is past its test too until the match thread runs. -/
def LifecyclePc.tested : LifecyclePc → Bool
  | .initThread => true
  | .join pc => pc.tested
  | .start pc => pc.tested
  | .idle | .initCheck | .endState | .stopCheck _ | .stopClear _ | .stopJoin _ | .removeMatch
  | .thrown => false

def RunPc.tested : RunPc → Bool
  | .initRunning | .initState => true
  | .loopBody pc => pc.tested
  | .absent | .initTimes | .loopTest | .exited => false

/-- `EndMatch` has set `Ended`, and its call of `Stop` has not cleared `m_running`. -/
def LifecyclePc.stopping : LifecyclePc → Bool
  | .stopCheck ending | .stopClear ending => ending
  | .idle | .initCheck | .initThread | .join _ | .start _ | .endState | .stopJoin _ | .removeMatch
  | .thrown => false

namespace Joining

theorem joinStep_running {this : MatchRef} {s s' : Joining} (h : s.joinStep this = some s') :
    s'.ctx.mtch.mRunning = s.ctx.mtch.mRunning := by
  unfold joinStep at h
  split at h
  all_goals try split_ifs at h
  all_goals cases h
  all_goals rfl

theorem joinStep_tested {this : MatchRef} {s s' : Joining} (h : s.joinStep this = some s')
    (hmain : s.main.tested = false) (hstate : s.ctx.mtch.mMatchState ≠ .joinedWaiting) :
    s'.main = .idle := by
  cases hpc : s.main with
  | idle =>
    simp only [joinStep, hpc] at h
    cases h
  | check p =>
    simp only [joinStep, hpc, if_pos hstate] at h
    cases h
    rfl
  | lock _ | setActiveMatch _ | insert _ | setMatchInstanceId _ | unlock _ =>
    rw [hpc] at hmain
    cases hmain

theorem threadStep_running {now : UInt64} {s s' : Joining} (h : s.threadStep now = some s')
    (hinit : s.thread ≠ .threadInit) : s'.ctx.mtch.mRunning = s.ctx.mtch.mRunning := by
  unfold threadStep at h
  dsimp only at h
  split at h
  · next hpc => exact absurd hpc hinit
  all_goals try split at h
  all_goals cases h
  all_goals rfl

/-- Where the match does not wait for players, the test of `StartMatch` lets nobody in. -/
theorem threadStep_tested {now : UInt64} {s s' : Joining} (h : s.threadStep now = some s')
    (hthread : s.thread.tested = false) (hstate : s.ctx.mtch.mMatchState ≠ .joinedWaiting) :
    s'.thread.tested = false := by
  cases hpc : s.thread with
  | startCount | startBuffer _ | startArray | startLock _ | startLoop _ _ _ | startUnlock _
  | startState _ =>
    rw [hpc] at hthread
    cases hthread
  | startCheck =>
    simp only [threadStep, hpc, if_pos hstate] at h
    cases h
    rfl
  | idle | overran =>
    simp only [threadStep, hpc] at h
    cases h
  | threadInit | startBroadcast _ | sendCount | sendUnlock | sendBroadcast =>
    simp only [threadStep, hpc] at h
    cases h
    rfl
  | sendCheck =>
    simp only [threadStep, hpc] at h
    cases h
    dsimp only
    split_ifs <;> rfl
  | sendStore _ =>
    simp only [threadStep, hpc] at h
    split at h <;> cases h <;> rfl
  | sendLock =>
    simp only [threadStep, hpc] at h
    split_ifs at h
    cases h
    rfl
  | sendLoop pIndex rest =>
    cases rest with
    | nil =>
      simp only [threadStep, hpc] at h
      cases h
      rfl
    | cons =>
      simp only [threadStep, hpc] at h
      split at h <;> cases h <;> rfl

end Joining

namespace Lifecycle

/-- Nobody is past a test of the state. -/
structure Quiet (s : Lifecycle) : Prop where
  call : ∀ t, (s.call t).tested = false
  thread : s.thread.tested = false

/-- `EndMatch` sets `Ended` while nobody is past a test, and the match thread does not
test its loop while `EndMatch` has not cleared `m_running`. -/
structure Undisturbed (s : Lifecycle) (e : Event) : Prop where
  endState : ∀ t now, e = .run t now → s.call t = .endState → s.Quiet
  loopTest : ∀ now, e = .thread now → s.thread = .loopTest → ∀ t, (s.call t).stopping = false

/-- In a match that has ended nobody is past a test, and while `m_running` is set the
call of `Stop` that clears it is on its way. -/
structure Settled (s : Lifecycle) : Prop where
  quiet : s.matchState = .ended → s.Quiet
  stopping : s.matchState = .ended → s.ctx.mtch.mRunning = true → ∃ t, (s.call t).stopping = true

variable {s s' : Lifecycle} {this : MatchRef} {e : Event} {now : UInt64} {t : ThreadRef}

/-! ### A step from a match where nobody is past a test -/

/-- What a step from a quiet match may change. -/
structure KeepsQuiet (s s' : Lifecycle) : Prop where
  quiet : s'.Quiet
  stopping : s'.ctx.mtch.mRunning = true →
    s.ctx.mtch.mRunning = true ∧ ∀ t, (s.call t).stopping = true → (s'.call t).stopping = true

/-- A call that goes on, not past a test. -/
theorem Quiet.moved (hs : s.Quiet) {c : MatchCtx} {joined ended : Bool} {pc : LifecyclePc}
    (hpc : pc.tested = false) (hrunning : c.mtch.mRunning = true → s.ctx.mtch.mRunning = true ∧
      ((s.call t).stopping = true → pc.stopping = true)) :
    s.KeepsQuiet { s.setCall t pc with ctx := c, threadJoined := joined, ended := ended } := by
  refine ⟨⟨fun u => ?_, hs.thread⟩, fun hr => ⟨(hrunning hr).1, fun u hu => ?_⟩⟩
  · by_cases h : u = t
    · rw [h]
      exact (congrArg LifecyclePc.tested (setCall_call_self t pc)).trans hpc
    · exact (congrArg LifecyclePc.tested (setCall_call_ne pc h)).trans (hs.call u)
  · by_cases h : u = t
    · subst h
      exact (congrArg LifecyclePc.stopping (setCall_call_self u pc)).trans ((hrunning hr).2 hu)
    · exact (congrArg LifecyclePc.stopping (setCall_call_ne pc h)).trans hu

/-- A call that is none of `Stop`. -/
theorem Quiet.movedTo (hs : s.Quiet) {c : MatchCtx} {ended : Bool} {pc : LifecyclePc}
    (hpc : pc.tested = false) (hstop : (s.call t).stopping = false)
    (hrunning : c.mtch.mRunning = s.ctx.mtch.mRunning) :
    s.KeepsQuiet { s.setCall t pc with ctx := c, ended := ended } := by
  refine hs.moved hpc fun hr => ⟨hrunning.symm.trans hr, fun h => ?_⟩
  rw [hstop] at h
  cases h

theorem Quiet.callStep (hs : s.Quiet) (hinv : s.Inv)
    (hend : s.matchState = .ended ∨ s.call t = .endState) (h : s.callStep this now t = some s') :
    s.KeepsQuiet s' := by
  have hended : s.call t ≠ .endState → s.matchState = .ended := hend.resolve_right
  have hwaiting : s.call t ≠ .endState → s.ctx.mtch.mMatchState ≠ .joinedWaiting := by
    intro hpc hstate
    cases hstate.symm.trans (hended hpc)
  have htested := hs.call t
  unfold Lifecycle.callStep at h
  split at h
  · cases h
  · next hpc =>
    rw [if_neg (by rw [hended (by rw [hpc]; nofun)]; nofun)] at h
    cases h
    exact hs.movedTo rfl (by rw [hpc]; rfl) rfl
  · next hpc =>
    rw [hpc] at htested
    cases htested
  · next pc hpc =>
    have hstate := hwaiting (by rw [hpc]; nofun)
    rw [hpc] at htested
    split at h
    · next j hj =>
      cases h
      rw [if_pos (Joining.joinStep_tested hj htested hstate)]
      exact hs.movedTo rfl (by rw [hpc]; rfl) (Joining.joinStep_running hj)
    · cases h
  · next pc hpc =>
    have hstate := hwaiting (by rw [hpc]; nofun)
    rw [hpc] at htested
    split at h
    · next j hj =>
      cases h
      have hinit : pc ≠ .threadInit := by
        rintro rfl
        cases hinv.start t _ hpc
      refine hs.movedTo ?_ (by rw [hpc]; rfl) (Joining.threadStep_running hj hinit)
      split_ifs
      · rfl
      · exact Joining.threadStep_tested hj htested hstate
    · cases h
  · next hpc =>
    cases h
    exact hs.movedTo rfl (by rw [hpc]; rfl) rfl
  · next ending hpc =>
    split_ifs at h with hr
    · cases h
      refine hs.moved rfl fun _ => ⟨hr, fun hstop => ?_⟩
      rw [hpc] at hstop
      exact hstop
    · cases h
      refine hs.moved (by unfold Lifecycle.afterStop; split_ifs <;> rfl) fun htrue => ?_
      exact absurd htrue hr
  · cases h
    exact hs.moved rfl nofun
  · next hpc =>
    have hstop : (s.call t).stopping = false := by rw [hpc]; rfl
    split_ifs at h
    · cases h
      exact hs.movedTo rfl hstop rfl
    · split at h
      · cases h
        exact hs.movedTo rfl hstop rfl
      · cases h
        refine hs.moved (by unfold Lifecycle.afterStop; split_ifs <;> rfl) fun hr => ⟨hr, ?_⟩
        intro htrue
        rw [hstop] at htrue
        cases htrue
      · cases h
  · next hpc =>
    cases h
    exact hs.movedTo rfl (by rw [hpc]; rfl) rfl
  · cases h

theorem Quiet.threadTo (hs : s.Quiet) {c : MatchCtx} {pc : RunPc} (hpc : pc.tested = false)
    (hrunning : c.mtch.mRunning = s.ctx.mtch.mRunning) :
    s.KeepsQuiet { s with ctx := c, thread := pc } :=
  ⟨⟨hs.call, hpc⟩, fun hr => ⟨hrunning.symm.trans hr, fun _ => id⟩⟩

theorem Quiet.threadStep (hs : s.Quiet) (hinv : s.Inv) (hended : s.matchState = .ended)
    (h : s.threadStep now = some s') : s.KeepsQuiet s' := by
  have htested := hs.thread
  unfold Lifecycle.threadStep at h
  split at h
  · cases h
  · next hpc =>
    rw [hpc] at htested
    cases htested
  · next hpc =>
    rw [hpc] at htested
    cases htested
  · cases h
    exact hs.threadTo rfl rfl
  · cases h
    refine hs.threadTo ?_ rfl
    split_ifs <;> rfl
  · cases h
    exact hs.threadTo rfl rfl
  · next pc _ hpc =>
    rw [hpc] at htested
    split at h
    · next j hj =>
      cases h
      have hinit : pc ≠ .threadInit := by
        rintro rfl
        exact hinv.body hpc
      have hstate : s.ctx.mtch.mMatchState ≠ .joinedWaiting := by
        rw [show s.ctx.mtch.mMatchState = .ended from hended]
        nofun
      exact hs.threadTo (Joining.threadStep_tested hj htested hstate)
        (Joining.threadStep_running hj hinit)
    · cases h
  · cases h

theorem Quiet.step (hs : s.Quiet) (hinv : s.Inv)
    (hend : s.matchState = .ended ∨ ∃ t now, e = .run t now ∧ s.call t = .endState)
    (h : Step this s e s') : s.KeepsQuiet s' := by
  have hended : (∀ t now, e ≠ .run t now) → s.matchState = .ended := fun hne =>
    hend.resolve_right fun ⟨t, now, he, _⟩ => hne t now he
  cases e with
  | call t c =>
    obtain ⟨hidle, -, rfl⟩ := h
    have hmoved : s.KeepsQuiet (s.setCall t c.entry) :=
      hs.movedTo (by cases c <;> rfl) (by rw [hidle]; rfl) rfl
    exact ⟨⟨hmoved.quiet.call, hmoved.quiet.thread⟩, hmoved.stopping⟩
  | run t now =>
    refine hs.callStep hinv (hend.imp_right ?_) h
    rintro ⟨t', now', he, hpc⟩
    cases he
    exact hpc
  | thread now => exact hs.threadStep hinv (hended nofun) h
  | debugStart =>
    obtain ⟨-, rfl⟩ := h
    exact hs.threadTo rfl rfl
  | sendOrientations =>
    obtain ⟨-, rfl⟩ := h
    exact hs.threadTo rfl rfl
  | work w =>
    obtain ⟨-, c, hw, rfl⟩ := h
    exact hs.threadTo hs.thread (congrArg Match.mRunning (work_mtch hw))

/-! ### A run -/

/-- In a settled match whoever is undisturbed acts in time. -/
theorem Settled.inTime (hs : s.Settled) (hstep : s.Undisturbed e) : s.InTime e := by
  rintro hact hended
  have hquiet := hs.quiet hended
  rcases hact with (⟨now, -, hpc⟩ | ⟨now, arr, -, hpc⟩ | ⟨t, now, arr, -, hpc⟩) |
    ⟨t, now, p, -, hpc⟩ | ⟨now, he, hpc, hrunning⟩
  · have htested := hquiet.thread
    rw [hpc] at htested
    cases htested
  · have htested := hquiet.thread
    rw [hpc] at htested
    cases htested
  · have htested := hquiet.call t
    rw [hpc] at htested
    cases htested
  · have htested := hquiet.call t
    rw [hpc] at htested
    cases htested
  · obtain ⟨t, ht⟩ := hs.stopping hended hrunning
    rw [hstep.loopTest now he hpc t] at ht
    cases ht

theorem Settled.step (hs : s.Settled) (hinv : s.Inv) (hstep : s.Undisturbed e)
    (h : Step this s e s') : s'.Settled := by
  by_cases hended : s.matchState = .ended
  · have hkept := (hs.quiet hended).step hinv (.inl hended) h
    refine ⟨fun _ => hkept.quiet, fun _ hrunning => ?_⟩
    obtain ⟨hrunning, hstopping⟩ := hkept.stopping hrunning
    obtain ⟨t, ht⟩ := hs.stopping hended hrunning
    exact ⟨t, hstopping t ht⟩
  · rcases step_state hinv h with hc | ⟨⟨t, now, rfl, hpc⟩, -⟩ | ⟨-, hc⟩
    · have hne : s'.matchState ≠ .ended := by rwa [hc]
      exact ⟨fun h => absurd h hne, fun h => absurd h hne⟩
    · -- `EndMatch` goes on to `Stop`
      have hkept := (hstep.endState t now rfl hpc).step hinv (.inr ⟨t, now, rfl, hpc⟩) h
      refine ⟨fun _ => hkept.quiet, fun _ _ => ⟨t, ?_⟩⟩
      simp only [Step, Lifecycle.callStep, hpc] at h
      cases h
      exact congrArg LifecyclePc.stopping (setCall_call_self t _)
    · have hne : s'.matchState ≠ .ended := by
        intro hended'
        rcases hc with hc | ⟨hc, -⟩
        · cases hc.symm.trans hended'
        · cases hc.symm.trans hended'
      exact ⟨fun h => absurd h hne, fun h => absurd h hne⟩

theorem settled_init (h : Init s) : s.Settled := by
  have hne : s.matchState ≠ .ended := by
    rw [h.state]
    nofun
  exact ⟨fun h => absurd h hne, fun h => absurd h hne⟩

/-- A match that is ended while nobody is past a test, and whose thread does not test its
loop before `m_running` is cleared, only moves forward. -/
theorem forward_of_undisturbed (this : MatchRef) {tr : List (Lifecycle × Event)}
    (h : (system this).Exec tr s) (hundisturbed : ∀ x ∈ tr, x.1.Undisturbed x.2) :
    Forward tr s := by
  have hvisited := h.visited_of_steps (fun s => s.Inv ∧ s.Settled) Undisturbed
    (fun _ hi => ⟨inv_init hi, settled_init hi⟩)
    (fun _ _ _ hs hstep hst =>
      ⟨hs.1.step (hs.2.inTime hstep) hst, hs.2.step hs.1 hstep hst⟩) hundisturbed
  refine (forward_iff this h).mpr fun x hx => ?_
  have hs := hvisited x.1 (List.mem_append_left _ (List.mem_map_of_mem hx))
  exact hs.2.inTime (hundisturbed x hx)

/-! ### A match that is ended while its thread is in the loop -/

theorem undisturbed_call {c : LifecycleCall} : s.Undisturbed (.call t c) := ⟨nofun, nofun⟩

theorem undisturbed_run (hpc : s.call t ≠ .endState) : s.Undisturbed (.run t now) := by
  refine ⟨fun u now' he h => ?_, nofun⟩
  cases he
  exact absurd h hpc

theorem undisturbed_thread (hpc : s.thread ≠ .loopTest) : s.Undisturbed (.thread now) :=
  ⟨nofun, fun _ _ h => absurd h hpc⟩

/-- The match thread enters the loop; then thread 1 ends the match, and the match thread
leaves the loop when it comes to the test again. -/
theorem forward_ended : ∃ tr s, (system 0).Exec tr s ∧ (∃ x ∈ tr, x.1.EntersBody x.2) ∧
    s.ended = true ∧ s.thread = .exited ∧ Forward tr s := by
  have h1 := (born_exec 0).next (.call 0 .init) _ ⟨rfl, fun _ => rfl, rfl⟩
  have h2 := h1.next (.run 0 0) _ rfl
  have h3 := h2.next (.run 0 0) _ rfl
  have h4 := h3.next (.thread 0) _ rfl
  have h5 := h4.next (.thread 0) _ rfl
  have h6 := h5.next (.thread 0) _ rfl
  have h7 := h6.next (.thread 0) _ rfl
  have h8 := h7.next (.call 1 .endMatch) _ ⟨rfl, nofun, rfl⟩
  have h9 := h8.next (.run 1 0) _ rfl
  have h10 := h9.next (.run 1 0) _ rfl
  have h11 := h10.next (.run 1 0) _ rfl
  have h12 := h11.next (.thread 0) _ rfl
  have h13 := h12.next (.thread 0) _ rfl
  refine ⟨_, _, h13, ?_, rfl, rfl, forward_of_undisturbed 0 h13 ?_⟩
  · simp only [List.nil_append, List.cons_append, List.exists_mem_cons_iff]
    exact .inr (.inr (.inr (.inr (.inr (.inr (.inl ⟨0, rfl, rfl, rfl⟩))))))
  · simp only [List.nil_append, List.cons_append, List.forall_mem_cons]
    refine ⟨undisturbed_call, undisturbed_run nofun, undisturbed_run nofun, undisturbed_thread nofun,
      undisturbed_thread nofun, undisturbed_thread nofun, ⟨nofun, fun _ _ _ u => ?_⟩, undisturbed_call,
      ⟨fun _ _ _ _ => ⟨fun u => ?_, rfl⟩, nofun⟩, undisturbed_run nofun, undisturbed_run nofun,
      undisturbed_thread nofun, ⟨nofun, fun _ _ _ u => ?_⟩, List.forall_mem_nil _⟩
    · match u with
      | 0 | 1 | u + 2 => rfl
    · match u with
      | 0 | 1 | u + 2 => rfl
    · match u with
      | 0 | 1 | u + 2 => rfl

end Lifecycle

end GameServer
