import GameServer.Network.CommandTable

/-! The two command queues over all interleavings. What was taken from a queue, what
waits in the batch of its consumer and what is still in the queue are together what
was pushed, in order; the calls of a consumer are those of the taken commands whose
session was there at the lookup. -/

namespace GameServer

open Lib
open scoped List

/-- The arguments of `DoProcess`. -/
def ThreadCommand.args (c : ThreadCommand) : Token × Data := (c.user, c.data)

/-- The session token and the data that a callback is called with. -/
def PendingCall.args {Cb : Type} (p : PendingCall Cb) : Token × Data := (p.user, p.data)

namespace Dispatcher

variable {Cb : Type} {s s' : Dispatcher Cb} {tr : List (Dispatcher Cb × Event Cb)}

/-! ### What the steps do to the commands -/

/-- The queue that `Process` pushes to. -/
def route (s : Dispatcher Cb) (commandObj : NetCommand Cb) : Thread :=
  if commandObj.isAsync && s.mRunAsyncCommands then .async else .main

/-- The command that `Process` copies in this step. -/
def copied : Dispatcher Cb × Event Cb → Option ThreadCommand
  | (_, .receive user command data type) => some (threadCommand user command data type)
  | _ => none

/-- The command that this step pushes to the queue of `t`. -/
def pushed (t : Thread) : Dispatcher Cb × Event Cb → Option ThreadCommand
  | (s, .push i) => s.receiving[i]?.bind fun x => if s.route x.1 = t then some x.2 else none
  | _ => none

/-- The command that `t` pops in this step and calls `DoProcess` for. -/
def taken (t : Thread) : Dispatcher Cb × Event Cb → Option ThreadCommand
  | (s, .lookup t') => if t' = t then (s.consumer t).currentCommandQueue.head? else none
  | _ => none

/-- The same, if the session is in `m_socket_users` when `DoProcess` looks. -/
def served (t : Thread) (x : Dispatcher Cb × Event Cb) : Option ThreadCommand :=
  (taken t x).filter fun c => c.user ∈ x.1.mSocketUsers

/-- What happened to the commands in an execution. -/
structure DispatchedOnce (tr : List (Dispatcher Cb × Event Cb)) (s : Dispatcher Cb) : Prop where
  /-- every command that was copied is pushed once, or about to be -/
  pushes : (tr.filterMap copied).Perm
    (tr.filterMap (pushed .main) ++ tr.filterMap (pushed .async) ++ s.receiving.map Prod.snd)
  /-- the commands taken from a queue are the first of those pushed to it -/
  order : ∀ t, tr.filterMap (pushed t) =
    tr.filterMap (taken t) ++ ((s.consumer t).currentCommandQueue ++ s.queue t)
  /-- each taken command of a session that is there is called for once, the last one
  perhaps not yet, and no other -/
  calls : ∀ t, (tr.filterMap (served t)).map ThreadCommand.args =
    (tr.filterMap (callMade t) ++ (s.consumer t).call.toList).map PendingCall.args
  /-- the callback is the registered one -/
  callbacks : ∀ t, ∀ p ∈ tr.filterMap (callMade t), p.commandObj.callback ≠ none ∧
    registered tr p.data.command = some p.commandObj

theorem filterMap_snoc {α β : Type} (f : α → Option β) (l : List α) (x : α) :
    (l ++ [x]).filterMap f = l.filterMap f ++ (f x).toList := by
  rw [List.filterMap_append]
  cases h : f x <;> simp [h]

/-! ### Copied and pushed -/

theorem perm_eraseIdx {α : Type} {l : List α} {i : ℕ} {x : α} (h : l[i]? = some x) :
    l.Perm (x :: l.eraseIdx i) := by
  obtain ⟨hi, rfl⟩ := List.getElem?_eq_some_iff.mp h
  exact (List.getElem_cons_eraseIdx_perm hi).symm

/-- An element at its place, taken out of it, and replaced. -/
theorem split_at {α : Type} {l : List α} {i : ℕ} {x : α} (hx : l[i]? = some x) :
    ∃ before after, l = before ++ x :: after ∧ l.eraseIdx i = before ++ after ∧
      ∀ y, l.set i y = before ++ y :: after := by
  obtain ⟨hi, rfl⟩ := List.getElem?_eq_some_iff.mp hx
  refine ⟨l.take i, l.drop (i + 1), ?_, List.eraseIdx_eq_take_drop_succ .., fun y => ?_⟩
  · rw [List.getElem_cons_drop, List.take_append_drop]
  · rw [List.set_eq_take_append_cons_drop, if_pos hi]

theorem pushes_push {i : ℕ} {x : NetCommand Cb × ThreadCommand} (hx : s.receiving[i]? = some x) :
    (s.receiving.map Prod.snd).Perm ((pushed .main (s, .push i)).toList ++
      (pushed .async (s, .push i)).toList ++ (s.receiving.eraseIdx i).map Prod.snd) := by
  have hperm := (perm_eraseIdx hx).map Prod.snd
  simp only [pushed, hx, Option.bind_some]
  cases hroute : s.route x.1 with
  | main => exact hperm
  | async => exact hperm

/-- The commands that are copied and not pushed yet. -/
theorem step_receiving {e : Event Cb} (h : Step s e s') :
    ((copied (s, e)).toList ++ s.receiving.map Prod.snd).Perm
      ((pushed .main (s, e)).toList ++ (pushed .async (s, e)).toList ++
        s'.receiving.map Prod.snd) := by
  cases e with
  | receive user command data type =>
    subst h
    have hreceiving : (s.commandAt command).2.receiving = s.receiving := by
      unfold commandAt
      split <;> rfl
    simp only [processLookup, hreceiving, copied, pushed, List.map_append, List.map_cons,
      List.map_nil]
    exact List.perm_append_comm
  | push i =>
    obtain ⟨x, hx, rfl⟩ := h
    exact pushes_push hx
  | addCommand cmd callback obj async =>
    subst h
    unfold addCommand
    split_ifs
    · exact .refl _
    · exact .refl _
  | duplicate t =>
    obtain ⟨-, -, rfl⟩ := h
    exact .refl _
  | lookup t =>
    obtain ⟨c, rest, -, -, rfl⟩ := h
    rw [doProcessLookup_snd]
    exact .refl _
  | call t =>
    obtain ⟨p, -, rfl⟩ := h
    exact .refl _
  | startAsync | addSession _ | eraseSession _ =>
    subst h
    exact .refl _

/-! ### Pushed and taken -/

/-- What waits for `t`: its batch and the queue behind it. -/
def waiting (s : Dispatcher Cb) (t : Thread) : List ThreadCommand :=
  (s.consumer t).currentCommandQueue ++ s.queue t

theorem waiting_push (t : Thread) (commandObj : NetCommand Cb) (c : ThreadCommand) :
    (s.processPush commandObj c).waiting t =
      s.waiting t ++ (if s.route commandObj = t then [c] else []) := by
  change (s.consumer t).currentCommandQueue ++
    Function.update s.queue (s.route commandObj) (s.queue (s.route commandObj) ++ [c]) t = _
  by_cases ht : s.route commandObj = t
  · subst ht
    rw [Function.update_self, if_pos rfl, waiting, List.append_assoc]
  · rw [Function.update_of_ne (Ne.symm ht), if_neg ht, List.append_nil]
    rfl

theorem waiting_duplicate (t t' : Thread) : (s.duplicate t').waiting t = s.waiting t := by
  by_cases ht : t = t'
  · subst ht
    simp [duplicate, waiting]
  · simp only [duplicate, waiting, Function.update_of_ne ht]

/-- A queue keeps the order of its commands, whatever the batches are. -/
theorem step_waiting {e : Event Cb} (h : Step s e s') (t : Thread) :
    s.waiting t ++ (pushed t (s, e)).toList = (taken t (s, e)).toList ++ s'.waiting t := by
  cases e with
  | push i =>
    obtain ⟨x, hx, rfl⟩ := h
    change _ = [] ++ (s.processPush x.1 x.2).waiting t
    rw [waiting_push, List.nil_append]
    simp only [pushed, hx, Option.bind_some]
    split_ifs <;> rfl
  | duplicate t' =>
    obtain ⟨-, -, rfl⟩ := h
    rw [waiting_duplicate]
    exact List.append_nil _
  | lookup t' =>
    obtain ⟨c, rest, hqueue, -, rfl⟩ := h
    rw [doProcessLookup_snd]
    by_cases ht : t = t'
    · subst ht
      simp [waiting, taken, pushed, hqueue]
    · simp [waiting, taken, pushed, Function.update_of_ne ht, Ne.symm ht]
  | receive user command data type =>
    subst h
    have hcommand : (s.commandAt command).2.waiting t = s.waiting t := by
      unfold commandAt
      split <;> rfl
    exact (List.append_nil _).trans hcommand.symm
  | addCommand cmd callback obj async =>
    subst h
    unfold addCommand
    split_ifs
    · exact List.append_nil _
    · exact List.append_nil _
  | call t' =>
    obtain ⟨p, -, rfl⟩ := h
    by_cases ht : t = t'
    · subst ht
      simp [waiting, taken, pushed]
    · simp [waiting, taken, pushed, Function.update_of_ne ht]
  | startAsync | addSession _ | eraseSession _ =>
    subst h
    exact List.append_nil _

/-! ### Taken and called -/

/-- Every command on its way has an entry in the table. -/
structure Known (s : Dispatcher Cb) : Prop where
  receiving : ∀ x ∈ s.receiving, s.hasCommand x.2.command = true
  waiting : ∀ t, ∀ c ∈ s.waiting t, s.hasCommand c.command = true

theorem step_hasCommand {e : Event Cb} (h : Step s e s') {cmd : UInt8}
    (hc : s.hasCommand cmd = true) : s'.hasCommand cmd = true := by
  obtain ⟨c, hc⟩ := (hasCommand_iff s cmd).mp hc
  exact (hasCommand_iff s' cmd).mpr ⟨c, step_entry h hc⟩

theorem known_step {e : Event Cb} (hs : s.Known) (hr : ReceivesRegistered s e) (h : Step s e s') :
    s'.Known := by
  constructor
  · intro x hx
    have hmem : x.2 ∈ (copied (s, e)).toList ++ s.receiving.map Prod.snd :=
      (step_receiving h).mem_iff.mpr (List.mem_append_right _ (List.mem_map_of_mem hx))
    refine step_hasCommand h ?_
    rcases List.mem_append.mp hmem with hmem | hmem
    · cases e with
      | receive user command data type =>
        rw [List.mem_singleton.mp hmem]
        exact hr
      | _ => cases hmem
    · obtain ⟨y, hy, heq⟩ := List.mem_map.mp hmem
      rw [← heq]
      exact hs.receiving y hy
  · intro t c hc
    have hmem : c ∈ s.waiting t ++ (pushed t (s, e)).toList := by
      rw [step_waiting h t]
      exact List.mem_append_right _ hc
    refine step_hasCommand h ?_
    rcases List.mem_append.mp hmem with hmem | hmem
    · exact hs.waiting t c hmem
    · cases e with
      | push i =>
        obtain ⟨x, hx, -⟩ := h
        simp only [pushed, hx, Option.bind_some] at hmem
        split_ifs at hmem
        · rw [List.mem_singleton.mp hmem]
          exact hs.receiving x (List.mem_of_getElem? hx)
        · cases hmem
      | _ => cases hmem

theorem known_init (h : Init s) : s.Known := by
  refine ⟨fun x hx => ?_, fun t c hc => ?_⟩
  · rw [h.receiving] at hx
    cases hx
  · rw [waiting, h.queue, h.consumer] at hc
    cases hc

/-- `DoProcess` prepares a call exactly for the sessions that are there. -/
theorem doProcessLookup_args {c : ThreadCommand} (hc : s.hasCommand c.command = true) :
    (s.doProcessLookup c).1.map PendingCall.args =
      if c.user ∈ s.mSocketUsers then some c.args else none := by
  obtain ⟨x, hx⟩ := (hasCommand_iff s _).mp hc
  unfold doProcessLookup
  rw [if_pos hc, commandAt_of_some hx]
  dsimp only
  split_ifs <;> rfl

/-- One lookup adds the call of its command, if the session is there. -/
theorem calls_lookup {c : ThreadCommand} {rest : List ThreadCommand} {t : Thread} (hs : s.Known)
    (hqueue : (s.consumer t).currentCommandQueue = c :: rest) :
    (served t (s, .lookup t)).toList.map ThreadCommand.args =
      (s.doProcessLookup c).1.toList.map PendingCall.args := by
  have hargs := doProcessLookup_args (hs.waiting t c (by simp [waiting, hqueue]))
  simp only [served, taken, hqueue, if_pos, List.head?_cons, Option.filter]
  by_cases huser : c.user ∈ s.mSocketUsers
  · rw [if_pos huser] at hargs
    obtain ⟨p, hp, hpargs⟩ := Option.map_eq_some_iff.mp hargs
    rw [hp]
    simp [huser, hpargs]
  · rw [if_neg huser] at hargs
    rw [Option.map_eq_none_iff.mp hargs]
    simp [huser]

theorem served_of_ne {e : Event Cb} {t : Thread} (hne : e ≠ .lookup t) :
    served t (s, e) = none := by
  cases e with
  | lookup t' =>
    have ht : t' ≠ t := by
      rintro rfl
      exact hne rfl
    simp [served, taken, ht]
  | _ => rfl

/-- The calls that are made or prepared. -/
theorem step_calls {e : Event Cb} (hs : s.Known) (h : Step s e s') (t : Thread) :
    (s.consumer t).call.toList.map PendingCall.args ++
        (served t (s, e)).toList.map ThreadCommand.args =
      ((callMade t (s, e)).toList ++ (s'.consumer t).call.toList).map PendingCall.args := by
  by_cases he : e = .lookup t
  · subst he
    obtain ⟨c, rest, hqueue, hnone, hcall⟩ := step_lookup h
    rw [hnone, hcall, calls_lookup hs hqueue]
    rfl
  · rw [step_call h he, served_of_ne he]
    exact List.append_nil _

/-- They use the entry of the table. -/
theorem step_entries {e : Event Cb} (h : Step s e s') (t : Thread)
    (hs : ∀ p ∈ (s.consumer t).call.toList, s.mCommands p.data.command = some p.commandObj) :
    ∀ p ∈ (callMade t (s, e)).toList ++ (s'.consumer t).call.toList,
      s'.mCommands p.data.command = some p.commandObj := by
  intro p hp
  refine step_entry h ?_
  by_cases he : e = .lookup t
  · subst he
    obtain ⟨c, rest, -, -, hcall⟩ := step_lookup h
    rw [hcall] at hp
    obtain ⟨hentry, hdata⟩ := doProcessLookup_fst (Option.mem_toList.mp hp)
    rw [hdata]
    exact hentry
  · rw [step_call h he] at hp
    exact hs p hp

/-! ### A run -/

theorem known_of_registered (h : (system Cb).Exec tr s)
    (hr : ∀ x ∈ tr, ReceivesRegistered x.1 x.2) : s.Known :=
  h.inv_of_steps Known ReceivesRegistered (fun _ => known_init) (fun _ _ _ => known_step) hr

theorem exec_pushes (h : (system Cb).Exec tr s) : (tr.filterMap copied).Perm
    (tr.filterMap (pushed .main) ++ tr.filterMap (pushed .async) ++ s.receiving.map Prod.snd) := by
  induction h with
  | nil hi =>
    rw [hi.receiving]
    exact .refl _
  | @snoc tr s s' e _ hst ih =>
    rw [filterMap_snoc, filterMap_snoc, filterMap_snoc]
    refine List.perm_iff_count.mpr fun c => ?_
    have hbefore := ih.count_eq c
    have hstep := (step_receiving hst).count_eq c
    simp only [List.count_append] at hbefore hstep ⊢
    omega

theorem exec_order (h : (system Cb).Exec tr s) (t : Thread) :
    tr.filterMap (pushed t) = tr.filterMap (taken t) ++ s.waiting t := by
  induction h with
  | nil hi =>
    rw [waiting, hi.consumer, hi.queue]
    rfl
  | snoc _ hst ih =>
    rw [filterMap_snoc, filterMap_snoc, ih, List.append_assoc, step_waiting hst t,
      List.append_assoc]

theorem exec_calls (h : (system Cb).Exec tr s) (hr : ∀ x ∈ tr, ReceivesRegistered x.1 x.2)
    (t : Thread) : (tr.filterMap (served t)).map ThreadCommand.args =
      (tr.filterMap (callMade t) ++ (s.consumer t).call.toList).map PendingCall.args := by
  induction h with
  | nil hi =>
    rw [hi.consumer]
    rfl
  | snoc h hst ih =>
    obtain ⟨hr, -⟩ := (forall_trace_snoc ReceivesRegistered _ _ _).mp hr
    have hcalls := step_calls (known_of_registered h hr) hst t
    rw [filterMap_snoc, filterMap_snoc, List.map_append, ih hr, List.map_append, List.append_assoc,
      hcalls, ← List.map_append, List.append_assoc]

/-- Whatever the opcode is, a prepared call has the arguments of its command. -/
theorem prepared_args {c : ThreadCommand} {p : PendingCall Cb}
    (h : (s.doProcessLookup c).1 = some p) : p.args = c.args := by
  unfold doProcessLookup at h
  split_ifs at h with hc
  obtain ⟨x, hx⟩ := (hasCommand_iff s _).mp hc
  rw [commandAt_of_some hx] at h
  dsimp only at h
  split_ifs at h
  cases h
  rfl

theorem step_calls_sublist {e : Event Cb} (h : Step s e s') (t : Thread) :
    ((callMade t (s, e)).toList ++ (s'.consumer t).call.toList).map PendingCall.args <+
      (s.consumer t).call.toList.map PendingCall.args ++
        (taken t (s, e)).toList.map ThreadCommand.args := by
  by_cases he : e = .lookup t
  · subst he
    obtain ⟨c, rest, hqueue, hnone, hcall⟩ := step_lookup h
    have htaken : taken t (s, .lookup t) = some c := by simp [taken, hqueue]
    rw [hnone, hcall, htaken]
    cases hlookup : (s.doProcessLookup c).1 with
    | none => exact List.nil_sublist _
    | some p =>
      simp only [callMade, Option.toList_none, Option.toList_some, List.nil_append, List.map_cons,
        List.map_nil, prepared_args hlookup]
      exact .refl _
  · rw [step_call h he]
    exact List.sublist_append_left _ _

/-- The calls of a consumer are among the commands that it took, in order, registered
opcodes or not. -/
theorem exec_calls_sublist (h : (system Cb).Exec tr s) (t : Thread) :
    (tr.filterMap (callMade t) ++ (s.consumer t).call.toList).map PendingCall.args <+
      (tr.filterMap (taken t)).map ThreadCommand.args := by
  induction h with
  | nil hi =>
    rw [hi.consumer]
    exact List.nil_sublist _
  | snoc _ hst ih =>
    have hstep := step_calls_sublist hst t
    rw [filterMap_snoc, filterMap_snoc, List.append_assoc]
    simp only [List.map_append] at ih hstep ⊢
    refine ((List.Sublist.refl _).append hstep).trans ?_
    rw [← List.append_assoc]
    exact ih.append (.refl _)

theorem exec_entries (h : (system Cb).Exec tr s) (t : Thread) :
    ∀ p ∈ tr.filterMap (callMade t) ++ (s.consumer t).call.toList,
      s.mCommands p.data.command = some p.commandObj := by
  induction h with
  | nil hi =>
    rw [hi.consumer]
    exact nofun
  | snoc _ hst ih =>
    obtain ⟨hmade, hcall⟩ := List.forall_mem_append.mp ih
    rw [filterMap_snoc, List.append_assoc]
    exact List.forall_mem_append.mpr
      ⟨fun p hp => step_entry hst (hmade p hp), step_entries hst t hcall⟩

/-- When only registered opcodes are received, commands are dispatched once and in
order in every execution. -/
theorem dispatchedOnce_of_registered (tr : List (Dispatcher Cb × Event Cb)) (s : Dispatcher Cb)
    (h : (system Cb).Exec tr s) (hr : ∀ x ∈ tr, ReceivesRegistered x.1 x.2) :
    DispatchedOnce tr s := by
  refine ⟨exec_pushes h, exec_order h, exec_calls h hr, fun t p hp => ?_⟩
  have hentry := exec_entries h t p (List.mem_append_left _ hp)
  rw [(commandsOk_of_registered h hr).1.table] at hentry
  exact ⟨registered_callback hentry, hentry⟩

/-- One command from each of two sessions, of which one is there. -/
theorem one_of_two_called : ∃ tr s, (system ℕ).Exec tr s ∧ DispatchedOnce tr s ∧
    (tr.filterMap (taken .main)).map ThreadCommand.args =
      [("A", ⟨.tcp, 1, [5]⟩), ("B", ⟨.udp, 1, []⟩)] ∧
    (tr.filterMap (callMade .main)).map PendingCall.args = [("A", ⟨.tcp, 1, [5]⟩)] := by
  have h := ((((((((((fresh_exec ℕ).next (.addCommand 1 0 0 false) _ rfl).next
    (.addSession "A") _ rfl).next
    (.receive "A" 1 [5] .tcp) _ rfl).next
    (.receive "B" 1 [] .udp) _ rfl).next
    (.push 0) _ ⟨_, rfl, rfl⟩).next
    (.push 0) _ ⟨_, rfl, rfl⟩).next
    (.duplicate .main) _ ⟨rfl, rfl, rfl⟩).next
    (.lookup .main) _ ⟨_, _, rfl, rfl, rfl⟩).next
    (.call .main) _ ⟨_, rfl, rfl⟩).next
    (.lookup .main) _ ⟨_, _, rfl, rfl, rfl⟩
  refine ⟨_, _, h, dispatchedOnce_of_registered _ _ h ?_, rfl, rfl⟩
  simp only [List.cons_append, List.nil_append, List.forall_mem_cons]
  exact ⟨trivial, trivial, rfl, rfl, trivial, trivial, trivial, trivial, trivial, trivial,
    List.forall_mem_nil _⟩

end Dispatcher

end GameServer
