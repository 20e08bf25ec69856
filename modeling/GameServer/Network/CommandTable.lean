import GameServer.Network.Dispatch

/-! The command table over all interleavings of registering, receiving and
dispatching. `Process` looks an opcode up with `operator[]`, which stores an
entry with a null callback for an opcode that nobody registered; the guard of
`DoProcess` then lets that opcode pass. The table is what `AddCommand` made it
exactly in the executions that receive registered opcodes only. -/

namespace GameServer.Dispatcher

open Lib

variable {Cb : Type} {s s' : Dispatcher Cb} {tr : List (Dispatcher Cb × Event Cb)}

/-! ### What a step does to the table -/

theorem hasCommand_iff (s : Dispatcher Cb) (cmd : UInt8) :
    s.hasCommand cmd = true ↔ ∃ c, s.mCommands cmd = some c := by
  rw [hasCommand, Option.isSome_iff_exists]

theorem commandAt_of_some {cmd : UInt8} {c : NetCommand Cb} (h : s.mCommands cmd = some c) :
    s.commandAt cmd = (c, s) := by
  unfold commandAt
  rw [h]

theorem commandAt_of_none {cmd : UInt8} (h : s.mCommands cmd = none) :
    s.commandAt cmd = (NetCommand.zero Cb,
      { s with mCommands := Function.update s.mCommands cmd (some (NetCommand.zero Cb)) }) := by
  unfold commandAt
  rw [h]

theorem addCommand_of_has {cmd : UInt8} (h : s.hasCommand cmd = true) (callback : Option Cb)
    (obj : Option ℕ) (async : Bool) : s.addCommand cmd callback obj async = s :=
  if_pos h

theorem addCommand_of_not {cmd : UInt8} (h : ¬ s.hasCommand cmd = true) (callback : Option Cb)
    (obj : Option ℕ) (async : Bool) : s.addCommand cmd callback obj async =
      { s with mCommands := Function.update s.mCommands cmd (some ⟨obj, callback, async⟩) } :=
  if_neg h

/-- The guard of `DoProcess` keeps its own lookup from inserting anything. -/
theorem doProcessLookup_snd (s : Dispatcher Cb) (c : ThreadCommand) :
    (s.doProcessLookup c).2 = s := by
  unfold doProcessLookup
  split_ifs with h
  · obtain ⟨x, hx⟩ := (hasCommand_iff s _).mp h
    rw [commandAt_of_some hx]
    dsimp only
    split_ifs <;> rfl
  · rfl

theorem doProcessLookup_fst {c : ThreadCommand} {p : PendingCall Cb}
    (h : (s.doProcessLookup c).1 = some p) :
    s.mCommands c.command = some p.commandObj ∧ p.data = c.data := by
  unfold doProcessLookup at h
  split_ifs at h with hc
  obtain ⟨x, hx⟩ := (hasCommand_iff s _).mp hc
  rw [commandAt_of_some hx] at h
  dsimp only at h
  split_ifs at h
  cases h
  exact ⟨hx, rfl⟩

/-- The table after an event: `AddCommand` and the receive path change it. -/
def tableAfter (s : Dispatcher Cb) : Event Cb → UInt8 → Option (NetCommand Cb)
  | .addCommand cmd callback obj async =>
    (s.addCommand cmd (some callback) (some obj) async).mCommands
  | .receive _ command _ _ => (s.commandAt command).2.mCommands
  | _ => s.mCommands

theorem step_mCommands {e : Event Cb} (h : Step s e s') : s'.mCommands = tableAfter s e := by
  cases e with
  | addCommand cmd callback obj async => rw [h]; rfl
  | receive user command data type => rw [h]; rfl
  | push i => obtain ⟨x, -, rfl⟩ := h; rfl
  | startAsync => rw [h]; rfl
  | duplicate t => obtain ⟨-, -, rfl⟩ := h; rfl
  | lookup t =>
    obtain ⟨c, rest, -, -, rfl⟩ := h
    change (s.doProcessLookup c).2.mCommands = s.mCommands
    rw [doProcessLookup_snd]
  | call t => obtain ⟨p, -, rfl⟩ := h; rfl
  | addSession user => rw [h]; rfl
  | eraseSession user => rw [h]; rfl

/-- An entry of the table is never replaced. -/
theorem step_entry {e : Event Cb} (h : Step s e s') {cmd : UInt8} {c : NetCommand Cb}
    (hc : s.mCommands cmd = some c) : s'.mCommands cmd = some c := by
  rw [step_mCommands h]
  cases e with
  | addCommand cmd' callback obj async =>
    simp only [tableAfter]
    by_cases hh : s.hasCommand cmd' = true
    · rw [addCommand_of_has hh]
      exact hc
    · have hne : cmd ≠ cmd' := by
        rintro rfl
        exact hh ((hasCommand_iff s cmd).mpr ⟨c, hc⟩)
      rw [addCommand_of_not hh]
      simp [Function.update_of_ne hne, hc]
  | receive user command data type =>
    simp only [tableAfter]
    cases hr : s.mCommands command with
    | some x => rw [commandAt_of_some hr]; exact hc
    | none =>
      have hne : cmd ≠ command := by
        rintro rfl
        rw [hr] at hc
        cases hc
      rw [commandAt_of_none hr]
      simp [Function.update_of_ne hne, hc]
  | _ => exact hc

/-! ### What a step does to the calls -/

/-- The callback that `t` calls in this step. -/
def callMade (t : Thread) : Dispatcher Cb × Event Cb → Option (PendingCall Cb)
  | (s, .call t') => if t' = t then (s.consumer t).call else none
  | _ => none

/-- Between two lookups of `t` its call is prepared or made. -/
theorem step_call {e : Event Cb} (h : Step s e s') {t : Thread} (hne : e ≠ .lookup t) :
    (callMade t (s, e)).toList ++ (s'.consumer t).call.toList = (s.consumer t).call.toList := by
  cases e with
  | lookup t' =>
    have ht : t ≠ t' := by
      rintro rfl
      exact hne rfl
    obtain ⟨c, rest, -, -, rfl⟩ := h
    rw [doProcessLookup_snd]
    simp [callMade, Function.update_of_ne ht]
  | call t' =>
    obtain ⟨p, hp, rfl⟩ := h
    by_cases ht : t = t'
    · subst ht
      simp [callMade, hp]
    · simp [callMade, Function.update_of_ne ht, Ne.symm ht]
  | duplicate t' =>
    obtain ⟨-, -, rfl⟩ := h
    by_cases ht : t = t'
    · subst ht
      simp [callMade, duplicate]
    · simp [callMade, duplicate, Function.update_of_ne ht]
  | push i =>
    obtain ⟨x, -, rfl⟩ := h
    rfl
  | receive user command data type =>
    subst h
    have hcommand : (s.commandAt command).2.consumer = s.consumer := by
      unfold commandAt
      split <;> rfl
    simp [callMade, processLookup, hcommand]
  | addCommand cmd callback obj async =>
    subst h
    unfold addCommand
    split_ifs <;> rfl
  | startAsync | addSession _ | eraseSession _ =>
    subst h
    rfl

theorem step_lookup {t : Thread} (h : Step s (.lookup t) s') :
    ∃ c rest, (s.consumer t).currentCommandQueue = c :: rest ∧ (s.consumer t).call = none ∧
      (s'.consumer t).call = (s.doProcessLookup c).1 := by
  obtain ⟨c, rest, hqueue, hnone, rfl⟩ := h
  exact ⟨c, rest, hqueue, hnone, by simp⟩

/-- A prepared call was prepared before, or with the entry of the table. -/
theorem step_prepared {e : Event Cb} (h : Step s e s') {t : Thread} {p : PendingCall Cb}
    (hp : (s'.consumer t).call = some p) :
    (s.consumer t).call = some p ∨ s.mCommands p.data.command = some p.commandObj := by
  by_cases he : e = .lookup t
  · subst he
    obtain ⟨c, rest, -, -, hcall⟩ := step_lookup h
    rw [hcall] at hp
    obtain ⟨hentry, hdata⟩ := doProcessLookup_fst hp
    rw [hdata]
    exact Or.inr hentry
  · have hmem : p ∈ (s.consumer t).call.toList := by
      rw [← step_call h he, hp]
      exact List.mem_append_right _ (List.mem_singleton.mpr rfl)
    exact Or.inl (Option.mem_toList.mp hmem)

/-- A call that was made was prepared. -/
theorem step_called {e : Event Cb} (h : Step s e s') {p : PendingCall Cb} (hp : p ∈ s'.called) :
    p ∈ s.called ∨ ∃ t, (s.consumer t).call = some p := by
  cases e with
  | call t =>
    obtain ⟨q, hq, rfl⟩ := h
    rcases List.mem_append.mp hp with hp | hp
    · exact Or.inl hp
    · rw [List.mem_singleton.mp hp]
      exact Or.inr ⟨t, hq⟩
  | lookup t =>
    obtain ⟨c, rest, -, -, rfl⟩ := h
    rw [doProcessLookup_snd] at hp
    exact Or.inl hp
  | push i =>
    obtain ⟨x, -, rfl⟩ := h
    exact Or.inl hp
  | duplicate t =>
    obtain ⟨-, -, rfl⟩ := h
    exact Or.inl hp
  | receive user command data type =>
    subst h
    have hcommand : (s.commandAt command).2.called = s.called := by
      unfold commandAt
      split <;> rfl
    change p ∈ (s.commandAt command).2.called at hp
    rw [hcommand] at hp
    exact Or.inl hp
  | addCommand cmd callback obj async =>
    subst h
    unfold addCommand at hp
    split_ifs at hp
    · exact Or.inl hp
    · exact Or.inl hp
  | startAsync | addSession _ | eraseSession _ =>
    subst h
    exact Or.inl hp

/-! ### Registration -/

/-- The entry an event registers under `cmd`. -/
def Event.registers : Event Cb → UInt8 → Option (NetCommand Cb)
  | .addCommand c callback obj async, cmd =>
    if c = cmd then some ⟨some obj, some callback, async⟩ else none
  | _, _ => none

/-- The entry that the first `AddCommand` for `cmd` asked for; `none` when the
opcode was not registered in the execution. -/
def registered (tr : List (Dispatcher Cb × Event Cb)) (cmd : UInt8) : Option (NetCommand Cb) :=
  tr.findSome? fun x => x.2.registers cmd

theorem registered_snoc (tr : List (Dispatcher Cb × Event Cb)) (s : Dispatcher Cb) (e : Event Cb)
    (cmd : UInt8) : registered (tr ++ [(s, e)]) cmd = (registered tr cmd).or (e.registers cmd) := by
  simp [registered, List.findSome?_append, List.findSome?_cons]
  cases e.registers cmd <;> rfl

theorem registers_callback {e : Event Cb} {cmd : UInt8} {c : NetCommand Cb}
    (h : e.registers cmd = some c) : c.callback ≠ none := by
  cases e with
  | addCommand c' callback obj async =>
    simp only [Event.registers] at h
    split_ifs at h
    cases h
    simp
  | _ => cases h

theorem registered_callback {cmd : UInt8} {c : NetCommand Cb} (h : registered tr cmd = some c) :
    c.callback ≠ none := by
  obtain ⟨x, -, hx⟩ := List.exists_of_findSome?_eq_some h
  exact registers_callback hx

/-! ### The property and its condition -/

/-- The table holds what was registered and nothing else; no entry and no call
made so far has a null callback, and only registered opcodes were called. -/
structure CommandsOk (tr : List (Dispatcher Cb × Event Cb)) (s : Dispatcher Cb) : Prop where
  table : s.mCommands = registered tr
  callbacks : ∀ cmd c, s.mCommands cmd = some c → c.callback ≠ none
  called : ∀ p ∈ s.called,
    p.commandObj.callback ≠ none ∧ (registered tr p.data.command).isSome

/-- A received command has an opcode that `HasCommand` knows. -/
def ReceivesRegistered (s : Dispatcher Cb) : Event Cb → Prop
  | .receive _ command _ _ => s.hasCommand command = true
  | _ => True

/-- What the consumers hold between `DoProcess`'s lookup and its call. -/
def CallsOk (tr : List (Dispatcher Cb × Event Cb)) (s : Dispatcher Cb) : Prop :=
  ∀ t p, (s.consumer t).call = some p →
    p.commandObj.callback ≠ none ∧ (registered tr p.data.command).isSome

theorem tableAfter_eq {e : Event Cb} (ht : s.mCommands = registered tr)
    (hr : ReceivesRegistered s e) : tableAfter s e = registered (tr ++ [(s, e)]) := by
  funext cmd
  rw [registered_snoc, ← ht]
  cases e with
  | addCommand c callback obj async =>
    simp only [tableAfter, Event.registers]
    by_cases hh : s.hasCommand c = true
    · obtain ⟨x, hx⟩ := (hasCommand_iff s c).mp hh
      rw [addCommand_of_has hh]
      by_cases hcmd : c = cmd
      · subst hcmd
        rw [hx, Option.some_or]
      · rw [if_neg hcmd, Option.or_none]
    · rw [addCommand_of_not hh]
      by_cases hcmd : c = cmd
      · subst hcmd
        have hx : s.mCommands c = none := by simpa [hasCommand] using hh
        rw [if_pos rfl, hx, Option.none_or]
        exact Function.update_self ..
      · rw [if_neg hcmd, Option.or_none]
        exact Function.update_of_ne (Ne.symm hcmd) ..
  | receive user command data type =>
    obtain ⟨x, hx⟩ := (hasCommand_iff s command).mp hr
    simp only [tableAfter, Event.registers]
    rw [commandAt_of_some hx, Option.or_none]
  | _ => exact (Option.or_none).symm

theorem registered_mono {e : Event Cb} {cmd : UInt8} (h : (registered tr cmd).isSome) :
    (registered (tr ++ [(s, e)]) cmd).isSome := by
  rw [registered_snoc, Option.isSome_or, h, Bool.true_or]

/-- A step that receives nothing unknown keeps the table and the calls in order. -/
theorem commandsOk_step {e : Event Cb} (hs : Step s e s') (hr : ReceivesRegistered s e)
    (hok : CommandsOk tr s) (hcall : CallsOk tr s) :
    CommandsOk (tr ++ [(s, e)]) s' ∧ CallsOk (tr ++ [(s, e)]) s' := by
  have htable : s'.mCommands = registered (tr ++ [(s, e)]) := by
    rw [step_mCommands hs, tableAfter_eq hok.table hr]
  have hmono : ∀ {p : PendingCall Cb}, p.commandObj.callback ≠ none ∧
      (registered tr p.data.command).isSome → p.commandObj.callback ≠ none ∧
      (registered (tr ++ [(s, e)]) p.data.command).isSome :=
    fun h => ⟨h.1, registered_mono h.2⟩
  refine ⟨⟨htable, fun cmd c hc => ?_, fun p hp => ?_⟩, fun t p hp => ?_⟩
  · rw [htable] at hc
    exact registered_callback hc
  · rcases step_called hs hp with hp | ⟨t, hp⟩
    · exact hmono (hok.called p hp)
    · exact hmono (hcall t p hp)
  · rcases step_prepared hs hp with hp | hentry
    · exact hmono (hcall t p hp)
    · refine hmono ⟨hok.callbacks _ _ hentry, ?_⟩
      rw [← hok.table, hentry]
      rfl

theorem commandsOk_init (h : Init s) : CommandsOk [] s ∧ CallsOk [] s := by
  refine ⟨⟨h.mCommands, fun cmd c hc => ?_, fun p hp => ?_⟩, fun t p hp => ?_⟩
  · rw [h.mCommands] at hc
    cases hc
  · rw [h.called] at hp
    cases hp
  · rw [h.consumer] at hp
    cases hp

theorem commandsOk_of_registered (h : (system Cb).Exec tr s)
    (hr : ∀ x ∈ tr, ReceivesRegistered x.1 x.2) : CommandsOk tr s ∧ CallsOk tr s := by
  induction h with
  | nil hi => exact commandsOk_init hi
  | snoc _ hst ih =>
    obtain ⟨hr, hlast⟩ := (forall_trace_snoc ReceivesRegistered _ _ _).mp hr
    obtain ⟨hok, hcall⟩ := ih hr
    exact commandsOk_step hst hlast hok hcall

/-- Receiving an unknown opcode leaves an entry with a null callback. -/
theorem step_unregistered {e : Event Cb} (hs : Step s e s') (hr : ¬ ReceivesRegistered s e) :
    ∃ cmd, s'.mCommands cmd = some (NetCommand.zero Cb) := by
  cases e with
  | receive user command data type =>
    have hnone : s.mCommands command = none := by
      simpa [ReceivesRegistered, hasCommand] using hr
    refine ⟨command, ?_⟩
    rw [step_mCommands hs, tableAfter, commandAt_of_none hnone]
    exact Function.update_self ..
  | _ => exact absurd trivial hr

theorem registered_or_null (h : (system Cb).Exec tr s) :
    (∀ x ∈ tr, ReceivesRegistered x.1 x.2) ∨ ∃ cmd, s.mCommands cmd = some (NetCommand.zero Cb) := by
  induction h with
  | nil _ => exact Or.inl (by simp)
  | @snoc tr s s' e _ hst ih =>
    rcases ih with ih | ⟨cmd, hcmd⟩
    · by_cases hr : ReceivesRegistered s e
      · exact Or.inl ((forall_trace_snoc ReceivesRegistered _ _ _).mpr ⟨ih, hr⟩)
      · exact Or.inr (step_unregistered hst hr)
    · exact Or.inr ⟨cmd, step_entry hst hcmd⟩

/-- The table, its callbacks and the calls are in order exactly when every
received opcode was registered by the time `Process` looked it up. -/
theorem commandsOk_iff_receivesRegistered {Cb : Type} (tr : List (Dispatcher Cb × Event Cb))
    (s : Dispatcher Cb) (h : (system Cb).Exec tr s) :
    CommandsOk tr s ↔ ∀ x ∈ tr, ReceivesRegistered x.1 x.2 := by
  refine ⟨fun hok => ?_, fun hr => (commandsOk_of_registered h hr).1⟩
  rcases registered_or_null h with hr | ⟨cmd, hcmd⟩
  · exact hr
  · exact absurd rfl (hok.callbacks cmd _ hcmd)

/-- The dispatcher right after construction. -/
def fresh (Cb : Type) : Dispatcher Cb where
  mCommands := fun _ => none
  mSocketUsers := []
  mRunAsyncCommands := false
  queue := fun _ => []
  receiving := []
  consumer := fun _ => ⟨[], none⟩
  called := []

theorem fresh_exec (Cb : Type) : (system Cb).Exec [] (fresh Cb) :=
  .nil ⟨rfl, rfl, fun _ => rfl, fun _ => rfl, rfl⟩

theorem commandsOk_registered_receive :
    CommandsOk [(fresh ℕ, .addCommand 1 0 0 false),
        ((fresh ℕ).addCommand 1 (some 0) (some 0) false, .receive "A" 1 [] .tcp)]
      (((fresh ℕ).addCommand 1 (some 0) (some 0) false).processLookup "A" 1 [] .tcp) := by
  have h := ((fresh_exec ℕ).next (.addCommand 1 0 0 false) _ rfl).next
    (.receive "A" 1 [] .tcp) _ rfl
  refine (commandsOk_iff_receivesRegistered _ _ h).mpr fun x hx => ?_
  simp only [List.nil_append, List.singleton_append, List.mem_cons, List.not_mem_nil,
    or_false] at hx
  rcases hx with rfl | rfl
  · trivial
  · rfl

/-- A datagram with command byte 7, which nobody registered, makes the main
thread call a null callback, and the later `AddCommand` for 7 is ignored. -/
theorem unregistered_command_called :
    ∃ tr s, (system ℕ).Exec tr s ∧
      tr.map Prod.snd = [.addSession "A", .receive "A" 7 [1] .udp, .push 0,
        .addCommand 7 0 0 false, .duplicate .main, .lookup .main, .call .main] ∧
      registered tr 7 = some ⟨some 0, some 0, false⟩ ∧ s.mCommands 7 = some (NetCommand.zero ℕ) ∧
      s.called = [⟨NetCommand.zero ℕ, "A", ⟨.udp, 7, [1]⟩⟩] ∧ ¬ CommandsOk tr s := by
  have h := ((((((((fresh_exec ℕ).next (.addSession "A") _ rfl).next
    (.receive "A" 7 [1] .udp) _ rfl).next
    (.push 0) _ ⟨_, rfl, rfl⟩).next
    (.addCommand 7 0 0 false) _ rfl).next
    (.duplicate .main) _ ⟨rfl, rfl, rfl⟩).next
    (.lookup .main) _ ⟨_, _, rfl, rfl, rfl⟩).next
    (.call .main) _ ⟨_, rfl, rfl⟩)
  refine ⟨_, _, h, rfl, rfl, rfl, rfl, fun hok => ?_⟩
  exact absurd rfl (hok.callbacks 7 _ rfl)

end GameServer.Dispatcher
