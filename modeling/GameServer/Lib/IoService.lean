import GameServer.Lib.Execution

/-! An `io_service` by its history of calls. Which handlers it invokes is left open, but
for what is documented: only those of operations that were started, and none once it is
stopped, be it by `stop` or because a thread found no work left. `restart` is not among
the calls. -/

namespace GameServer.Lib.IoService

variable {α : Type} [DecidableEq α]

/-- A call of the service, or of the service to a handler. -/
inductive Call (α : Type) where
  /-- an asynchronous operation is started -/
  | start (o : α)
  /-- a thread calls `run` -/
  | run
  | stop
  | invoked (o : α)
  /-- the handler of `o` has returned -/
  | returned (o : α)
  deriving DecidableEq, Repr

def workAfter (work : List α) : Call α → List α
  | .start o => work ++ [o]
  | .returned o => work.erase o
  | .run | .stop | .invoked _ => work

/-- The operations whose handlers have not returned: the work of the service. -/
def outstanding (history : List (Call α)) : List α := history.foldl workAfter []

@[simp] theorem outstanding_nil : outstanding ([] : List (Call α)) = [] := rfl

@[simp] theorem outstanding_snoc (history : List (Call α)) (c : Call α) :
    outstanding (history ++ [c]) = workAfter (outstanding history) c := by
  simp [outstanding]

/-- The call leaves the service stopped: it runs out of work, or is told to stop. -/
def Stops (history : List (Call α)) : Call α → Prop
  | .stop => True
  | .run => outstanding history = []
  | .returned o => (outstanding history).erase o = []
  | .start _ | .invoked _ => False

def Stopped (history : List (Call α)) : Prop :=
  ∃ past c future, history = past ++ c :: future ∧ Stops past c

/-- The documented behaviour, for a service that invokes a handler of `o` after a
history only if `invokes history o`. -/
structure Documented (invokes : List (Call α) → α → Prop) : Prop where
  started : ∀ history o, invokes history o → o ∈ outstanding history
  stopped : ∀ history o, Stopped history → ¬ invokes history o

/-- The service that may invoke whatever the documentation lets it. -/
def Invokes (history : List (Call α)) (o : α) : Prop :=
  o ∈ outstanding history ∧ ¬ Stopped history

theorem documented_invokes : Documented (Invokes (α := α)) :=
  ⟨fun _ _ h => h.1, fun _ _ hs h => h.2 hs⟩

theorem not_stopped_nil : ¬ Stopped ([] : List (Call α)) := by
  rintro ⟨past, c, future, h, -⟩
  cases past <;> cases h

theorem stopped_snoc (history : List (Call α)) (c : Call α) :
    Stopped (history ++ [c]) ↔ Stopped history ∨ Stops history c := by
  constructor
  · rintro ⟨past, d, future, h, hd⟩
    rcases List.eq_nil_or_concat future with rfl | ⟨future, e, rfl⟩
    · obtain ⟨rfl, rfl⟩ := List.append_singleton_inj.mp h
      exact .inr hd
    · rw [List.concat_eq_append, ← List.cons_append, ← List.append_assoc] at h
      exact .inl ⟨past, d, future, (List.append_singleton_inj.mp h).1, hd⟩
  · rintro (⟨past, d, future, rfl, hd⟩ | hc)
    · exact ⟨past, d, future ++ [c], by simp, hd⟩
    · exact ⟨history, c, [], rfl, hc⟩

/-- It never runs again. -/
theorem Stopped.append {history : List (Call α)} (h : Stopped history) (more : List (Call α)) :
    Stopped (history ++ more) := by
  obtain ⟨past, c, future, rfl, hc⟩ := h
  exact ⟨past, c, future ++ more, by simp, hc⟩

/-- What the handler of `o` does, from its invocation to its return: it starts `starts`. -/
def handling (o : α) (starts : List α) : List (Call α) :=
  .invoked o :: starts.map Call.start ++ [.returned o]

theorem foldl_start (work starts : List α) :
    (starts.map Call.start).foldl workAfter work = work ++ starts := by
  induction starts generalizing work with
  | nil => simp
  | cons o starts ih => simp [workAfter, ih]

theorem outstanding_handling (history : List (Call α)) (o : α) (starts : List α) :
    outstanding (history ++ handling o starts) = (outstanding history ++ starts).erase o := by
  simp [outstanding, handling, workAfter, foldl_start]

theorem stopped_starts (history : List (Call α)) (starts : List α) :
    Stopped (history ++ starts.map Call.start) ↔ Stopped history := by
  induction starts generalizing history with
  | nil => simp
  | cons o starts ih =>
    rw [List.map_cons, ← List.singleton_append, ← List.append_assoc, ih, stopped_snoc]
    simp [Stops]

/-- A handler stops the service if it leaves it without work. -/
theorem stopped_handling (history : List (Call α)) (o : α) (starts : List α) :
    Stopped (history ++ handling o starts) ↔
      Stopped history ∨ (outstanding history ++ starts).erase o = [] := by
  have hsplit : history ++ handling o starts =
      (history ++ [.invoked o] ++ starts.map Call.start) ++ [.returned o] := by
    simp [handling]
  have hwork : outstanding (history ++ [.invoked o] ++ starts.map Call.start) =
      outstanding history ++ starts := by
    simp [outstanding, workAfter, foldl_start]
  rw [hsplit, stopped_snoc, stopped_starts, stopped_snoc]
  simp only [Stops, or_false]
  rw [hwork]

end GameServer.Lib.IoService
