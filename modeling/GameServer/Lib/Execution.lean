import Mathlib.Tactic

/-! Executions of a labelled transition system, with the steps they took. A
trace keeps each step together with the state it was taken in, so that a
property may speak about everything that happened before. -/

namespace GameServer.Lib

universe u v

structure System (σ : Type u) (ε : Type v) where
  init : σ → Prop
  step : σ → ε → σ → Prop

variable {σ : Type u} {ε : Type v}

/-- `S.Exec tr s`: the steps `tr`, each with the state before it, lead to `s`. -/
inductive System.Exec (S : System σ ε) : List (σ × ε) → σ → Prop
  | nil {s : σ} : S.init s → S.Exec [] s
  | snoc {tr : List (σ × ε)} {s s' : σ} {e : ε} :
      S.Exec tr s → S.step s e s' → S.Exec (tr ++ [(s, e)]) s'

/-- Every state of an execution, the last one included. -/
def visited (tr : List (σ × ε)) (s : σ) : List σ := tr.map Prod.fst ++ [s]

theorem visited_snoc (tr : List (σ × ε)) (s s' : σ) (e : ε) :
    visited (tr ++ [(s, e)]) s' = visited tr s ++ [s'] := by
  simp [visited]

theorem forall_visited_snoc (P : σ → Prop) (tr : List (σ × ε)) (s s' : σ) (e : ε) :
    (∀ x ∈ visited (tr ++ [(s, e)]) s', P x) ↔ (∀ x ∈ visited tr s, P x) ∧ P s' := by
  simp only [visited_snoc, List.mem_append, List.mem_singleton, or_imp, forall_and, forall_eq]

theorem forall_trace_snoc (C : σ → ε → Prop) (tr : List (σ × ε)) (s : σ) (e : ε) :
    (∀ x ∈ tr ++ [(s, e)], C x.1 x.2) ↔ (∀ x ∈ tr, C x.1 x.2) ∧ C s e := by
  simp only [List.mem_append, List.mem_singleton, or_imp, forall_and, forall_eq]

/-- The steps of an execution, each with the states before and after it. -/
def steps : List (σ × ε) → σ → List (σ × ε × σ)
  | [], _ => []
  | x :: tr, s => (x.1, x.2, (tr.head?.map Prod.fst).getD s) :: steps tr s

theorem steps_snoc (tr : List (σ × ε)) (s s' : σ) (e : ε) :
    steps (tr ++ [(s, e)]) s' = steps tr s ++ [(s, e, s')] := by
  induction tr with
  | nil => rfl
  | cons x tr ih =>
    rw [List.cons_append, steps, ih, steps]
    cases tr <;> rfl

theorem forall_steps_snoc (C : σ → ε → σ → Prop) (tr : List (σ × ε)) (s s' : σ) (e : ε) :
    (∀ x ∈ steps (tr ++ [(s, e)]) s', C x.1 x.2.1 x.2.2) ↔
      (∀ x ∈ steps tr s, C x.1 x.2.1 x.2.2) ∧ C s e s' := by
  simp only [steps_snoc, List.mem_append, List.mem_singleton, or_imp, forall_and, forall_eq]

/-- A condition that does not read the state after a step. -/
theorem forall_steps_iff (C : σ → ε → Prop) (tr : List (σ × ε)) (s : σ) :
    (∀ x ∈ steps tr s, C x.1 x.2.1) ↔ ∀ x ∈ tr, C x.1 x.2 := by
  induction tr with
  | nil => simp [steps]
  | cons x tr ih => rw [steps, List.forall_mem_cons, List.forall_mem_cons, ih]

/-- A transitive relation holds between any two states, the earlier one first, if and
only if it holds across every step. -/
theorem pairwise_visited_iff (R : σ → σ → Prop) [IsTrans σ R] (tr : List (σ × ε)) (s : σ) :
    (visited tr s).Pairwise R ↔ ∀ x ∈ steps tr s, R x.1 x.2.2 := by
  rw [← List.isChain_iff_pairwise]
  induction tr with
  | nil => simp [visited, steps]
  | cons x tr ih =>
    have hcons : visited (x :: tr) s = x.1 :: visited tr s := rfl
    rw [hcons, steps, List.forall_mem_cons, ← ih]
    cases tr with
    | nil => exact List.isChain_cons_cons
    | cons y tr => exact List.isChain_cons_cons

/-- `C` holds of every step, read together with the steps before it. -/
def AtEach (C : List (σ × ε) → σ × ε → Prop) (tr : List (σ × ε)) : Prop :=
  ∀ past x future, tr = past ++ x :: future → C past x

theorem atEach_nil (C : List (σ × ε) → σ × ε → Prop) : AtEach C [] := by
  intro past x future h
  cases past <;> cases h

theorem atEach_snoc (C : List (σ × ε) → σ × ε → Prop) (tr : List (σ × ε)) (x : σ × ε) :
    AtEach C (tr ++ [x]) ↔ AtEach C tr ∧ C tr x := by
  refine ⟨fun h => ⟨fun past y future htr => ?_, h tr x [] rfl⟩, fun h past y future htr => ?_⟩
  · refine h past y (future ++ [x]) ?_
    rw [htr, List.append_assoc]
    rfl
  · rcases List.eq_nil_or_concat future with rfl | ⟨future, z, rfl⟩
    · obtain ⟨rfl, rfl⟩ := List.append_singleton_inj.mp htr
      exact h.2
    · rw [List.concat_eq_append, ← List.cons_append, ← List.append_assoc] at htr
      exact h.1 past y future (List.append_singleton_inj.mp htr).1

namespace System.Exec

variable {S : System σ ε} {tr : List (σ × ε)} {s : σ}

/-- One more step, with the event and the new state given. -/
theorem next (h : S.Exec tr s) (e : ε) (s' : σ) (hst : S.step s e s') :
    S.Exec (tr ++ [(s, e)]) s' :=
  .snoc h hst

/-- A property of states that every step keeps holds wherever an execution is. -/
theorem inv (I : σ → Prop) (h0 : ∀ s, S.init s → I s)
    (hs : ∀ s e s', I s → S.step s e s' → I s') (h : S.Exec tr s) : I s := by
  induction h with
  | nil hi => exact h0 _ hi
  | snoc _ hst ih => exact hs _ _ _ ih hst

/-- So it holds in every state that a step was taken in. -/
theorem forall_trace (I : σ → Prop) (h0 : ∀ s, S.init s → I s)
    (hs : ∀ s e s', I s → S.step s e s' → I s') (h : S.Exec tr s) : ∀ x ∈ tr, I x.1 := by
  induction h with
  | nil _ => simp
  | snoc hr _ ih =>
    intro x hx
    rcases List.mem_append.mp hx with hx | hx
    · exact ih x hx
    · rw [List.mem_singleton.mp hx]
      exact hr.inv I h0 hs

/-- The same rule for a property that also reads the steps taken so far. -/
theorem trace_inv (I : List (σ × ε) → σ → Prop) (h0 : ∀ s, S.init s → I [] s)
    (hs : ∀ tr s e s', S.Exec tr s → I tr s → S.step s e s' → I (tr ++ [(s, e)]) s')
    (h : S.Exec tr s) : I tr s := by
  induction h with
  | nil hi => exact h0 _ hi
  | snoc hr hst ih => exact hs _ _ _ _ hr ih hst

/-- What holds of every step that can be taken holds of the steps that were. -/
theorem forall_steps (C : σ → ε → σ → Prop)
    (hs : ∀ tr s e s', S.Exec tr s → S.step s e s' → C s e s') (h : S.Exec tr s) :
    ∀ x ∈ steps tr s, C x.1 x.2.1 x.2.2 := by
  induction h with
  | nil _ => simp [steps]
  | snoc hr hst ih => exact (forall_steps_snoc C _ _ _ _).mpr ⟨ih, hs _ _ _ _ hr hst⟩

theorem snoc_iff {x : σ × ε} {s' : σ} :
    S.Exec (tr ++ [x]) s' ↔ S.Exec tr x.1 ∧ S.step x.1 x.2 s' := by
  refine ⟨fun h => ?_, fun h => .snoc h.1 h.2⟩
  generalize htr : tr ++ [x] = l at h
  cases h with
  | nil _ => exact absurd htr (by simp)
  | snoc h hst =>
    obtain ⟨rfl, rfl⟩ := List.append_singleton_inj.mp htr
    exact ⟨h, hst⟩

/-- What holds after a step and is kept by the steps that follow it, with these
steps as they are collected. -/
theorem since (I : List (σ × ε) → σ → Prop) {x : σ × ε} {seg : List (σ × ε)}
    (h : S.Exec (tr ++ x :: seg) s)
    (h0 : ∀ s, S.Exec tr x.1 → S.step x.1 x.2 s → I [] s)
    (hs : ∀ seg s e s', I seg s → S.step s e s' → I (seg ++ [(s, e)]) s') : I seg s := by
  induction seg using List.reverseRecOn generalizing s with
  | nil =>
    obtain ⟨h, hst⟩ := snoc_iff.mp h
    exact h0 s h hst
  | append_singleton seg y ih =>
    rw [← List.cons_append, ← List.append_assoc] at h
    obtain ⟨h, hst⟩ := snoc_iff.mp h
    exact hs seg y.1 y.2 s (ih h) hst

/-- Steps that meet `C` keep the invariant `I`, wherever `I` was so far. -/
theorem inv_of_steps (I : σ → Prop) (C : σ → ε → Prop) (h0 : ∀ s, S.init s → I s)
    (hs : ∀ s e s', I s → C s e → S.step s e s' → I s')
    (h : S.Exec tr s) (hC : ∀ x ∈ tr, C x.1 x.2) : I s := by
  induction h with
  | nil hi => exact h0 _ hi
  | snoc _ hst ih =>
    obtain ⟨hC, hlast⟩ := (forall_trace_snoc C _ _ _).mp hC
    exact hs _ _ _ (ih hC) hlast hst

/-- So `I` holds in every state of an execution whose steps meet `C`. -/
theorem visited_of_steps (I : σ → Prop) (C : σ → ε → Prop) (h0 : ∀ s, S.init s → I s)
    (hs : ∀ s e s', I s → C s e → S.step s e s' → I s')
    (h : S.Exec tr s) (hC : ∀ x ∈ tr, C x.1 x.2) : ∀ x ∈ visited tr s, I x := by
  induction h with
  | nil hi =>
    have hI := h0 _ hi
    simpa [visited] using hI
  | @snoc tr s s' e hr hst ih =>
    obtain ⟨hC, hlast⟩ := (forall_trace_snoc C _ _ _).mp hC
    have hI : I s := inv_of_steps I C h0 hs hr hC
    exact (forall_visited_snoc I _ _ _ _).mpr ⟨ih hC, hs s e s' hI hlast hst⟩

/-- Exactness of a condition on steps: when steps that meet `C` keep `I`, and a
step from `I` that misses `C` loses `P`, an execution has `P` everywhere if and
only if all its steps meet `C`. -/
theorem safe_iff (I P : σ → Prop) (C : σ → ε → Prop) (h0 : ∀ s, S.init s → I s)
    (hP : ∀ s, I s → P s) (hs : ∀ s e s', I s → C s e → S.step s e s' → I s')
    (hbad : ∀ s e s', I s → ¬ C s e → S.step s e s' → ¬ P s') (h : S.Exec tr s) :
    (∀ x ∈ visited tr s, P x) ↔ ∀ x ∈ tr, C x.1 x.2 := by
  induction h with
  | nil hi =>
    have hp := hP _ (h0 _ hi)
    simpa [visited] using hp
  | @snoc tr s s' e hr hst ih =>
    rw [forall_visited_snoc, forall_trace_snoc, ih]
    refine and_congr_right fun hC => ?_
    have hI : I s := inv_of_steps I C h0 hs hr hC
    constructor
    · intro hp
      by_contra hc
      exact hbad s e s' hI hc hst hp
    · intro hc
      exact hP s' (hs s e s' hI hc hst)

/-- The same for conditions on steps that read the state after them too. -/
theorem inv_of_steps_to (I : σ → Prop) (C : σ → ε → σ → Prop) (h0 : ∀ s, S.init s → I s)
    (hs : ∀ s e s', I s → C s e s' → S.step s e s' → I s')
    (h : S.Exec tr s) (hC : ∀ x ∈ steps tr s, C x.1 x.2.1 x.2.2) : I s := by
  induction h with
  | nil hi => exact h0 _ hi
  | snoc _ hst ih =>
    obtain ⟨hC, hlast⟩ := (forall_steps_snoc C _ _ _ _).mp hC
    exact hs _ _ _ (ih hC) hlast hst

/-- When steps that meet `C` keep `I`, which implies `P`, and `C` and `Q` agree on
the steps from `I`, then `P` holds everywhere and `Q` at every step if and only if
all steps meet `C`. -/
theorem safe_steps_iff (I P : σ → Prop) (Q C : σ → ε → σ → Prop) (h0 : ∀ s, S.init s → I s)
    (hP : ∀ s, I s → P s) (hs : ∀ s e s', I s → C s e s' → S.step s e s' → I s')
    (hQ : ∀ s e s', I s → S.step s e s' → (Q s e s' ↔ C s e s')) (h : S.Exec tr s) :
    ((∀ x ∈ visited tr s, P x) ∧ ∀ x ∈ steps tr s, Q x.1 x.2.1 x.2.2) ↔
      ∀ x ∈ steps tr s, C x.1 x.2.1 x.2.2 := by
  induction h with
  | nil hi =>
    have hp := hP _ (h0 _ hi)
    simpa [visited, steps] using hp
  | @snoc tr s s' e hr hst ih =>
    rw [forall_visited_snoc, forall_steps_snoc, forall_steps_snoc, and_and_and_comm, ih]
    refine and_congr_right fun hC => ?_
    have hI : I s := inv_of_steps_to I C h0 hs hr hC
    rw [hQ s e s' hI hst]
    exact ⟨fun h => h.2, fun hc => ⟨hP s' (hs s e s' hI hc hst), hc⟩⟩

/-- Forward simulation by a function `R` that keeps an invariant `I`: each step of
`S` from a state that `I` holds of and `R` takes to a state that `T` reaches is the
step `g` of `T`. Then `R` takes executions of `S` to executions of `T`. -/
theorem refine {σ' : Type*} {ε' : Type*} {T : System σ' ε'} (R : σ → σ') (g : σ → ε → ε')
    (I : σ → Prop) (h0 : ∀ s, S.init s → I s ∧ T.init (R s))
    (hs : ∀ tr s e s', T.Exec tr (R s) → I s → S.step s e s' →
      I s' ∧ T.step (R s) (g s e) (R s'))
    (h : S.Exec tr s) : I s ∧ T.Exec (tr.map fun x => (R x.1, g x.1 x.2)) (R s) := by
  induction h with
  | nil hi =>
    obtain ⟨hI, hT⟩ := h0 _ hi
    exact ⟨hI, .nil hT⟩
  | snoc _ hst ih =>
    obtain ⟨hI, hT⟩ := ih
    obtain ⟨hI', hst'⟩ := hs _ _ _ _ hT hI hst
    refine ⟨hI', ?_⟩
    rw [List.map_append]
    exact .snoc hT hst'

/-- The same where a step of `S` is a step of `T` or nothing to it. -/
theorem project {σ' : Type*} {ε' : Type*} {T : System σ' ε'} (R : σ → σ')
    (g : σ × ε → Option (σ' × ε')) (I : σ → Prop) (h0 : ∀ s, S.init s → I s ∧ T.init (R s))
    (hs : ∀ s e s', I s → S.step s e s' → I s' ∧ ((g (s, e) = none ∧ R s' = R s) ∨
      ∃ e', g (s, e) = some (R s, e') ∧ T.step (R s) e' (R s')))
    (h : S.Exec tr s) : I s ∧ T.Exec (tr.filterMap g) (R s) := by
  induction h with
  | nil hi =>
    obtain ⟨hI, hT⟩ := h0 _ hi
    exact ⟨hI, .nil hT⟩
  | snoc _ hst ih =>
    obtain ⟨hI, hT⟩ := ih
    obtain ⟨hI', ⟨hnone, hsame⟩ | ⟨e', hsome, hst'⟩⟩ := hs _ _ _ hI hst
    · refine ⟨hI', ?_⟩
      rw [List.filterMap_append, hsame]
      simpa [hnone] using hT
    · refine ⟨hI', ?_⟩
      rw [List.filterMap_append]
      simpa [hsome] using hT.snoc hst'

end System.Exec

end GameServer.Lib
