import GameServer.Lib.Execution

/-! Threads that lock mutexes. Of a function only what it does to mutexes is kept; its
branches and loops may go any way. Where all functions lock in the order of a rank, unlock
the last locked mutex first, and hold none where they wait or loop, every mutex gets free
again, whatever branches the threads take. -/

namespace GameServer.Lib

universe u v

/-- What a function does to mutexes. -/
inductive Code (μ : Type u) where
  | skip
  /-- the thread is held up by something else than a mutex -/
  | wait
  | lock (m : μ)
  | unlock (m : μ)
  | seq (a b : Code μ)
  | pick (f : ℕ → Code μ)
  | loop (a : Code μ)

namespace Code

variable {μ : Type u}

def block : List (Code μ) → Code μ
  | [] => skip
  | c :: cs => seq c (block cs)

def either (a b : Code μ) : Code μ := pick fun n => if n = 0 then a else b

def maybe (a : Code μ) : Code μ := either a skip

/-- `m.lock(); body; m.unlock();` -/
def locked (m : μ) (body : Code μ) : Code μ := block [lock m, body, unlock m]

variable (rank : μ → ℕ)

/-- From `held`, the last locked mutex first, the code goes to `held'` and keeps the order. -/
def Orders : Code μ → List μ → List μ → Prop
  | skip, held, held' => held' = held
  | wait, held, held' => held = [] ∧ held' = []
  | lock m, held, held' => (∀ x ∈ held, rank x < rank m) ∧ held' = m :: held
  | unlock m, held, held' => held = m :: held'
  | seq a b, held, held' => ∃ between, a.Orders held between ∧ b.Orders between held'
  | pick f, held, held' => ∀ n, (f n).Orders held held'
  | loop a, held, held' => held = [] ∧ held' = [] ∧ a.Orders [] []

/-- The code may be called with mutexes of ranks below `r` held, and leaves as many. -/
def Fits (r : ℕ) (c : Code μ) : Prop :=
  ∀ held, (∀ x ∈ held, rank x < r) → c.Orders rank held held

section Fits

variable {rank : μ → ℕ} {r : ℕ} {a b : Code μ} {held : List μ}

theorem eq_nil_of_below (h : ∀ x ∈ held, rank x < 0) : held = [] :=
  List.eq_nil_iff_forall_not_mem.mpr fun x hx => absurd (h x hx) (Nat.not_lt_zero _)

@[simp] theorem fits_skip : (skip : Code μ).Fits rank r := fun _ _ => rfl

@[simp] theorem fits_wait : (wait : Code μ).Fits rank 0 := by
  intro held h
  have hnil := eq_nil_of_below h
  exact ⟨hnil, hnil⟩

@[simp] theorem fits_seq (ha : a.Fits rank r) (hb : b.Fits rank r) : (seq a b).Fits rank r :=
  fun held h => ⟨held, ha held h, hb held h⟩

@[simp] theorem fits_block {cs : List (Code μ)} (h : ∀ c ∈ cs, c.Fits rank r) :
    (block cs).Fits rank r := by
  induction cs with
  | nil => exact fits_skip
  | cons c cs ih =>
    rw [List.forall_mem_cons] at h
    exact fits_seq h.1 (ih h.2)

@[simp] theorem fits_pick {f : ℕ → Code μ} :
    (pick f).Fits rank r ↔ ∀ n, (f n).Fits rank r :=
  ⟨fun h n held hlt => h held hlt n, fun h held hlt n => h n held hlt⟩

@[simp] theorem fits_either : (either a b).Fits rank r ↔ a.Fits rank r ∧ b.Fits rank r := by
  rw [either, fits_pick]
  constructor
  · intro h
    exact ⟨h 0, h 1⟩
  · rintro ⟨ha, hb⟩ n
    by_cases hn : n = 0
    · rwa [if_pos hn]
    · rwa [if_neg hn]

@[simp] theorem fits_maybe : (maybe a).Fits rank r ↔ a.Fits rank r := by
  simp [maybe]

@[simp] theorem fits_loop : (loop a).Fits rank 0 ↔ a.Fits rank 0 := by
  constructor
  · intro h held hlt
    rw [eq_nil_of_below hlt]
    exact (h [] (by simp)).2.2
  · intro ha held hlt
    have hnil := eq_nil_of_below hlt
    exact ⟨hnil, hnil, ha [] (by simp)⟩

@[simp] theorem fits_locked {m : μ} {body : Code μ} (hr : r ≤ rank m)
    (hbody : body.Fits rank (rank m + 1)) : (locked m body).Fits rank r := by
  intro held h
  have hlt : ∀ x ∈ held, rank x < rank m := fun x hx => Nat.lt_of_lt_of_le (h x hx) hr
  refine ⟨m :: held, ⟨hlt, rfl⟩, m :: held, hbody _ ?_, held, rfl, rfl⟩
  rw [List.forall_mem_cons]
  exact ⟨Nat.lt_succ_self _, fun x hx => Nat.lt_succ_of_lt (hlt x hx)⟩

end Fits

end Code

/-! ### The threads -/

/-- Of each thread what it has still to do, and of each mutex the thread that holds it. -/
structure Threads (μ : Type u) (θ : Type v) where
  todo : θ → List (Code μ)
  holder : μ → Option θ

/-- A thread that goes on, taking branch `n` where there is one, or is no longer held up. -/
inductive ThreadEvent (θ : Type v) where
  | run (t : θ) (n : ℕ)
  | wake (t : θ)

namespace Threads

variable {μ : Type u} {θ : Type v}

def start (program : θ → Code μ) : Threads μ θ := ⟨fun t => [program t], fun _ => none⟩

variable {s s' : Threads μ θ} {t : θ} {m : μ} {k : List (Code μ)} {left : List μ}
  {rank : μ → ℕ} {held held' : θ → List μ}

section Goto

variable [DecidableEq θ]

def goto (s : Threads μ θ) (t : θ) (k : List (Code μ)) : Threads μ θ :=
  { s with todo := Function.update s.todo t k }

@[simp] theorem goto_todo (s : Threads μ θ) (t : θ) (k : List (Code μ)) :
    (s.goto t k).todo t = k := by
  simp [goto]

theorem goto_todo_of_ne {t' : θ} (s : Threads μ θ) (k : List (Code μ)) (h : t' ≠ t) :
    (s.goto t k).todo t' = s.todo t' := by
  simp [goto, h]

@[simp] theorem goto_holder (s : Threads μ θ) (t : θ) (k : List (Code μ)) :
    (s.goto t k).holder = s.holder := rfl

end Goto

section SetHolder

variable [DecidableEq μ]

def setHolder (s : Threads μ θ) (m : μ) (o : Option θ) : Threads μ θ :=
  { s with holder := Function.update s.holder m o }

@[simp] theorem setHolder_todo (s : Threads μ θ) (m : μ) (o : Option θ) :
    (s.setHolder m o).todo = s.todo := rfl

@[simp] theorem setHolder_holder (s : Threads μ θ) (m : μ) (o : Option θ) :
    (s.setHolder m o).holder m = o := by
  simp [setHolder]

theorem setHolder_holder_of_ne {m' : μ} (s : Threads μ θ) (o : Option θ) (h : m' ≠ m) :
    (s.setHolder m o).holder m' = s.holder m' := by
  simp [setHolder, h]

end SetHolder

section Run

variable [DecidableEq μ] [DecidableEq θ]

/-- Only the thread that holds a mutex may unlock it. -/
def run (s : Threads μ θ) (t : θ) (n : ℕ) : Option (Threads μ θ) :=
  match s.todo t with
  | [] => none
  | .wait :: _ => none
  | .skip :: k => some (s.goto t k)
  | .lock m :: k =>
    if s.holder m = none then some ((s.goto t k).setHolder m (some t)) else none
  | .unlock m :: k =>
    if s.holder m = some t then some ((s.goto t k).setHolder m none) else none
  | .seq a b :: k => some (s.goto t (a :: b :: k))
  | .pick f :: k => some (s.goto t (f n :: k))
  | .loop a :: k => some (s.goto t (if n = 0 then k else a :: .loop a :: k))

def Step (s : Threads μ θ) : ThreadEvent θ → Threads μ θ → Prop
  | .run t n, s' => s.run t n = some s'
  | .wake t, s' => ∃ k, s.todo t = .wait :: k ∧ s' = s.goto t k

def system (program : θ → Code μ) : System (Threads μ θ) (ThreadEvent θ) where
  init s := s = start program
  step := Step

/-- `P` comes about by running threads that hold mutexes, whatever branches they take. -/
inductive Leads (P : Threads μ θ → Prop) : Threads μ θ → Prop
  | here {s : Threads μ θ} (h : P s) : Leads P s
  | run {s : Threads μ θ} {m : μ} {t : θ} (hold : s.holder m = some t)
      (can : ∃ n s', s.run t n = some s')
      (next : ∀ n s', s.run t n = some s' → Leads P s') : Leads P s

variable {P Q : Threads μ θ → Prop}

namespace Leads

theorem of_run {f : ℕ → Threads μ θ} (hold : s.holder m = some t)
    (hrun : ∀ n, s.run t n = some (f n)) (hnext : ∀ n, (f n).Leads P) : s.Leads P := by
  refine .run hold ⟨0, f 0, hrun 0⟩ fun n s' h => ?_
  rw [hrun n] at h
  cases h
  exact hnext n

theorem bind (h : s.Leads P) (hQ : ∀ s', P s' → s'.Leads Q) : s.Leads Q := by
  induction h with
  | here h => exact hQ _ h
  | run hold can _ ih => exact .run hold can ih

end Leads

/-- What the other threads have to do and hold stays. -/
theorem run_other {t' : θ} {n : ℕ} (h : s.run t n = some s') (ht : t' ≠ t) :
    s'.todo t' = s.todo t' ∧ ∀ m, s.holder m = some t' → s'.holder m = some t' := by
  unfold run at h
  split at h
  case h_1 => cases h
  case h_2 => cases h
  case h_4 m k _ =>
    split_ifs at h with hfree
    cases h
    refine ⟨goto_todo_of_ne s k ht, fun x hx => ?_⟩
    rw [setHolder_holder_of_ne _ _ (by rintro rfl; rw [hfree] at hx; cases hx)]
    exact hx
  case h_5 m k _ =>
    split_ifs at h with hown
    cases h
    refine ⟨goto_todo_of_ne s k ht, fun x hx => ?_⟩
    rw [setHolder_holder_of_ne _ _
      (by rintro rfl; rw [hown] at hx; exact ht (Option.some.inj hx).symm)]
    exact hx
  all_goals
    cases h
    exact ⟨goto_todo_of_ne s _ ht, fun _ hx => hx⟩

/-- A mutex stays locked when the thread that holds it waits to lock it. -/
theorem not_leads_of_relock (hold : s.holder m = some t) (htodo : s.todo t = .lock m :: k) :
    ¬ s.Leads fun s' => s'.holder m = none := by
  intro h
  induction h with
  | here h =>
    rw [hold] at h
    cases h
  | @run s m' t' _ can _ ih =>
    obtain ⟨n, s', hrun⟩ := can
    have hne : t ≠ t' := by
      rintro rfl
      simp [run, htodo, hold] at hrun
    obtain ⟨htodo', hkept⟩ := run_other hrun hne
    exact ih n s' hrun (hkept m hold) (htodo'.trans htodo)

/-- The thread runs alone, into every loop and into the first branch elsewhere. -/
def alone (t : θ) : ℕ → Threads μ θ → Threads μ θ
  | 0, s => s
  | fuel + 1, s =>
    let branch := match s.todo t with
      | .loop _ :: _ => 1
      | _ => 0
    match s.run t branch with
    | none => s
    | some s' => alone t fuel s'

theorem exec_alone {program : θ → Code μ} {tr : List (Threads μ θ × ThreadEvent θ)}
    (h : (system program).Exec tr s) (t : θ) (fuel : ℕ) :
    ∃ tr, (system program).Exec tr (alone t fuel s) := by
  induction fuel generalizing s tr with
  | zero => exact ⟨tr, h⟩
  | succ fuel ih =>
    rw [alone]
    split
    · exact ⟨tr, h⟩
    · next s' hrun => exact ih (h.next (.run t _) s' hrun)

end Run

/-! ### The order -/

section Order

variable (rank : μ → ℕ)

/-- The rest of a thread keeps the order and unlocks what is held. -/
def OrdersRest : List (Code μ) → List μ → Prop
  | [], held => held = []
  | c :: k, held => ∃ held', c.Orders rank held held' ∧ OrdersRest k held'

/-- The mutexes that each thread holds are in order and will be unlocked. -/
structure Ordered (s : Threads μ θ) (held : θ → List μ) : Prop where
  holds : ∀ m t, s.holder m = some t ↔ m ∈ held t
  sorted : ∀ t, (held t).Pairwise fun a b => rank b < rank a
  rest : ∀ t, OrdersRest rank (s.todo t) (held t)

end Order

theorem ordered_start {program : θ → Code μ} (h : ∀ t, (program t).Fits rank 0) :
    (start program).Ordered rank fun _ => [] := by
  refine ⟨fun m t => ?_, fun t => .nil, fun t => ⟨[], h t [] (by simp), rfl⟩⟩
  simp [start]

/-- Since `s₀` the threads that held mutexes of ranks below `r` only have not moved. -/
structure Since (rank : μ → ℕ) (r : ℕ) (s₀ : Threads μ θ) (held₀ : θ → List μ)
    (s : Threads μ θ) (held : θ → List μ) : Prop where
  ordered : s.Ordered rank held
  still : ∀ t, (∀ x ∈ held₀ t, rank x < r) → s.todo t = s₀.todo t ∧ held t = held₀ t

/-- The mutex is free, and threads that held mutexes of lower ranks only have not moved. -/
def Freed (rank : μ → ℕ) (m : μ) (s₀ : Threads μ θ) (held₀ : θ → List μ) (s : Threads μ θ) :
    Prop :=
  s.holder m = none ∧ ∃ held, Since rank (rank m) s₀ held₀ s held

namespace Since

variable {r r' : ℕ} {s₀ : Threads μ θ} {held₀ : θ → List μ}

/-- A thread moves that holds a mutex of rank `r` or above. -/
theorem move (h : Since rank r s₀ held₀ s held) (hm : m ∈ held t) (hr : r ≤ rank m)
    (hord : s'.Ordered rank held')
    (hstill : ∀ t', t' ≠ t → s'.todo t' = s.todo t' ∧ held' t' = held t') :
    Since rank r s₀ held₀ s' held' := by
  refine ⟨hord, fun t' hlow => ?_⟩
  obtain ⟨htodo, hheld⟩ := h.still t' hlow
  have hne : t' ≠ t := by
    rintro rfl
    rw [hheld] at hm
    exact absurd (hlow m hm) (Nat.not_lt_of_le hr)
  obtain ⟨htodo', hheld'⟩ := hstill t' hne
  exact ⟨htodo'.trans htodo, hheld'.trans hheld⟩

theorem trans (h : Since rank r s₀ held₀ s held) (hr : r ≤ r')
    (h' : Since rank r' s held s' held') : Since rank r s₀ held₀ s' held' := by
  refine ⟨h'.ordered, fun t hlow => ?_⟩
  obtain ⟨htodo, hheld⟩ := h.still t hlow
  obtain ⟨htodo', hheld'⟩ := h'.still t fun x hx => by
    rw [hheld] at hx
    exact Nat.lt_of_lt_of_le (hlow x hx) hr
  exact ⟨htodo'.trans htodo, hheld'.trans hheld⟩

end Since

section Steps

variable [DecidableEq θ]

theorem rest_goto (h : ∀ t, OrdersRest rank (s.todo t) (held t)) (hk : OrdersRest rank k left) :
    ∀ t', OrdersRest rank ((s.goto t k).todo t') (Function.update held t left t') := by
  intro t'
  by_cases ht : t' = t
  · subst ht
    rw [goto_todo, Function.update_self]
    exact hk
  · rw [goto_todo_of_ne s k ht, Function.update_of_ne ht]
    exact h t'

theorem Ordered.goto (h : s.Ordered rank held) (hk : OrdersRest rank k (held t)) :
    (s.goto t k).Ordered rank held := by
  refine ⟨h.holds, h.sorted, fun t' => ?_⟩
  have hrest := rest_goto (t := t) h.rest hk t'
  rwa [Function.update_eq_self] at hrest

theorem Since.goto {s₀ : Threads μ θ} {held₀ : θ → List μ}
    (h : Since rank (rank m) s₀ held₀ s held) (hm : m ∈ held t)
    (hk : OrdersRest rank k (held t)) : Since rank (rank m) s₀ held₀ (s.goto t k) held :=
  h.move hm le_rfl (h.ordered.goto hk) fun _ ht => ⟨goto_todo_of_ne s k ht, rfl⟩

variable [DecidableEq μ]

namespace Ordered

theorem lock (h : s.Ordered rank held) (hfree : s.holder m = none)
    (hlt : ∀ x ∈ held t, rank x < rank m) (hk : OrdersRest rank k (m :: held t)) :
    ((s.goto t k).setHolder m (some t)).Ordered rank (Function.update held t (m :: held t)) := by
  refine ⟨fun x t' => ?_, ?_, rest_goto h.rest hk⟩
  · by_cases hx : x = m
    · subst hx
      rw [setHolder_holder]
      by_cases ht : t' = t
      · subst ht
        simp
      · have hnot : x ∉ held t' := by
          rw [← h.holds, hfree]
          simp
        simp [Function.update_of_ne ht, hnot, Ne.symm ht]
    · rw [setHolder_holder_of_ne _ _ hx, goto_holder, h.holds]
      by_cases ht : t' = t
      · subst ht
        simp [hx]
      · rw [Function.update_of_ne ht]
  · rw [Function.forall_update_iff held fun _ l => l.Pairwise fun a b => rank b < rank a]
    exact ⟨List.pairwise_cons.mpr ⟨hlt, h.sorted t⟩, fun t' _ => h.sorted t'⟩

theorem unlock (h : s.Ordered rank held) (heq : held t = m :: left)
    (hk : OrdersRest rank k left) :
    ((s.goto t k).setHolder m none).Ordered rank (Function.update held t left) := by
  have hsorted := h.sorted t
  rw [heq, List.pairwise_cons] at hsorted
  have hown : s.holder m = some t := (h.holds m t).mpr (by simp [heq])
  refine ⟨fun x t' => ?_, ?_, rest_goto h.rest hk⟩
  · by_cases hx : x = m
    · subst hx
      have hnot : x ∉ left := fun hmem => Nat.lt_irrefl _ (hsorted.1 x hmem)
      rw [setHolder_holder]
      by_cases ht : t' = t
      · subst ht
        simp [hnot]
      · have hother : x ∉ held t' := by
          rw [← h.holds, hown]
          simp [Ne.symm ht]
        simp [Function.update_of_ne ht, hother]
    · rw [setHolder_holder_of_ne _ _ hx, goto_holder, h.holds]
      by_cases ht : t' = t
      · subst ht
        simp [heq, hx]
      · rw [Function.update_of_ne ht]
  · rw [Function.forall_update_iff held fun _ l => l.Pairwise fun a b => rank b < rank a]
    exact ⟨hsorted.2, fun t' _ => h.sorted t'⟩

end Ordered

/-- A step of any thread keeps the order. -/
theorem ordered_step {e : ThreadEvent θ} (h : s.Ordered rank held) (hst : s.Step e s') :
    ∃ held', s'.Ordered rank held' := by
  cases e with
  | wake t =>
    obtain ⟨k, htodo, rfl⟩ := hst
    have hrest := h.rest t
    rw [htodo] at hrest
    obtain ⟨left, ⟨hheld, rfl⟩, hk⟩ := hrest
    exact ⟨held, h.goto (by rw [hheld]; exact hk)⟩
  | run t n =>
    have hrest := h.rest t
    change s.run t n = some s' at hst
    unfold run at hst
    split at hst
    case h_1 => cases hst
    case h_2 => cases hst
    case h_3 k htodo =>
      cases hst
      rw [htodo] at hrest
      obtain ⟨left, rfl, hk⟩ := hrest
      exact ⟨held, h.goto hk⟩
    case h_4 m k htodo =>
      rw [htodo] at hrest
      obtain ⟨left, ⟨hlt, rfl⟩, hk⟩ := hrest
      split_ifs at hst with hfree
      cases hst
      exact ⟨_, h.lock hfree hlt hk⟩
    case h_5 m k htodo =>
      rw [htodo] at hrest
      obtain ⟨left, heq, hk⟩ := hrest
      split_ifs at hst
      cases hst
      exact ⟨_, h.unlock heq hk⟩
    case h_6 a b k htodo =>
      cases hst
      rw [htodo] at hrest
      obtain ⟨left, ⟨between, ha, hb⟩, hk⟩ := hrest
      exact ⟨held, h.goto ⟨between, ha, left, hb, hk⟩⟩
    case h_7 f k htodo =>
      cases hst
      rw [htodo] at hrest
      obtain ⟨left, hf, hk⟩ := hrest
      exact ⟨held, h.goto ⟨left, hf n, hk⟩⟩
    case h_8 a k htodo =>
      cases hst
      rw [htodo] at hrest
      obtain ⟨left, ⟨hheld, rfl, ha⟩, hk⟩ := hrest
      refine ⟨held, h.goto ?_⟩
      rw [hheld]
      split_ifs
      · exact hk
      · exact ⟨[], ha, [], ⟨rfl, rfl, ha⟩, hk⟩

/-! ### Every mutex gets free -/

section Free

variable {s₀ : Threads μ θ} {held₀ : θ → List μ}

/-- Mutexes of higher ranks get free. -/
def HigherFree (θ : Type v) [DecidableEq θ] (rank : μ → ℕ) (m : μ) : Prop :=
  ∀ m', rank m < rank m' → ∀ (s : Threads μ θ) (held : θ → List μ), s.Ordered rank held →
    s.Leads (Freed rank m' s held)

/-- The thread `t`, which holds `m`, runs through the code `c` if it does not unlock `m`
before: where it waits for a mutex, that one has a higher rank. -/
theorem leads_code (higher : HigherFree θ rank m) (c : Code μ) :
    ∀ {s : Threads μ θ} {held : θ → List μ} {k : List (Code μ)} {left : List μ},
      Since rank (rank m) s₀ held₀ s held → s.todo t = c :: k →
      c.Orders rank (held t) left → OrdersRest rank k left → m ∈ held t →
      (∀ s' held', Since rank (rank m) s₀ held₀ s' held' → s'.todo t = k → held' t = left →
        m ∈ left → s'.Leads (Freed rank m s₀ held₀)) →
      s.Leads (Freed rank m s₀ held₀) := by
  induction c with
  | skip =>
    intro s held k left h htodo hc hk hm hnext
    have hown := (h.ordered.holds m t).mpr hm
    subst hc
    refine .of_run (f := fun _ => s.goto t k) hown (fun n => by simp [run, htodo]) fun _ => ?_
    exact hnext _ held (h.goto hm hk) (goto_todo s t k) rfl hm
  | wait =>
    intro s held k left h htodo hc hk hm hnext
    rw [hc.1] at hm
    cases hm
  | loop a _ =>
    intro s held k left h htodo hc hk hm hnext
    rw [hc.1] at hm
    cases hm
  | seq a b iha ihb =>
    intro s held k left h htodo hc hk hm hnext
    have hown := (h.ordered.holds m t).mpr hm
    obtain ⟨between, ha, hb⟩ := hc
    refine .of_run (f := fun _ => s.goto t (a :: b :: k)) hown (fun n => by simp [run, htodo])
      fun _ => ?_
    have hrest : OrdersRest rank (b :: k) between := ⟨left, hb, hk⟩
    refine iha (h.goto hm ⟨between, ha, hrest⟩) (goto_todo s t _) ha hrest hm ?_
    intro s' held' h' htodo' hheld' hm'
    subst hheld'
    exact ihb h' htodo' hb hk hm' hnext
  | pick f ih =>
    intro s held k left h htodo hc hk hm hnext
    have hown := (h.ordered.holds m t).mpr hm
    refine .of_run (f := fun n => s.goto t (f n :: k)) hown (fun n => by simp [run, htodo])
      fun n => ?_
    exact ih n (h.goto hm ⟨left, hc n, hk⟩) (goto_todo s t _) (hc n) hk hm hnext
  | unlock x =>
    intro s held k left h htodo hc hk hm hnext
    have hx : s.holder x = some t := (h.ordered.holds x t).mpr (by rw [hc]; simp)
    have hsince : Since rank (rank m) s₀ held₀ ((s.goto t k).setHolder x none)
        (Function.update held t left) := by
      refine h.move hm le_rfl (h.ordered.unlock hc hk) fun t' ht => ?_
      exact ⟨goto_todo_of_ne s k ht, Function.update_of_ne ht _ _⟩
    refine .of_run (f := fun _ => (s.goto t k).setHolder x none) hx
      (fun n => by simp [run, htodo, hx]) fun _ => ?_
    by_cases hxm : x = m
    · subst hxm
      exact .here ⟨setHolder_holder _ _ _, _, hsince⟩
    · rw [hc, List.mem_cons] at hm
      exact hnext _ _ hsince (goto_todo s t k) (Function.update_self _ _ _)
        (hm.resolve_left (Ne.symm hxm))
  | lock x =>
    intro s held k left h htodo hc hk hm hnext
    obtain ⟨hlt, rfl⟩ := hc
    refine (higher x (hlt m hm) s held h.ordered).bind ?_
    rintro s' ⟨hfree, held', h'⟩
    -- `t` holds mutexes of lower ranks than `x` only, so it is still where it was
    obtain ⟨htodo', hheld'⟩ := h'.still t hlt
    rw [htodo] at htodo'
    have hsince := h.trans (Nat.le_of_lt (hlt m hm)) h'
    rw [← hheld'] at hlt hk hm
    have hown := (hsince.ordered.holds m t).mpr hm
    refine .of_run (f := fun _ => (s'.goto t k).setHolder x (some t)) hown
      (fun n => by simp [run, htodo', hfree]) fun _ => ?_
    refine hnext _ (Function.update held' t (x :: held' t)) ?_ (goto_todo s' t k) ?_ ?_
    · refine hsince.move hm le_rfl (hsince.ordered.lock hfree hlt hk) fun t' ht => ?_
      exact ⟨goto_todo_of_ne s' k ht, Function.update_of_ne ht _ _⟩
    · rw [Function.update_self, hheld']
    · rw [← hheld']
      exact List.mem_cons_of_mem x hm

/-- So it runs until it unlocks `m`. -/
theorem leads_rest (higher : HigherFree θ rank m)
    (h : Since rank (rank m) s₀ held₀ s held) (htodo : s.todo t = k) (hm : m ∈ held t) :
    s.Leads (Freed rank m s₀ held₀) := by
  induction k generalizing s held with
  | nil =>
    have hrest := h.ordered.rest t
    rw [htodo] at hrest
    change held t = [] at hrest
    rw [hrest] at hm
    cases hm
  | cons c k ih =>
    have hrest := h.ordered.rest t
    rw [htodo] at hrest
    obtain ⟨left, hc, hk⟩ := hrest
    refine leads_code higher c h htodo hc hk hm ?_
    intro s' held' h' htodo' hheld' hm'
    exact ih h' htodo' (by rw [hheld']; exact hm')

theorem Ordered.leads_freed {bound : ℕ} (hbound : ∀ m, rank m < bound)
    (h : s.Ordered rank held) (m : μ) : s.Leads (Freed rank m s held) := by
  -- the mutexes of higher ranks first
  induction hd : bound - rank m using Nat.strong_induction_on generalizing m s held with
  | _ d ih =>
    have hsince : Since rank (rank m) s held s held := ⟨h, fun _ _ => ⟨rfl, rfl⟩⟩
    cases howner : s.holder m with
    | none => exact .here ⟨howner, held, hsince⟩
    | some t =>
      refine leads_rest (fun m' hlt s' held' h' => ?_) hsince rfl ((h.holds m t).mp howner)
      have hm := hbound m
      exact ih _ (by omega) h' m' rfl

end Free

/-- Where all threads keep the order, every mutex gets free by running threads that hold
mutexes, whatever branches they take. -/
theorem leads_free {bound : ℕ} {program : θ → Code μ} {tr : List (Threads μ θ × ThreadEvent θ)}
    (hbound : ∀ m, rank m < bound) (hfits : ∀ t, (program t).Fits rank 0)
    (h : (system program).Exec tr s) (m : μ) : s.Leads fun s' => s'.holder m = none := by
  have hord : ∃ held, s.Ordered rank held := by
    refine h.inv (fun s => ∃ held, s.Ordered rank held) ?_ ?_
    · rintro s rfl
      exact ⟨_, ordered_start hfits⟩
    · rintro s e s' ⟨held, hs⟩ hst
      exact ordered_step hs hst
  obtain ⟨held, hs⟩ := hord
  exact (hs.leads_freed hbound m).bind fun s' hfreed => .here hfreed.1

end Steps

end Threads

end GameServer.Lib
