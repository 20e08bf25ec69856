import Mathlib.Tactic

/-! Programs that read memory cell by cell, each address chosen from what was
read before. Besides its result a run has the list of addresses it looked at, so
one can say what a result depends on: memories that agree there are not told
apart. -/

namespace GameServer.Lib

universe u v w

inductive ReadProgram (β : Type u) (α : Type v) where
  | done (a : α)
  | read (i : ℕ) (next : β → ReadProgram β α)

namespace ReadProgram

variable {β : Type u} {α : Type v} {γ : Type w}

def bind : ReadProgram β α → (α → ReadProgram β γ) → ReadProgram β γ
  | done a, f => f a
  | read i next, f => read i fun b => (next b).bind f

/-- The result on the memory `mem`; `none` once a read has left it. -/
def run (mem : ℕ → Option β) : ReadProgram β α → Option α
  | done a => some a
  | read i next =>
    match mem i with
    | some b => (next b).run mem
    | none => none

/-- The addresses read on the memory `mem`, up to the first one outside. -/
def reads (mem : ℕ → Option β) : ReadProgram β α → List ℕ
  | done _ => []
  | read i next =>
    match mem i with
    | some b => i :: (next b).reads mem
    | none => [i]

/-- Read `n` consecutive cells, the first one at `i`. -/
def range (i : ℕ) : ℕ → ReadProgram β (List β)
  | 0 => done []
  | n + 1 => read i fun b => (range (i + 1) n).bind fun bs => done (b :: bs)

variable {mem mem' : ℕ → Option β}

/-- A run does not depend on cells that it does not read. -/
theorem run_congr (p : ReadProgram β α) (h : ∀ i ∈ p.reads mem, mem' i = mem i) :
    p.run mem' = p.run mem ∧ p.reads mem' = p.reads mem := by
  induction p with
  | done a => exact ⟨rfl, rfl⟩
  | read i next ih =>
    have hi : mem' i = mem i := by
      apply h
      simp only [reads]
      split <;> simp
    cases hm : mem i with
    | none => simp [run, reads, hi, hm]
    | some b =>
      obtain ⟨hrun, hreads⟩ := ih b fun j hj => h j (by simp [reads, hm, hj])
      simp [run, reads, hi, hm, hrun, hreads]

/-- A run has a result exactly when every address it reads is inside. -/
theorem run_isSome (p : ReadProgram β α) :
    (p.run mem).isSome ↔ ∀ i ∈ p.reads mem, (mem i).isSome := by
  induction p with
  | done a => simp [run, reads]
  | read i next ih =>
    simp only [run, reads]
    cases hm : mem i with
    | none => simp [hm]
    | some b => simp [hm, ih b]

theorem run_bind (p : ReadProgram β α) (f : α → ReadProgram β γ) :
    (p.bind f).run mem = (p.run mem).bind fun a => (f a).run mem := by
  induction p with
  | done a => rfl
  | read i next ih =>
    simp only [bind, run]
    cases mem i with
    | none => rfl
    | some b => exact ih b

theorem reads_bind (p : ReadProgram β α) (f : α → ReadProgram β γ) :
    (p.bind f).reads mem =
      p.reads mem ++ ((p.run mem).map fun a => (f a).reads mem).getD [] := by
  induction p with
  | done a => rfl
  | read i next ih =>
    simp only [bind, reads, run]
    cases mem i with
    | none => rfl
    | some b => simp [ih b]

/-- Computing on the result reads nothing more. -/
@[simp] theorem reads_bind_done (p : ReadProgram β α) (g : α → γ) :
    (p.bind fun a => done (g a)).reads mem = p.reads mem := by
  rw [reads_bind]
  cases p.run mem <;> simp [reads]

variable (mem) in
/-- Where the memory holds `bs` from `i` on, `range` returns it and reads just
those cells. -/
theorem range_of_cells (bs : List β) (i : ℕ) (h : ∀ j (hj : j < bs.length), mem (i + j) = some bs[j]) :
    (range i bs.length).run mem = some bs ∧
      (range i bs.length).reads mem = List.range' i bs.length := by
  induction bs generalizing i with
  | nil => exact ⟨rfl, rfl⟩
  | cons b bs ih =>
    have h0 : mem i = some b := h 0 (by simp)
    obtain ⟨hrun, hreads⟩ := ih (i + 1) fun j hj => by
      have := h (j + 1) (by simpa using hj)
      rw [show i + 1 + j = i + (j + 1) by omega, this]
      rfl
    simp only [List.length_cons, range, run, reads, h0, run_bind, reads_bind, hrun, hreads]
    exact ⟨rfl, by simp [List.range'_succ]⟩

/-- A `range` that stays inside has read all its cells. -/
theorem range_reads (i n : ℕ) (h : ((range i n).run mem).isSome) :
    (range i n).reads mem = List.range' i n := by
  induction n generalizing i with
  | zero => rfl
  | succ n ih =>
    simp only [range, run, reads] at h ⊢
    cases hm : mem i with
    | none => simp [hm] at h
    | some b =>
      simp only [hm, run_bind, Option.isSome_bind] at h
      obtain ⟨bs, hbs⟩ := Option.isSome_iff_exists.mp
        (show ((range (i + 1) n).run mem).isSome by
          cases hr : (range (i + 1) n).run mem <;> simp [hr] at h ⊢)
      have htail := ih (i + 1) (by simp [hbs])
      simp [reads_bind, htail, hbs, List.range'_succ, reads]

/-- On a list as memory, `range` is a slice. -/
theorem range_run_list (l : List β) (i n : ℕ) (h : i + n ≤ l.length) :
    (range i n).run (fun j => l[j]?) = some ((l.drop i).take n) := by
  have hlen : ((l.drop i).take n).length = n := by
    rw [List.length_take, List.length_drop]
    omega
  have := range_of_cells (fun j => l[j]?) ((l.drop i).take n) i fun j hj => by
    rw [hlen] at hj
    simp only [List.getElem_take, List.getElem_drop]
    exact List.getElem?_eq_getElem _
  rw [hlen] at this
  exact this.1

theorem range_run_list_none (l : List β) (i n : ℕ) (hn : 0 < n) (h : l.length < i + n) :
    (range i n).run (fun j => l[j]?) = none := by
  by_contra hne
  have hsome := Option.isSome_iff_ne_none.mpr hne
  have hlast : i + n - 1 ∈ (range i n).reads fun j => l[j]? := by
    rw [range_reads i n hsome]
    exact List.mem_range'_1.mpr (by omega)
  have := (run_isSome _).mp hsome _ hlast
  rw [List.getElem?_eq_none (by omega)] at this
  cases this

end ReadProgram

end GameServer.Lib
