import Mathlib.Tactic

/-! A log of messages that opens with announcements, one to each of some addressees,
and then sends to these addressees alone. -/

namespace GameServer.Lib

variable {μ κ : Type} (opens : μ → Bool) (addressee : μ → κ)

structure Announced (starts rest : List μ) : Prop where
  opening : ∀ m ∈ starts, opens m = true
  once : (starts.map addressee).Nodup
  following : ∀ m ∈ rest, opens m = false ∧ addressee m ∈ starts.map addressee

variable {opens addressee}

theorem Announced.append {starts rest : List μ}
    (h : Announced opens addressee starts rest) {l : List μ}
    (hl : ∀ m ∈ l, opens m = false ∧ addressee m ∈ starts.map addressee) :
    Announced opens addressee starts (rest ++ l) := by
  refine ⟨h.opening, h.once, fun m hm => ?_⟩
  rcases List.mem_append.mp hm with hm | hm
  · exact h.following m hm
  · exact hl m hm

variable [DecidableEq κ]

variable (opens addressee) in
/-- The announcements to `k`. -/
def openings (k : κ) (log : List μ) : List μ :=
  log.filter fun m => opens m && decide (addressee m = k)

theorem openings_append (k : κ) (l l' : List μ) : openings opens addressee k (l ++ l') =
    openings opens addressee k l ++ openings opens addressee k l' :=
  List.filter_append ..

theorem openings_of_not_opens {l : List μ} (h : ∀ m ∈ l, opens m = false) (k : κ) :
    openings opens addressee k l = [] := by
  apply List.filter_eq_nil_iff.mpr
  intro m hm
  simp [h m hm]

theorem openings_of_not_mem {k : κ} {l : List μ} (h : k ∉ l.map addressee) :
    openings opens addressee k l = [] := by
  apply List.filter_eq_nil_iff.mpr
  intro m hm hk
  apply h
  simp only [Bool.and_eq_true, decide_eq_true_eq] at hk
  exact List.mem_map.mpr ⟨m, hm, hk.2⟩

/-- Of messages to different addressees, all announcements, one is for `k`. -/
theorem openings_eq_singleton {k : κ} {l : List μ} (ho : ∀ m ∈ l, opens m = true)
    (hn : (l.map addressee).Nodup) (hk : k ∈ l.map addressee) :
    ∃ m ∈ l, openings opens addressee k l = [m] := by
  induction l with
  | nil => cases hk
  | cons m l ih =>
    obtain ⟨hm, ho⟩ := List.forall_mem_cons.mp ho
    obtain ⟨hnot, hn⟩ := List.nodup_cons.mp hn
    by_cases heq : addressee m = k
    · have hrest : openings opens addressee k l = [] := openings_of_not_mem (heq ▸ hnot)
      refine ⟨m, List.mem_cons_self, ?_⟩
      rw [openings, List.filter_cons_of_pos (by simp [hm, heq])]
      exact congrArg (m :: ·) hrest
    · have hk : k ∈ l.map addressee := (List.mem_cons.mp hk).resolve_left (Ne.symm heq)
      obtain ⟨m', hm', h⟩ := ih ho hn hk
      refine ⟨m', List.mem_cons_of_mem m hm', ?_⟩
      rw [openings, List.filter_cons_of_neg (by simp [heq])]
      exact h

namespace Announced

variable {starts rest : List μ}

/-- Nobody has two announcements. -/
theorem openings_length_le (h : Announced opens addressee starts rest) (k : κ) :
    (openings opens addressee k (starts ++ rest)).length ≤ 1 := by
  rw [openings_append, openings_of_not_opens fun m hm => (h.following m hm).1, List.append_nil]
  by_cases hk : k ∈ starts.map addressee
  · obtain ⟨m, -, heq⟩ := openings_eq_singleton h.opening h.once hk
    simp [heq]
  · simp [openings_of_not_mem hk]

/-- What is no announcement has the one to its addressee before it. -/
theorem openings_before (h : Announced opens addressee starts rest) {past future : List μ} {m : μ}
    (hlog : starts ++ rest = past ++ m :: future) (hm : opens m = false) :
    m ∈ rest ∧ ∃ start ∈ starts, openings opens addressee (addressee m) past = [start] := by
  have hnot : m ∉ starts := by
    intro hmem
    simp [h.opening m hmem] at hm
  obtain ⟨between, hpast, hrest⟩ :
      ∃ between, past = starts ++ between ∧ rest = between ++ m :: future := by
    rcases List.append_eq_append_iff.mp hlog with ⟨between, hpast, hrest⟩ | ⟨tail, hstarts, htail⟩
    · exact ⟨between, hpast, hrest⟩
    · cases tail with
      | nil =>
        rw [List.append_nil] at hstarts
        exact ⟨[], by simp [hstarts], by simpa using htail.symm⟩
      | cons m' tail =>
        obtain ⟨rfl, -⟩ := List.cons.inj htail
        exact absurd (by simp [hstarts]) hnot
  have hmem : m ∈ rest := by simp [hrest]
  obtain ⟨start, hstart, heq⟩ :=
    openings_eq_singleton h.opening h.once (h.following m hmem).2
  refine ⟨hmem, start, hstart, ?_⟩
  have hbetween : ∀ x ∈ between, opens x = false := by
    intro x hx
    exact (h.following x (by simp [hrest, hx])).1
  rw [hpast, openings_append, heq, openings_of_not_opens hbetween, List.append_nil]

end Announced

end GameServer.Lib
