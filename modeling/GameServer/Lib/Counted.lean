import Mathlib.Tactic

/-! Counted sequences: parsing `n` items one after the other, and sorting a list
into the groups of its keys. -/

namespace GameServer.Lib

universe u v w

section Times

variable {τ : Type u} {α : Type v}

/-- Parse `n` items with `p`; the result carries the rest of the input. -/
def times (p : List τ → Option (α × List τ)) : ℕ → List τ → Option (List α × List τ)
  | 0, ts => some ([], ts)
  | n + 1, ts => do
    let (a, ts) ← p ts
    let (as, ts) ← times p n ts
    some (a :: as, ts)

variable {p : List τ → Option (α × List τ)}

theorem times_length {n : ℕ} {ts rest : List τ} {l : List α}
    (h : times p n ts = some (l, rest)) : l.length = n := by
  induction n generalizing ts l with
  | zero =>
    cases h
    rfl
  | succ n ih =>
    simp only [times, Option.bind_eq_bind, Option.bind_eq_some_iff] at h
    obtain ⟨⟨a, ts'⟩, -, ⟨as, ts''⟩, htail, heq⟩ := h
    cases heq
    rw [List.length_cons, ih htail]

/-- Items that `p` reads back from their encoding come back from a sequence. -/
theorem times_flatMap (enc : α → List τ) (l : List α)
    (h : ∀ a ∈ l, ∀ rest, p (enc a ++ rest) = some (a, rest)) (rest : List τ) :
    times p l.length (l.flatMap enc ++ rest) = some (l, rest) := by
  induction l with
  | nil => rfl
  | cons a l ih =>
    rw [List.length_cons, List.flatMap_cons, List.append_assoc]
    simp only [times, h a (by simp), ih fun b hb => h b (by simp [hb]), Option.bind_eq_bind,
      Option.bind_some]

/-- When `p` reads back exactly the encodings of items that meet `ok`, a sequence
comes back exactly when all of it does. -/
theorem times_flatMap_iff (enc : α → List τ) (ok : α → Prop)
    (hok : ∀ a rest, ok a → p (enc a ++ rest) = some (a, rest))
    (hbad : ∀ a rest rest', p (enc a ++ rest) = some (a, rest') → ok a)
    (l : List α) (rest : List τ) :
    (∃ rest', times p l.length (l.flatMap enc ++ rest) = some (l, rest')) ↔ ∀ a ∈ l, ok a := by
  refine ⟨fun h => ?_, fun h => ⟨rest, times_flatMap enc l (fun a ha r => hok a r (h a ha)) rest⟩⟩
  induction l with
  | nil => simp
  | cons a l ih =>
    obtain ⟨rest', h⟩ := h
    rw [List.length_cons, List.flatMap_cons, List.append_assoc] at h
    simp only [times, Option.bind_eq_bind, Option.bind_eq_some_iff] at h
    obtain ⟨⟨b, ts⟩, hhead, ⟨bs, ts'⟩, htail, heq⟩ := h
    obtain ⟨⟨rfl, rfl⟩, rfl⟩ : (b = a ∧ bs = l) ∧ ts' = rest' := by simpa using heq
    have ha := hbad b _ _ hhead
    rw [hok b _ ha] at hhead
    cases hhead
    intro x hx
    rcases List.mem_cons.mp hx with rfl | hx
    · exact ha
    · exact ih ⟨_, htail⟩ x hx

end Times

section Groups

variable {α : Type u} {κ : Type v} [DecidableEq κ]

/-- The items of `l` with each of the keys in turn, in the order of `l`. -/
def groups (key : α → κ) (keys : List κ) (l : List α) : List α :=
  keys.flatMap fun k => l.filter fun a => key a = k

theorem mem_groups {key : α → κ} {keys : List κ} {l : List α} {a : α} :
    a ∈ groups key keys l ↔ a ∈ l ∧ key a ∈ keys := by
  simp only [groups, List.mem_flatMap, List.mem_filter, decide_eq_true_eq]
  refine ⟨fun ⟨k, hk, ha, he⟩ => ⟨ha, he ▸ hk⟩, fun ⟨ha, hk⟩ => ⟨_, hk, ha, rfl⟩⟩

theorem groups_cons_length (key : α → κ) (keys : List κ) (a : α) (l : List α) :
    (groups key keys (a :: l)).length = keys.count (key a) + (groups key keys l).length := by
  induction keys with
  | nil => simp [groups]
  | cons k keys ih =>
    simp only [groups, List.flatMap_cons, List.length_append] at ih ⊢
    rw [ih, List.filter_cons, List.count_cons]
    by_cases hk : key a = k
    · simp only [hk, decide_true, if_true, List.length_cons, beq_self_eq_true]
      omega
    · have hk' : ¬ k = key a := fun h => hk h.symm
      simp only [hk, hk', decide_false, Bool.false_eq_true, if_false, beq_iff_eq]
      omega

/-- Grouping by keys that are all listed, each once, loses and repeats nothing. -/
theorem groups_length {key : α → κ} {keys : List κ} (hn : keys.Nodup) {l : List α}
    (h : ∀ a ∈ l, key a ∈ keys) : (groups key keys l).length = l.length := by
  induction l with
  | nil => simp [groups]
  | cons a l ih =>
    rw [groups_cons_length, ih fun b hb => h b (by simp [hb]),
      List.count_eq_one_of_mem hn (h a (by simp)), List.length_cons, Nat.add_comm]

end Groups

end GameServer.Lib
