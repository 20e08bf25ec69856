import Mathlib.Data.List.AList
import Mathlib.Tactic

/-! Lookups in association lists after an insertion or an erasure. -/

namespace GameServer.Lib

variable {α β : Type} [DecidableEq α] {l : AList fun _ : α => β} {k a : α} {v b : β}

theorem lookup_erase_eq_some :
    (l.erase k).lookup a = some b ↔ a ≠ k ∧ l.lookup a = some b := by
  by_cases h : a = k
  · rw [h, AList.lookup_erase]
    simp
  · rw [AList.lookup_erase_ne h]
    exact (and_iff_right h).symm

theorem lookup_insert_eq_some (hk : l.lookup k = none) :
    (l.insert k v).lookup a = some b ↔ a = k ∧ b = v ∨ l.lookup a = some b := by
  by_cases h : a = k
  · rw [h, AList.lookup_insert, hk]
    simp [eq_comm]
  · rw [AList.lookup_insert_ne h]
    simp [h]

theorem erase_of_lookup_eq_none (hk : l.lookup k = none) : l.erase k = l :=
  AList.ext (List.kerase_of_notMem_keys (AList.lookup_eq_none.mp hk))

end GameServer.Lib
