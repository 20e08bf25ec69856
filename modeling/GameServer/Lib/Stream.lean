import Mathlib.Tactic

/-! Reading a stream item by item until no item can be read: what an encoder wrote
comes back, and what was read is the front of the stream. -/

namespace GameServer.Lib

universe u v

/-- A reader of one item, which takes at least one element of the stream. -/
structure Reader (α : Type u) (β : Type v) where
  read : List α → Option (β × List α)
  shorter : ∀ {l : List α} {b : β} {rest : List α}, read l = some (b, rest) →
    rest.length < l.length

namespace Reader

variable {α : Type u} {β : Type v} (r : Reader α β)

/-- The items of a stream and what is left of it. -/
def readAll (l : List α) : List β × List α :=
  match h : r.read l with
  | none => ([], l)
  | some (b, rest) =>
    have := r.shorter h
    (b :: (readAll rest).1, (readAll rest).2)
  termination_by l.length

variable {r}

theorem readAll_of_none {l : List α} (h : r.read l = none) : r.readAll l = ([], l) := by
  rw [readAll]
  split
  · rfl
  · next heq => rw [h] at heq; cases heq

theorem readAll_of_some {l rest : List α} {b : β} (h : r.read l = some (b, rest)) :
    r.readAll l = (b :: (r.readAll rest).1, (r.readAll rest).2) := by
  rw [readAll]
  split
  · next heq => rw [h] at heq; cases heq
  · next heq =>
    rw [h] at heq
    cases heq
    rfl

/-- Encoded items are read back, whatever stands behind them. -/
theorem readAll_flatMap (encode : β → List α) (l : List β)
    (h : ∀ b ∈ l, ∀ rest, r.read (encode b ++ rest) = some (b, rest)) (rest : List α) :
    r.readAll (l.flatMap encode ++ rest) = (l ++ (r.readAll rest).1, (r.readAll rest).2) := by
  induction l with
  | nil => rfl
  | cons b l ih =>
    have hread := h b (by simp) (l.flatMap encode ++ rest)
    rw [List.flatMap_cons, List.append_assoc, readAll_of_some hread,
      ih fun b hb => h b (by simp [hb])]
    rfl

/-- Encoding the items that were read gives the stream up to what is left of it, and
from there nothing can be read. -/
theorem flatMap_readAll (encode : β → List α)
    (h : ∀ l b rest, r.read l = some (b, rest) → l = encode b ++ rest) (l : List α) :
    (r.readAll l).1.flatMap encode ++ (r.readAll l).2 = l ∧ r.read (r.readAll l).2 = none := by
  induction hn : l.length using Nat.strong_induction_on generalizing l with
  | _ n ih =>
    cases hread : r.read l with
    | none =>
      rw [readAll_of_none hread]
      exact ⟨rfl, hread⟩
    | some x =>
      obtain ⟨b, rest⟩ := x
      have hlt := r.shorter hread
      obtain ⟨hfront, hnone⟩ := ih rest.length (by omega) rest rfl
      rw [readAll_of_some hread]
      refine ⟨?_, hnone⟩
      rw [List.flatMap_cons, List.append_assoc, hfront]
      exact (h l b rest hread).symm

end Reader

end GameServer.Lib
