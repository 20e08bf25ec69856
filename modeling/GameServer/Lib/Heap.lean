import Mathlib.Tactic

/-! Blocks of memory that are allocated, written and freed. The owners of the blocks are
a list of addresses: every live block is in it once. Moving a block from one owner to
another permutes the list. -/

namespace GameServer.Lib

/-- What the live blocks hold, by their addresses. -/
def Heap (α : Type*) : Type _ := ℕ → Option α

namespace Heap

variable {α : Type*} {h : Heap α} {l l' : List ℕ} {a b : ℕ} {x : α}

def empty (α : Type*) : Heap α := fun _ => none

/-- Allocate the block `a`, or overwrite it. -/
def set (h : Heap α) (a : ℕ) (x : α) : Heap α := Function.update h a (some x)

def free (h : Heap α) (a : ℕ) : Heap α := Function.update h a none

@[simp] theorem set_self (h : Heap α) (a : ℕ) (x : α) : h.set a x a = some x :=
  Function.update_self ..

theorem set_of_ne (hne : b ≠ a) (h : Heap α) (x : α) : h.set a x b = h b :=
  Function.update_of_ne hne ..

@[simp] theorem free_self (h : Heap α) (a : ℕ) : h.free a a = none :=
  Function.update_self ..

theorem free_of_ne (hne : b ≠ a) (h : Heap α) : h.free a b = h b :=
  Function.update_of_ne hne ..

/-- The addresses are those of the live blocks, each once. -/
structure Owned (h : Heap α) (l : List ℕ) : Prop where
  once : l.Nodup
  live : ∀ a, a ∈ l ↔ (h a).isSome = true

theorem owned_empty : (empty α).Owned [] := ⟨List.nodup_nil, fun a => by simp [empty]⟩

theorem Owned.perm (hl : h.Owned l) (hp : l.Perm l') : h.Owned l' :=
  ⟨hp.nodup_iff.mp hl.once, fun a => hp.mem_iff.symm.trans (hl.live a)⟩

theorem Owned.ne (hl : h.Owned (a :: l)) (hb : b ∈ l) : b ≠ a := by
  rintro rfl
  exact (List.nodup_cons.mp hl.once).1 hb

theorem Owned.isSome (hl : h.Owned l) (ha : a ∈ l) : (h a).isSome = true := (hl.live a).mp ha

/-- A new block is nobody's. -/
theorem Owned.notMem (hl : h.Owned l) (ha : h a = none) : a ∉ l := by
  intro hmem
  rw [hl.live, ha] at hmem
  cases hmem

theorem Owned.alloc (hl : h.Owned l) (ha : h a = none) (x : α) : (h.set a x).Owned (a :: l) := by
  refine ⟨List.nodup_cons.mpr ⟨hl.notMem ha, hl.once⟩, fun b => ?_⟩
  rw [List.mem_cons]
  by_cases hb : b = a
  · simp [hb]
  · rw [set_of_ne hb, hl.live]
    simp [hb]

theorem Owned.write (hl : h.Owned l) (ha : a ∈ l) (x : α) : (h.set a x).Owned l := by
  refine ⟨hl.once, fun b => ?_⟩
  by_cases hb : b = a
  · simp [hb, ha]
  · rw [set_of_ne hb, hl.live]

theorem Owned.freed (hl : h.Owned (a :: l)) : (h.free a).Owned l := by
  obtain ⟨ha, hnodup⟩ := List.nodup_cons.mp hl.once
  refine ⟨hnodup, fun b => ?_⟩
  by_cases hb : b = a
  · simp [hb, ha]
  · rw [free_of_ne hb, ← hl.live, List.mem_cons]
    simp [hb]

end Heap

end GameServer.Lib
