import GameServer.Lib.Lookup

/-! Two tables that index the same objects by two keys of theirs. -/

namespace GameServer.Lib

variable {α β ν : Type} [DecidableEq α] [DecidableEq β]

/-- Each object is in both tables, under its keys `f` and `g`, or in none. -/
structure Inverse (f : ν → α) (g : ν → β) (l : AList fun _ : α => ν) (r : AList fun _ : β => ν) :
    Prop where
  left : ∀ a x, l.lookup a = some x → f x = a ∧ r.lookup (g x) = some x
  right : ∀ b x, r.lookup b = some x → g x = b ∧ l.lookup (f x) = some x

namespace Inverse

variable {f f' : ν → α} {g g' : ν → β} {l : AList fun _ : α => ν} {r : AList fun _ : β => ν}

theorem empty (f : ν → α) (g : ν → β) : Inverse f g ∅ ∅ := ⟨nofun, nofun⟩

theorem symm (h : Inverse f g l r) : Inverse g f r l := ⟨h.right, h.left⟩

/-- Only the keys of the objects in the tables count. -/
theorem congr (h : Inverse f g l r)
    (hkeys : ∀ a x, l.lookup a = some x → f' x = f x ∧ g' x = g x) : Inverse f' g' l r := by
  refine ⟨fun a x hx => ?_, fun b x hx => ?_⟩
  · obtain ⟨hf, hg⟩ := hkeys a x hx
    rw [hf, hg]
    exact h.left a x hx
  · obtain ⟨hf, hg⟩ := hkeys _ x (h.right b x hx).2
    rw [hf, hg]
    exact h.right b x hx

/-- An object goes in under two keys that are free. -/
theorem insert {a : α} {b : β} {x : ν} (h : Inverse f g l r) (ha : l.lookup a = none)
    (hb : r.lookup b = none) (hf : f x = a) (hg : g x = b) :
    Inverse f g (l.insert a x) (r.insert b x) := by
  refine ⟨fun a' y hy => ?_, fun b' y hy => ?_⟩
  · rcases (lookup_insert_eq_some ha).mp hy with ⟨rfl, rfl⟩ | hy
    · exact ⟨hf, (lookup_insert_eq_some hb).mpr (Or.inl ⟨hg, rfl⟩)⟩
    · obtain ⟨hfy, hgy⟩ := h.left a' y hy
      exact ⟨hfy, (lookup_insert_eq_some hb).mpr (Or.inr hgy)⟩
  · rcases (lookup_insert_eq_some hb).mp hy with ⟨rfl, rfl⟩ | hy
    · exact ⟨hg, (lookup_insert_eq_some ha).mpr (Or.inl ⟨hf, rfl⟩)⟩
    · obtain ⟨hgy, hfy⟩ := h.right b' y hy
      exact ⟨hgy, (lookup_insert_eq_some ha).mpr (Or.inr hfy)⟩

/-- Objects with a key in common are the same. -/
theorem eq_of_key {a a' : α} {x y : ν} (h : Inverse f g l r) (hx : l.lookup a = some x)
    (hy : l.lookup a' = some y) (hg : g x = g y) : x = y := by
  have hgx := (h.left a x hx).2
  have hgy := (h.left a' y hy).2
  rw [hg, hgy] at hgx
  exact (Option.some.inj hgx).symm

/-- An object is taken out under both its keys. -/
theorem erase {a : α} {x : ν} (h : Inverse f g l r) (hx : l.lookup a = some x) :
    Inverse f g (l.erase a) (r.erase (g x)) := by
  obtain ⟨hfx, hgx⟩ := h.left a x hx
  refine ⟨fun a' y hy => ?_, fun b y hy => ?_⟩
  · obtain ⟨hne, hy⟩ := lookup_erase_eq_some.mp hy
    obtain ⟨hfy, hgy⟩ := h.left a' y hy
    refine ⟨hfy, lookup_erase_eq_some.mpr ⟨fun hg => hne ?_, hgy⟩⟩
    rw [← hfy, h.eq_of_key hy hx hg, hfx]
  · obtain ⟨hne, hy⟩ := lookup_erase_eq_some.mp hy
    obtain ⟨hgy, hfy⟩ := h.right b y hy
    refine ⟨hgy, lookup_erase_eq_some.mpr ⟨fun hf => hne ?_, hfy⟩⟩
    obtain rfl : y = x := by
      rw [hf, hx] at hfy
      exact (Option.some.inj hfy).symm
    exact hgy.symm

end Inverse

/-! ### Sizes -/

/-- The objects of a table. -/
def objects (l : AList fun _ : α => ν) : List ν := l.entries.map Sigma.snd

theorem mem_objects {l : AList fun _ : α => ν} {x : ν} :
    x ∈ objects l ↔ ∃ a, l.lookup a = some x := by
  simp only [objects, List.mem_map, AList.mem_lookup_iff, ← Option.mem_def]
  constructor
  · rintro ⟨e, he, rfl⟩
    exact ⟨e.1, he⟩
  · rintro ⟨a, ha⟩
    exact ⟨⟨a, x⟩, ha, rfl⟩

omit [DecidableEq α] in
theorem length_objects (l : AList fun _ : α => ν) : (objects l).length = l.keys.length := by
  rw [objects, AList.keys, List.keys, List.length_map, List.length_map]

namespace Inverse

variable {f : ν → α} {g : ν → β} {l : AList fun _ : α => ν} {r : AList fun _ : β => ν}

theorem objects_nodup (h : Inverse f g l r) : (objects l).Nodup := by
  refine List.Nodup.of_map f ?_
  have hkeys : (objects l).map f = l.keys := by
    rw [objects, AList.keys, List.keys, List.map_map]
    exact List.map_congr_left fun e he => (h.left e.1 e.2 (AList.mem_lookup_iff.mpr he)).1
  rw [hkeys]
  exact l.keys_nodup

theorem objects_perm (h : Inverse f g l r) : (objects l).Perm (objects r) := by
  refine (List.perm_ext_iff_of_nodup h.objects_nodup h.symm.objects_nodup).mpr fun x => ?_
  rw [mem_objects, mem_objects]
  constructor
  · rintro ⟨a, hx⟩
    exact ⟨g x, (h.left a x hx).2⟩
  · rintro ⟨b, hx⟩
    exact ⟨f x, (h.right b x hx).2⟩

/-- Both tables have the same size. -/
theorem size_eq (h : Inverse f g l r) : l.keys.length = r.keys.length := by
  rw [← length_objects, ← length_objects]
  exact h.objects_perm.length_eq

end Inverse

end GameServer.Lib
