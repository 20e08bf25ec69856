import Mathlib.Tactic

/-! Finite maps in key order, the way `std::map` stores and iterates them. The
entries are strictly sorted by key; the proof is a field, so every map is. -/

namespace GameServer.Lib

universe u v

structure OrdMap (κ : Type u) (ν : Type v) [LinearOrder κ] where
  entries : List (κ × ν)
  sorted : entries.Pairwise fun a b => a.1 < b.1

namespace OrdMap

section Entries

variable {κ : Type u} {ν : Type v} [LinearOrder κ]

/-- Insert or overwrite, keeping the order. -/
def insertEntries (k : κ) (x : ν) : List (κ × ν) → List (κ × ν)
  | [] => [(k, x)]
  | e :: l =>
    if k < e.1 then (k, x) :: e :: l
    else if k = e.1 then (k, x) :: l
    else e :: insertEntries k x l

theorem mem_insertEntries {k : κ} {x : ν} {l : List (κ × ν)}
    (hl : l.Pairwise fun a b => a.1 < b.1) {e : κ × ν} :
    e ∈ insertEntries k x l ↔ e = (k, x) ∨ (e ∈ l ∧ e.1 ≠ k) := by
  induction l with
  | nil => simp [insertEntries]
  | cons a l ih =>
    obtain ⟨ha, hl⟩ := List.pairwise_cons.mp hl
    simp only [insertEntries]
    split_ifs with h1 h2
    · have hne : ∀ b ∈ a :: l, b.1 ≠ k := by
        intro b hb
        rcases List.mem_cons.mp hb with rfl | hb
        · exact h1.ne'
        · exact (h1.trans (ha b hb)).ne'
      constructor
      · intro he
        rcases List.mem_cons.mp he with rfl | he
        · exact Or.inl rfl
        · exact Or.inr ⟨he, hne e he⟩
      · rintro (rfl | ⟨he, -⟩)
        · exact List.mem_cons_self
        · exact List.mem_cons_of_mem _ he
    · subst h2
      have hne : ∀ b ∈ l, b.1 ≠ a.1 := fun b hb => (ha b hb).ne'
      constructor
      · intro he
        rcases List.mem_cons.mp he with rfl | he
        · exact Or.inl rfl
        · exact Or.inr ⟨List.mem_cons_of_mem _ he, hne e he⟩
      · rintro (rfl | ⟨he, hk⟩)
        · exact List.mem_cons_self
        · rcases List.mem_cons.mp he with rfl | he
          · exact absurd rfl hk
          · exact List.mem_cons_of_mem _ he
    · rw [List.mem_cons, ih hl, List.mem_cons]
      constructor
      · rintro (rfl | h | ⟨h, hk⟩)
        · exact Or.inr ⟨Or.inl rfl, Ne.symm h2⟩
        · exact Or.inl h
        · exact Or.inr ⟨Or.inr h, hk⟩
      · rintro (h | ⟨h | h, hk⟩)
        · exact Or.inr (Or.inl h)
        · exact Or.inl h
        · exact Or.inr (Or.inr ⟨h, hk⟩)

theorem insertEntries_sorted {k : κ} {x : ν} {l : List (κ × ν)}
    (hl : l.Pairwise fun a b => a.1 < b.1) :
    (insertEntries k x l).Pairwise fun a b => a.1 < b.1 := by
  induction l with
  | nil => simp [insertEntries]
  | cons a l ih =>
    have hc := List.pairwise_cons.mp hl
    simp only [insertEntries]
    split_ifs with h1 h2
    · refine List.pairwise_cons.mpr ⟨fun b hb => ?_, hl⟩
      rcases List.mem_cons.mp hb with rfl | hb
      · exact h1
      · exact h1.trans (hc.1 b hb)
    · exact List.pairwise_cons.mpr ⟨fun b hb => h2 ▸ hc.1 b hb, hc.2⟩
    · refine List.pairwise_cons.mpr ⟨fun b hb => ?_, ih hc.2⟩
      rcases (mem_insertEntries hc.2).mp hb with rfl | ⟨hb, -⟩
      · exact lt_of_le_of_ne (not_lt.mp h1) (Ne.symm h2)
      · exact hc.1 b hb

theorem length_insertEntries {k : κ} {x : ν} {l : List (κ × ν)}
    (hl : l.Pairwise fun a b => a.1 < b.1) :
    (insertEntries k x l).length = if k ∈ l.map Prod.fst then l.length else l.length + 1 := by
  induction l with
  | nil => simp [insertEntries]
  | cons a l ih =>
    have hc := List.pairwise_cons.mp hl
    simp only [insertEntries]
    split_ifs with h1 h2 h3 h4 h5
    · have : ∀ b ∈ l, k ≠ b.1 := fun b hb => (h1.trans (hc.1 b hb)).ne
      simp only [List.map_cons, List.mem_cons, h1.ne, List.mem_map, false_or] at h2
      obtain ⟨b, hb, hk⟩ := h2
      exact absurd hk.symm (this b hb)
    · simp
    · simp
    · exact absurd (by simp [h3]) h4
    · have hk : k ∈ l.map Prod.fst := by simpa [h3] using h5
      rw [List.length_cons, ih hc.2, if_pos hk, List.length_cons]
    · have hk : k ∉ l.map Prod.fst := fun hk => h5 (by simp [hk])
      rw [List.length_cons, ih hc.2, if_neg hk, List.length_cons]

end Entries

variable {κ : Type u} {ν : Type v} [LinearOrder κ]

def empty : OrdMap κ ν := ⟨[], List.Pairwise.nil⟩

/-- `m[k] = x`. -/
def insert (k : κ) (x : ν) (m : OrdMap κ ν) : OrdMap κ ν :=
  ⟨insertEntries k x m.entries, insertEntries_sorted m.sorted⟩

def erase (k : κ) (m : OrdMap κ ν) : OrdMap κ ν :=
  ⟨m.entries.filter fun e => e.1 ≠ k, m.sorted.filter _⟩

def find? (k : κ) (m : OrdMap κ ν) : Option ν :=
  (m.entries.find? fun e => e.1 = k).map Prod.snd

def size (m : OrdMap κ ν) : ℕ := m.entries.length

def keys (m : OrdMap κ ν) : List κ := m.entries.map Prod.fst

/-- The values in key order, as a range-based `for` visits them. -/
def values (m : OrdMap κ ν) : List ν := m.entries.map Prod.snd

variable {m : OrdMap κ ν} {k k' : κ} {x y : ν}

theorem mem_insert {e : κ × ν} :
    e ∈ (m.insert k x).entries ↔ e = (k, x) ∨ (e ∈ m.entries ∧ e.1 ≠ k) :=
  mem_insertEntries m.sorted

theorem mem_erase {e : κ × ν} : e ∈ (m.erase k).entries ↔ e ∈ m.entries ∧ e.1 ≠ k := by
  simp [erase]

theorem keys_nodup (m : OrdMap κ ν) : m.keys.Nodup :=
  List.pairwise_map.mpr (m.sorted.imp fun h => h.ne)

/-- A key has one entry. -/
theorem entry_unique (h : (k, x) ∈ m.entries) (h' : (k, y) ∈ m.entries) : x = y := by
  have he := List.inj_on_of_nodup_map m.keys_nodup h h' rfl
  exact congrArg Prod.snd he

theorem find?_eq_some : m.find? k = some x ↔ (k, x) ∈ m.entries := by
  constructor
  · intro h
    obtain ⟨e, he, rfl⟩ := Option.map_eq_some_iff.mp h
    have hk : e.1 = k := by simpa using List.find?_some he
    have := List.mem_of_find?_eq_some he
    rwa [← hk]
  · intro h
    cases hf : m.entries.find? fun e => e.1 = k with
    | none =>
      have := List.find?_eq_none.mp hf _ h
      simp at this
    | some e =>
      have hk : e.1 = k := by simpa using List.find?_some hf
      have he : (k, e.2) ∈ m.entries := hk ▸ List.mem_of_find?_eq_some hf
      simp [find?, hf, entry_unique he h]

theorem find?_eq_none : m.find? k = none ↔ k ∉ m.keys := by
  constructor
  · intro h hk
    obtain ⟨e, he, rfl⟩ := List.mem_map.mp hk
    rw [find?_eq_some.mpr (show (e.1, e.2) ∈ m.entries from he)] at h
    cases h
  · intro h
    cases hf : m.find? k with
    | none => rfl
    | some x => exact absurd (List.mem_map.mpr ⟨_, find?_eq_some.mp hf, rfl⟩) h

theorem find?_insert [Decidable (k' = k)] :
    (m.insert k x).find? k' = if k' = k then some x else m.find? k' := by
  refine Option.ext fun y => ?_
  rw [find?_eq_some, mem_insert, Prod.mk.injEq]
  split_ifs with hk
  · rw [Option.some.injEq, and_iff_right hk, eq_comm, or_iff_left]
    exact fun h => h.2 hk
  · rw [find?_eq_some, or_iff_right fun h => hk h.1, and_iff_left]
    exact hk

theorem find?_erase [Decidable (k' = k)] :
    (m.erase k).find? k' = if k' = k then none else m.find? k' := by
  refine Option.ext fun y => ?_
  rw [find?_eq_some, mem_erase]
  split_ifs with hk
  · exact iff_of_false (fun h => h.2 hk) nofun
  · rw [find?_eq_some, and_iff_left]
    exact hk

theorem values_eq_nil_iff : m.values = [] ↔ ∀ k, m.find? k = none := by
  rw [values, List.map_eq_nil_iff, List.eq_nil_iff_forall_not_mem]
  constructor
  · intro h k
    refine Option.eq_none_iff_forall_ne_some.mpr fun x hx => ?_
    exact h _ (find?_eq_some.mp hx)
  · rintro h ⟨k, x⟩ he
    have hx := find?_eq_some.mpr he
    rw [h k] at hx
    cases hx

theorem size_insert :
    (m.insert k x).size = if (m.find? k).isSome then m.size else m.size + 1 := by
  change (insertEntries k x m.entries).length = _
  rw [length_insertEntries m.sorted]
  change (if k ∈ m.keys then m.size else m.size + 1) = _
  by_cases hk : k ∈ m.keys
  · have : (m.find? k).isSome := by
      rw [Option.isSome_iff_ne_none]
      exact fun h => find?_eq_none.mp h hk
    rw [if_pos hk, if_pos this]
  · rw [if_neg hk, find?_eq_none.mpr hk]
    rfl

theorem size_erase_le (m : OrdMap κ ν) (k : κ) : (m.erase k).size ≤ m.size :=
  List.length_filter_le ..

theorem keys_sorted (m : OrdMap κ ν) : m.keys.Pairwise (· < ·) :=
  List.pairwise_map.mpr m.sorted

theorem mem_keys_insert : k' ∈ (m.insert k x).keys ↔ k' = k ∨ k' ∈ m.keys := by
  simp only [keys, List.mem_map, mem_insert]
  constructor
  · rintro ⟨e, rfl | ⟨he, -⟩, rfl⟩
    · exact Or.inl rfl
    · exact Or.inr ⟨e, he, rfl⟩
  · rintro (rfl | ⟨e, he, rfl⟩)
    · exact ⟨_, Or.inl rfl, rfl⟩
    · by_cases hk : e.1 = k
      · exact ⟨_, Or.inl rfl, hk.symm⟩
      · exact ⟨e, Or.inr ⟨he, hk⟩, rfl⟩

/-- Overwriting an entry leaves the keys as they are. -/
theorem keys_insert_of_mem (h : k ∈ m.keys) : (m.insert k x).keys = m.keys := by
  refine (m.insert k x).keys_sorted.eq_of_mem_iff m.keys_sorted fun k' => ?_
  rw [mem_keys_insert, or_iff_right_of_imp]
  rintro rfl
  exact h

theorem entries_nodup (m : OrdMap κ ν) : m.entries.Nodup :=
  m.sorted.imp fun h he => absurd (congrArg Prod.fst he) h.ne

/-- The entries after an insertion: the new one and the others. -/
theorem insert_perm : (m.insert k x).entries.Perm ((k, x) :: (m.erase k).entries) := by
  have hn : ((k, x) :: (m.erase k).entries).Nodup :=
    List.nodup_cons.mpr ⟨fun h => (mem_erase.mp h).2 rfl, (m.erase k).entries_nodup⟩
  refine (List.perm_ext_iff_of_nodup (m.insert k x).entries_nodup hn).mpr fun e => ?_
  rw [mem_insert, List.mem_cons, mem_erase]

theorem erase_perm (h : m.find? k = some x) :
    m.entries.Perm ((k, x) :: (m.erase k).entries) := by
  have hmem := find?_eq_some.mp h
  have hn : ((k, x) :: (m.erase k).entries).Nodup :=
    List.nodup_cons.mpr ⟨fun h => (mem_erase.mp h).2 rfl, (m.erase k).entries_nodup⟩
  refine (List.perm_ext_iff_of_nodup m.entries_nodup hn).mpr fun e => ?_
  rw [List.mem_cons, mem_erase]
  refine ⟨fun he => ?_, fun he => he.elim (fun he => he ▸ hmem) And.left⟩
  by_cases hk : e.1 = k
  · exact Or.inl (Prod.ext hk (entry_unique (show (k, e.2) ∈ m.entries from hk ▸ he) hmem))
  · exact Or.inr ⟨he, hk⟩

theorem erase_of_none (h : m.find? k = none) : (m.erase k).entries = m.entries := by
  have hk := find?_eq_none.mp h
  refine List.filter_eq_self.mpr fun e he => ?_
  have : e.1 ≠ k := fun h => hk (List.mem_map.mpr ⟨e, he, h⟩)
  simpa using this

/-- Values are pairwise distinct when each one fixes the key it is stored under. -/
theorem values_nodup (f : ν → κ) (h : ∀ e ∈ m.entries, f e.2 = e.1) : m.values.Nodup := by
  refine List.Nodup.of_map f ?_
  have : m.values.map f = m.keys := by
    simp only [values, keys, List.map_map]
    exact List.map_congr_left fun e he => h e he
  rw [this]
  exact m.keys_nodup

end OrdMap

end GameServer.Lib
