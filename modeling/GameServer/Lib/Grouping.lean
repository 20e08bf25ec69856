import Mathlib.Tactic

/-! Members of groups, recorded twice: a group has an entry for each of its members
under a key of the member, a member points to the one group it is in. Groups come and
go. -/

namespace GameServer.Lib

universe u v w

@[ext]
structure Grouping (P : Type u) (M : Type v) (U : Type w) where
  key : P → U
  entry : M → U → Option P
  active : P → Option M
  registered : Set M

namespace Grouping

variable {P : Type u} {M : Type v} {U : Type w}

/-- A member points to a group if and only if the group is there and has it. -/
def Consistent (s : Grouping P M U) : Prop :=
  ∀ p m, s.active p = some m ↔ s.entry m (s.key p) = some p ∧ m ∈ s.registered

/-- An entry is under the key of the member. -/
def Keyed (s : Grouping P M U) : Prop :=
  ∀ m ∈ s.registered, ∀ k p, s.entry m k = some p → s.key p = k

variable [DecidableEq P] [DecidableEq M] [DecidableEq U] {s : Grouping P M U} {p : P} {m : M}

/-- `p` points to `m`, and its entry replaces what was under its key. -/
def join (s : Grouping P M U) (p : P) (m : M) : Grouping P M U :=
  { s with
    entry := Function.update s.entry m (Function.update (s.entry m) (s.key p) (some p))
    active := Function.update s.active p (some m) }

/-- `p` points to nothing, and what was under its key in `m` is gone. -/
def remove (s : Grouping P M U) (p : P) (m : M) : Grouping P M U :=
  { s with
    entry := Function.update s.entry m (Function.update (s.entry m) (s.key p) none)
    active := Function.update s.active p none }

/-- A group without members. -/
def add (s : Grouping P M U) (m : M) : Grouping P M U :=
  { s with
    entry := Function.update s.entry m fun _ => none
    registered := insert m s.registered }

def drop (s : Grouping P M U) (m : M) : Grouping P M U :=
  { s with registered := s.registered \ {m} }

/-! ### Entries and pointers after an operation -/

omit [DecidableEq P] in
theorem entry_update (f : U → Option P) (k : U) (x : Option P) (m' : M) (k' : U) :
    Function.update s.entry m (Function.update f k x) m' k' =
      if m' = m then if k' = k then x else f k' else s.entry m' k' := by
  by_cases hm : m' = m
  · subst hm
    rw [Function.update_self, if_pos rfl, Function.update_apply]
  · rw [Function.update_of_ne hm, if_neg hm]

theorem join_entry (m' : M) (k : U) :
    (s.join p m).entry m' k =
      if m' = m then if k = s.key p then some p else s.entry m k else s.entry m' k :=
  entry_update ..

theorem join_active (q : P) : (s.join p m).active q = if q = p then some m else s.active q :=
  Function.update_apply ..

theorem remove_entry (m' : M) (k : U) :
    (s.remove p m).entry m' k =
      if m' = m then if k = s.key p then none else s.entry m k else s.entry m' k :=
  entry_update ..

theorem remove_active (q : P) : (s.remove p m).active q = if q = p then none else s.active q :=
  Function.update_apply ..

/-! ### Keys -/

theorem Keyed.join (hs : s.Keyed) (p : P) (m : M) : (s.join p m).Keyed := by
  intro m' hm' k q hq
  rw [join_entry] at hq
  split_ifs at hq with hm hk
  · rw [← Option.some.inj hq, hk]
    rfl
  · subst hm
    exact hs m' hm' k q hq
  · exact hs m' hm' k q hq

theorem Keyed.remove (hs : s.Keyed) (p : P) (m : M) : (s.remove p m).Keyed := by
  intro m' hm' k q hq
  rw [remove_entry] at hq
  split_ifs at hq with hm hk
  · subst hm
    exact hs m' hm' k q hq
  · exact hs m' hm' k q hq

omit [DecidableEq P] [DecidableEq U] in
theorem Keyed.add (hs : s.Keyed) (m : M) : (s.add m).Keyed := by
  intro m' hm' k q hq
  by_cases hm : m' = m
  · subst hm
    simp [Grouping.add] at hq
  · have hold : s.entry m' k = some q := by simpa [Grouping.add, hm] using hq
    exact hs m' (hm'.resolve_left hm) k q hold

omit [DecidableEq P] [DecidableEq M] [DecidableEq U] in
theorem Keyed.drop (hs : s.Keyed) (m : M) : (s.drop m).Keyed :=
  fun m' hm' => hs m' hm'.1

/-! ### Which operations keep both records in agreement -/

omit [DecidableEq P] [DecidableEq M] [DecidableEq U] in
/-- Who has an entry points to its group. -/
theorem Consistent.active_of_entry (hs : s.Consistent) (hk : s.Keyed) (hm : m ∈ s.registered)
    {k : U} {q : P} (hq : s.entry m k = some q) : s.key q = k ∧ s.active q = some m := by
  have hkey := hk m hm k q hq
  refine ⟨hkey, (hs q m).mpr ⟨?_, hm⟩⟩
  rw [hkey]
  exact hq

omit [DecidableEq P] in
/-- A write under the key of `p`, which nobody else has in `m`, is no matter to others. -/
theorem entry_update_other (hp : ∀ q, s.entry m (s.key p) = some q → q = p) {q : P} (hqp : q ≠ p)
    {x : Option P} (hx : x ≠ some q) (m' : M) :
    Function.update s.entry m (Function.update (s.entry m) (s.key p) x) m' (s.key q) = some q ↔
      s.entry m' (s.key q) = some q := by
  rw [entry_update]
  split_ifs with hm hkey
  · subst hm
    refine iff_of_false hx fun hq => hqp (hp q ?_)
    rwa [hkey] at hq
  · subst hm
    rfl
  · rfl

/-- `p` is in `m` already, or in no group while nobody has its key in `m`. -/
def Joinable (s : Grouping P M U) (p : P) (m : M) : Prop :=
  s.active p = some m ∨ s.active p = none ∧ s.entry m (s.key p) = none

theorem join_consistent (hs : s.Consistent) (hm : m ∈ s.registered) (hp : s.Joinable p m) :
    (s.join p m).Consistent := by
  have hkey : ∀ q, s.entry m (s.key p) = some q → q = p := by
    intro q hq
    rcases hp with hp | ⟨-, hp⟩
    · exact Option.some.inj (hq.symm.trans ((hs p m).mp hp).1)
    · rw [hp] at hq
      cases hq
  intro q m'
  by_cases hqp : q = p
  · subst hqp
    change _ ↔ (s.join q m).entry m' (s.key q) = some q ∧ m' ∈ s.registered
    rw [join_active, join_entry, if_pos rfl, if_pos rfl]
    by_cases hmm : m' = m
    · subst hmm
      simp [hm]
    · -- `q` points to no other group than `m`
      rw [if_neg hmm, ← hs q m']
      refine iff_of_false (fun h => hmm (Option.some.inj h).symm) ?_
      rcases hp with hp | ⟨hp, -⟩
      · rw [hp]
        exact fun h => hmm (Option.some.inj h).symm
      · rw [hp]
        exact nofun
  · rw [join_active, if_neg hqp, hs q m']
    refine and_congr_left fun _ => (entry_update_other hkey hqp ?_ m').symm
    exact fun h => hqp (Option.some.inj h).symm

theorem joinable_of_consistent (hs : s.Consistent) (hk : s.Keyed) (hm : m ∈ s.registered)
    (hnew : (s.join p m).Consistent) : s.Joinable p m := by
  cases hp : s.active p with
  | some m' =>
    by_cases hne : m' = m
    · rw [← hne]
      exact Or.inl hp
    · -- `m'` still has `p`
      obtain ⟨hentry, hm'⟩ := (hs p m').mp hp
      have hstill := (hnew p m').mpr ⟨by rwa [join_entry, if_neg hne], hm'⟩
      rw [join_active, if_pos rfl] at hstill
      exact absurd (Option.some.inj hstill).symm hne
  | none =>
    refine Or.inr ⟨hp, ?_⟩
    by_contra hentry
    obtain ⟨q, hq⟩ := Option.ne_none_iff_exists'.mp hentry
    obtain ⟨hkey, hqm⟩ := hs.active_of_entry hk hm hq
    have hqp : q ≠ p := by
      rintro rfl
      rw [hp] at hqm
      cases hqm
    -- `q` points to `m`, which has `p` under the key instead
    have hlost := ((hnew q m).mp (by rwa [join_active, if_neg hqp])).1
    have hover : (s.join p m).entry m (s.key q) = some p := by
      rw [join_entry, if_pos rfl, if_pos hkey]
    exact hqp (Option.some.inj (hlost.symm.trans hover))

/-- A join does exactly when `p` is in `m` already, or in no group and nobody has its
key in `m`. -/
theorem join_consistent_iff (hs : s.Consistent) (hk : s.Keyed) (hm : m ∈ s.registered) :
    (s.join p m).Consistent ↔
      s.active p = some m ∨ s.active p = none ∧ s.entry m (s.key p) = none :=
  ⟨joinable_of_consistent hs hk hm, join_consistent hs hm⟩

/-- A removal does exactly when the entry that it takes out is that of `p`. -/
theorem remove_consistent_iff (hs : s.Consistent) (hk : s.Keyed) (hm : m ∈ s.registered) {q : P}
    (hq : s.entry m (s.key p) = some q) : (s.remove p m).Consistent ↔ q = p := by
  obtain ⟨hkey, hqm⟩ := hs.active_of_entry hk hm hq
  constructor
  · intro hnew
    by_contra hqp
    have hlost := ((hnew q m).mp (by rwa [remove_active, if_neg hqp])).1
    have hgone : (s.remove p m).entry m (s.key q) = none := by
      rw [remove_entry, if_pos rfl, if_pos hkey]
    exact absurd (hlost.symm.trans hgone) nofun
  · rintro rfl r m'
    by_cases hrq : r = q
    · subst hrq
      change _ ↔ (s.remove r m).entry m' (s.key r) = some r ∧ m' ∈ s.registered
      rw [remove_active, remove_entry, if_pos rfl, if_pos rfl]
      refine iff_of_false nofun fun h => ?_
      by_cases hmm : m' = m
      · rw [if_pos hmm] at h
        cases h.1
      · rw [if_neg hmm] at h
        exact hmm (Option.some.inj (((hs r m').mpr h).symm.trans hqm))
    · rw [remove_active, if_neg hrq, hs r m']
      have honly : ∀ x, s.entry m (s.key q) = some x → x = q :=
        fun x hx => Option.some.inj (hx.symm.trans hq)
      exact and_congr_left fun _ => (entry_update_other (x := none) honly hrq nofun m').symm

omit [DecidableEq P] [DecidableEq U] in
theorem add_consistent (hs : s.Consistent) (hm : m ∉ s.registered) : (s.add m).Consistent := by
  intro p m'
  change s.active p = some m' ↔
    Function.update s.entry m (fun _ => none) m' (s.key p) = some p ∧ m' ∈ insert m s.registered
  rw [hs p m']
  by_cases hmm : m' = m
  · subst hmm
    rw [Function.update_self]
    exact iff_of_false (fun h => hm h.2) fun h => absurd h.1 nofun
  · rw [Function.update_of_ne hmm, Set.mem_insert_iff, or_iff_right hmm]

omit [DecidableEq P] [DecidableEq M] [DecidableEq U] in
/-- A group is dropped in agreement exactly when it has no members. -/
theorem drop_consistent_iff (hs : s.Consistent) (hk : s.Keyed) (hm : m ∈ s.registered) :
    (s.drop m).Consistent ↔ ∀ k, s.entry m k = none := by
  constructor
  · intro hnew k
    by_contra hentry
    obtain ⟨p, hp⟩ := Option.ne_none_iff_exists'.mp hentry
    have hpm := (hs.active_of_entry hk hm hp).2
    exact ((hnew p m).mp hpm).2.2 rfl
  · intro hnone p m'
    refine (hs p m').trans (and_congr_right fun hp => ⟨fun hm' => ⟨hm', ?_⟩, And.left⟩)
    rintro rfl
    rw [hnone] at hp
    cases hp

end Grouping

end GameServer.Lib
