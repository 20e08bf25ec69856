import GameServer.Lib.Execution

/-! Jobs that are done again when more than a period has passed since the last time. The
test is on an unsigned difference of clock values, so a clock that was set back passes it
too; on a clock that goes on, the job is done more than a period apart. -/

namespace GameServer.Lib

universe u v

/-- The test `now - last > period`. -/
def Elapsed (period last now : UInt64) : Prop := now - last > period

/-- It passes after more than a period, and before the last time unless that is almost
`2 ^ 64` away. -/
theorem elapsed_iff (period last now : UInt64) : Elapsed period last now ↔
    last.toNat + period.toNat < now.toNat ∨
      (now < last ∧ last.toNat - now.toNat < 2 ^ 64 - period.toNat) := by
  have hnow := now.toNat_lt
  have hlast := last.toNat_lt
  rw [Elapsed, gt_iff_lt, UInt64.lt_iff_toNat_lt, UInt64.lt_iff_toNat_lt, UInt64.toNat_sub]
  by_cases hle : last.toNat ≤ now.toNat
  · have hsub : (2 ^ 64 - last.toNat + now.toNat) % 2 ^ 64 = now.toNat - last.toNat := by omega
    rw [hsub]
    omega
  · have hsub : (2 ^ 64 - last.toNat + now.toNat) % 2 ^ 64 =
        2 ^ 64 - (last.toNat - now.toNat) := by omega
    rw [hsub]
    omega

theorem elapsed_of_le {period last now : UInt64} (h : last ≤ now) :
    Elapsed period last now ↔ last.toNat + period.toNat < now.toNat := by
  rw [elapsed_iff]
  exact or_iff_left fun hlt => UInt64.not_lt.mpr h hlt.1

/-- The times of a job, each with the clock value that the test read and the one that was
stored: more than a period apart, each. -/
structure Spaced (period : UInt64) (times : List (UInt64 × UInt64)) : Prop where
  stored : ∀ a ∈ times, a.1 ≤ a.2
  apart : times.Pairwise fun a b => a.2.toNat + period.toNat < b.1.toNat

namespace Spaced

variable {period : UInt64} {times : List (UInt64 × UInt64)}

theorem nil (period : UInt64) : Spaced period [] := ⟨by simp, by simp⟩

theorem snoc {b : UInt64 × UInt64} (h : Spaced period times) (hb : b.1 ≤ b.2)
    (happ : ∀ a ∈ times, a.2.toNat + period.toNat < b.1.toNat) : Spaced period (times ++ [b]) := by
  constructor
  · intro a ha
    rcases List.mem_append.mp ha with ha | ha
    · exact h.stored a ha
    · rw [List.mem_singleton.mp ha]
      exact hb
  · rw [List.pairwise_append]
    refine ⟨h.apart, List.pairwise_singleton _ _, fun a ha c hc => ?_⟩
    rw [List.mem_singleton.mp hc]
    exact happ a ha

/-- The job is done at most once in a period and one unit more. -/
theorem count_le {a : UInt64 × UInt64} {bound : ℕ} (h : Spaced period (a :: times))
    (hbound : ∀ b ∈ a :: times, b.2.toNat ≤ bound) :
    a.2.toNat + (period.toNat + 1) * times.length ≤ bound := by
  induction times generalizing a with
  | nil => simpa using hbound a (by simp)
  | cons b times ih =>
    have happ := (List.pairwise_cons.mp h.apart).1 b (by simp)
    have hstored := UInt64.le_iff_toNat_le.mp (h.stored b (by simp))
    have hrest := ih ⟨fun c hc => h.stored c (List.mem_cons_of_mem a hc),
      (List.pairwise_cons.mp h.apart).2⟩ fun c hc => hbound c (List.mem_cons_of_mem a hc)
    rw [List.length_cons, Nat.mul_add_one]
    omega

end Spaced

/-! ### A job of a system -/

variable {σ : Type u} {ε : Type v}

/-- A job of `S` that keeps the last time in `last`. It is done in the steps that `fires`
finds; the first time need not be due, and the steps read the clock values `reads`. -/
structure Periodic (S : System σ ε) (period : UInt64) (last : σ → UInt64)
    (fires : σ × ε → Option (UInt64 × UInt64)) (reads : σ × ε → List UInt64) : Prop where
  idle : ∀ s e s', S.step s e s' → fires (s, e) = none → last s' = last s
  fired : ∀ s e s' a, S.step s e s' → fires (s, e) = some a →
    last s' = a.2 ∧ reads (s, e) = [a.1, a.2]
  due : ∀ tr s e s' a, S.Exec tr s → S.step s e s' → fires (s, e) = some a →
    tr.filterMap fires = [] ∨ Elapsed period (last s) a.1

/-- The clock never goes back between the steps that read it. -/
def ClockGoesOn (reads : σ × ε → List UInt64) (tr : List (σ × ε)) : Prop :=
  (tr.flatMap reads).Pairwise (· ≤ ·)

/-- What the times of a job so far tell. -/
structure Timed (period : UInt64) (times : List (UInt64 × UInt64)) (last : UInt64) : Prop where
  spaced : Spaced period times
  last_le : ∀ a ∈ times, a.2 ≤ last
  last_mem : times ≠ [] → ∃ a ∈ times, a.2 = last

namespace Periodic

variable {S : System σ ε} {period : UInt64} {last : σ → UInt64}
  {fires : σ × ε → Option (UInt64 × UInt64)} {reads : σ × ε → List UInt64} {tr : List (σ × ε)} {s : σ}

/-- The times that are stored were read. -/
theorem mem_reads (hjob : Periodic S period last fires reads) (h : S.Exec tr s) :
    ∀ a ∈ tr.filterMap fires, a.2 ∈ tr.flatMap reads := by
  induction h with
  | nil _ => simp
  | @snoc tr s s' e _ hst ih =>
    intro a ha
    rw [List.filterMap_append, List.mem_append] at ha
    rw [List.flatMap_append, List.mem_append]
    rcases ha with ha | ha
    · exact .inl (ih a ha)
    · have hfire : fires (s, e) = some a := by simpa using ha
      simp [(hjob.fired s e s' a hst hfire).2]

/-- On a clock that goes on the job is done more than a period apart. -/
theorem timed (hjob : Periodic S period last fires reads) (h : S.Exec tr s)
    (hclock : ClockGoesOn reads tr) : Timed period (tr.filterMap fires) (last s) := by
  induction h with
  | nil _ => exact ⟨.nil period, by simp, by simp⟩
  | @snoc tr s s' e hr hst ih =>
    rw [ClockGoesOn, List.flatMap_append, List.pairwise_append] at hclock
    obtain ⟨hclock, hlater, hreads⟩ := hclock
    obtain ⟨hspaced, hle, hmem⟩ := ih hclock
    cases hfire : fires (s, e) with
    | none =>
      have hnone : [(s, e)].filterMap fires = [] := by simp [hfire]
      rw [List.filterMap_append, hnone, List.append_nil, hjob.idle s e s' hst hfire]
      exact ⟨hspaced, hle, hmem⟩
    | some a =>
      have hone : [(s, e)].filterMap fires = [a] := by simp [hfire]
      obtain ⟨hlast, hread⟩ := hjob.fired s e s' a hst hfire
      have hstored : a.1 ≤ a.2 := by simpa [hread] using hlater
      have hbefore : ∀ b ∈ tr.filterMap fires, b.2 ≤ a.1 := fun b hb =>
        hreads b.2 (hjob.mem_reads hr b hb) a.1 (by simp [hread])
      have hapart : ∀ b ∈ tr.filterMap fires, b.2.toNat + period.toNat < a.1.toNat := by
        intro b hb
        rcases hjob.due tr s e s' a hr hst hfire with hnil | hdue
        · rw [hnil] at hb
          cases hb
        · obtain ⟨c, hc, hclast⟩ := hmem (List.ne_nil_of_mem hb)
          have hpast := (elapsed_of_le (hclast ▸ hbefore c hc)).mp hdue
          have hblast := UInt64.le_iff_toNat_le.mp (hle b hb)
          omega
      rw [List.filterMap_append, hone, hlast]
      refine ⟨hspaced.snoc hstored hapart, fun b hb => ?_, fun _ => ⟨a, by simp, rfl⟩⟩
      rcases List.mem_append.mp hb with hb | hb
      · exact UInt64.le_trans (hbefore b hb) hstored
      · rw [List.mem_singleton.mp hb]
        exact UInt64.le_refl _

end Periodic

end GameServer.Lib
