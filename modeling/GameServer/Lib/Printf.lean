import Mathlib.Tactic

/-! `printf` with a format and no argument. A byte 0 ends the format, `%%` writes one
percent sign, and any other conversion asks for an argument that is not there. -/

namespace GameServer.Lib

def percentSign : UInt8 := 0x25

/-- What `printf(format)` writes; `none` where the behaviour is undefined. -/
def printf : List UInt8 → Option (List UInt8)
  | [] => some []
  | b :: rest =>
    if b = 0 then some []
    else if b = percentSign then
      match rest with
      | [] => none
      | c :: rest => if c = percentSign then (printf rest).map (percentSign :: ·) else none
    else (printf rest).map (b :: ·)

/-- Neither a percent sign nor a byte 0. -/
def Plain (text : List UInt8) : Prop := ∀ b ∈ text, b ≠ 0 ∧ b ≠ percentSign

instance (text : List UInt8) : Decidable (Plain text) := List.decidableBAll _ text

theorem plain_append {l r : List UInt8} : Plain (l ++ r) ↔ Plain l ∧ Plain r :=
  List.forall_mem_append

theorem printf_nul (rest : List UInt8) : printf (0 :: rest) = some [] := by
  rw [printf.eq_def]
  exact if_pos rfl

theorem printf_percents (rest : List UInt8) :
    printf (percentSign :: percentSign :: rest) = (printf rest).map (percentSign :: ·) := by
  rw [printf, if_neg (by decide), if_pos rfl, if_pos rfl]

theorem printf_other {b : UInt8} (h0 : b ≠ 0) (hpercent : b ≠ percentSign) (rest : List UInt8) :
    printf (b :: rest) = (printf rest).map (b :: ·) := by
  rw [printf.eq_def]
  dsimp only
  rw [if_neg h0, if_neg hpercent]

/-- A conversion is never shorter than what it writes. -/
theorem printf_length (format : List UInt8) :
    ∀ out, printf format = some out → out.length ≤ format.length := by
  induction format using printf.induct with
  | case1 =>
    intro out h
    cases h
    exact le_rfl
  | case2 rest =>
    intro out h
    rw [printf_nul] at h
    cases h
    exact Nat.zero_le _
  | case3 => exact nofun
  | case4 rest _ ih =>
    intro out h
    rw [printf_percents] at h
    obtain ⟨tail, htail, rfl⟩ := Option.map_eq_some_iff.mp h
    have hle := ih tail htail
    simp only [List.length_cons]
    omega
  | case5 c rest hc =>
    intro out h
    rw [printf, if_neg (by decide), if_pos rfl, if_neg hc] at h
    cases h
  | case6 b rest h0 hpercent ih =>
    intro out h
    rw [printf_other h0 hpercent] at h
    obtain ⟨tail, htail, rfl⟩ := Option.map_eq_some_iff.mp h
    exact Nat.succ_le_succ (ih tail htail)

theorem printf_of_plain {format : List UInt8} (h : Plain format) : printf format = some format := by
  induction format with
  | nil => rfl
  | cons b rest ih =>
    obtain ⟨⟨h0, hpercent⟩, hrest⟩ := List.forall_mem_cons.mp h
    rw [printf_other h0 hpercent, ih hrest]
    rfl

/-- A text used as a format is written as it is if and only if it is plain. -/
theorem printf_eq_self_iff (format : List UInt8) : printf format = some format ↔ Plain format := by
  refine ⟨fun h => ?_, printf_of_plain⟩
  induction format using printf.induct with
  | case1 => exact fun b hb => absurd hb List.not_mem_nil
  | case2 rest =>
    rw [printf_nul] at h
    cases h
  | case3 => cases h
  | case4 rest _ _ =>
    -- two bytes of the format have become one
    rw [printf_percents] at h
    obtain ⟨tail, htail, heq⟩ := Option.map_eq_some_iff.mp h
    obtain rfl := (List.cons.inj heq).2
    have hle := printf_length rest _ htail
    rw [List.length_cons] at hle
    omega
  | case5 c rest hc =>
    rw [printf, if_neg (by decide), if_pos rfl, if_neg hc] at h
    cases h
  | case6 b rest h0 hpercent ih =>
    rw [printf_other h0 hpercent] at h
    obtain ⟨tail, htail, heq⟩ := Option.map_eq_some_iff.mp h
    obtain rfl := (List.cons.inj heq).2
    exact List.forall_mem_cons.mpr ⟨⟨h0, hpercent⟩, ih htail⟩

end GameServer.Lib
