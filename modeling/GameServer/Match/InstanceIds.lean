import GameServer.Match.Run

/-! Instance ids over all sequences of joins and removals. `JoinPlayer` hands out
the number of players after the insertion, cut to 8 bits. -/

namespace GameServer.MatchCtx

open Lib

/-! ### The ids in a match -/

/-- The instance ids in roster order. -/
def instanceIds (c : MatchCtx) : List UInt8 :=
  c.mtch.mPlayers.entries.map fun e => (c.players e.2).mMatchInstanceId

/-- Two entries of `m_players` never carry one instance id. -/
def DistinctInstanceIds (c : MatchCtx) : Prop :=
  ∀ e ∈ c.mtch.mPlayers.entries, ∀ e' ∈ c.mtch.mPlayers.entries, e ≠ e' →
    (c.players e.2).mMatchInstanceId ≠ (c.players e'.2).mMatchInstanceId

theorem distinctInstanceIds_iff (c : MatchCtx) : c.DistinctInstanceIds ↔ c.instanceIds.Nodup := by
  rw [instanceIds, List.nodup_map_iff_inj_on c.mtch.mPlayers.entries_nodup]
  refine ⟨fun h e he e' he' heq => ?_, fun h e he e' he' hne heq => hne (h e he e' he' heq)⟩
  by_contra hne
  exact h e he e' he' hne heq

/-- The ids that the first `n` players get. -/
def firstIds (n : ℕ) : List UInt8 := (List.range' 1 n).map UInt8.ofNat

theorem firstIds_succ (n : ℕ) : (firstIds (n + 1)).Perm (UInt8.ofNat (n + 1) :: firstIds n) := by
  rw [firstIds, List.range'_concat, List.map_append, Nat.one_mul, Nat.add_comm 1 n]
  exact List.perm_append_singleton _ _

theorem firstIds_nodup {n : ℕ} (h : n ≤ 256) : (firstIds n).Nodup := by
  refine List.Nodup.map_on (fun a ha b hb hab => ?_) List.nodup_range'
  have ha := List.mem_range'_1.mp ha
  have hb := List.mem_range'_1.mp hb
  have := congrArg UInt8.toNat hab
  rw [UInt8.toNat_ofNat', UInt8.toNat_ofNat'] at this
  omega

/-- While the roster can still change, the ids are those of the first players in
some order. -/
structure Numbered (c : MatchCtx) : Prop where
  keyed : c.Keyed
  distinct : c.instanceIds.Nodup
  numbered : c.mtch.mPlayerMtx = false →
    c.mtch.mPlayers.size ≤ 256 ∧ c.instanceIds.Perm (firstIds c.mtch.mPlayers.size)

/-- The ids of the entries other than `userID`'s. -/
def otherIds (c : MatchCtx) (userID : UserID) : List UInt8 :=
  (c.mtch.mPlayers.erase userID).entries.map fun e => (c.players e.2).mMatchInstanceId

theorem otherIds_of_none {c : MatchCtx} {u : UserID} (h : c.mtch.mPlayers.find? u = none) :
    c.otherIds u = c.instanceIds := by
  rw [otherIds, OrdMap.erase_of_none h, instanceIds]

theorem instanceIds_of_some {c : MatchCtx} {u : UserID} {q : PlayerRef}
    (h : c.mtch.mPlayers.find? u = some q) :
    c.instanceIds.Perm ((c.players q).mMatchInstanceId :: c.otherIds u) :=
  (OrdMap.erase_perm h).map _

section Joined

variable {c : MatchCtx} (this : MatchRef) (p : PlayerRef)

/-- A join replaces the id under its UserID by the new one. -/
theorem joined_instanceIds (hc : c.Numbered) :
    (c.joined this p).instanceIds.Perm
      (UInt8.ofNat (c.joined this p).mtch.mPlayers.size :: c.otherIds (c.players p).getUserID) := by
  refine (OrdMap.insert_perm.map _).trans ?_
  rw [List.map_cons, joined_players_self]
  refine List.Perm.cons _ (List.Perm.of_eq ?_)
  exact List.map_congr_left fun e he => by rw [joined_players_ne this p (hc.keyed.ref_ne he)]

theorem joined_size : (c.joined this p).mtch.mPlayers.size =
    if (c.mtch.mPlayers.find? (c.players p).getUserID).isSome then c.mtch.mPlayers.size
    else c.mtch.mPlayers.size + 1 :=
  OrdMap.size_insert

end Joined

/-! ### The condition -/

/-- A join that is let in brings a new UserID into a match with fewer than 256
players, or the UserID whose entry holds the id handed out last. -/
def JoinOk (c : MatchCtx) : MatchEvent → Prop
  | .join p => c.mtch.mMatchState = .joinedWaiting →
    match c.mtch.mPlayers.find? (c.players p).getUserID with
    | none => c.mtch.mPlayers.size < 256
    | some q => (c.players q).mMatchInstanceId = UInt8.ofNat c.mtch.mPlayers.size
  | _ => True

theorem numbered_joined {this : MatchRef} {c : MatchCtx} {p : PlayerRef} (hc : c.Numbered)
    (hm : c.mtch.mPlayerMtx = false) (hs : c.mtch.mMatchState = .joinedWaiting)
    (hok : c.JoinOk (.join p)) : (c.joined this p).Numbered := by
  obtain ⟨hsize, hperm⟩ := hc.numbered hm
  have hok := hok hs
  have hids := joined_instanceIds this p hc
  have hlen := joined_size (c := c) this p
  have hnum : (c.joined this p).mtch.mPlayers.size ≤ 256 ∧
      (c.joined this p).instanceIds.Perm (firstIds (c.joined this p).mtch.mPlayers.size) := by
    cases hf : c.mtch.mPlayers.find? (c.players p).getUserID with
    | none =>
      simp only [hf, Option.isSome_none, Bool.false_eq_true, if_false] at hok hlen
      rw [otherIds_of_none hf, hlen] at hids
      rw [hlen]
      exact ⟨by omega, hids.trans ((hperm.cons _).trans (firstIds_succ _).symm)⟩
    | some q =>
      simp only [hf, Option.isSome_some, if_true] at hok hlen
      rw [hlen] at hids ⊢
      rw [← hok] at hids
      exact ⟨hsize, hids.trans ((instanceIds_of_some hf).symm.trans hperm)⟩
  exact ⟨hc.keyed.joined this p, hnum.2.nodup_iff.mpr (firstIds_nodup hnum.1), fun _ => hnum⟩

theorem numbered_removed {c : MatchCtx} {p : PlayerRef} (hc : c.Numbered) :
    (c.removed p).Numbered := by
  have hids : (c.removed p).instanceIds = c.otherIds (c.players p).getUserID :=
    List.map_congr_left fun e _ => removed_field Player.mMatchInstanceId (fun _ _ => rfl) c p e.2
  refine ⟨hc.keyed.removed p, ?_, fun h => absurd h (by simp [removed])⟩
  rw [hids]
  exact hc.distinct.sublist (List.filter_sublist.map _)

/-- A join that misses the condition repeats an id. -/
theorem not_distinct_joined {this : MatchRef} {c : MatchCtx} {p : PlayerRef} (hc : c.Numbered)
    (hm : c.mtch.mPlayerMtx = false) (hbad : ¬ c.JoinOk (.join p)) :
    ¬ (c.joined this p).DistinctInstanceIds := by
  obtain ⟨hsize, hperm⟩ := hc.numbered hm
  rw [distinctInstanceIds_iff]
  intro hn
  have hids := joined_instanceIds this p hc
  have hlen := joined_size (c := c) this p
  have hnot := (List.nodup_cons.mp (hids.nodup_iff.mp hn)).1
  apply hnot
  simp only [JoinOk, Classical.not_imp] at hbad
  cases hf : c.mtch.mPlayers.find? (c.players p).getUserID with
  | none =>
    -- the 257th player gets the first one's id
    simp only [hf, Option.isSome_none, Bool.false_eq_true, if_false] at hbad hlen
    have h256 : c.mtch.mPlayers.size = 256 := by omega
    rw [hlen, otherIds_of_none hf, h256]
    rw [h256] at hperm
    exact hperm.mem_iff.mpr (List.mem_map.mpr ⟨1, List.mem_range'_1.mpr (by omega), rfl⟩)
  | some q =>
    -- the last id stays with its holder
    simp only [hf, Option.isSome_some, if_true] at hbad hlen
    have hcons := instanceIds_of_some hf
    have hpos : 0 < c.mtch.mPlayers.size :=
      List.length_pos_of_mem (OrdMap.find?_eq_some.mp hf)
    have hlast : UInt8.ofNat c.mtch.mPlayers.size ∈ c.instanceIds :=
      hperm.mem_iff.mpr (List.mem_map.mpr ⟨_, List.mem_range'_1.mpr (by omega), rfl⟩)
    rw [hlen]
    rcases List.mem_cons.mp (hcons.mem_iff.mp hlast) with heq | hmem
    · exact absurd heq.symm hbad.2
    · exact hmem

theorem SameRoster.instanceIds {c c' : MatchCtx} (h : SameRoster c c') :
    c'.instanceIds = c.instanceIds := by
  unfold MatchCtx.instanceIds
  rw [h.mPlayers]
  exact List.map_congr_left fun e _ => h.instanceId e.2

theorem SameRoster.numbered {c c' : MatchCtx} (h : SameRoster c c') (hc : c.Numbered) :
    c'.Numbered := by
  refine ⟨h.keyed hc.keyed, ?_, fun hm => ?_⟩
  · rw [h.instanceIds]
    exact hc.distinct
  · rw [h.mtx] at hm
    rw [h.mPlayers, h.instanceIds]
    exact hc.numbered hm

theorem numbered_init {c : MatchCtx} (h : c.Init) : c.Numbered := by
  have hids : c.instanceIds = [] := by
    rw [instanceIds, h.mPlayers]
    rfl
  refine ⟨h.keyed, ?_, fun _ => ?_⟩
  · rw [hids]
    exact List.nodup_nil
  · rw [hids, h.mPlayers]
    exact ⟨Nat.zero_le _, List.Perm.nil⟩

/-- In every state of a run the instance ids are distinct, if and only if every
join of the run that is let in brings a new UserID below 256 players, or the
UserID that holds the last id. -/
theorem distinctInstanceIds_iff_joinOk (this : MatchRef) (serialize : Json → List UInt8)
    (tr : List (MatchCtx × MatchEvent)) (c : MatchCtx) (h : (system this serialize).Exec tr c) :
    (∀ x ∈ visited tr c, DistinctInstanceIds x) ↔ ∀ x ∈ tr, JoinOk x.1 x.2 := by
  refine h.safe_iff Numbered DistinctInstanceIds JoinOk (fun _ => numbered_init)
    (fun c hc => (distinctInstanceIds_iff c).mpr hc.distinct) ?_ ?_
  · intro c e c' hc hok hst
    rcases step_cases hst with ⟨p, rfl, hm, hs, rfl⟩ | ⟨p, rfl, rfl⟩ | ⟨hsame, -⟩
    · exact numbered_joined hc hm hs hok
    · exact numbered_removed hc
    · exact hsame.numbered hc
  · intro c e c' hc hbad hst
    rcases step_cases hst with ⟨p, rfl, hm, -, rfl⟩ | ⟨p, rfl, rfl⟩ | ⟨-, hjoin⟩
    · exact not_distinct_joined hc hm hbad
    · exact absurd trivial hbad
    · cases e with
      | join p => exact absurd (fun hs => absurd hs (hjoin p rfl)) hbad
      | _ => exact absurd trivial hbad

/-! ### Two players and a repeated join -/

def twoJoined : MatchCtx := (waitingMatch.joined 0 0).joined 0 1

def twoJoinedTrace : List (MatchCtx × MatchEvent) :=
  [(sampleMatch, .threadInit 0), (waitingMatch, .join 0), (waitingMatch.joined 0 0, .join 1)]

theorem twoJoined_exec : (system 0 fun _ => []).Exec twoJoinedTrace twoJoined := by
  have h2 := (waitingMatch_exec 0 fun _ => []).next (.join 0) (waitingMatch.joined 0 0) (step_join 0 (fun _ => []) 0 rfl rfl)
  exact h2.next (.join 1) twoJoined (step_join 0 (fun _ => []) 1 rfl rfl)

theorem twoJoined_distinct : (∀ x ∈ twoJoinedTrace, JoinOk x.1 x.2) ∧
    ∀ x ∈ visited twoJoinedTrace twoJoined, DistinctInstanceIds x := by
  have hok : ∀ x ∈ twoJoinedTrace, JoinOk x.1 x.2 := by
    simp only [twoJoinedTrace, List.forall_mem_cons]
    exact ⟨trivial, fun _ => show 0 < 256 by decide, fun _ => show 1 < 256 by decide, nofun⟩
  exact ⟨hok, (distinctInstanceIds_iff_joinOk 0 (fun _ => []) _ _ twoJoined_exec).mpr hok⟩

/-- Player 0 joins again and gets the id of player 1. -/
theorem rejoin_repeats_id :
    (∃ tr, (system 0 fun _ => []).Exec tr (twoJoined.joined 0 0)) ∧
      ¬ DistinctInstanceIds (twoJoined.joined 0 0) := by
  refine ⟨⟨_, twoJoined_exec.next (.join 0) _ (step_join 0 (fun _ => []) 0 rfl rfl)⟩, fun h => ?_⟩
  exact h (1, 0) (by decide) (2, 1) (by decide) (by decide) (by decide)

end GameServer.MatchCtx
