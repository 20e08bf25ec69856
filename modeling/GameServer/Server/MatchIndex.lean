import GameServer.Lib.Index
import GameServer.Server.World

/-! The two tables of `MatchManager`: `m_matches_IDs` by the id of a match,
`m_matches` by the short id that `CreateMatch` draws for it. -/

namespace GameServer

open Lib

namespace World

/-- `Get_New_Match_Short_ID` calls itself until a draw is free; `none` when `draws`
has no free one. -/
def getNewMatchShortID (w : World) (draws : List UInt16) : Option UInt16 :=
  draws.find? fun newNum => !w.hasMatchShortID newNum

/-- `CreateMatch`; a match that is there already draws no number. -/
def createMatchDrawn (w : World) (id : String) (draws : List UInt16) : Option World :=
  if w.hasMatchID id then some w else (w.getNewMatchShortID draws).map (w.createMatch id)

def removeMatch (w : World) (id : String) : World :=
  match w.mMatchesIDs.lookup id with
  | none => w
  | some m =>
    { w with
      mMatchesIDs := w.mMatchesIDs.erase id
      mMatches := w.mMatches.erase (w.matchAt m).mShortID }

def getMatchFromShortID (w : World) (shortId : UInt16) : Option MatchRef :=
  w.mMatches.lookup shortId

/-- Each match is in both tables, under its id and its short id, or in none. -/
def Indexed (w : World) : Prop :=
  Inverse (fun m => (w.matchAt m).mID) (fun m => (w.matchAt m).mShortID) w.mMatchesIDs w.mMatches

/-- A match that is registered was created. -/
def Created (w : World) : Prop := ∀ id m, w.mMatchesIDs.lookup id = some m → m < w.nextMatch

/-! ### The two operations -/

variable {w w' : World}

theorem createMatchDrawn_eq {id : String} {draws : List UInt16}
    (h : w.createMatchDrawn id draws = some w') :
    (w.hasMatchID id = true ∧ w' = w) ∨
    ∃ shortId, w.mMatchesIDs.lookup id = none ∧ w.mMatches.lookup shortId = none ∧
      w' = w.createMatch id shortId := by
  unfold createMatchDrawn at h
  split_ifs at h with hid
  · exact Or.inl ⟨hid, (Option.some.inj h).symm⟩
  · obtain ⟨shortId, hdraw, rfl⟩ := Option.map_eq_some_iff.mp h
    have hfree : w.hasMatchShortID shortId = false := by
      have hfind := List.find?_some hdraw
      simpa using hfind
    refine Or.inr ⟨shortId, ?_, ?_, rfl⟩
    · simpa [hasMatchID] using hid
    · simpa [hasMatchShortID] using hfree

/-- A new match: its object, and its entries in the two tables. -/
theorem createMatch_tables {id : String} (shortId : UInt16) (hid : w.mMatchesIDs.lookup id = none) :
    (w.createMatch id shortId).mMatchesIDs = w.mMatchesIDs.insert id w.nextMatch ∧
    (w.createMatch id shortId).mMatches = w.mMatches.insert shortId w.nextMatch ∧
    (w.createMatch id shortId).nextMatch = w.nextMatch + 1 ∧
    ((w.createMatch id shortId).matchAt w.nextMatch).mID = id ∧
    ((w.createMatch id shortId).matchAt w.nextMatch).mShortID = shortId ∧
    ∀ m, m ≠ w.nextMatch → (w.createMatch id shortId).matchAt m = w.matchAt m := by
  have hhas : ¬ w.hasMatchID id = true := by simp [hasMatchID, hid]
  unfold createMatch
  rw [if_neg hhas]
  dsimp only
  rw [Function.update_self]
  exact ⟨rfl, rfl, rfl, rfl, rfl, fun m hm => Function.update_of_ne hm ..⟩

theorem indexed_createMatch {id : String} {shortId : UInt16} (hw : w.Indexed) (hc : w.Created)
    (hid : w.mMatchesIDs.lookup id = none) (hshort : w.mMatches.lookup shortId = none) :
    (w.createMatch id shortId).Indexed ∧ (w.createMatch id shortId).Created := by
  obtain ⟨hids, hshorts, hnext, hnewId, hnewShort, hold⟩ := createMatch_tables shortId hid
  have hkept : Inverse (fun m => ((w.createMatch id shortId).matchAt m).mID)
      (fun m => ((w.createMatch id shortId).matchAt m).mShortID) w.mMatchesIDs w.mMatches := by
    refine Inverse.congr hw fun a m hm => ?_
    rw [hold m (Nat.ne_of_lt (hc a m hm))]
    exact ⟨rfl, rfl⟩
  constructor
  · rw [Indexed, hids, hshorts]
    exact hkept.insert hid hshort hnewId hnewShort
  · intro a m hm
    rw [hids] at hm
    rw [hnext]
    rcases (lookup_insert_eq_some hid).mp hm with ⟨-, rfl⟩ | hm
    · exact Nat.lt_succ_self _
    · exact Nat.lt_succ_of_lt (hc a m hm)

theorem removeMatch_eq (w : World) (id : String) :
    (w.mMatchesIDs.lookup id = none ∧ w.removeMatch id = w) ∨
    ∃ m, w.mMatchesIDs.lookup id = some m ∧ w.removeMatch id =
      { w with
        mMatchesIDs := w.mMatchesIDs.erase id
        mMatches := w.mMatches.erase (w.matchAt m).mShortID } := by
  unfold removeMatch
  cases hid : w.mMatchesIDs.lookup id with
  | none => exact Or.inl ⟨rfl, rfl⟩
  | some m => exact Or.inr ⟨m, rfl, rfl⟩

theorem indexed_removeMatch (hw : w.Indexed) (hc : w.Created) (id : String) :
    (w.removeMatch id).Indexed ∧ (w.removeMatch id).Created := by
  rcases removeMatch_eq w id with ⟨-, heq⟩ | ⟨m, hid, heq⟩
  · rw [heq]
    exact ⟨hw, hc⟩
  · rw [heq]
    refine ⟨Inverse.erase hw hid, fun a m' hm' => ?_⟩
    exact hc a m' (lookup_erase_eq_some.mp hm').2

/-! ### A run -/

/-- The calls that `MatchManager` makes on its tables. -/
inductive IndexEvent where
  | createMatch (id : String) (draws : List UInt16)
  | removeMatch (id : String)
  deriving DecidableEq, Repr

/-- The match that a call names. -/
def IndexEvent.id : IndexEvent → String
  | .createMatch id _ => id
  | .removeMatch id => id

def IndexStep (w : World) (e : IndexEvent) (w' : World) : Prop :=
  match e with
  | .createMatch id draws => w.createMatchDrawn id draws = some w'
  | .removeMatch id => w' = w.removeMatch id

structure IndexInit (w : World) : Prop where
  mMatches : w.mMatches = ∅
  mMatchesIDs : w.mMatchesIDs = ∅

def indexSystem : System World IndexEvent := ⟨IndexInit, IndexStep⟩

/-- A call touches no match but the one it names, and never one that is registered
when it creates. -/
structure Names (w : World) (e : IndexEvent) (w' : World) : Prop where
  byId : ∀ id, id ≠ e.id → w'.mMatchesIDs.lookup id = w.mMatchesIDs.lookup id
  byShortId : ∀ shortId m, (w'.mMatches.lookup shortId = some m ∧ (w'.matchAt m).mID ≠ e.id) ↔
    (w.mMatches.lookup shortId = some m ∧ (w.matchAt m).mID ≠ e.id)
  registered : ∀ draws m, e = .createMatch e.id draws → w.mMatchesIDs.lookup e.id = some m → w' = w

theorem indexed_step {e : IndexEvent} (hw : w.Indexed) (hc : w.Created) (h : IndexStep w e w') :
    w'.Indexed ∧ w'.Created := by
  cases e with
  | createMatch id draws =>
    rcases createMatchDrawn_eq h with ⟨-, rfl⟩ | ⟨shortId, hid, hshort, rfl⟩
    · exact ⟨hw, hc⟩
    · exact indexed_createMatch hw hc hid hshort
  | removeMatch id =>
    cases h
    exact indexed_removeMatch hw hc id

theorem names_createMatch {id : String} {draws : List UInt16} {shortId : UInt16} (hw : w.Indexed)
    (hc : w.Created) (hid : w.mMatchesIDs.lookup id = none)
    (hshort : w.mMatches.lookup shortId = none) :
    Names w (.createMatch id draws) (w.createMatch id shortId) := by
  obtain ⟨hids, hshorts, -, hnewId, -, hold⟩ := createMatch_tables shortId hid
  refine ⟨fun a ha => ?_, fun s m => ?_, fun _ m _ hm => ?_⟩
  · rw [hids]
    exact AList.lookup_insert_ne ha
  · rw [hshorts, lookup_insert_eq_some hshort]
    constructor
    · rintro ⟨⟨-, rfl⟩ | hm, hne⟩
      · exact absurd hnewId hne
      · rw [hold m (Nat.ne_of_lt (hc _ m (hw.right s m hm).2))] at hne
        exact ⟨hm, hne⟩
    · rintro ⟨hm, hne⟩
      rw [hold m (Nat.ne_of_lt (hc _ m (hw.right s m hm).2))]
      exact ⟨Or.inr hm, hne⟩
  · exact absurd (hid.symm.trans hm) nofun

theorem names_removeMatch (hw : w.Indexed) (id : String) :
    Names w (.removeMatch id) (w.removeMatch id) := by
  rcases removeMatch_eq w id with ⟨-, heq⟩ | ⟨m, hid, heq⟩
  · rw [heq]
    exact ⟨fun _ _ => rfl, fun _ _ => Iff.rfl, nofun⟩
  · rw [heq]
    refine ⟨fun a ha => AList.lookup_erase_ne ha, fun s m' => ?_, nofun⟩
    dsimp only
    rw [lookup_erase_eq_some]
    refine ⟨fun h => ⟨h.1.2, h.2⟩, fun h => ⟨⟨?_, h.1⟩, h.2⟩⟩
    -- the short id of the removed match belongs to no other match
    rintro rfl
    obtain ⟨hmID, hm⟩ := hw.left id m hid
    obtain rfl : m = m' := Option.some.inj (hm.symm.trans h.1)
    exact h.2 hmID

theorem names_step {e : IndexEvent} (hw : w.Indexed) (hc : w.Created) (h : IndexStep w e w') :
    Names w e w' := by
  cases e with
  | createMatch id draws =>
    rcases createMatchDrawn_eq h with ⟨-, rfl⟩ | ⟨shortId, hid, hshort, rfl⟩
    · exact ⟨fun _ _ => rfl, fun _ _ => Iff.rfl, fun _ _ _ _ => rfl⟩
    · exact names_createMatch hw hc hid hshort
  | removeMatch id =>
    cases h
    exact names_removeMatch hw id

theorem indexed_exec {tr : List (World × IndexEvent)} (h : indexSystem.Exec tr w) :
    w.Indexed ∧ w.Created := by
  refine h.inv (fun w => w.Indexed ∧ w.Created) (fun w hi => ?_)
    fun _ _ _ hw hst => indexed_step hw.1 hw.2 hst
  rw [Indexed, Created, hi.mMatches, hi.mMatchesIDs]
  exact ⟨Inverse.empty _ _, nofun⟩

theorem names_exec {tr : List (World × IndexEvent)} (h : indexSystem.Exec tr w) :
    ∀ x ∈ steps tr w, Names x.1 x.2.1 x.2.2 := by
  induction h with
  | nil hi => exact List.forall_mem_nil _
  | snoc hr hst ih =>
    have hw := indexed_exec hr
    exact (forall_steps_snoc Names _ _ _ _).mpr ⟨ih, names_step hw.1 hw.2 hst⟩

/-- After every sequence of creations and removals the two tables are inverse to each
other and of one size, the two ways to find a match agree, and no call has touched a
match that it did not name. -/
theorem match_indexes_inverse (tr : List (World × IndexEvent)) (w : World)
    (h : indexSystem.Exec tr w) :
    (∀ id m, w.mMatchesIDs.lookup id = some m →
      (w.matchAt m).mID = id ∧ w.mMatches.lookup (w.matchAt m).mShortID = some m) ∧
    (∀ shortId m, w.mMatches.lookup shortId = some m →
      (w.matchAt m).mShortID = shortId ∧ w.mMatchesIDs.lookup (w.matchAt m).mID = some m) ∧
    w.mMatches.keys.length = w.mMatchesIDs.keys.length ∧
    (∀ m, w.getMatchFromID (w.matchAt m).mID = some m ↔
      w.getMatchFromShortID (w.matchAt m).mShortID = some m) ∧
    ∀ x ∈ steps tr w, Names x.1 x.2.1 x.2.2 := by
  have hw := (indexed_exec h).1
  refine ⟨hw.left, hw.right, hw.size_eq.symm, fun m => ⟨fun hm => ?_, fun hm => ?_⟩, names_exec h⟩
  · exact (hw.left _ m hm).2
  · exact (hw.right _ m hm).2

/-- A match is created, created again and removed, another one stays. -/
theorem match_indexes_inverse_run : ∃ tr w, indexSystem.Exec tr w ∧
    w.mMatchesIDs.keys = ["n"] ∧ w.mMatches.keys.length = w.mMatchesIDs.keys.length := by
  have h0 : indexSystem.Exec [] emptyWorld := .nil ⟨rfl, rfl⟩
  have h1 := h0.next (.createMatch "m" [7]) _ rfl
  have h2 := h1.next (.createMatch "n" [7, 9]) _ rfl
  have h3 := h2.next (.createMatch "m" []) _ rfl
  have h4 := h3.next (.removeMatch "m") _ rfl
  exact ⟨_, _, h4, rfl, (match_indexes_inverse _ _ h4).2.2.1⟩

end World

end GameServer
