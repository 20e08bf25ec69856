import GameServer.Server.Refinement

/-! Sessions that are gone and the players of `m_players`. The weak pointer of a
session names the last player that it identified as, and a removal goes through
this pointer, so a session that identifies again while its first player is
registered leaves that player behind. -/

namespace GameServer

open Lib

namespace World

variable {parse : List UInt8 → Option Json} {serialize : Json → List UInt8} {w w' : World}
  {s : SessionRef} {p : PlayerRef} {tr : List (World × Event)}

/-- The session submits a well-formed identity with this UserID. -/
def LogsInAs (parse : List UInt8 → Option Json) (x : World × Event) (s : SessionRef) (id : UserID) :
    Prop :=
  ∃ buffer identity, Identifies x s buffer ∧ Player.identityOf parse buffer = some identity ∧
    identity.userID = id

/-- The session submits an identity while a player that it logged in is registered. -/
def Resubmits (x : World × Event) (s : SessionRef) : Prop :=
  (∃ buffer, Identifies x s buffer) ∧
    ∃ id p, x.1.mPlayers.lookup id = some p ∧ s ∈ (x.1.players p).socketUsers

/-- Removed sessions are nobody's session in `m_players`, so a UserID is free once
all sessions that submitted it are removed. -/
structure RemovedForgotten (parse : List UInt8 → Option Json) (tr : List (World × Event))
    (w : World) : Prop where
  cleared : ∀ s, (∃ x ∈ tr, Removes x s) → ∀ id p, w.mPlayers.lookup id = some p →
    s ∉ (w.players p).socketUsers
  free : ∀ id, (∀ s, (∃ x ∈ tr, LogsInAs parse x s id) → ∃ x ∈ tr, Removes x s) →
    w.hasPlayer id = false

/-- A registered player has one session, its owner. -/
theorem WF.mem_socketUsers (hw : w.WF) (hinv : w.abs.Inv) {id : UserID}
    (hp : w.mPlayers.lookup id = some p) :
    s ∈ (w.players p).socketUsers ↔ w.abs.owner p = some s := by
  obtain ⟨t, ht⟩ := hw.once p (hinv.registered_created p ⟨id, hp⟩)
  show _ ↔ (w.players p).socketUsers.head? = some s
  rw [ht]
  simp [eq_comm]

theorem removes_map {e : Event} :
    Registry.Removes (w.abs, w.absAction parse e) s ↔ Removes (w, e) s :=
  absAction_remove_iff

theorem resubmits_map {e : Event} (hw : w.WF) (hinv : w.abs.Inv) :
    Registry.Resubmits (w.abs, w.absAction parse e) s ↔ Resubmits (w, e) s := by
  refine and_congr ?_ ?_
  · constructor
    · rintro ⟨p, accepted, h⟩
      obtain ⟨buffer, hident, -, -⟩ := absAction_identify_iff.mp h
      exact ⟨buffer, hident⟩
    · rintro ⟨buffer, hident⟩
      exact ⟨_, _, absAction_identify_iff.mpr ⟨buffer, hident, rfl, rfl⟩⟩
  · constructor
    · rintro ⟨p, ⟨id, hp⟩, ho⟩
      exact ⟨id, p, hp, (hw.mem_socketUsers hinv hp).mpr ho⟩
    · rintro ⟨id, p, hp, hs⟩
      exact ⟨p, ⟨id, hp⟩, (hw.mem_socketUsers hinv hp).mp hs⟩

/-- Every registered player was logged in by its session, under its UserID. -/
theorem exec_logsInAs (h : (system parse serialize).Exec tr w) :
    ∀ id p, w.mPlayers.lookup id = some p →
      ∃ s ∈ (w.players p).socketUsers, ∃ x ∈ tr, LogsInAs parse x s id := by
  refine h.trace_inv (fun tr w => ∀ id p, w.mPlayers.lookup id = some p →
    ∃ s ∈ (w.players p).socketUsers, ∃ x ∈ tr, LogsInAs parse x s id) (fun w h0 id p hp => ?_)
    fun tr w e w' hr ih hst id p hp => ?_
  · rw [h0.mPlayers] at hp
    cases hp
  · obtain ⟨hw, habs⟩ := exec_refines hr
    have hinv : w.abs.Inv := Registry.exec_inv habs
    obtain ⟨hw', hstep⟩ := step_refines hw hinv hst
    rcases (Registry.step_registered hinv hstep p).mp ⟨id, hp⟩ with ⟨s, hact⟩ | ⟨⟨id₀, hp₀⟩, -⟩
    · obtain ⟨buffer, hident, rfl, hacc⟩ := absAction_identify_iff.mp hact
      obtain ⟨now, hret⟩ := hident.returns hst
      obtain ⟨x, hx, -, sent, ⟨-, -, hid, rfl⟩ | ⟨hrej, -⟩⟩ := userIdentify_ok hw.held hret
      · have hself := loggingIn_players_self (w := w) (s := s) x
        have hxid : x.getUserID = id := (congrArg Player.getUserID hself).symm.trans (hw'.userID id _ hp)
        refine ⟨s, ?_, (w, e), by simp, buffer, x.mIdentity, hident, hid, hxid⟩
        show s ∈ ((w.loggingIn s x).players w.nextPlayer).socketUsers
        rw [hself, hx]
        exact List.mem_singleton_self s
      · rw [hrej] at hacc
        cases hacc
    · obtain ⟨howner, huserID⟩ :=
        Registry.step_owner_created hstep (hinv.registered_created p ⟨id₀, hp₀⟩)
      have hid : id₀ = id :=
        (hw.userID id₀ p hp₀).symm.trans (huserID.symm.trans (hw'.userID id p hp))
      obtain ⟨s, hs, x, hx, hlog⟩ := ih id₀ p hp₀
      refine ⟨s, ?_, x, by simp [hx], hid ▸ hlog⟩
      apply (hw'.mem_socketUsers (Registry.inv_step hinv hstep) hp).mpr
      rw [howner]
      exact (hw.mem_socketUsers hinv hp₀).mp hs

/-- What is left to say of free UserIDs when removed sessions are nobody's session. -/
theorem removedForgotten_of_cleared (h : (system parse serialize).Exec tr w)
    (hc : ∀ s, (∃ x ∈ tr, Removes x s) → ∀ id p, w.mPlayers.lookup id = some p →
      s ∉ (w.players p).socketUsers) : RemovedForgotten parse tr w := by
  refine ⟨hc, fun id hgone => ?_⟩
  cases hp : w.mPlayers.lookup id with
  | none => simp [hasPlayer, hp]
  | some p =>
    obtain ⟨s, hs, hlog⟩ := exec_logsInAs h id p hp
    exact absurd hs (hc s (hgone s hlog) id p hp)

/-- Removed sessions are forgotten, if and only if no removed session ever submitted an
identity while a player that it had logged in was registered. -/
theorem removedForgotten_iff (parse : List UInt8 → Option Json) (serialize : Json → List UInt8)
    (tr : List (World × Event)) (w : World) (h : (system parse serialize).Exec tr w) :
    RemovedForgotten parse tr w ↔
      ∀ s, (∃ x ∈ tr, Removes x s) → ¬ ∃ x ∈ tr, Resubmits x s := by
  obtain ⟨hw, habs⟩ := exec_refines h
  have hinv : w.abs.Inv := Registry.exec_inv habs
  have hremoves : ∀ s, (∃ x ∈ tr.map fun x => (x.1.abs, x.1.absAction parse x.2),
      Registry.Removes x s) ↔ ∃ x ∈ tr, Removes x s :=
    fun s => exists_abs fun x _ => removes_map
  have hresubmits : ∀ s, (∃ x ∈ tr.map fun x => (x.1.abs, x.1.absAction parse x.2),
      Registry.Resubmits x s) ↔ ∃ x ∈ tr, Resubmits x s := by
    intro s
    refine exists_abs fun x hx => ?_
    obtain ⟨hwx, hinvx⟩ := exec_wf h x hx
    exact resubmits_map hwx hinvx
  have hiff := Registry.cleared_iff habs
  unfold Registry.Cleared at hiff
  simp only [hremoves, hresubmits] at hiff
  rw [← hiff]
  constructor
  · rintro hf s hs p ⟨id, hp⟩ ho
    exact hf.cleared s hs id p hp ((hw.mem_socketUsers hinv hp).mpr ho)
  · intro hc
    refine removedForgotten_of_cleared h fun s hs id p hp hmem => ?_
    exact hc s hs p ⟨id, hp⟩ ((hw.mem_socketUsers hinv hp).mp hmem)

theorem logout_forgotten :
    RemovedForgotten sampleParse (leaveRun loginRun loginWorld) (leftWorld loginWorld) := by
  apply (removedForgotten_iff sampleParse (fun _ => []) _ _
    (leaveRun_exec (loginRun_exec fun _ => []) rfl)).mpr
  rintro s - ⟨x, hx, ⟨buffer, user, data, now, he, -⟩, id, p, hp, -⟩
  simp only [leaveRun, loginRun, List.mem_append, List.mem_cons, List.not_mem_nil, or_false] at hx
  rcases hx with (rfl | rfl | rfl) | (rfl | rfl)
  · cases he
  · cases he
  · cases hp
  · cases he
  · cases he

def reloginWorld : World :=
  after (doProcess sampleParse 0 loginWorld "a" (submitIdentity (identityText "2")))

/-- The session identifies as UserID 1, then as UserID 2, and is removed: UserID 1
stays logged in. -/
theorem relogin_not_forgotten :
    ∃ tr w, (system sampleParse fun _ => []).Exec tr w ∧ (∃ x ∈ tr, Removes x 0) ∧
      w.mPlayers.lookup 1 = some 0 ∧ (w.players 0).socketUsers = [0] ∧
      ¬ RemovedForgotten sampleParse tr w := by
  have h := (loginRun_exec fun _ => []).next
    (.dispatch "a" (submitIdentity (identityText "2")) 0) reloginWorld rfl
  have hremoves : ∃ x ∈ leaveRun (loginRun ++
      [(loginWorld, .dispatch "a" (submitIdentity (identityText "2")) 0)]) reloginWorld,
      Removes x 0 :=
    ⟨(reloginWorld.removePlayer "a", .removeNext), by simp [leaveRun], rfl, "a", [], rfl, rfl⟩
  refine ⟨_, leftWorld reloginWorld, leaveRun_exec h rfl, hremoves, rfl, rfl, fun hf => ?_⟩
  exact hf.cleared 0 hremoves 1 0 rfl (List.mem_singleton_self 0)

end World

end GameServer
