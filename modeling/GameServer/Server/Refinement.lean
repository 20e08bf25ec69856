import GameServer.Server.Identify
import GameServer.Server.RegistryRuns

/-! The server refines the registry: each step of the server is a step of the
registry on what `abs` keeps of the server's state. -/

namespace GameServer

open Lib

namespace World

variable {w w' : World} {s : SessionRef} {p : PlayerRef}

/-! ### Joins -/

theorem abs_send (w : World) (s : SessionRef) (command : OpCodes.Client) (data : List UInt8) :
    (w.send s command data).abs = w.abs := by
  obtain ⟨sent, h⟩ := send_eq w s command data
  rw [h]
  rfl

theorem WF.send (hw : w.WF) (s : SessionRef) (command : OpCodes.Client) (data : List UInt8) :
    (w.send s command data).WF := by
  obtain ⟨sent, h⟩ := send_eq w s command data
  rw [h]
  exact hw.outside w.mQueueUserRemove sent

theorem addMatchPlayer_ok {player : Option PlayerRef} {matchId : String} {r : Bool}
    (h : w.addMatchPlayer player matchId = .ok (r, w')) :
    w' = w ∨ ∃ m c, (w.matchCtx m).joinPlayer m player = .ok (r, c) ∧ w' = w.setMatchCtx m c := by
  unfold addMatchPlayer at h
  split at h
  · cases h
    exact Or.inl rfl
  · next m _ =>
    obtain ⟨⟨r', c⟩, hjoin, h⟩ := Exec.bind_eq_ok.mp h
    cases h
    exact Or.inr ⟨m, c, hjoin, rfl⟩

/-- A handler that returns has sent an answer, after a join of a match maybe. -/
theorem joinMatch_ok {parse : List UInt8 → Option Json} {buffer : List UInt8}
    (h : joinMatch parse w s buffer = .ok w') : ∃ w₁ reply, w' = w₁.send s .joinMatchResult reply ∧
      (w₁ = w ∨ ∃ p m r c, w.lockUser s = some p ∧
        (w.matchCtx m).joinPlayer m (some p) = .ok (r, c) ∧ w₁ = w.setMatchCtx m c) := by
  unfold joinMatch at h
  split at h
  · dsimp only at h
    split at h
    · cases h
      exact ⟨w, _, rfl, Or.inl rfl⟩
    · obtain ⟨identObj, -, h⟩ := Exec.bind_eq_ok.mp h
      obtain ⟨matchId, -, h⟩ := Exec.bind_eq_ok.mp h
      obtain ⟨⟨joinRes, w₁⟩, hadd, h⟩ := Exec.bind_eq_ok.mp h
      cases hlock : w.lockUser s with
      | none =>
        rw [hlock] at h
        cases h
      | some p =>
        rw [hlock] at h hadd
        cases h
        refine ⟨w₁, _, rfl, (addMatchPlayer_ok hadd).imp_right ?_⟩
        rintro ⟨m, c, hjoin, rfl⟩
        exact ⟨p, m, joinRes, c, rfl, hjoin, rfl⟩
  · cases h
    exact ⟨w, _, rfl, Or.inl rfl⟩

theorem WF.joinPlayer (hw : w.WF) {m : MatchRef} {r : Bool} {c : MatchCtx}
    (h : (w.matchCtx m).joinPlayer m (some p) = .ok (r, c)) :
    (w.setMatchCtx m c).WF ∧ ∃ rostered ⊆ insert p w.abs.rostered,
      (w.setMatchCtx m c).abs = { w.abs with rostered := rostered } := by
  have hstay : c = w.matchCtx m → (w.setMatchCtx m c).WF ∧ ∃ rostered ⊆ insert p w.abs.rostered,
      (w.setMatchCtx m c).abs = { w.abs with rostered := rostered } := by
    rintro rfl
    obtain ⟨hwf, habs⟩ := hw.quiet (.refl (w.matchCtx m))
    exact ⟨hwf, w.abs.rostered, Set.subset_insert _ _, habs⟩
  rw [MatchCtx.joinPlayer_some] at h
  split_ifs at h
  · cases h
    exact hstay rfl
  · cases h
    have hid := MatchCtx.joined_field m p (c := w.matchCtx m) Player.getUserID (fun _ _ _ => rfl)
    have hown := MatchCtx.joined_field m p (c := w.matchCtx m) Player.socketUsers (fun _ _ _ => rfl)
    have honline :=
      MatchCtx.joined_field m p (c := w.matchCtx m) Player.mSocketUser (fun _ _ _ => rfl)
    refine ⟨hw.setMatchCtx hid hown, _, ?_, abs_setMatchCtx hid hown honline⟩
    intro q hq
    rcases rostered_setMatchCtx hq with hq | ⟨hm, hq⟩
    · exact Or.inr hq
    · obtain ⟨e, he, rfl⟩ := List.mem_map.mp hq
      rcases OrdMap.mem_insert.mp he with rfl | ⟨he, -⟩
      · exact Or.inl rfl
      · exact Or.inr ⟨m, hm, List.mem_map.mpr ⟨e, he, rfl⟩⟩

/-! ### The refinement -/

/-- The action of the registry that a step of the server is. -/
def absAction (parse : List UInt8 → Option Json) (w : World) : Event → Action SessionRef PlayerRef
  | .connect _ => .connect w.nextSession
  | .reset s => .close s
  | .addNext =>
    match w.mQueueUserAdd with
    | [] => .silent
    | s :: _ => .add s
  | .removeNext =>
    match w.mQueueUserRemove with
    | [] => .silent
    | user :: _ =>
      match w.mSocketUsers.lookup user with
      | none => .silent
      | some s => .remove s
  | .dispatch user data _ =>
    match w.mSocketUsers.lookup user with
    | none => .silent
    | some s =>
      if data.command = OpCodes.Server.submitIdentity.toByte then
        .identify s w.nextPlayer (w.accepts parse data.buffer)
      else if data.command = OpCodes.Server.joinMatch.toByte then
        if (w.lockUser s).isSome then .join s else .silent
      else .silent
  | _ => .silent

/-- What a step is to the registry, from a state and to a state without handlers. -/
def Refines (parse : List UInt8 → Option Json) (w : World) (e : Event) (w' : World) : Prop :=
  w'.WF ∧ Registry.Step w.abs (w.absAction parse e) w'.abs

theorem refines_silent {parse : List UInt8 → Option Json} {e : Event} (hw : w'.WF)
    (habs : w'.abs = w.abs) (he : w.absAction parse e = .silent) : Refines parse w e w' := by
  refine ⟨hw, ?_⟩
  rw [he, habs]
  exact .silent

theorem refines_joinMatch (hw : w.WF) (hs : s ∈ w.abs.live) {parse : List UInt8 → Option Json}
    {buffer : List UInt8} (h : joinMatch parse w s buffer = .ok w') :
    w'.WF ∧ Registry.Step w.abs (if (w.lockUser s).isSome then .join s else .silent) w'.abs := by
  obtain ⟨w₁, reply, rfl, hw₁⟩ := joinMatch_ok h
  rw [abs_send]
  rcases hw₁ with rfl | ⟨p, m, r, c, hlock, hjoin, rfl⟩
  · refine ⟨hw.send s _ reply, ?_⟩
    cases hlock : w₁.lockUser s with
    | none => exact .silent
    | some p =>
      obtain ⟨hu, hp⟩ := hw.lockUser.mp hlock
      exact .join hs hu hp (Set.subset_insert _ _)
  · obtain ⟨hwf, rostered, hr, habs⟩ := hw.joinPlayer hjoin
    refine ⟨hwf.send s _ reply, ?_⟩
    obtain ⟨hu, hp⟩ := hw.lockUser.mp hlock
    rw [hlock, habs]
    exact .join hs hu hp hr

/-- A system command asks for a removal, sends an answer, or does nothing. -/
theorem systemCmd_cases {buffer : List UInt8} (h : w.systemCmd s buffer = .ok w') :
    w' = w ∨ (∃ user, w' = w.removePlayer user) ∨ ∃ command data, w' = w.send s command data := by
  unfold systemCmd at h
  split at h
  · cases h
  · split_ifs at h
    · cases h
      exact Or.inr (Or.inl ⟨_, rfl⟩)
    · cases h
      exact Or.inr (Or.inr ⟨_, _, rfl⟩)
    · cases h
      exact Or.inl rfl
    · cases h
      exact Or.inl rfl

theorem systemCmd_ok {buffer : List UInt8} (hw : w.WF) (h : w.systemCmd s buffer = .ok w') :
    w'.WF ∧ w'.abs = w.abs := by
  rcases systemCmd_cases h with rfl | ⟨user, rfl⟩ | ⟨command, data, rfl⟩
  · exact ⟨hw, rfl⟩
  · exact ⟨hw.outside _ w.sent, rfl⟩
  · exact ⟨hw.send s command data, abs_send w s command data⟩

/-- A dispatch that changes something is the call of one of the handlers. -/
theorem doProcess_cases {parse : List UInt8 → Option Json} {now : UInt64} {user : Token}
    {data : Data} (h : doProcess parse now w user data = .ok w') : w' = w ∨
      ∃ s, w.systemCmd s data.buffer = .ok w' ∨ userIdentify parse now w s data.buffer = .ok w' ∨
        w' = w.routMatchNetCommand s data ∨ joinMatch parse w s data.buffer = .ok w' := by
  unfold doProcess at h
  split at h
  · cases h
    exact Or.inl rfl
  · next s _ =>
    split_ifs at h
    · exact Or.inr ⟨s, Or.inl h⟩
    · exact Or.inr ⟨s, Or.inr (Or.inl h)⟩
    · cases h
      exact Or.inr ⟨s, Or.inr (Or.inr (Or.inl rfl))⟩
    · exact Or.inr ⟨s, Or.inr (Or.inr (Or.inr h))⟩
    · cases h
      exact Or.inl rfl

theorem WF.routMatchNetCommand (hw : w.WF) (s : SessionRef) (data : Data) :
    (w.routMatchNetCommand s data).WF ∧ (w.routMatchNetCommand s data).abs = w.abs := by
  unfold World.routMatchNetCommand
  split
  · split
    · exact ⟨hw, rfl⟩
    · split
      · exact ⟨hw, rfl⟩
      · exact hw.quiet (MatchCtx.quiet_setMatch _ _ rfl rfl)
  · exact ⟨hw, rfl⟩

theorem refines_dispatch (hw : w.WF) (hinv : w.abs.Inv) {parse : List UInt8 → Option Json}
    {now : UInt64} {user : Token} {data : Data} (h : doProcess parse now w user data = .ok w') :
    Refines parse w (.dispatch user data now) w' := by
  unfold doProcess at h
  split at h
  · next hnone =>
    cases h
    exact refines_silent hw rfl (by simp [absAction, hnone])
  · next s hs =>
    have hlive : s ∈ w.abs.live := ⟨user, hs⟩
    split_ifs at h with hsys hident hmatch hjoin
    · obtain ⟨hwf, habs⟩ := systemCmd_ok hw h
      refine refines_silent hwf habs ?_
      simp [absAction, hs, hsys, OpCodes.Server.toByte]
    · have hact : w.absAction parse (.dispatch user data now) =
          .identify s w.nextPlayer (w.accepts parse data.buffer) := by
        simp [absAction, hs, hident]
      rw [Refines, hact]
      exact hw.userIdentify hinv hlive h
    · cases h
      obtain ⟨hwf, habs⟩ := hw.routMatchNetCommand s data
      refine refines_silent hwf habs ?_
      simp [absAction, hs, hmatch, OpCodes.Server.toByte]
    · have hact : w.absAction parse (.dispatch user data now) =
          if (w.lockUser s).isSome then .join s else .silent := by
        simp [absAction, hs, hjoin, OpCodes.Server.toByte]
      rw [Refines, hact]
      exact refines_joinMatch hw hlive h
    · cases h
      exact refines_silent hw rfl (by simp [absAction, hs, hident, hjoin])

theorem refines_removeNext (hw : w.WF) {parse : List UInt8 → Option Json} {user : Token}
    {rest : List Token} (hq : w.mQueueUserRemove = user :: rest) :
    Refines parse w .removeNext ({ w with mQueueUserRemove := rest }.doRemovePlayer user) := by
  have hw₁ : WF { w with mQueueUserRemove := rest } := hw.outside rest w.sent
  cases hs : w.mSocketUsers.lookup user with
  | none =>
    have hstay : { w with mQueueUserRemove := rest }.doRemovePlayer user =
        { w with mQueueUserRemove := rest } := by
      unfold doRemovePlayer
      rw [hs]
    rw [hstay]
    exact refines_silent hw₁ rfl (by simp [absAction, hq, hs])
  | some s =>
    have hact : w.absAction parse .removeNext = .remove s := by simp [absAction, hq, hs]
    refine ⟨hw₁.doRemovePlayer user, ?_⟩
    rw [hact, hw₁.abs_doRemovePlayer hs]
    exact .remove ⟨user, hs⟩

theorem step_refines {parse : List UInt8 → Option Json} {serialize : Json → List UInt8} {e : Event}
    (hw : w.WF) (hinv : w.abs.Inv) (h : Step parse serialize w e w') : Refines parse w e w' := by
  cases e with
  | connect token =>
    cases h
    refine ⟨hw.connect hinv token, ?_⟩
    rw [abs_connect]
    exact .connect (lt_irrefl w.nextSession)
  | removePlayer user =>
    cases h
    exact refines_silent (hw.outside _ w.sent) rfl rfl
  | reset s =>
    obtain ⟨hs, rfl⟩ := h
    refine ⟨hw.close, ?_⟩
    rw [hw.abs_close]
    exact .close hs
  | addNext =>
    obtain ⟨s, rest, hq, h⟩ := h
    have hact : w.absAction parse .addNext = .add s := by simp [absAction, hq]
    rw [Refines, hact]
    exact hw.addNext hinv hq h
  | removeNext =>
    obtain ⟨user, rest, hq, rfl⟩ := h
    exact refines_removeNext hw hq
  | dispatch user data now => exact refines_dispatch hw hinv h
  | createMatch id shortId =>
    obtain ⟨-, rfl⟩ := h
    exact refines_silent (hw.createMatch id shortId) (abs_createMatch id shortId) rfl
  | takeCommands m =>
    obtain ⟨-, -, rfl⟩ := h
    obtain ⟨hwf, habs⟩ := hw.quiet (MatchCtx.quiet_setMatch (w.matchCtx m)
      (fun x => { x with currentCommands := x.mCommandQueue, mCommandQueue := [] }) rfl rfl)
    exact refines_silent hwf habs rfl
  | executeNext m =>
    obtain ⟨-, cmd, rest, c, out, -, h, rfl⟩ := h
    obtain ⟨hp, hm, hfield⟩ := MatchCtx.quiet_command h
    obtain ⟨hwf, habs⟩ := hw.quiet (m := m) (c := c) ⟨hp, hm, hfield⟩
    exact refines_silent hwf habs rfl
  | thread m call =>
    obtain ⟨-, c, h, rfl⟩ := h
    have hquiet : (w.matchCtx m).Quiet c := by
      cases call <;> exact MatchCtx.quiet_step h nofun nofun nofun
    obtain ⟨hwf, habs⟩ := hw.quiet hquiet
    exact refines_silent hwf habs rfl

theorem init_refines (h : w.Init) : w.WF ∧ w.abs.Init := by
  refine ⟨⟨⟨?_, fun t s hs => ?_, fun id p hp => ?_, fun p hp => ?_⟩, h.held⟩, ?_⟩
  · rw [h.mQueueUserAdd]
    exact List.nodup_nil
  · rw [h.mSocketUsers] at hs
    cases hs
  · rw [h.mPlayers] at hp
    cases hp
  · rw [h.nextPlayer] at hp
    cases hp
  · refine ⟨?_, ?_, ?_, ?_, ?_, ?_⟩
    · simp [abs, h.nextSession]
    · simp [abs, h.mQueueUserAdd]
    · simp [abs, h.mSocketUsers]
    · simp [abs, h.nextPlayer]
    · simp [abs, h.mPlayers]
    · simp [abs, h.nextMatch]

/-- Every run of the server is a run of the registry. -/
theorem exec_refines {parse : List UInt8 → Option Json} {serialize : Json → List UInt8}
    {tr : List (World × Event)} (h : (system parse serialize).Exec tr w) :
    w.WF ∧ Registry.system.Exec (tr.map fun x => (x.1.abs, x.1.absAction parse x.2)) w.abs := by
  refine h.refine abs (absAction parse) WF (fun _ => init_refines) fun _ w e w' hr hw hst => ?_
  exact step_refines hw (Registry.exec_inv hr) hst

theorem exec_wf {parse : List UInt8 → Option Json} {serialize : Json → List UInt8}
    {tr : List (World × Event)} (h : (system parse serialize).Exec tr w) :
    ∀ x ∈ tr, x.1.WF ∧ x.1.abs.Inv := by
  refine h.forall_trace (fun w => w.WF ∧ w.abs.Inv) (fun w h0 => ?_) fun w e w' ⟨hw, hinv⟩ hst => ?_
  · obtain ⟨hw, h0⟩ := init_refines h0
    exact ⟨hw, Registry.inv_init h0⟩
  · obtain ⟨hw', hstep⟩ := step_refines hw hinv hst
    exact ⟨hw', Registry.inv_step hinv hstep⟩

/-- The registry's run has a step of some kind when the server's run has. -/
theorem exists_abs {parse : List UInt8 → Option Json} {tr : List (World × Event)}
    {P : Registry SessionRef PlayerRef UserID × Action SessionRef PlayerRef → Prop}
    {Q : World × Event → Prop}
    (h : ∀ x ∈ tr, (P (x.1.abs, x.1.absAction parse x.2) ↔ Q x)) :
    (∃ y ∈ tr.map fun x => (x.1.abs, x.1.absAction parse x.2), P y) ↔ ∃ x ∈ tr, Q x := by
  constructor
  · rintro ⟨y, hy, hp⟩
    obtain ⟨x, hx, rfl⟩ := List.mem_map.mp hy
    exact ⟨x, hx, (h x hx).mp hp⟩
  · rintro ⟨x, hx, hq⟩
    exact ⟨_, List.mem_map.mpr ⟨x, hx, rfl⟩, (h x hx).mpr hq⟩

/-! ### The registry's actions in the server's words -/

/-- `DoRemovePlayer` takes the session out of `m_socket_users`. -/
def Removes (x : World × Event) (s : SessionRef) : Prop :=
  x.2 = .removeNext ∧ ∃ user rest, x.1.mQueueUserRemove = user :: rest ∧
    x.1.mSocketUsers.lookup user = some s

/-- `Submit_Identity` is handled for the session. -/
def Identifies (x : World × Event) (s : SessionRef) (buffer : List UInt8) : Prop :=
  ∃ user data now, x.2 = .dispatch user data now ∧ x.1.mSocketUsers.lookup user = some s ∧
    data.command = OpCodes.Server.submitIdentity.toByte ∧ data.buffer = buffer

theorem absAction_remove_iff {parse : List UInt8 → Option Json} {e : Event} :
    w.absAction parse e = .remove s ↔ Removes (w, e) s := by
  constructor
  · intro h
    unfold absAction at h
    repeat' split at h
    all_goals cases h
    next hq _ hs => exact ⟨rfl, _, _, hq, hs⟩
  · rintro ⟨he, user, rest, hq, hs⟩
    replace he : e = .removeNext := he
    replace hq : w.mQueueUserRemove = user :: rest := hq
    replace hs : w.mSocketUsers.lookup user = some s := hs
    simp [absAction, he, hq, hs]

theorem absAction_close_iff {parse : List UInt8 → Option Json} {e : Event} :
    w.absAction parse e = .close s ↔ e = .reset s := by
  constructor
  · intro h
    unfold absAction at h
    repeat' split at h
    all_goals cases h
    rfl
  · rintro rfl
    rfl

theorem absAction_identify_iff {parse : List UInt8 → Option Json} {e : Event} {accepted : Bool} :
    w.absAction parse e = .identify s p accepted ↔ ∃ buffer, Identifies (w, e) s buffer ∧
      p = w.nextPlayer ∧ accepted = w.accepts parse buffer := by
  constructor
  · intro h
    unfold absAction at h
    repeat' split at h
    all_goals cases h
    next hcmd hs => exact ⟨_, ⟨_, _, _, rfl, hs, hcmd, rfl⟩, rfl, rfl⟩
  · rintro ⟨buffer, ⟨user, data, now, he, hs, hcmd, rfl⟩, rfl, rfl⟩
    replace he : e = .dispatch user data now := he
    replace hs : w.mSocketUsers.lookup user = some s := hs
    simp [absAction, he, hs, hcmd]

theorem Identifies.returns {parse : List UInt8 → Option Json} {serialize : Json → List UInt8}
    {e : Event} {buffer : List UInt8} (hi : Identifies (w, e) s buffer)
    (h : Step parse serialize w e w') : ∃ now, userIdentify parse now w s buffer = .ok w' := by
  obtain ⟨user, data, now, he, hs, hcmd, rfl⟩ := hi
  replace he : e = .dispatch user data now := he
  replace hs : w.mSocketUsers.lookup user = some s := hs
  subst he
  refine ⟨now, ?_⟩
  replace h : doProcess parse now w user data = .ok w' := h
  unfold doProcess at h
  rw [hs] at h
  simpa [hcmd, OpCodes.Server.toByte] using h

end World

end GameServer
