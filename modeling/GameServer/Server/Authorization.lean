import GameServer.Server.EventSessions

/-! Who takes part in matches when the authenticator gives any verdicts. The flag of a
session is never cleared and its player may be replaced, but a player that was turned
away expires with the handler, so whoever is found alive was authorised for its own
session. -/

namespace GameServer

open Lib

namespace Registry

variable {σ π υ : Type*} [DecidableEq σ] [DecidableEq π] {a a' : Registry σ π υ}
  {act : Action σ π} {s : σ} {p : π}

/-- An identity that is accepted authenticates its session and registers its player. -/
theorem step_accept (ha : a.Inv) (h : Step a (.identify s p true) a') :
    s ∈ a'.opened ∧ s ∈ a'.authenticated ∧ a'.owner p = some s ∧ p ∈ a'.registered := by
  cases h with
  | @accept _ _ u hs _ _ =>
    exact ⟨ha.live_opened s hs, Or.inl rfl, create_owner_self a s p u, Or.inl rfl⟩

/-- Whoever is alive after a step was alive before, or its identity was accepted. -/
theorem step_alive_cases (ha : a.Inv) (h : Step a act a') (hp : a'.Alive p) :
    (∃ s, act = .identify s p true) ∨ a.Alive p := by
  rcases hp with hp | hp
  · exact ((step_registered ha h p).mp hp).imp_right fun hp => Or.inl hp.1
  · cases h with
    | join _ _ hq hr =>
      rcases hr hp with rfl | hp
      · exact Or.inr hq
      · exact Or.inr (Or.inr hp)
    | _ => exact Or.inr (Or.inr hp)

/-- Only a new session is not authenticated. -/
theorem step_authenticated (h : Step a act a') (hs : s ∈ a.opened) (hauth : s ∈ a.authenticated) :
    s ∈ a'.authenticated := by
  cases h with
  | connect ht => exact ⟨hauth, fun heq => ht (heq ▸ hs)⟩
  | accept _ _ _ => exact Or.inr hauth
  | _ => exact hauth

end Registry

namespace World

variable {parse : List UInt8 → Option Json} {serialize : Json → List UInt8} {w w' : World}
  {s : SessionRef} {p : PlayerRef}

/-! ### Any verdicts -/

/-- `DoProcess` with an authenticator that gives the verdict `authorized`. -/
def doProcessWith (authorized : Bool) (parse : List UInt8 → Option Json) (now : UInt64) (w : World)
    (user : Token) (data : Data) : Exec World :=
  match w.mSocketUsers.lookup user with
  | none => .ok w
  | some s =>
    if data.command = OpCodes.Server.submitIdentity.toByte then
      userIdentifyWith authorized parse now w s data.buffer
    else doProcess parse now w user data

/-- The verdict is the one for the identity that the step handles, if it handles one. -/
def VerdictStep (parse : List UInt8 → Option Json) (serialize : Json → List UInt8) (w : World)
    (e : Event × Bool) (w' : World) : Prop :=
  match e.1 with
  | .dispatch user data now => doProcessWith e.2 parse now w user data = .ok w'
  | e => Step parse serialize w e w'

def verdictSystem (parse : List UInt8 → Option Json) (serialize : Json → List UInt8) :
    System World (Event × Bool) := ⟨Init, VerdictStep parse serialize⟩

theorem doProcessWith_true (now : UInt64) (user : Token) (data : Data) :
    doProcessWith true parse now w user data = doProcess parse now w user data := by
  unfold doProcessWith
  cases hs : w.mSocketUsers.lookup user with
  | none =>
    unfold doProcess
    rw [hs]
  | some s =>
    dsimp only
    split_ifs with hcmd
    · rw [userIdentifyWith_true]
      unfold doProcess
      rw [hs, hcmd]
      rfl
    · rfl

/-- The server is the one whose verdicts are all positive. -/
theorem exec_verdict {tr : List (World × Event)} (h : (system parse serialize).Exec tr w) :
    (verdictSystem parse serialize).Exec (tr.map fun x => (x.1, x.2, true)) w := by
  refine (h.refine (T := verdictSystem parse serialize) id (fun _ e => (e, true)) (fun _ => True)
    (fun _ hi => ⟨trivial, hi⟩) fun tr w e w' _ _ hst => ⟨trivial, ?_⟩).2
  cases e with
  | dispatch user data now => exact (doProcessWith_true now user data).trans hst
  | _ => exact hst

/-- The action of the registry that a step is. -/
def verdictAction (parse : List UInt8 → Option Json) (w : World) (e : Event × Bool) :
    Action SessionRef PlayerRef :=
  match w.absAction parse e.1 with
  | .identify s p accepted => .identify s p (e.2 && accepted)
  | a => a

theorem verdictAction_identify_iff {e : Event × Bool} {accepted : Bool} :
    w.verdictAction parse e = .identify s p accepted ↔ ∃ buffer, Identifies (w, e.1) s buffer ∧
      p = w.nextPlayer ∧ accepted = (e.2 && w.accepts parse buffer) := by
  unfold verdictAction
  constructor
  · intro h
    split at h
    · next hact =>
      cases h
      obtain ⟨buffer, hident, hp, hacc⟩ := absAction_identify_iff.mp hact
      exact ⟨buffer, hident, hp, by rw [hacc]⟩
    · next a hno => exact absurd h (hno s p accepted)
  · rintro ⟨buffer, hident, hp, hacc⟩
    rw [absAction_identify_iff.mpr ⟨buffer, hident, hp, rfl⟩, hacc]

/-- An action that is no identity does not depend on the verdict. -/
theorem verdictAction_eq {e : Event × Bool} (h : ∀ s buffer, ¬ Identifies (w, e.1) s buffer) :
    w.verdictAction parse e = w.absAction parse e.1 := by
  unfold verdictAction
  split
  · next s p accepted hact =>
    obtain ⟨buffer, hident, -⟩ := absAction_identify_iff.mp hact
    exact absurd hident (h s buffer)
  · rfl

/-- A step that handles no identity is a step of the server. -/
theorem VerdictStep.step {e : Event × Bool} (h : VerdictStep parse serialize w e w')
    (hident : ∀ s buffer, ¬ Identifies (w, e.1) s buffer) : Step parse serialize w e.1 w' := by
  obtain ⟨e, authorized⟩ := e
  cases e with
  | dispatch user data now =>
    change doProcessWith authorized parse now w user data = .ok w' at h
    change doProcess parse now w user data = .ok w'
    rw [← doProcessWith_true]
    unfold doProcessWith at h ⊢
    cases hs : w.mSocketUsers.lookup user with
    | none =>
      rw [hs] at h
      exact h
    | some s =>
      rw [hs] at h
      dsimp only at h ⊢
      split_ifs at h ⊢ with hcmd
      · exact absurd ⟨user, data, now, rfl, hs, hcmd, rfl⟩ (hident s data.buffer)
      · exact h
  | _ => exact h

theorem VerdictStep.identify {e : Event × Bool} {buffer : List UInt8}
    (h : VerdictStep parse serialize w e w') (hident : Identifies (w, e.1) s buffer) :
    s ∈ w.abs.live ∧ ∃ now, userIdentifyWith e.2 parse now w s buffer = .ok w' := by
  obtain ⟨e, authorized⟩ := e
  obtain ⟨user, data, now, rfl, hs, hcmd, rfl⟩ := hident
  change doProcessWith authorized parse now w user data = .ok w' at h
  unfold doProcessWith at h
  rw [hs] at h
  dsimp only at h
  rw [if_pos hcmd] at h
  exact ⟨⟨user, hs⟩, now, h⟩

theorem verdictStep_refines {e : Event × Bool} (hw : w.WF) (hinv : w.abs.Inv)
    (h : VerdictStep parse serialize w e w') :
    w'.WF ∧ Registry.Step w.abs (w.verdictAction parse e) w'.abs := by
  by_cases hident : ∃ s buffer, Identifies (w, e.1) s buffer
  · obtain ⟨s, buffer, hident⟩ := hident
    obtain ⟨hs, now, hret⟩ := h.identify hident
    rw [verdictAction_identify_iff.mpr ⟨buffer, hident, rfl, rfl⟩]
    exact hw.userIdentifyWith hinv hs hret
  · simp only [not_exists] at hident
    rw [verdictAction_eq hident]
    exact step_refines hw hinv (h.step hident)

theorem verdict_wf {tr : List (World × (Event × Bool))}
    (h : (verdictSystem parse serialize).Exec tr w) : w.WF ∧ w.abs.Inv := by
  refine h.inv (fun w => w.WF ∧ w.abs.Inv) (fun w hi => ?_) fun w e w' ⟨hw, hinv⟩ hst => ?_
  · obtain ⟨hw, hi⟩ := init_refines hi
    exact ⟨hw, Registry.inv_init hi⟩
  · obtain ⟨hw', hstep⟩ := verdictStep_refines hw hinv hst
    exact ⟨hw', Registry.inv_step hinv hstep⟩

/-! ### Where the players come from -/

/-- In this step `Submit_Identity` of the session created the player and
`PlayerAuthenticated` inserted it into `m_players`, `authorized` being true. -/
def Authorises (x : World × (Event × Bool) × World) (s : SessionRef) (p : PlayerRef) : Prop :=
  x.2.1.2 = true ∧ (∃ buffer, Identifies (x.1, x.2.1.1) s buffer) ∧ p = x.1.nextPlayer ∧
    ∃ id, x.2.2.mPlayers.lookup id = some p

/-- The player was authorised for the session, which is authenticated. -/
structure Enlisted (tr : List (World × (Event × Bool))) (w : World) (p : PlayerRef) (s : SessionRef) :
    Prop where
  created : p ∈ w.abs.created
  opened : s ∈ w.abs.opened
  owner : w.abs.owner p = some s
  authenticated : s ∈ w.abs.authenticated
  authorised : ∃ x ∈ steps tr w, Authorises x s p

theorem enlisted_new {tr : List (World × (Event × Bool))} {e : Event × Bool} (hw : w.WF)
    (hinv : w.abs.Inv) (h : VerdictStep parse serialize w e w')
    (hact : w.verdictAction parse e = .identify s p true) : Enlisted (tr ++ [(w, e)]) w' p s := by
  obtain ⟨-, hstep⟩ := verdictStep_refines hw hinv h
  rw [hact] at hstep
  obtain ⟨hopened, hauth, howner, hreg⟩ := Registry.step_accept hinv hstep
  obtain ⟨buffer, hident, hp, hacc⟩ := verdictAction_identify_iff.mp hact
  refine ⟨(Registry.inv_step hinv hstep).registered_created p hreg, hopened, howner, hauth,
    (w, e, w'), ?_, (Bool.and_eq_true_iff.mp hacc.symm).1, ⟨buffer, hident⟩, hp, hreg⟩
  rw [steps_snoc]
  exact List.mem_append_right _ (List.mem_singleton.mpr rfl)

theorem Enlisted.next {tr : List (World × (Event × Bool))} {e : Event × Bool} (hp : Enlisted tr w p s)
    (hw : w.WF) (hinv : w.abs.Inv) (h : VerdictStep parse serialize w e w') :
    Enlisted (tr ++ [(w, e)]) w' p s := by
  obtain ⟨-, hstep⟩ := verdictStep_refines hw hinv h
  obtain ⟨x, hx, hauth⟩ := hp.authorised
  refine ⟨Registry.step_created hstep hp.created, Registry.step_opened hstep hp.opened, ?_,
    Registry.step_authenticated hstep hp.opened hp.authenticated, x, ?_, hauth⟩
  · rw [(Registry.step_owner_created hstep hp.created).1]
    exact hp.owner
  · rw [steps_snoc]
    exact List.mem_append_left _ hx

/-- Whoever is alive was authorised for its own session. -/
theorem alive_enlisted {tr : List (World × (Event × Bool))}
    (h : (verdictSystem parse serialize).Exec tr w) : ∀ p, w.abs.Alive p → ∃ s, Enlisted tr w p s := by
  refine h.trace_inv (fun tr w => ∀ p, w.abs.Alive p → ∃ s, Enlisted tr w p s) (fun w hi p hp => ?_)
    fun tr w e w' hr ih hst p hp => ?_
  · obtain ⟨-, hi⟩ := init_refines hi
    rw [Registry.Alive, hi.registered, hi.rostered] at hp
    exact (hp.elim id id).elim
  · obtain ⟨hw, hinv⟩ := verdict_wf hr
    obtain ⟨-, hstep⟩ := verdictStep_refines hw hinv hst
    rcases Registry.step_alive_cases hinv hstep hp with ⟨s, hact⟩ | hp
    · exact ⟨s, enlisted_new hw hinv hst hact⟩
    · obtain ⟨s, hs⟩ := ih p hp
      exact ⟨s, hs.next hw hinv hst⟩

/-! ### Matches -/

/-- `RoutMatchNetCommand` calls `SubmitMatchCommand` of the match for this player. -/
def Submits (w : World) (s : SessionRef) (p : PlayerRef) (m : MatchRef) : Prop :=
  (w.sessions s).isAuthenticated = true ∧ w.lockUser s = some p ∧
    (w.players p).mActiveMatch = some m

theorem routMatchNetCommand_cases (w : World) (s : SessionRef) (data : Data) :
    (∃ p m, w.Submits s p m ∧ w.routMatchNetCommand s data =
      w.setMatchCtx m ((w.matchCtx m).submitMatchCommand p data)) ∨
    (∀ p m, ¬ w.Submits s p m) ∧ w.routMatchNetCommand s data = w := by
  unfold routMatchNetCommand Submits
  split_ifs with hauth
  · split
    · next hlock => exact Or.inr ⟨fun p m h => (by rw [hlock] at h; cases h.2.1), rfl⟩
    · next p hlock =>
      split
      · next hactive =>
        refine Or.inr ⟨fun q m h => ?_, rfl⟩
        obtain rfl := Option.some.inj (hlock.symm.trans h.2.1)
        rw [hactive] at h
        cases h.2.2
      · next m hactive => exact Or.inl ⟨p, m, ⟨hauth, hlock, hactive⟩, rfl⟩
  · exact Or.inr ⟨fun p m h => hauth h.1, rfl⟩

/-- Whatever the verdicts were: whoever is in a match was inserted into `m_players` by
`PlayerAuthenticated` with a positive verdict, and `SubmitMatchCommand` is called for
such players only, by the session whose `Submit_Identity` created the player. -/
theorem match_players_authorised (parse : List UInt8 → Option Json) (serialize : Json → List UInt8)
    (tr : List (World × (Event × Bool))) (w : World)
    (h : (verdictSystem parse serialize).Exec tr w) :
    (∀ m < w.nextMatch, ∀ p ∈ (w.matchAt m).mPlayers.values,
      ∃ s, ∃ x ∈ steps tr w, Authorises x s p) ∧
    ∀ user s, w.mSocketUsers.lookup user = some s → ∀ p m, w.Submits s p m →
      ∃ x ∈ steps tr w, Authorises x s p := by
  obtain ⟨hw, hinv⟩ := verdict_wf h
  constructor
  · intro m hm p hp
    obtain ⟨s, hs⟩ := alive_enlisted h p (Or.inr ⟨m, hm, hp⟩)
    exact ⟨s, hs.authorised⟩
  · rintro user s hlive p m ⟨-, hlock, -⟩
    obtain ⟨huser, halive⟩ := hw.lockUser.mp hlock
    obtain ⟨t, ht⟩ := alive_enlisted h p halive
    -- the session that the player was created for is the one that refers to it
    have howner := (hinv.user_owner s (hinv.live_opened s ⟨user, hlive⟩) p huser).2
    obtain rfl : t = s := Option.some.inj (ht.owner.symm.trans howner)
    exact ht.authorised

/-- The player of the session "a" is in the match and sends a command. -/
theorem match_players_authorised_join : ∃ tr w,
    (verdictSystem sampleParse fun _ => []).Exec tr w ∧ 0 ∈ (w.matchAt 0).mPlayers.values ∧
      w.Submits 0 0 0 ∧ ∃ x ∈ steps tr w, Authorises x 0 0 := by
  have h := exec_verdict jumpRun_exec
  refine ⟨_, takenWorld, h, by decide, ⟨rfl, rfl, rfl⟩, ?_⟩
  exact (match_players_authorised _ _ _ _ h).2 "a" 0 rfl 0 0 ⟨rfl, rfl, rfl⟩

end World

end GameServer
