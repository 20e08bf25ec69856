import GameServer.Server.Registry

/-! Runs of the registry: which removals leave a player registered, when an
authenticated session has its player, and when a player loses its session. -/

namespace GameServer

open Lib

universe u v w

namespace Registry

variable {σ : Type u} {π : Type v} {υ : Type w}

/-! ### What the steps of a run did -/

/-- The step removes the session. -/
def Removes (x : Registry σ π υ × Action σ π) (s : σ) : Prop := x.2 = .remove s

/-- The step handles an identity of the session while a player that the session
logged in is registered. -/
def Resubmits (x : Registry σ π υ × Action σ π) (s : σ) : Prop :=
  (∃ p accepted, x.2 = .identify s p accepted) ∧ ∃ q ∈ x.1.registered, x.1.owner q = some s

/-- The step closes a connected session of the player. -/
def Cuts (x : Registry σ π υ × Action σ π) (p : π) : Prop :=
  ∃ s, (x.2 = .close s ∨ x.2 = .remove s) ∧ s ∈ x.1.connected ∧ x.1.user s = some p

theorem exists_snoc {x : Registry σ π υ × Action σ π} {tr : List (Registry σ π υ × Action σ π)}
    {P : Registry σ π υ × Action σ π → Prop} :
    (∃ y ∈ tr ++ [x], P y) ↔ (∃ y ∈ tr, P y) ∨ P x := by
  simp only [List.mem_append, List.mem_singleton, or_and_right, exists_or, exists_eq_left]

variable [DecidableEq σ] [DecidableEq π] {a a' : Registry σ π υ}
  {tr : List (Registry σ π υ × Action σ π)}

/-! ### One step, field by field -/

theorem step_opened {act : Action σ π} (h : Step a act a') {s : σ} (hs : s ∈ a.opened) :
    s ∈ a'.opened := by
  cases h with
  | connect _ => exact Or.inr hs
  | _ => exact hs

/-- Only new sessions are queued. -/
theorem step_queued {act : Action σ π} (h : Step a act a') {s : σ} (hs : s ∈ a'.queued) :
    s ∈ a.queued ∨ s ∉ a.opened := by
  cases h with
  | connect ht =>
    rcases hs with rfl | hs
    · exact Or.inr ht
    · exact Or.inl hs
  | add _ _ => exact Or.inl hs.1
  | _ => exact Or.inl hs

/-- Sessions become live from the queue, and leave by their removal. -/
theorem step_live {act : Action σ π} (h : Step a act a') {s : σ} (hs : s ∈ a'.live) :
    (s ∈ a.live ∨ s ∈ a.queued) ∧ act ≠ .remove s := by
  cases h with
  | add ht hadd => exact ⟨hs.imp_right fun hs => by rwa [hadd hs], nofun⟩
  | remove _ =>
    refine ⟨Or.inl hs.1, fun heq => hs.2 ?_⟩
    cases heq
    rfl
  | _ => exact ⟨Or.inl hs, nofun⟩

/-- Only identities redirect the weak pointer of a session. -/
theorem step_user {act : Action σ π} (h : Step a act a') {s : σ} (hs : s ∈ a.opened) :
    a'.user s = a.user s ∨ ∃ p accepted, act = .identify s p accepted := by
  cases h with
  | connect ht => exact Or.inl (connect_user_of_ne fun heq => ht (heq ▸ hs))
  | @accept t p u _ _ _ =>
    by_cases hst : s = t
    · exact Or.inr ⟨p, true, by rw [hst]⟩
    · exact Or.inl (create_user_of_ne a p u hst)
  | @reject t p u _ _ _ _ =>
    by_cases hst : s = t
    · exact Or.inr ⟨p, false, by rw [hst]⟩
    · exact Or.inl (create_user_of_ne a p u hst)
  | _ => exact Or.inl rfl

theorem step_identify {s : σ} {p : π} {accepted : Bool}
    (h : Step a (.identify s p accepted) a') :
    s ∈ a.live ∧ p ∉ a.created ∧ a'.user s = some p ∧ a'.owner p = some s := by
  cases h with
  | @accept _ _ u hs hp _ =>
    exact ⟨hs, hp, create_user_self a s p u, create_owner_self a s p u⟩
  | @reject _ _ u _ hs hp _ =>
    exact ⟨hs, hp, create_user_self a s p u, create_owner_self a s p u⟩

/-- A player that was there before keeps its owner and its UserID. -/
theorem step_owner_created {act : Action σ π} (h : Step a act a') {q : π} (hq : q ∈ a.created) :
    a'.owner q = a.owner q ∧ a'.userID q = a.userID q := by
  cases h with
  | accept _ hp _ => exact create_old _ _ hp hq
  | reject _ hp _ => exact create_old _ _ hp hq
  | _ => exact ⟨rfl, rfl⟩

/-- A step registers the player of an accepted identity and nobody else, and it
unregisters the player of a removed session and nobody else. -/
theorem step_registered {act : Action σ π} (ha : a.Inv) (h : Step a act a') (q : π) :
    q ∈ a'.registered ↔
      (∃ s, act = .identify s q true) ∨
        q ∈ a.registered ∧ ∀ s, act = .remove s → a.user s ≠ some q := by
  cases h with
  | remove ht =>
    have hforget := ha.mem_forget ht (p := q)
    simpa [close] using hforget
  | accept _ _ _ => simp [Set.mem_insert_iff, eq_comm]
  | connect _ => simp [connect]
  | close _ => simp [close]
  | reject _ _ _ => simp [create]
  | _ => simp

/-! ### Removed sessions and registered players -/

/-- Sessions that are gone have left no player registered. -/
def Cleared (tr : List (Registry σ π υ × Action σ π)) (a : Registry σ π υ) : Prop :=
  ∀ s, (∃ x ∈ tr, Removes x s) → ∀ p ∈ a.registered, a.owner p ≠ some s

/-- What a run has done to its removed and its resubmitting sessions. -/
structure Logins (tr : List (Registry σ π υ × Action σ π)) (a : Registry σ π υ) : Prop where
  removed : ∀ s, (∃ x ∈ tr, Removes x s) → s ∈ a.opened ∧ s ∉ a.live ∧ s ∉ a.queued ∧
    ∀ p, a.user s = some p → p ∉ a.registered
  kept : ∀ p ∈ a.registered, ∀ s, a.owner p = some s →
    a.user s = some p ∨ ∃ x ∈ tr, Resubmits x s
  lost : ∀ s, (∃ x ∈ tr, Resubmits x s) → s ∈ a.opened ∧
    ∃ p ∈ a.registered, a.owner p = some s ∧ a.user s ≠ some p

theorem removed_step {act : Action σ π} (ha : a.Inv) (hl : Logins tr a) (h : Step a act a')
    (s : σ) (hr : ∃ x ∈ tr ++ [(a, act)], Removes x s) : s ∈ a'.opened ∧ s ∉ a'.live ∧
      s ∉ a'.queued ∧ ∀ p, a'.user s = some p → p ∉ a'.registered := by
  have hopened : s ∈ a.opened ∧ s ∉ a.queued ∧ (s ∉ a.live ∨ act = .remove s) := by
    rcases exists_snoc.mp hr with hr | hr
    · obtain ⟨ho, hlive, hq, -⟩ := hl.removed s hr
      exact ⟨ho, hq, Or.inl hlive⟩
    · cases hr
      cases h with
      | remove hs =>
        exact ⟨ha.live_opened s hs, fun hq => (ha.queued_new s hq).2.1 hs, Or.inr rfl⟩
  obtain ⟨ho, hq, hlive⟩ := hopened
  have hlive' : s ∉ a'.live := by
    intro hs
    obtain ⟨hs, hne⟩ := step_live h hs
    rcases hlive with hlive | hlive
    · exact hs.elim hlive hq
    · exact hne hlive
  refine ⟨step_opened h ho, hlive', fun hs => ?_, fun p hu hp => ?_⟩
  · exact (step_queued h hs).elim hq fun hs => hs ho
  · -- the session cannot identify any more, so its pointer is the old one
    have hu' : a.user s = some p := by
      rcases step_user h ho with heq | ⟨q, accepted, rfl⟩
      · rw [← heq, hu]
      · exact absurd (step_identify h).1 (hlive.resolve_right nofun)
    rcases (step_registered ha h p).mp hp with ⟨t, rfl⟩ | ⟨hp, hnot⟩
    · exact (step_identify h).2.1 (ha.user_owner s ho p hu').1
    · rcases exists_snoc.mp hr with hr | hr
      · exact (hl.removed s hr).2.2.2 p hu' hp
      · exact hnot s hr hu'

theorem kept_step {act : Action σ π} (ha : a.Inv) (hl : Logins tr a) (h : Step a act a')
    (p : π) (hp : p ∈ a'.registered) (s : σ) (ho : a'.owner p = some s) :
    a'.user s = some p ∨ ∃ x ∈ tr ++ [(a, act)], Resubmits x s := by
  rcases (step_registered ha h p).mp hp with ⟨t, rfl⟩ | ⟨hp, -⟩
  · obtain ⟨-, -, hu, ho'⟩ := step_identify h
    rw [ho] at ho'
    cases ho'
    exact Or.inl hu
  · rw [(step_owner_created h (ha.registered_created p hp)).1] at ho
    rcases hl.kept p hp s ho with hu | hr
    · rcases step_user h (ha.owner_opened hp ho) with heq | hact
      · exact Or.inl (heq.trans hu)
      · exact Or.inr (exists_snoc.mpr (Or.inr ⟨hact, p, hp, ho⟩))
    · exact Or.inr (exists_snoc.mpr (Or.inl hr))

/-- A registered player that its session has lost, or loses now, stays registered. -/
theorem lost_stays {act : Action σ π} {s : σ} {p : π} (ha : a.Inv) (h : Step a act a')
    (hp : p ∈ a.registered) (ho : a.owner p = some s)
    (hu : a.user s ≠ some p ∨ ∃ q accepted, act = .identify s q accepted) :
    a'.owner p = some s ∧ p ∈ a'.registered ∧ a'.user s ≠ some p := by
  have hcreated := ha.registered_created p hp
  refine ⟨?_, ?_, ?_⟩
  · rw [(step_owner_created h hcreated).1, ho]
  · refine (step_registered ha h p).mpr (Or.inr ⟨hp, ?_⟩)
    rintro t rfl htu
    -- a removal through the pointer of `t` needs `t` to be the owner
    cases h with
    | remove ht =>
      have hto := (ha.user_owner t (ha.live_opened t ht) p htu).2
      rw [ho] at hto
      cases hto
      rcases hu with hu | ⟨q, accepted, heq⟩
      · exact hu htu
      · cases heq
  · by_cases hact : ∃ q accepted, act = .identify s q accepted
    · obtain ⟨q, accepted, rfl⟩ := hact
      obtain ⟨-, hfresh, huser, -⟩ := step_identify h
      rw [huser]
      intro hqp
      cases hqp
      exact hfresh hcreated
    · rw [(step_user h (ha.owner_opened hp ho)).resolve_right hact]
      exact hu.resolve_right hact

theorem lost_step {act : Action σ π} (ha : a.Inv) (hl : Logins tr a) (h : Step a act a')
    (s : σ) (hr : ∃ x ∈ tr ++ [(a, act)], Resubmits x s) :
    s ∈ a'.opened ∧ ∃ p ∈ a'.registered, a'.owner p = some s ∧ a'.user s ≠ some p := by
  rcases exists_snoc.mp hr with hr | ⟨hact, p, hp, ho⟩
  · obtain ⟨hs, p, hp, ho, hu⟩ := hl.lost s hr
    obtain ⟨ho', hp', hu'⟩ := lost_stays ha h hp ho (Or.inl hu)
    exact ⟨step_opened h hs, p, hp', ho', hu'⟩
  · obtain ⟨ho', hp', hu'⟩ := lost_stays ha h hp ho (Or.inr hact)
    exact ⟨step_opened h (ha.owner_opened hp ho), p, hp', ho', hu'⟩

theorem exec_logins (h : system.Exec tr a) : Logins tr a := by
  refine h.trace_inv Logins (fun a h0 => ?_) fun tr a act a' hr hl hst => ?_
  · refine ⟨nofun, fun p hp => ?_, nofun⟩
    rw [h0.registered] at hp
    cases hp
  · have ha : a.Inv := exec_inv hr
    exact ⟨removed_step ha hl hst, kept_step ha hl hst, lost_step ha hl hst⟩

/-- No player of a removed session is registered, if and only if no removed session
ever submitted an identity while a player that it had logged in was registered. -/
theorem cleared_iff (h : system.Exec tr a) :
    Cleared tr a ↔ ∀ s, (∃ x ∈ tr, Removes x s) → ¬ ∃ x ∈ tr, Resubmits x s := by
  have hl := exec_logins h
  refine ⟨fun hc s hr hs => ?_, fun hno s hr p hp ho => ?_⟩
  · obtain ⟨-, p, hp, ho, -⟩ := hl.lost s hs
    exact hc s hr p hp ho
  · rcases hl.kept p hp s ho with hu | hs
    · exact (hl.removed s hr).2.2.2 p hu hp
    · exact hno s hr hs

/-! ### Authenticated sessions -/

/-- Every live authenticated session has its player. -/
def Attended (a : Registry σ π υ) : Prop :=
  ∀ s ∈ a.live, s ∈ a.authenticated → ∃ p, a.user s = some p ∧ a.Alive p

/-- An identity of an authenticated session is accepted. -/
def AcceptedAgain (a : Registry σ π υ) (act : Action σ π) : Prop :=
  ∀ s p, act = .identify s p false → s ∉ a.authenticated

/-- The step invariant for `Attended`: such a player is registered. -/
structure Seated (a : Registry σ π υ) : Prop where
  inv : a.Inv
  registered : ∀ s ∈ a.live, s ∈ a.authenticated → ∃ p ∈ a.registered, a.user s = some p

theorem seated_step {act : Action σ π} (ha : Seated a) (hc : AcceptedAgain a act)
    (h : Step a act a') : Seated a' := by
  have hinv := ha.inv
  refine ⟨inv_step hinv h, ?_⟩
  cases h with
  | connect ht =>
    intro s hs hauth
    obtain ⟨p, hp, hu⟩ := ha.registered s hs hauth.1
    exact ⟨p, hp, (connect_user_of_ne hauth.2).trans hu⟩
  | add ht hadd =>
    rintro s (hs | hs) hauth
    · exact ha.registered s hs hauth
    · rw [hadd hs] at hauth
      exact absurd hauth (hinv.queued_new _ ht).2.2
  | @remove t ht =>
    intro s hs hauth
    obtain ⟨p, hp, hu⟩ := ha.registered s hs.1 hauth
    refine ⟨p, (hinv.mem_forget ht).mpr ⟨hp, fun htu => hs.2 ?_⟩, hu⟩
    -- a player has one owner
    have howner := (hinv.user_owner s (hinv.live_opened s hs.1) p hu).2
    rw [(hinv.user_owner t (hinv.live_opened t ht) p htu).2] at howner
    exact (Option.some.inj howner).symm
  | @accept t p u _ _ _ =>
    intro s hs hauth
    by_cases hst : s = t
    · rw [hst]
      exact ⟨p, Or.inl rfl, create_user_self a t p u⟩
    · obtain ⟨q, hq, hu⟩ := ha.registered s hs (hauth.resolve_left hst)
      exact ⟨q, Or.inr hq, (create_user_of_ne a p u hst).trans hu⟩
  | @reject t p u _ _ _ _ =>
    intro s hs hauth
    have hst : s ≠ t := fun heq => hc t p rfl (heq ▸ hauth)
    obtain ⟨q, hq, hu⟩ := ha.registered s hs hauth
    exact ⟨q, hq, (create_user_of_ne a p u hst).trans hu⟩
  | _ => exact ha.registered

theorem not_attended_step {act : Action σ π} (ha : Seated a) (hc : ¬ AcceptedAgain a act)
    (h : Step a act a') : ¬ Attended a' := by
  simp only [AcceptedAgain, not_forall, not_not] at hc
  obtain ⟨s, p, rfl, hauth⟩ := hc
  intro hatt
  cases h with
  | @reject _ _ u _ hs hp _ =>
    -- the rejected player is neither registered nor in a match
    obtain ⟨q, hu, hq⟩ := hatt s hs hauth
    have hself : (a.create s p u).user s = some q := hu
    rw [create_user_self] at hself
    cases hself
    rcases hq with hq | hq
    · exact hp (ha.inv.registered_created p hq)
    · exact hp (ha.inv.rostered_created p hq)

/-! ### Players that are cut off -/

/-- Alive players without their session are those whose session was closed. -/
structure Presence (tr : List (Registry σ π υ × Action σ π)) (a : Registry σ π υ) : Prop where
  offline : ∀ p ∈ a.created, a.Alive p → p ∉ a.online → ∃ x ∈ tr, Cuts x p
  cut : ∀ p, (∃ x ∈ tr, Cuts x p) → p ∈ a.created ∧ (p ∉ a.online ∨ ¬ a.Alive p)

theorem step_created {act : Action σ π} (h : Step a act a') {p : π} (hp : p ∈ a.created) :
    p ∈ a'.created := by
  cases h with
  | accept _ _ _ => exact Or.inr hp
  | reject _ _ _ => exact Or.inr hp
  | _ => exact hp

/-- Nobody comes back to life. -/
theorem step_alive {act : Action σ π} (h : Step a act a') {p : π} (hp : p ∈ a.created)
    (hal : a'.Alive p) : a.Alive p := by
  cases h with
  | remove _ => exact hal.imp_left fun hp => hp.1
  | accept _ hfresh _ =>
    refine hal.imp_left fun hp' => hp'.resolve_left ?_
    rintro rfl
    exact hfresh hp
  | join _ _ hq hr =>
    rcases hal with hal | hal
    · exact Or.inl hal
    · rcases hr hal with rfl | hal
      · exact hq
      · exact Or.inr hal
  | _ => exact hal

/-- Nobody gets its session back. -/
theorem step_online {act : Action σ π} (h : Step a act a') {p : π} (hp : p ∈ a.created)
    (ho : p ∈ a'.online) : p ∈ a.online := by
  cases h with
  | close _ => exact ho.1
  | remove _ => exact ho.1
  | accept _ hfresh _ =>
    refine ho.resolve_left ?_
    rintro rfl
    exact hfresh hp
  | reject _ hfresh honline =>
    refine (honline p ?_).mp ho
    rintro rfl
    exact hfresh hp
  | _ => exact ho

/-- Only closing a connected session of the player takes its session away. -/
theorem step_offline {act : Action σ π} (h : Step a act a') {p : π} (hp : p ∈ a.created)
    (ho : p ∈ a.online) : p ∈ a'.online ∨ Cuts (a, act) p := by
  cases h with
  | @close s _ =>
    by_cases hcut : s ∈ a.connected ∧ a.user s = some p ∧ a.Alive p
    · exact Or.inr ⟨s, Or.inl rfl, hcut.1, hcut.2.1⟩
    · exact Or.inl ⟨ho, hcut⟩
  | @remove s _ =>
    by_cases hcut : s ∈ a.connected ∧ a.user s = some p ∧ (a.forget s).Alive p
    · exact Or.inr ⟨s, Or.inr rfl, hcut.1, hcut.2.1⟩
    · exact Or.inl ⟨ho, hcut⟩
  | accept _ _ _ => exact Or.inl (Or.inr ho)
  | reject _ hfresh honline =>
    refine Or.inl ((honline p ?_).mpr ho)
    rintro rfl
    exact hfresh hp
  | _ => exact Or.inl ho

/-- A step that closes a connected session of the player leaves it without a session,
or dead. -/
theorem cuts_step {act : Action σ π} (ha : a.Inv) (h : Step a act a') {p : π}
    (hc : Cuts (a, act) p) : p ∈ a.created ∧ (p ∉ a'.online ∨ ¬ a'.Alive p) := by
  obtain ⟨s, hact, hconn, hu⟩ := hc
  rcases hact with rfl | rfl
  · cases h with
    | close hs =>
      refine ⟨(ha.user_owner s hs p hu).1, ?_⟩
      by_cases hal : a.Alive p
      · exact Or.inl fun ho => ho.2 ⟨hconn, hu, hal⟩
      · exact Or.inr hal
  · cases h with
    | remove hs =>
      refine ⟨(ha.user_owner s (ha.live_opened s hs) p hu).1, ?_⟩
      by_cases hal : (a.forget s).Alive p
      · exact Or.inl fun ho => ho.2 ⟨hconn, hu, hal⟩
      · exact Or.inr hal

theorem offline_step {act : Action σ π} (ha : a.Inv) (hpr : Presence tr a) (h : Step a act a')
    (p : π) (hp : p ∈ a'.created) (hal : a'.Alive p) (ho : p ∉ a'.online) :
    ∃ x ∈ tr ++ [(a, act)], Cuts x p := by
  by_cases hold : p ∈ a.created
  · by_cases honline : p ∈ a.online
    · exact exists_snoc.mpr (Or.inr ((step_offline h hold honline).resolve_left ho))
    · exact exists_snoc.mpr (Or.inl (hpr.offline p hold (step_alive h hold hal) honline))
  · -- a new player is online, or it is turned away and dead
    have hnot : ¬ a.Alive p := fun hal =>
      hold (hal.elim (ha.registered_created p) (ha.rostered_created p))
    cases h with
    | accept _ _ _ =>
      rcases hp with rfl | hp
      · exact absurd (Or.inl rfl) ho
      · exact absurd hp hold
    | reject _ _ _ => exact absurd hal hnot
    | _ => exact absurd hp hold

theorem exec_presence (h : system.Exec tr a) : Presence tr a := by
  refine h.trace_inv Presence (fun a h0 => ⟨fun p hp => ?_, nofun⟩) fun tr a act a' hr hpr hst => ?_
  · rw [h0.created] at hp
    cases hp
  · have ha : a.Inv := exec_inv hr
    refine ⟨offline_step ha hpr hst, fun p hc => ?_⟩
    rcases exists_snoc.mp hc with hc | hc
    · obtain ⟨hp, hlost⟩ := hpr.cut p hc
      refine ⟨step_created hst hp, hlost.imp (fun ho ho' => ho (step_online hst hp ho'))
        (fun hal hal' => hal (step_alive hst hp hal'))⟩
    · obtain ⟨hp, hlost⟩ := cuts_step ha hst hc
      exact ⟨step_created hst hp, hlost⟩

/-- A player in a match has its session, if and only if no step of the run closed a
connected session of it. -/
theorem online_iff (h : system.Exec tr a) {p : π} (hp : p ∈ a.rostered) :
    p ∈ a.online ↔ ¬ ∃ x ∈ tr, Cuts x p := by
  have ha : a.Inv := exec_inv h
  have hpr := exec_presence h
  refine ⟨fun ho hc => ?_, fun hno => ?_⟩
  · exact (hpr.cut p hc).2.elim (fun h => h ho) fun h => h (Or.inr hp)
  · by_contra ho
    exact hno (hpr.offline p (ha.rostered_created p hp) (Or.inr hp) ho)

end Registry

end GameServer
