import GameServer.Lib.Execution

/-! What the login part of the server keeps track of, as sets: sessions, the
players that they log in, and which of these are registered. A session refers to
its player by a weak pointer; a player is alive while it is registered or in a
match. -/

namespace GameServer

open Lib

universe u v w

@[ext]
structure Registry (σ : Type u) (π : Type v) (υ : Type w) where
  /-- sessions created so far -/
  opened : Set σ
  /-- waiting to be added -/
  queued : Set σ
  /-- commands of these sessions are dispatched -/
  live : Set σ
  connected : Set σ
  authenticated : Set σ
  /-- the weak pointer, expired or not -/
  user : σ → Option π
  /-- players created so far -/
  created : Set π
  /-- the session that the player was created for -/
  owner : π → Option σ
  userID : π → υ
  registered : Set π
  /-- in some match -/
  rostered : Set π
  /-- players that refer to their session -/
  online : Set π

inductive Action (σ : Type u) (π : Type v) where
  | silent
  | connect (s : σ)
  | add (s : σ)
  | close (s : σ)
  | remove (s : σ)
  | identify (s : σ) (p : π) (accepted : Bool)
  | join (s : σ)

namespace Registry

variable {σ : Type u} {π : Type v} {υ : Type w}

def Alive (a : Registry σ π υ) (p : π) : Prop := p ∈ a.registered ∨ p ∈ a.rostered

/-- Closing a connected session cuts its player off. -/
def close (a : Registry σ π υ) (s : σ) : Registry σ π υ :=
  { a with
    connected := a.connected \ {s}
    online := a.online \ {p | s ∈ a.connected ∧ a.user s = some p ∧ a.Alive p} }

/-- Unregister whoever has the UserID of the session's player. -/
def forget (a : Registry σ π υ) (s : σ) : Registry σ π υ :=
  { a with
    registered := a.registered \
      {q | ∃ p, a.user s = some p ∧ a.Alive p ∧ a.userID q = a.userID p} }

/-- Nobody has connected yet. -/
structure Init (a : Registry σ π υ) : Prop where
  opened : a.opened = ∅
  queued : a.queued = ∅
  live : a.live = ∅
  created : a.created = ∅
  registered : a.registered = ∅
  rostered : a.rostered = ∅

/-! ### The invariant of all runs -/

structure Inv (a : Registry σ π υ) : Prop where
  live_opened : ∀ s ∈ a.live, s ∈ a.opened
  queued_opened : ∀ s ∈ a.queued, s ∈ a.opened
  queued_new : ∀ s ∈ a.queued, a.user s = none ∧ s ∉ a.live ∧ s ∉ a.authenticated
  user_owner : ∀ s ∈ a.opened, ∀ p, a.user s = some p → p ∈ a.created ∧ a.owner p = some s
  registered_created : ∀ p ∈ a.registered, p ∈ a.created
  rostered_created : ∀ p ∈ a.rostered, p ∈ a.created
  registered_owner : ∀ p ∈ a.registered, ∃ s ∈ a.opened, a.owner p = some s
  registered_inj : ∀ p ∈ a.registered, ∀ q ∈ a.registered, a.userID p = a.userID q → p = q
  linked : ∀ s ∈ a.live, ∀ p, a.user s = some p → p ∈ a.rostered → p ∈ a.registered

theorem Inv.owner_opened {a : Registry σ π υ} {p : π} {s : σ} (ha : a.Inv) (hp : p ∈ a.registered)
    (ho : a.owner p = some s) : s ∈ a.opened := by
  obtain ⟨t, ht, howner⟩ := ha.registered_owner p hp
  rw [ho] at howner
  cases howner
  exact ht

/-- The player of a session that is there is registered as long as it is alive. -/
theorem Inv.alive_registered {a : Registry σ π υ} (ha : a.Inv) {s : σ} (hs : s ∈ a.live) {p : π}
    (hu : a.user s = some p) (hp : a.Alive p) : p ∈ a.registered :=
  hp.elim id (ha.linked s hs p hu)

/-- A removal unregisters the player of its session and nobody else. -/
theorem Inv.mem_forget {a : Registry σ π υ} (ha : a.Inv) {s : σ} (hs : s ∈ a.live) {p : π} :
    p ∈ (a.forget s).registered ↔ p ∈ a.registered ∧ a.user s ≠ some p := by
  refine ⟨fun ⟨hp, hnot⟩ => ⟨hp, fun hu => ?_⟩, fun ⟨hp, hne⟩ => ⟨hp, ?_⟩⟩
  · exact hnot ⟨p, hu, Or.inl hp, rfl⟩
  · rintro ⟨q, hu, hq, heq⟩
    have hpq := ha.registered_inj p hp q (ha.alive_registered hs hu hq) heq
    exact hne (hpq ▸ hu)

theorem inv_init {a : Registry σ π υ} (h : a.Init) : a.Inv := by
  refine ⟨?_, ?_, ?_, ?_, ?_, ?_, ?_, ?_, ?_⟩ <;>
    simp [h.opened, h.queued, h.live, h.registered, h.rostered]

variable {a a' : Registry σ π υ} {s t : σ} {p q : π} {u : υ}

theorem inv_add {added : Set σ} (ha : a.Inv) (hs : s ∈ a.queued) (hadd : added ⊆ {s}) :
    ({ a with queued := a.queued \ {s}, live := a.live ∪ added } : Registry σ π υ).Inv := by
  refine ⟨?_, ?_, ?_, ha.user_owner, ha.registered_created, ha.rostered_created,
    ha.registered_owner, ha.registered_inj, ?_⟩
  · rintro t (ht | ht)
    · exact ha.live_opened t ht
    · rw [hadd ht]
      exact ha.queued_opened s hs
  · intro t ht
    exact ha.queued_opened t ht.1
  · intro t ht
    obtain ⟨hu, hl, hauth⟩ := ha.queued_new t ht.1
    exact ⟨hu, fun h => h.elim hl fun h => ht.2 (hadd h), hauth⟩
  · rintro t (ht | ht) p hu hp
    · exact ha.linked t ht p hu hp
    · rw [hadd ht, (ha.queued_new s hs).1] at hu
      cases hu

theorem inv_remove (ha : a.Inv) (hs : s ∈ a.live) :
    ({ (a.forget s).close s with live := a.live \ {s} } : Registry σ π υ).Inv := by
  refine ⟨?_, ha.queued_opened, ?_, ha.user_owner, ?_, ha.rostered_created, ?_, ?_, ?_⟩
  · intro t ht
    exact ha.live_opened t ht.1
  · intro t ht
    obtain ⟨hu, hl, hauth⟩ := ha.queued_new t ht
    exact ⟨hu, fun h => hl h.1, hauth⟩
  · intro p hp
    exact ha.registered_created p hp.1
  · intro p hp
    exact ha.registered_owner p hp.1
  · intro p hp q hq heq
    exact ha.registered_inj p hp.1 q hq.1 heq
  · intro t ht p hu hp
    apply (ha.mem_forget hs).mpr
    refine ⟨ha.linked t ht.1 p hu hp, fun hsu => ht.2 ?_⟩
    -- a player has one owner
    have howner := (ha.user_owner t (ha.live_opened t ht.1) p hu).2
    rw [(ha.user_owner s (ha.live_opened s hs) p hsu).2] at howner
    exact (Option.some.inj howner).symm

theorem inv_join {rostered : Set π} (ha : a.Inv) (hs : s ∈ a.live) (hu : a.user s = some p)
    (hp : a.Alive p) (hr : rostered ⊆ insert p a.rostered) :
    ({ a with rostered := rostered } : Registry σ π υ).Inv := by
  have hreg := ha.alive_registered hs hu hp
  refine ⟨ha.live_opened, ha.queued_opened, ha.queued_new, ha.user_owner, ha.registered_created,
    ?_, ha.registered_owner, ha.registered_inj, ?_⟩
  · intro q hq
    rcases hr hq with rfl | hq
    · exact ha.registered_created q hreg
    · exact ha.rostered_created q hq
  · intro t ht q htu hq
    rcases hr hq with rfl | hq
    · exact hreg
    · exact ha.linked t ht q htu hq

section Step

variable [DecidableEq σ]

def connect (a : Registry σ π υ) (s : σ) : Registry σ π υ :=
  { a with
    opened := insert s a.opened
    queued := insert s a.queued
    connected := insert s a.connected
    authenticated := a.authenticated \ {s}
    user := Function.update a.user s none }

theorem connect_user_self : (a.connect s).user s = none := Function.update_self ..

theorem connect_user_of_ne (h : t ≠ s) : (a.connect s).user t = a.user t :=
  Function.update_of_ne h ..

theorem inv_connect (ha : a.Inv) (hs : s ∉ a.opened) : (a.connect s).Inv := by
  have hlive : ∀ t ∈ a.live, t ≠ s := fun t ht heq => hs (heq ▸ ha.live_opened t ht)
  refine ⟨?_, ?_, ?_, ?_, ha.registered_created, ha.rostered_created, ?_, ha.registered_inj, ?_⟩
  · intro t ht
    exact Or.inr (ha.live_opened t ht)
  · intro t ht
    exact ht.imp_right (ha.queued_opened t)
  · intro t ht
    by_cases hts : t = s
    · rw [hts]
      exact ⟨connect_user_self, fun h => hs (ha.live_opened s h), fun h => h.2 rfl⟩
    · obtain ⟨hu, hl, hauth⟩ := ha.queued_new t (ht.resolve_left hts)
      exact ⟨(connect_user_of_ne hts).trans hu, hl, fun h => hauth h.1⟩
  · intro t ht p hu
    by_cases hts : t = s
    · rw [hts, connect_user_self] at hu
      cases hu
    · rw [connect_user_of_ne hts] at hu
      exact ha.user_owner t (ht.resolve_left hts) p hu
  · intro p hp
    obtain ⟨t, ht, howner⟩ := ha.registered_owner p hp
    exact ⟨t, Or.inr ht, howner⟩
  · intro t ht p hu hp
    rw [connect_user_of_ne (hlive t ht)] at hu
    exact ha.linked t ht p hu hp

variable [DecidableEq π]

/-- A new player of the session, with the UserID that the identity names. -/
def create (a : Registry σ π υ) (s : σ) (p : π) (userID : υ) : Registry σ π υ :=
  { a with
    user := Function.update a.user s (some p)
    created := insert p a.created
    owner := Function.update a.owner p (some s)
    userID := Function.update a.userID p userID }

inductive Step (a : Registry σ π υ) : Action σ π → Registry σ π υ → Prop
  | silent : Step a .silent a
  | connect {s : σ} : s ∉ a.opened → Step a (.connect s) (a.connect s)
  /-- a session is not added while its token is taken -/
  | add {s : σ} {added : Set σ} : s ∈ a.queued → added ⊆ {s} →
      Step a (.add s) { a with queued := a.queued \ {s}, live := a.live ∪ added }
  | close {s : σ} : s ∈ a.opened → Step a (.close s) (a.close s)
  | remove {s : σ} : s ∈ a.live →
      Step a (.remove s) { (a.forget s).close s with live := a.live \ {s} }
  | accept {s : σ} {p : π} {u : υ} : s ∈ a.live → p ∉ a.created →
      (∀ q ∈ a.registered, a.userID q ≠ u) →
      Step a (.identify s p true)
        { a.create s p u with
          registered := insert p a.registered
          authenticated := insert s a.authenticated
          online := insert p a.online }
  | reject {s : σ} {p : π} {u : υ} {online : Set π} : s ∈ a.live → p ∉ a.created →
      (∀ q, q ≠ p → (q ∈ online ↔ q ∈ a.online)) →
      Step a (.identify s p false)
        { a.create s p u with connected := a.connected \ {s}, online := online }
  /-- joining a match may replace a player that is in it -/
  | join {s : σ} {p : π} {rostered : Set π} : s ∈ a.live → a.user s = some p → a.Alive p →
      rostered ⊆ insert p a.rostered → Step a (.join s) { a with rostered := rostered }

def system : System (Registry σ π υ) (Action σ π) := ⟨Init, Step⟩

section Create

variable (a : Registry σ π υ) (s : σ) (p : π) (u : υ)

theorem create_user_self : (a.create s p u).user s = some p := Function.update_self ..

theorem create_owner_self : (a.create s p u).owner p = some s := Function.update_self ..

theorem create_userID_self : (a.create s p u).userID p = u := Function.update_self ..

variable {s} in
theorem create_user_of_ne (h : t ≠ s) : (a.create s p u).user t = a.user t :=
  Function.update_of_ne h ..

variable {p} in
theorem create_owner_of_ne (h : q ≠ p) : (a.create s p u).owner q = a.owner q :=
  Function.update_of_ne h ..

variable {p} in
theorem create_userID_of_ne (h : q ≠ p) : (a.create s p u).userID q = a.userID q :=
  Function.update_of_ne h ..

end Create

/-- A player that was there before keeps what it was created with. -/
theorem create_old (s : σ) (u : υ) (hp : p ∉ a.created) (hq : q ∈ a.created) :
    (a.create s p u).owner q = a.owner q ∧ (a.create s p u).userID q = a.userID q := by
  have hne : q ≠ p := fun heq => hp (heq ▸ hq)
  exact ⟨create_owner_of_ne a s u hne, create_userID_of_ne a s u hne⟩

theorem create_user_owner (ha : a.Inv) (hp : p ∉ a.created) (ht : t ∈ a.opened)
    (hu : (a.create s p u).user t = some q) :
    q ∈ (a.create s p u).created ∧ (a.create s p u).owner q = some t := by
  by_cases hts : t = s
  · rw [hts, create_user_self] at hu
    cases hu
    rw [hts]
    exact ⟨Or.inl rfl, create_owner_self a s p u⟩
  · rw [create_user_of_ne a p u hts] at hu
    obtain ⟨hq, howner⟩ := ha.user_owner t ht q hu
    exact ⟨Or.inr hq, (create_old s u hp hq).1.trans howner⟩

/-- UserIDs stay distinct when a player with a new one is registered. -/
theorem create_inj (ha : a.Inv) (hp : p ∉ a.created) (hu : ∀ q ∈ a.registered, a.userID q ≠ u)
    {r : π} (hq : q ∈ insert p a.registered) (hr : r ∈ insert p a.registered)
    (heq : (a.create s p u).userID q = (a.create s p u).userID r) : q = r := by
  have hold : ∀ x ∈ a.registered, (a.create s p u).userID x = a.userID x :=
    fun x hx => (create_old s u hp (ha.registered_created x hx)).2
  rcases hq with rfl | hq
  · rcases hr with rfl | hr
    · rfl
    · rw [create_userID_self, hold r hr] at heq
      exact absurd heq.symm (hu r hr)
  · rcases hr with rfl | hr
    · rw [create_userID_self, hold q hq] at heq
      exact absurd heq (hu q hq)
    · rw [hold q hq, hold r hr] at heq
      exact ha.registered_inj q hq r hr heq

/-- Creating a player for a session keeps the invariant, whether the player is
registered under a new UserID or not. -/
theorem inv_create {connected authenticated : Set σ} {registered online : Set π} (ha : a.Inv)
    (hs : s ∈ a.live) (hp : p ∉ a.created) (hauth : ∀ t ∈ a.queued, t ∉ authenticated)
    (hreg : registered = a.registered ∨
      registered = insert p a.registered ∧ ∀ q ∈ a.registered, a.userID q ≠ u) :
    ({ a.create s p u with
      registered := registered
      connected := connected
      authenticated := authenticated
      online := online } : Registry σ π υ).Inv := by
  have hsub : a.registered ⊆ registered ∧ registered ⊆ insert p a.registered := by
    rcases hreg with rfl | ⟨rfl, -⟩
    · exact ⟨subset_rfl, Set.subset_insert _ _⟩
    · exact ⟨Set.subset_insert _ _, subset_rfl⟩
  refine ⟨ha.live_opened, ha.queued_opened, ?_, ?_, ?_, ?_, ?_, ?_, ?_⟩
  · intro t ht
    obtain ⟨hu, hl, -⟩ := ha.queued_new t ht
    have hts : t ≠ s := fun h => hl (h ▸ hs)
    exact ⟨(create_user_of_ne a p u hts).trans hu, hl, hauth t ht⟩
  · intro t ht q hu
    exact create_user_owner (u := u) ha hp ht hu
  · intro q hq
    exact (hsub.2 hq).imp_right (ha.registered_created q)
  · intro q hq
    exact Or.inr (ha.rostered_created q hq)
  · intro q hq
    rcases hsub.2 hq with rfl | hq
    · exact ⟨s, ha.live_opened s hs, create_owner_self a s q u⟩
    · obtain ⟨t, ht, howner⟩ := ha.registered_owner q hq
      exact ⟨t, ht, (create_old s u hp (ha.registered_created q hq)).1.trans howner⟩
  · intro q hq r hr heq
    rcases hreg with rfl | ⟨rfl, hu⟩
    · have hold := fun x hx => (create_old s u hp (ha.registered_created x hx)).2
      exact ha.registered_inj q hq r hr ((hold q hq).symm.trans (heq.trans (hold r hr)))
    · exact create_inj (s := s) ha hp hu hq hr heq
  · intro t ht q hu hq
    replace hu : (a.create s p u).user t = some q := hu
    by_cases hts : t = s
    · rw [hts, create_user_self] at hu
      cases hu
      exact absurd (ha.rostered_created p hq) hp
    · rw [create_user_of_ne a p u hts] at hu
      exact hsub.1 (ha.linked t ht q hu hq)

theorem inv_step {act : Action σ π} (ha : a.Inv) (h : Step a act a') : a'.Inv := by
  cases h with
  | silent => exact ha
  | connect hs => exact inv_connect ha hs
  | add hs hadd => exact inv_add ha hs hadd
  | close _ =>
    exact ⟨ha.live_opened, ha.queued_opened, ha.queued_new, ha.user_owner, ha.registered_created,
      ha.rostered_created, ha.registered_owner, ha.registered_inj, ha.linked⟩
  | remove hs => exact inv_remove ha hs
  | accept hs hp hu =>
    refine inv_create ha hs hp ?_ (Or.inr ⟨rfl, hu⟩)
    rintro t ht (rfl | hauth)
    · exact (ha.queued_new t ht).2.1 hs
    · exact (ha.queued_new t ht).2.2 hauth
  | reject hs hp _ => exact inv_create ha hs hp (fun t ht => (ha.queued_new t ht).2.2) (Or.inl rfl)
  | join hs hu hp hr => exact inv_join ha hs hu hp hr

theorem exec_inv {tr : List (Registry σ π υ × Action σ π)} (h : system.Exec tr a) : a.Inv :=
  h.inv Inv (fun _ => inv_init) fun _ _ _ => inv_step

end Step

end Registry

end GameServer
