import GameServer.Server.AsyncRemoval

/-! Authenticated sessions and their players. `SetUser` redirects the weak pointer
before the identity is looked at, and the authenticated flag stays, so an identity
that is turned away leaves an authenticated session without a player, and
`JoinMatch` dereferences null. `DoRemovePlayer` lets go of the player before it takes
the session out of the table, where the async thread still finds it. -/

namespace GameServer

open Lib

/-- What keeps the player of a session changes with identities and joins only. -/
theorem Registry.step_seats {σ π υ : Type*} [DecidableEq σ] [DecidableEq π]
    {a a' : Registry σ π υ} {act : Action σ π} (h : Step a act a')
    (hident : ∀ s p accepted, act ≠ .identify s p accepted) (hjoin : ∀ s, act ≠ .join s) :
    (∀ s ∈ a.opened, s ∈ a'.authenticated → s ∈ a.authenticated) ∧
      (∀ s ∈ a.opened, a'.user s = a.user s) ∧ a'.rostered = a.rostered := by
  cases h with
  | connect ht =>
    exact ⟨fun _ _ hs => hs.1, fun s hs => connect_user_of_ne fun heq => ht (heq ▸ hs), rfl⟩
  | accept _ _ _ | reject _ _ _ => exact absurd rfl (hident _ _ _)
  | join _ _ _ _ => exact absurd rfl (hjoin _)
  | silent | add _ _ | close _ | remove _ => exact ⟨fun _ _ hs => hs, fun _ _ => rfl, rfl⟩

namespace World

variable {parse : List UInt8 → Option Json} {serialize : Json → List UInt8} {w w' : World}
  {s : SessionRef}

/-- An identity of an authenticated session is well-formed and of a UserID that is
not logged in. -/
def Reaccepted (parse : List UInt8 → Option Json) (x : World × Event) : Prop :=
  ∀ s buffer, Identifies x s buffer → (x.1.sessions s).isAuthenticated = true →
    x.1.accepts parse buffer = true

/-- The player of the session is in a match, which holds it. -/
def InMatch (w : World) (s : SessionRef) : Prop :=
  ∃ p, (w.sessions s).user = some p ∧ ∃ m < w.nextMatch, p ∈ (w.matchAt m).mPlayers.values

theorem addMatchPlayer_ne_nullDeref {p : PlayerRef} {matchId : String} :
    w.addMatchPlayer (some p) matchId ≠ .error .nullDeref := by
  unfold addMatchPlayer
  split
  · nofun
  · rw [MatchCtx.joinPlayer_some]
    split_ifs
    · nofun
    · nofun
    · nofun

/-- With a player `JoinMatch` returns, throws or waits. -/
theorem joinMatch_ne_nullDeref {buffer : List UInt8}
    (hlock : (w.sessions s).isAuthenticated = true → ∃ p, w.lockUser s = some p) :
    joinMatch parse w s buffer ≠ .error .nullDeref := by
  intro h
  unfold joinMatch at h
  split at h
  · next hauth =>
    obtain ⟨p, hp⟩ := hlock hauth
    dsimp only at h
    split at h
    · cases h
    · rcases Exec.bind_eq_error.mp h with h | ⟨identObj, -, h⟩
      · cases Json.asObject_error h
      · rcases Exec.bind_eq_error.mp h with h | ⟨matchId, -, h⟩
        · rcases Exec.bind_eq_error.mp h with h | ⟨value, -, h⟩
          · cases Json.objectAt_error h
          · cases Json.asString_error h
        · rw [hp] at h
          rcases Exec.bind_eq_error.mp h with h | ⟨r, -, h⟩
          · exact addMatchPlayer_ne_nullDeref h
          · cases h
  · cases h

theorem reaccepted_iff {e : Event} :
    Reaccepted parse (w, e) ↔ Registry.AcceptedAgain w.abs (w.absAction parse e) := by
  constructor
  · intro h s p hact hauth
    obtain ⟨buffer, hident, -, hrej⟩ := absAction_identify_iff.mp hact
    rw [h s buffer hident hauth] at hrej
    cases hrej
  · intro h s buffer hident hauth
    by_contra hrej
    have hact : w.absAction parse e = .identify s w.nextPlayer false :=
      absAction_identify_iff.mpr ⟨buffer, hident, rfl, (Bool.eq_false_iff.mpr hrej).symm⟩
    exact h s w.nextPlayer hact hauth

theorem absAction_ne_join {e : Event} (h : ∀ user data now, e ≠ .dispatch user data now) :
    w.absAction parse e ≠ .join s := by
  intro hact
  unfold absAction at hact
  repeat' split at hact
  all_goals cases hact
  exact h _ _ _ rfl

/-! ### The table without the session that is removed -/

/-- The steps that the main thread does not take neither read nor write the table. -/
theorem step_table (table : AList fun _ : Token => SessionRef) {e : Event}
    (h : Step parse serialize w e w') (hmain : ¬ AsyncWorld.OnMainThread e) (hr : e ≠ .removeNext) :
    w'.mSocketUsers = w.mSocketUsers ∧
      Step parse serialize { w with mSocketUsers := table } e { w' with mSocketUsers := table } := by
  cases e with
  | connect token | removePlayer user =>
    cases h
    exact ⟨rfl, rfl⟩
  | reset s =>
    obtain ⟨hs, rfl⟩ := h
    refine ⟨close_mSocketUsers, hs, ?_⟩
    cases hc : (w.sessions s).connected with
    | false => rw [close_of_not_connected hc, close_of_not_connected (by exact hc)]
    | true =>
      rw [close_of_connected hc, close_of_connected (by exact hc)]
      rfl
  | takeCommands m =>
    obtain ⟨hm, hcurrent, rfl⟩ := h
    exact ⟨rfl, hm, hcurrent, rfl⟩
  | executeNext m =>
    obtain ⟨hm, cmd, rest, c, out, hcurrent, hexec, rfl⟩ := h
    exact ⟨rfl, hm, cmd, rest, c, out, hcurrent, hexec, rfl⟩
  | thread m call =>
    obtain ⟨hm, c, hcall, rfl⟩ := h
    exact ⟨rfl, hm, c, hcall, rfl⟩
  | addNext | dispatch user data now | createMatch id shortId => exact absurd trivial hmain
  | removeNext => exact absurd rfl hr

theorem routMatchNetCommand_table (table : AList fun _ : Token => SessionRef) (s : SessionRef)
    (data : Data) : ({ w with mSocketUsers := table } : World).routMatchNetCommand s data =
      { w.routMatchNetCommand s data with mSocketUsers := table } := by
  have hlock : lockUser { w with mSocketUsers := table } s = w.lockUser s := rfl
  unfold routMatchNetCommand
  rw [hlock]
  dsimp only
  split
  · split
    · rfl
    · split <;> rfl
  · rfl

theorem WF.erase (hw : w.WF) (user : Token) :
    WF { w with mSocketUsers := w.mSocketUsers.erase user } :=
  ⟨hw.frame rfl (fun _ _ ht => (lookup_erase_eq_some.mp ht).2) (fun _ => rfl) (fun _ _ h => h)
    (fun _ => rfl) (fun _ => rfl) rfl, hw.held⟩

theorem WF.abs_erase (hw : w.WF) {user : Token} (hs : w.mSocketUsers.lookup user = some s) :
    abs { w with mSocketUsers := w.mSocketUsers.erase user } =
      { w.abs with live := w.abs.live \ {s} } := by
  rw [← hw.live_erase hs]
  rfl

end World

namespace AsyncWorld

variable {parse : List UInt8 → Option Json} {serialize : Json → List UInt8} {x x' : AsyncWorld}

/-- `DoProcess` may find a session of the table in any state, on the async thread. The
sessions of the table have a live player when they are authenticated, and `JoinMatch`,
which the main thread calls outside removals, does not dereference null for them. -/
structure UsersLocked (parse : List UInt8 → Option Json) (x : AsyncWorld) : Prop where
  locked : ∀ user s, x.world.mSocketUsers.lookup user = some s →
    (x.world.sessions s).isAuthenticated = true → ∃ p, x.world.lockUser s = some p
  joins : x.removal = .idle → ∀ user s, x.world.mSocketUsers.lookup user = some s →
    ∀ buffer, World.joinMatch parse x.world s buffer ≠ .error .nullDeref

/-- An identity of an authenticated session is accepted, and `UserDisconnected` finds
the player of an authenticated session in a match. -/
def KeepsUser (parse : List UInt8 → Option Json) (x : AsyncWorld) (e : Event) : Prop :=
  match e with
  | .server e => World.Reaccepted parse (x.world, e)
  | .removalStep => ∀ user s, x.removal = .userDisconnected user s →
      (x.world.sessions s).isAuthenticated = true → x.world.InMatch s
  | .removeNext | .lookup _ _ | .callback => True

/-- The world with the session of a removal erased as soon as its player is let go. -/
def afterErase (x : AsyncWorld) : World :=
  match x.removal with
  | .idle | .userDisconnected _ _ => x.world
  | .close user _ | .erase user _ => { x.world with mSocketUsers := x.world.mSocketUsers.erase user }

/-- The session that has lost its player and is still in the table. -/
def leaving : RemovalPc → Option SessionRef
  | .idle | .userDisconnected _ _ => none
  | .close _ s | .erase _ s => some s

/-- The sessions that stay are seated, and the one that leaves has its player in a match. -/
structure Seated (x : AsyncWorld) : Prop where
  inv : x.Inv
  wf : x.afterErase.WF
  seated : Registry.Seated x.afterErase.abs
  leaving : ∀ s, leaving x.removal = some s → (x.world.sessions s).isAuthenticated = true →
    x.world.InMatch s

/-! ### A seated server -/

theorem lookup_cases {user : Token} {s : SessionRef} (hx : x.Inv)
    (hs : x.world.mSocketUsers.lookup user = some s) :
    leaving x.removal = some s ∨ x.afterErase.mSocketUsers.lookup user = some s := by
  have hremoving := hx.removing
  unfold afterErase
  cases hpc : x.removal with
  | idle | userDisconnected _ _ => exact .inr hs
  | close user' s' | erase user' s' =>
    rw [hpc] at hremoving
    by_cases hu : user = user'
    · rw [hu, hremoving user' s' rfl] at hs
      exact .inl hs
    · exact .inr (lookup_erase_eq_some.mpr ⟨hu, hs⟩)

/-- Only who is in the table is different. -/
theorem afterErase_eq (x : AsyncWorld) :
    ∃ table, x.afterErase = { x.world with mSocketUsers := table } := by
  unfold afterErase
  cases x.removal <;> exact ⟨_, rfl⟩

/-- While no session is leaving, that is the world itself. -/
theorem afterErase_world (h : leaving x.removal = none) : x.afterErase = x.world := by
  unfold afterErase
  cases hpc : x.removal with
  | idle | userDisconnected _ _ => rfl
  | close _ _ | erase _ _ =>
    rw [hpc] at h
    cases h

theorem Seated.usersLocked (hx : x.Seated) : UsersLocked parse x := by
  have hlocked : ∀ user s, x.world.mSocketUsers.lookup user = some s →
      (x.world.sessions s).isAuthenticated = true → ∃ p, x.world.lockUser s = some p := by
    intro user s hs hauth
    rcases lookup_cases hx.inv hs with hleaving | hstays
    · obtain ⟨p, hu, hmatch⟩ := hx.leaving s hleaving hauth
      exact ⟨p, World.lockUser_eq_some.mpr ⟨hu, .inr (.inr hmatch)⟩⟩
    · obtain ⟨table, hworld⟩ := afterErase_eq x
      have hauth' : s ∈ x.afterErase.abs.authenticated := by
        rw [hworld]
        exact hauth
      obtain ⟨p, hp, hu⟩ := hx.seated.registered s ⟨user, hstays⟩ hauth'
      have hlock := hx.wf.lockUser.mpr ⟨hu, .inl hp⟩
      rw [hworld] at hlock
      exact ⟨p, hlock⟩
  exact ⟨hlocked, fun _ user s hs _ => World.joinMatch_ne_nullDeref (hlocked user s hs)⟩

theorem seated_init (h : x.Init) : x.Seated := by
  obtain ⟨hw, habs⟩ := World.init_refines h.world
  have hworld := afterErase_world (x := x) (by rw [h.removal]; rfl)
  refine ⟨inv_init h, hworld ▸ hw, ?_, ?_⟩
  · rw [hworld]
    refine ⟨Registry.inv_init habs, fun s hs => ?_⟩
    rw [habs.live] at hs
    cases hs
  · rw [h.removal]
    exact nofun

/-! ### One step -/

/-- A step of the server is one of the world without the session that leaves, too. -/
theorem afterErase_server {e : World.Event} {w : World} (hr : e ≠ .removeNext)
    (hmain : OnMainThread e → x.removal = .idle) (h : World.Step parse serialize x.world e w) :
    World.Step parse serialize x.afterErase e (afterErase { x with world := w }) := by
  unfold afterErase
  cases hpc : x.removal with
  | idle | userDisconnected _ _ => exact h
  | close user s | erase user s =>
    have hother : ¬ OnMainThread e := fun he => by
      rw [hmain he] at hpc
      cases hpc
    obtain ⟨hsame, hstep⟩ := World.step_table (x.world.mSocketUsers.erase user) h hother hr
    dsimp only
    rw [hsame]
    exact hstep

theorem leaving_created {s : SessionRef} (hx : x.Inv) (hs : leaving x.removal = some s) :
    s ∈ x.world.abs.opened := by
  have hremoving := hx.removing
  cases hpc : x.removal with
  | idle | userDisconnected _ _ =>
    rw [hpc] at hs
    cases hs
  | close user s' | erase user s' =>
    rw [hpc] at hs hremoving
    cases hs
    exact hx.filed.live_created user s (hremoving user s rfl)

/-- What keeps the leaving session's player is as it was. -/
theorem Seated.leaving_of (hx : x.Seated)
    (hpc : ∀ s, AsyncWorld.leaving x'.removal = some s → AsyncWorld.leaving x.removal = some s)
    (hseats : (∀ s ∈ x.afterErase.abs.opened,
        s ∈ x'.afterErase.abs.authenticated → s ∈ x.afterErase.abs.authenticated) ∧
      (∀ s ∈ x.afterErase.abs.opened, x'.afterErase.abs.user s = x.afterErase.abs.user s) ∧
      x'.afterErase.abs.rostered = x.afterErase.abs.rostered) (s : SessionRef)
    (hs : AsyncWorld.leaving x'.removal = some s)
    (ha : (x'.world.sessions s).isAuthenticated = true) : x'.world.InMatch s := by
  obtain ⟨table, hworld⟩ := afterErase_eq x
  obtain ⟨table', hworld'⟩ := afterErase_eq x'
  rw [hworld, hworld'] at hseats
  obtain ⟨hauth, huser, hrostered⟩ := hseats
  have hopened := leaving_created hx.inv (hpc s hs)
  obtain ⟨p, hp, hmatch⟩ := hx.leaving s (hpc s hs) (hauth s hopened ha)
  refine ⟨p, (huser s hopened).trans hp, ?_⟩
  have hsame : x'.world.abs.rostered = x.world.abs.rostered := hrostered
  have hmem : p ∈ x'.world.abs.rostered := hsame ▸ hmatch
  exact hmem

/-- A step of the world without the session that leaves. -/
theorem Seated.step {e : World.Event} (hx : x.Seated) (hinv : x'.Inv)
    (h : World.Step parse serialize x.afterErase e x'.afterErase)
    (hC : World.Reaccepted parse (x.afterErase, e))
    (hleaving : ∀ s, AsyncWorld.leaving x'.removal = some s →
      (x'.world.sessions s).isAuthenticated = true → x'.world.InMatch s) : x'.Seated := by
  obtain ⟨hwf, hact⟩ := World.step_refines hx.wf hx.seated.inv h
  exact ⟨hinv, hwf, Registry.seated_step hx.seated (World.reaccepted_iff.mp hC) hact, hleaving⟩

theorem seated_server {e : World.Event} {w : World} (hx : x.Seated) (hr : e ≠ .removeNext)
    (hmain : OnMainThread e → x.removal = .idle) (hC : World.Reaccepted parse (x.world, e))
    (h : World.Step parse serialize x.world e w) : Seated { x with world := w } := by
  have hstep := afterErase_server hr hmain h
  refine hx.step (inv_server hx.inv hr hmain h) hstep (fun s buffer hident => ?_) ?_
  · -- identities are handled outside removals
    obtain ⟨user, data, now, rfl, -⟩ := id hident
    have hworld := afterErase_world (x := x) (by rw [hmain trivial]; rfl)
    rw [hworld] at hident ⊢
    exact hC s buffer hident
  · intro t ht
    have hother : ¬ OnMainThread e := fun he => by
      change leaving x.removal = some t at ht
      rw [hmain he] at ht
      cases ht
    have hact := (World.step_refines hx.wf hx.seated.inv hstep).2
    refine @Seated.leaving_of x { x with world := w } hx (fun _ h => h)
      (Registry.step_seats hact ?_ ?_) t ht
    · intro s p accepted hact
      obtain ⟨buffer, ⟨_, _, _, rfl, -⟩, -⟩ := World.absAction_identify_iff.mp hact
      exact hother trivial
    · exact fun s => World.absAction_ne_join fun _ _ _ he => hother (by rw [he]; trivial)

theorem seated_removeNext {user : Token} {rest : List Token} (hx : x.Seated)
    (hpc : x.removal = .idle) :
    ({ x with world := { x.world with mQueueUserRemove := rest } }.beginRemoval user).Seated := by
  have hworld := afterErase_world (x := x) (by rw [hpc]; rfl)
  have hfiled : Inv { x with world := { x.world with mQueueUserRemove := rest } } :=
    hx.inv.sameSessions ⟨rfl, rfl, rfl, fun _ => rfl, rfl⟩
  have hinv := @inv_beginRemoval _ user hfiled
  have hwf := (hworld ▸ hx.wf).outside rest x.world.sent
  have hseated := hworld ▸ hx.seated
  revert hinv
  unfold beginRemoval
  split
  · intro hinv
    refine ⟨hinv, ?_, ?_, ?_⟩ <;> simp only [afterErase, hpc]
    · exact hwf
    · exact hseated
    · exact nofun
  · exact fun hinv => ⟨hinv, hwf, hseated, nofun⟩

/-- `UserDisconnected`: the player is let go, and the session leaves. -/
theorem seated_userDisconnected {user : Token} {s : SessionRef} (hx : x.Seated)
    (hpc : x.removal = .userDisconnected user s)
    (hC : (x.world.sessions s).isAuthenticated = true → x.world.InMatch s) :
    Seated { x with world := x.world.userDisconnected s, removal := .close user s } := by
  have hworld := afterErase_world (x := x) (by rw [hpc]; rfl)
  have hs : x.world.mSocketUsers.lookup user = some s := hx.inv.removing user s (by rw [hpc]; rfl)
  have hinv : Inv { x with world := x.world.userDisconnected s, removal := .close user s } :=
    inv_removalStep hx.inv (by rw [removalStep, hpc])
  have hwf : x.world.WF := hworld ▸ hx.wf
  have hseated : Registry.Seated x.world.abs := hworld ▸ hx.seated
  have htable : (x.world.userDisconnected s).mSocketUsers = x.world.mSocketUsers :=
    (World.sameSessions_userDisconnected x.world s).mSocketUsers
  have hremoved := Registry.seated_step hseated (by intro _ _ he; cases he) (.remove ⟨user, hs⟩)
  refine ⟨hinv, hwf.userDisconnected.erase user, ?_, fun t ht hauth => ?_⟩
  · have hfound : (x.world.userDisconnected s).mSocketUsers.lookup user = some s := by
      rw [htable]
      exact hs
    have habs := hwf.userDisconnected.abs_erase hfound
    rw [hwf.abs_userDisconnected] at habs
    unfold afterErase
    dsimp only
    rw [habs]
    -- the registry closes the session in the same step, which seats nobody
    exact ⟨⟨hremoved.inv.live_opened, hremoved.inv.queued_opened, hremoved.inv.queued_new,
      hremoved.inv.user_owner, hremoved.inv.registered_created, hremoved.inv.rostered_created,
      hremoved.inv.registered_owner, hremoved.inv.registered_inj, hremoved.inv.linked⟩,
      hremoved.registered⟩
  · cases ht
    rw [World.userDisconnected_eq] at hauth ⊢
    exact hC hauth

theorem seated_close {user : Token} {s : SessionRef} (hx : x.Seated)
    (hpc : x.removal = .close user s) :
    Seated { x with world := x.world.close s, removal := .erase user s } := by
  have hinv : Inv { x with world := x.world.close s, removal := .erase user s } :=
    inv_removalStep hx.inv (by rw [removalStep, hpc])
  have hopened := leaving_created hx.inv (by rw [hpc]; rfl)
  have hreset : World.Step (fun _ => none) (fun _ => []) x.world (.reset s) (x.world.close s) :=
    ⟨hopened, rfl⟩
  have hstep : World.Step (fun _ => none) (fun _ => []) x.afterErase (.reset s)
      (afterErase { x with world := x.world.close s, removal := .erase user s }) := by
    have hboth := (World.step_table (x.world.mSocketUsers.erase user) hreset id nofun).2
    rw [← World.close_mSocketUsers (w := x.world) (s := s)] at hboth
    unfold afterErase
    rw [hpc, ← World.close_mSocketUsers (w := x.world) (s := s)]
    exact hboth
  have hact := (World.step_refines hx.wf hx.seated.inv hstep).2
  refine hx.step hinv hstep ?_ (hx.leaving_of (fun t ht => ?_) (Registry.step_seats hact nofun nofun))
  · rintro t buffer ⟨_, _, _, he, -⟩
    cases he
  · rw [hpc]
    exact ht

theorem seated_erase {user : Token} {s : SessionRef} (hx : x.Seated)
    (hpc : x.removal = .erase user s) : Seated { x with
      world := { x.world with mSocketUsers := x.world.mSocketUsers.erase user }
      removal := .idle
      erased := s :: x.erased } := by
  have hworld : x.afterErase = { x.world with mSocketUsers := x.world.mSocketUsers.erase user } := by
    unfold afterErase
    rw [hpc]
  have hinv := inv_removalStep hx.inv (removalStep_erase hpc)
  exact ⟨hinv, hworld ▸ hx.wf, hworld ▸ hx.seated, nofun⟩

theorem seated_callback {s : SessionRef} {data : Data} (hx : x.Seated) :
    Seated { x with world := x.world.routMatchNetCommand s data, found := none } := by
  have hsame := World.sameSessions_routMatchNetCommand x.world s data
  have hinv := hx.inv.sameSessions hsame
  have hworld : afterErase { x with world := x.world.routMatchNetCommand s data, found := none } =
      x.afterErase.routMatchNetCommand s data := by
    unfold afterErase
    cases x.removal with
    | idle | userDisconnected _ _ => rfl
    | close user _ | erase user _ =>
      refine Eq.trans ?_ (World.routMatchNetCommand_table _ s data).symm
      exact congrArg (fun table : AList fun _ : Token => SessionRef =>
        { x.world.routMatchNetCommand s data with mSocketUsers := table.erase user })
        hsame.mSocketUsers
  obtain ⟨hwf, habs⟩ := hx.wf.routMatchNetCommand s data
  rw [← hworld] at hwf habs
  refine ⟨⟨hinv.filed, hinv.removing, hinv.gone⟩, hwf, habs ▸ hx.seated,
    hx.leaving_of (fun _ ht => ht) ?_⟩
  rw [habs]
  exact ⟨fun _ _ ht => ht, fun _ _ => rfl, rfl⟩

theorem seated_step {e : Event} (hx : x.Seated) (hC : KeepsUser parse x e)
    (h : Step parse serialize x e x') : x'.Seated := by
  cases e with
  | server e =>
    obtain ⟨hr, hmain, w, h, rfl⟩ := h
    exact seated_server hx hr hmain hC h
  | removeNext =>
    obtain ⟨hpc, user, rest, -, rfl⟩ := h
    exact seated_removeNext hx hpc
  | removalStep =>
    change x.removalStep = some x' at h
    unfold removalStep at h
    cases hpc : x.removal with
    | idle =>
      rw [hpc] at h
      cases h
    | userDisconnected user s =>
      rw [hpc] at h
      cases h
      exact seated_userDisconnected hx hpc (hC user s hpc)
    | close user s =>
      rw [hpc] at h
      cases h
      exact seated_close hx hpc
    | erase user s =>
      rw [hpc] at h
      cases h
      exact seated_erase hx hpc
  | lookup user data =>
    obtain ⟨-, rfl⟩ := h
    exact ⟨⟨hx.inv.filed, hx.inv.removing, hx.inv.gone⟩, hx.wf, hx.seated, hx.leaving⟩
  | callback =>
    obtain ⟨s, data, -, rfl⟩ := h
    exact seated_callback hx

/-- A step that misses the condition leaves an authenticated session without its player. -/
theorem not_usersLocked_step {e : Event} (hx : x.Seated) (hC : ¬ KeepsUser parse x e)
    (h : Step parse serialize x e x') : ¬ UsersLocked parse x' := by
  cases e with
  | server e =>
    obtain ⟨hr, hmain, w, h, rfl⟩ := h
    have hident : ∃ s buffer, World.Identifies (x.world, e) s buffer := by
      by_contra hno
      exact hC fun s buffer hident => absurd ⟨s, buffer, hident⟩ hno
    obtain ⟨s, buffer, user, data, now, rfl, -⟩ := hident
    have hworld := afterErase_world (x := x) (by rw [hmain trivial]; rfl)
    have hseated := hworld ▸ hx.seated
    obtain ⟨hwf, hstep⟩ := World.step_refines (hworld ▸ hx.wf) hseated.inv h
    have hlost := Registry.not_attended_step hseated (mt World.reaccepted_iff.mpr hC) hstep
    refine fun hlocked => hlost ?_
    rintro t ⟨user, ht⟩ hauth
    obtain ⟨p, hp⟩ := hlocked.locked user t ht hauth
    exact ⟨p, hwf.lockUser.mp hp⟩
  | removalStep =>
    simp only [KeepsUser, not_forall] at hC
    obtain ⟨user, s, hpc, hauth, hnot⟩ := hC
    have hs : x.world.mSocketUsers.lookup user = some s :=
      hx.inv.removing user s (by rw [hpc]; rfl)
    have hworld := afterErase_world (x := x) (by rw [hpc]; rfl)
    have hwf : x.world.WF := hworld ▸ hx.wf
    have hseated : Registry.Seated x.world.abs := hworld ▸ hx.seated
    change x.removalStep = some x' at h
    unfold removalStep at h
    rw [hpc] at h
    cases h
    intro hlocked
    have hsame := World.sameSessions_userDisconnected x.world s
    obtain ⟨p, hp⟩ := hlocked.locked user s (by rw [hsame.mSocketUsers]; exact hs)
      (by rw [World.userDisconnected_eq]; exact hauth)
    obtain ⟨hu, halive⟩ := hwf.userDisconnected.lockUser.mp hp
    rw [hwf.abs_userDisconnected] at hu halive
    rcases halive with hreg | hrostered
    · exact ((hseated.inv.mem_forget ⟨user, hs⟩).mp hreg).2 hu
    · exact hnot ⟨p, hu, hrostered⟩
  | removeNext | lookup _ _ | callback => exact absurd trivial hC

/-- In every state of a run authenticated sessions have their players and joins do not
dereference null, if and only if the identities of authenticated sessions are all
accepted and the players of those that are removed are all in matches. -/
theorem usersLocked_iff_kept (parse : List UInt8 → Option Json) (serialize : Json → List UInt8)
    (tr : List (AsyncWorld × Event)) (x : AsyncWorld) (h : (system parse serialize).Exec tr x) :
    (∀ y ∈ visited tr x, UsersLocked parse y) ↔ ∀ y ∈ tr, KeepsUser parse y.1 y.2 :=
  h.safe_iff Seated (UsersLocked parse) (KeepsUser parse) (fun _ => seated_init)
    (fun _ => Seated.usersLocked) (fun _ _ _ hx hC hst => seated_step hx hC hst)
    fun _ _ _ hx hC hst => not_usersLocked_step hx hC hst

/-! ### A session that logs in, and one that submits an identity again -/

/-- The run of the login, without a removal. -/
theorem login_exec (serialize : Json → List UInt8) : ∃ tr,
    (system World.sampleParse serialize).Exec tr ⟨World.loginWorld, .idle, none, []⟩ ∧
      ∀ y ∈ tr, KeepsUser World.sampleParse y.1 y.2 := by
  have h0 : (system World.sampleParse serialize).Exec [] ⟨World.emptyWorld, .idle, none, []⟩ :=
    .nil ⟨⟨rfl, rfl, rfl, rfl, rfl, rfl, rfl, rfl, rfl⟩, rfl, rfl, rfl⟩
  have h1 := h0.next (.server (.connect "a")) ⟨World.connectedWorld, .idle, none, []⟩
    ⟨nofun, nofun, _, rfl, rfl⟩
  have h2 := h1.next (.server .addNext) ⟨World.addedWorld, .idle, none, []⟩
    ⟨nofun, fun _ => rfl, _, ⟨0, [], rfl, rfl⟩, rfl⟩
  have h3 := h2.next
    (.server (.dispatch "a" (World.submitIdentity (World.identityText "1")) 0)) _
    ⟨nofun, fun _ => rfl, _, rfl, rfl⟩
  refine ⟨_, h3, ?_⟩
  simp only [List.nil_append, List.cons_append, List.forall_mem_cons]
  refine ⟨?_, ?_, ?_, List.forall_mem_nil _⟩
  · rintro s buffer ⟨_, _, _, he, -⟩
    cases he
  · rintro s buffer ⟨_, _, _, he, -⟩
    cases he
  · rintro s buffer ⟨_, _, _, he, -, -, rfl⟩ -
    cases he
    rfl

theorem login_locked : ∃ tr x, (system World.sampleParse fun _ => []).Exec tr x ∧
    (x.world.sessions 0).isAuthenticated = true ∧
    ∀ y ∈ visited tr x, UsersLocked World.sampleParse y := by
  obtain ⟨tr, h, hkept⟩ := login_exec fun _ => []
  exact ⟨tr, _, h, rfl, (usersLocked_iff_kept _ _ _ _ h).mpr hkept⟩

/-- The session after an identity that is no JSON. -/
def malformedWorld : World :=
  World.after (World.doProcess World.sampleParse 0 World.loginWorld "a" (World.submitIdentity []))

/-- A session logs in and submits the empty text as a second identity: it is still
authenticated, its player is gone, and joining a match dereferences null. -/
theorem malformed_identity_unlocks :
    ∃ tr x, (system World.sampleParse fun _ => []).Exec tr x ∧ x.removal = .idle ∧
      x.world.mSocketUsers.lookup "a" = some 0 ∧ (x.world.sessions 0).isAuthenticated = true ∧
      x.world.lockUser 0 = none ∧
      World.joinMatch World.sampleParse x.world 0 World.matchText = .error .nullDeref ∧
      ¬ ∀ y ∈ visited tr x, UsersLocked World.sampleParse y := by
  obtain ⟨tr, h, -⟩ := login_exec fun _ => []
  have h1 := h.next (.server (.dispatch "a" (World.submitIdentity []) 0))
    ⟨malformedWorld, .idle, none, []⟩ ⟨nofun, fun _ => rfl, _, rfl, rfl⟩
  refine ⟨_, _, h1, rfl, rfl, rfl, rfl, rfl, fun hall => ?_⟩
  have hlast := hall ⟨malformedWorld, .idle, none, []⟩ (by simp [visited])
  exact hlast.joins rfl "a" 0 rfl World.matchText rfl

end AsyncWorld

end GameServer
