import GameServer.Server.Authorization

/-! `DoProcess` on the thread of `Process_Async` next to `DoRemovePlayer` on the main
thread. The session is looked up under `m_user_mtx`, and its raw pointer is used after
the mutex is free again. -/

namespace GameServer

open Lib

/-- The statement of `DoRemovePlayer` that the main thread executes next. -/
inductive RemovalPc where
  | idle
  | userDisconnected (user : Token) (s : SessionRef)
  | close (user : Token) (s : SessionRef)
  | erase (user : Token) (s : SessionRef)
  deriving DecidableEq, Repr

/-- The server with the places of its two threads. -/
structure AsyncWorld where
  world : World
  removal : RemovalPc
  /-- the session that `DoProcess` has found and calls back with, and the data -/
  found : Option (SessionRef × Data)
  /-- the sessions that `DoRemovePlayer` has erased so far; read by proofs only -/
  erased : List SessionRef

namespace AsyncWorld

/-- `DoRemovePlayer` up to its first call: the session is looked up without the mutex. -/
def beginRemoval (x : AsyncWorld) (user : Token) : AsyncWorld :=
  match x.world.mSocketUsers.lookup user with
  | none => x
  | some s => { x with removal := .userDisconnected user s }

/-- The next statement of `DoRemovePlayer`. -/
def removalStep (x : AsyncWorld) : Option AsyncWorld :=
  match x.removal with
  | .idle => none
  | .userDisconnected user s =>
    some { x with world := x.world.userDisconnected s, removal := .close user s }
  | .close user s => some { x with world := x.world.close s, removal := .erase user s }
  | .erase user s =>
    some { x with
      world := { x.world with mSocketUsers := x.world.mSocketUsers.erase user }
      removal := .idle
      erased := s :: x.erased }

/-- `DoProcess` up to the callback. -/
def doProcessLookup (x : AsyncWorld) (user : Token) (data : Data) : AsyncWorld :=
  { x with found := (x.world.mSocketUsers.lookup user).map fun s => (s, data) }

inductive Event where
  /-- any step of the server but a removal -/
  | server (e : World.Event)
  /-- `Update` pops the queue of removals -/
  | removeNext
  | removalStep
  | lookup (user : Token) (data : Data)
  /-- the callback of the session that was found begins -/
  | callback

/-- The steps of the server that the main thread takes. -/
def OnMainThread : World.Event → Prop
  | .addNext | .dispatch _ _ _ | .createMatch _ _ => True
  | _ => False

section Step

variable (parse : List UInt8 → Option Json) (serialize : Json → List UInt8)

/-- Of the commands only `Match_Command` is registered for the async thread. On a session
that was destroyed the callback is undefined; here it finds the session as it was. -/
def Step (x : AsyncWorld) (e : Event) (x' : AsyncWorld) : Prop :=
  match e with
  | .server e => e ≠ .removeNext ∧ (OnMainThread e → x.removal = .idle) ∧
      ∃ w, World.Step parse serialize x.world e w ∧ x' = { x with world := w }
  | .removeNext => x.removal = .idle ∧ ∃ user rest, x.world.mQueueUserRemove = user :: rest ∧
      x' = { x with world := { x.world with mQueueUserRemove := rest } }.beginRemoval user
  | .removalStep => x.removalStep = some x'
  | .lookup user data => x.found = none ∧ x' = x.doProcessLookup user data
  | .callback => ∃ s data, x.found = some (s, data) ∧
      x' = { x with world := x.world.routMatchNetCommand s data, found := none }

structure Init (x : AsyncWorld) : Prop where
  world : x.world.Init
  removal : x.removal = .idle
  found : x.found = none
  erased : x.erased = []

def system : System AsyncWorld Event := ⟨Init, Step parse serialize⟩

end Step

/-- A callback that may begin now is not for a session that was erased. -/
def Silent (x : AsyncWorld) : Prop := ∀ s data, x.found = some (s, data) → s ∉ x.erased

/-- `DoRemovePlayer` erases the session that `DoProcess` has found and not called back
with yet. -/
def ErasesFound (x : AsyncWorld) (e : Event) : Prop :=
  e = .removalStep ∧ ∃ user s data, x.removal = .erase user s ∧ x.found = some (s, data)

end AsyncWorld

namespace World

variable {parse : List UInt8 → Option Json} {serialize : Json → List UInt8} {w w' : World}
  {s : SessionRef} {p : PlayerRef}

/-! ### What a step does to the sessions -/

/-- The table and the queue of the sessions, and the tokens, are as they were. -/
structure SameSessions (w w' : World) : Prop where
  nextSession : w'.nextSession = w.nextSession
  mSocketUsers : w'.mSocketUsers = w.mSocketUsers
  mQueueUserAdd : w'.mQueueUserAdd = w.mQueueUserAdd
  sessionToken : ∀ s, (w'.sessions s).sessionToken = (w.sessions s).sessionToken
  held : w'.held = w.held

theorem SameSessions.refl (w : World) : w.SameSessions w := ⟨rfl, rfl, rfl, fun _ => rfl, rfl⟩

theorem SameSessions.trans {w₁ w₂ w₃ : World} (h : w₁.SameSessions w₂) (h' : w₂.SameSessions w₃) :
    w₁.SameSessions w₃ :=
  ⟨h'.nextSession.trans h.nextSession, h'.mSocketUsers.trans h.mSocketUsers,
    h'.mQueueUserAdd.trans h.mQueueUserAdd, fun s => (h'.sessionToken s).trans (h.sessionToken s),
    h'.held.trans h.held⟩

theorem sameSessions_send (w : World) (s : SessionRef) (command : OpCodes.Client)
    (data : List UInt8) : w.SameSessions (w.send s command data) := by
  obtain ⟨sent, h⟩ := send_eq w s command data
  rw [h]
  exact ⟨rfl, rfl, rfl, fun _ => rfl, rfl⟩

theorem sameSessions_close (w : World) (s : SessionRef) : w.SameSessions (w.close s) := by
  cases hc : (w.sessions s).connected with
  | false =>
    rw [close_of_not_connected hc]
    exact .refl w
  | true =>
    rw [close_of_connected hc]
    exact ⟨rfl, rfl, rfl,
      setSession_field SocketUser.sessionToken w s SocketUser.closed fun _ => rfl, rfl⟩

theorem sameSessions_userDisconnected (w : World) (s : SessionRef) :
    w.SameSessions (w.userDisconnected s) := by
  rw [userDisconnected_eq]
  exact ⟨rfl, rfl, rfl, fun _ => rfl, rfl⟩

theorem sameSessions_routMatchNetCommand (w : World) (s : SessionRef) (data : Data) :
    w.SameSessions (w.routMatchNetCommand s data) := by
  rcases routMatchNetCommand_cases w s data with ⟨p, m, -, heq⟩ | ⟨-, heq⟩
  · rw [heq]
    exact ⟨rfl, rfl, rfl, fun _ => rfl, rfl⟩
  · rw [heq]
    exact .refl w

theorem sameSessions_userConnected (h : w.userConnected s = .ok w') : w.SameSessions w' := by
  unfold userConnected at h
  split at h
  · cases h
    exact .refl w
  · split at h
    · cases h
      exact .refl w
    · obtain ⟨⟨r, c⟩, -, h⟩ := Exec.bind_eq_ok.mp h
      cases h
      exact ⟨rfl, rfl, rfl, fun _ => rfl, rfl⟩

theorem sameSessions_userIdentify {now : UInt64} {buffer : List UInt8} (hheld : w.held = [])
    (h : userIdentify parse now w s buffer = .ok w') : w.SameSessions w' := by
  have hlogging : ∀ x t, ((w.loggingIn s x).sessions t).sessionToken = (w.sessions t).sessionToken :=
    fun x t => setSession_field SocketUser.sessionToken w s
      (fun y => { y with user := some w.nextPlayer, hasUser := true }) (fun _ => rfl) t
  obtain ⟨x, -, -, sent, ⟨-, -, -, rfl⟩ | ⟨-, rfl⟩⟩ := userIdentify_ok hheld h
  · refine ⟨rfl, rfl, rfl, fun t => Eq.trans ?_ (hlogging x t), hheld.symm⟩
    exact setSession_field SocketUser.sessionToken (w.loggingIn s x) s
      (fun y => { y with isAuthenticated := true }) (fun _ => rfl) t
  · have hclose := sameSessions_close (w.loggingIn s x) s
    exact ⟨hclose.nextSession, hclose.mSocketUsers, hclose.mQueueUserAdd,
      fun t => (hclose.sessionToken t).trans (hlogging x t), hheld.symm⟩

theorem sameSessions_joinMatch {buffer : List UInt8} (h : joinMatch parse w s buffer = .ok w') :
    w.SameSessions w' := by
  obtain ⟨w₁, reply, rfl, hw₁⟩ := joinMatch_ok h
  refine SameSessions.trans ?_ (sameSessions_send w₁ s .joinMatchResult reply)
  rcases hw₁ with rfl | ⟨p, m, r, c, -, -, rfl⟩
  · exact .refl w₁
  · exact ⟨rfl, rfl, rfl, fun _ => rfl, rfl⟩

theorem sameSessions_dispatch (hheld : w.held = []) {now : UInt64} {user : Token} {data : Data}
    (h : doProcess parse now w user data = .ok w') : w.SameSessions w' := by
  rcases doProcess_cases h with rfl | ⟨s, h | h | rfl | h⟩
  · exact .refl w'
  · rcases systemCmd_cases h with rfl | ⟨user, rfl⟩ | ⟨command, reply, rfl⟩
    · exact .refl w'
    · exact ⟨rfl, rfl, rfl, fun _ => rfl, rfl⟩
    · exact sameSessions_send w s command reply
  · exact sameSessions_userIdentify hheld h
  · exact sameSessions_routMatchNetCommand w s data
  · exact sameSessions_joinMatch h

/-- Only a new session and the turns of the two loops of `Update` change the tables. -/
theorem sameSessions_step {e : Event} (hheld : w.held = []) (h : Step parse serialize w e w')
    (hc : ∀ token, e ≠ .connect token) (ha : e ≠ .addNext) (hr : e ≠ .removeNext) :
    w.SameSessions w' := by
  cases e with
  | connect token => exact absurd rfl (hc token)
  | addNext => exact absurd rfl ha
  | removeNext => exact absurd rfl hr
  | removePlayer user =>
    cases h
    exact ⟨rfl, rfl, rfl, fun _ => rfl, rfl⟩
  | reset s =>
    obtain ⟨-, rfl⟩ := h
    exact sameSessions_close w s
  | dispatch user data now => exact sameSessions_dispatch hheld h
  | createMatch id shortId =>
    obtain ⟨-, rfl⟩ := h
    unfold createMatch
    split_ifs
    · exact .refl w
    · exact ⟨rfl, rfl, rfl, fun _ => rfl, rfl⟩
  | takeCommands m =>
    obtain ⟨-, -, rfl⟩ := h
    exact ⟨rfl, rfl, rfl, fun _ => rfl, rfl⟩
  | executeNext m =>
    obtain ⟨-, cmd, rest, c, out, -, -, rfl⟩ := h
    exact ⟨rfl, rfl, rfl, fun _ => rfl, rfl⟩
  | thread m call =>
    obtain ⟨-, c, -, rfl⟩ := h
    exact ⟨rfl, rfl, rfl, fun _ => rfl, rfl⟩

/-! ### A session is added once -/

/-- The sessions in the table and in the queue are different ones, all created, and the
table is keyed by their tokens. -/
structure Filed (w : World) : Prop where
  held : w.held = []
  queue : w.mQueueUserAdd.Nodup
  queued_created : ∀ s ∈ w.mQueueUserAdd, s < w.nextSession
  live_created : ∀ t s, w.mSocketUsers.lookup t = some s → s < w.nextSession
  queued_new : ∀ s ∈ w.mQueueUserAdd, ∀ t, w.mSocketUsers.lookup t ≠ some s
  token : ∀ t s, w.mSocketUsers.lookup t = some s → (w.sessions s).sessionToken = t

/-- The session has left the table, and nothing will add it again. -/
structure Gone (w : World) (s : SessionRef) : Prop where
  created : s < w.nextSession
  queued : s ∉ w.mQueueUserAdd
  live : ∀ t, w.mSocketUsers.lookup t ≠ some s

theorem SameSessions.filed (h : w.SameSessions w') (hw : w.Filed) : w'.Filed := by
  refine ⟨h.held.trans hw.held, ?_, fun s hs => ?_, fun t s hs => ?_, fun s hs t ht => ?_,
    fun t s hs => ?_⟩
  · rw [h.mQueueUserAdd]
    exact hw.queue
  · rw [h.nextSession]
    exact hw.queued_created s (h.mQueueUserAdd ▸ hs)
  · rw [h.nextSession]
    exact hw.live_created t s (h.mSocketUsers ▸ hs)
  · exact hw.queued_new s (h.mQueueUserAdd ▸ hs) t (h.mSocketUsers ▸ ht)
  · rw [h.sessionToken]
    exact hw.token t s (h.mSocketUsers ▸ hs)

theorem SameSessions.gone (h : w.SameSessions w') (hs : w.Gone s) : w'.Gone s := by
  refine ⟨?_, ?_, fun t ht => hs.live t (h.mSocketUsers ▸ ht)⟩
  · rw [h.nextSession]
    exact hs.created
  · rw [h.mQueueUserAdd]
    exact hs.queued

theorem Filed.connect (hw : w.Filed) (token : Token) : (w.connect token).Filed := by
  have hnew : w.nextSession ∉ w.mQueueUserAdd :=
    fun hs => lt_irrefl _ (hw.queued_created _ hs)
  refine ⟨hw.held, ?_, fun s hs => ?_, fun t s hs => (hw.live_created t s hs).trans (Nat.lt_succ_self _),
    fun s hs t ht => ?_, fun t s hs => ?_⟩
  · refine List.nodup_append.mpr ⟨hw.queue, List.nodup_singleton _, ?_⟩
    rintro s hs t ht rfl
    exact hnew (List.mem_singleton.mp ht ▸ hs)
  · rcases List.mem_append.mp hs with hs | hs
    · exact (hw.queued_created s hs).trans (Nat.lt_succ_self _)
    · rw [List.mem_singleton.mp hs]
      exact Nat.lt_succ_self _
  · rcases List.mem_append.mp hs with hs | hs
    · exact hw.queued_new s hs t ht
    · rw [List.mem_singleton.mp hs] at ht
      exact lt_irrefl _ (hw.live_created t _ ht)
  · have hold : (w.connect token).sessions s = w.sessions s :=
      Function.update_of_ne (hw.live_created t s hs).ne ..
    rw [hold]
    exact hw.token t s hs

theorem Gone.connect (hs : w.Gone s) (token : Token) : (w.connect token).Gone s := by
  refine ⟨hs.created.trans (Nat.lt_succ_self _), fun hq => ?_, hs.live⟩
  rcases List.mem_append.mp hq with hq | hq
  · exact hs.queued hq
  · exact hs.created.ne (List.mem_singleton.mp hq)

/-- A session moves from the queue to the table. -/
theorem filed_addNext {rest : List SessionRef} (hw : w.Filed) (hq : w.mQueueUserAdd = s :: rest)
    (h : { w with mQueueUserAdd := rest }.doAddPlayer s = .ok w') :
    w'.Filed ∧ ∀ t, w.Gone t → w'.Gone t := by
  have hfirst : s ∈ w.mQueueUserAdd := by
    rw [hq]
    exact List.mem_cons_self
  have hrest : ∀ t ∈ rest, t ∈ w.mQueueUserAdd := fun t ht => by
    rw [hq]
    exact List.mem_cons_of_mem s ht
  have hnodup : s ∉ rest ∧ rest.Nodup := List.nodup_cons.mp (hq ▸ hw.queue)
  unfold doAddPlayer at h
  split_ifs at h with hhas
  · cases h
    exact ⟨⟨hw.held, hnodup.2, fun t ht => hw.queued_created t (hrest t ht), hw.live_created,
      fun t ht => hw.queued_new t (hrest t ht), hw.token⟩,
      fun t ht => ⟨ht.created, fun hq => ht.queued (hrest t hq), ht.live⟩⟩
  · have hnone : w.mSocketUsers.lookup (w.sessions s).sessionToken = none :=
      Option.not_isSome_iff_eq_none.mp hhas
    have hsame := sameSessions_userConnected h
    refine ⟨hsame.filed ⟨hw.held, hnodup.2, fun t ht => hw.queued_created t (hrest t ht),
      fun t r hr => ?_, fun r hr t ht => ?_, fun t r hr => ?_⟩, fun t ht => hsame.gone ⟨ht.created,
      fun hq => ht.queued (hrest t hq), fun token htoken => ?_⟩⟩
    · rcases (lookup_insert_eq_some hnone).mp hr with ⟨-, rfl⟩ | hr
      · exact hw.queued_created _ hfirst
      · exact hw.live_created t r hr
    · rcases (lookup_insert_eq_some hnone).mp ht with ⟨-, rfl⟩ | ht
      · exact hnodup.1 hr
      · exact hw.queued_new r (hrest r hr) t ht
    · rcases (lookup_insert_eq_some hnone).mp hr with ⟨rfl, rfl⟩ | hr
      · rfl
      · exact hw.token t r hr
    · rcases (lookup_insert_eq_some hnone).mp htoken with ⟨-, rfl⟩ | htoken
      · exact ht.queued hfirst
      · exact ht.live token htoken

/-- No step but a removal takes a session out of the table, and a session that has left
it does not come back. -/
theorem filed_step {e : Event} (hw : w.Filed) (h : Step parse serialize w e w')
    (hr : e ≠ .removeNext) : w'.Filed ∧ ∀ s, w.Gone s → w'.Gone s := by
  cases e with
  | connect token =>
    cases h
    exact ⟨hw.connect token, fun s hs => hs.connect token⟩
  | addNext =>
    obtain ⟨s, rest, hq, h⟩ := h
    exact filed_addNext hw hq h
  | removeNext => exact absurd rfl hr
  | _ =>
    have hsame := sameSessions_step hw.held h nofun nofun nofun
    exact ⟨hsame.filed hw, fun s => hsame.gone⟩

/-- Erasing the token of a session takes it out of the table for good. -/
theorem Filed.erase {user : Token} (hw : w.Filed) (hs : w.mSocketUsers.lookup user = some s) :
    Filed { w with mSocketUsers := w.mSocketUsers.erase user } ∧
      ∀ t, t = s ∨ w.Gone t → Gone { w with mSocketUsers := w.mSocketUsers.erase user } t := by
  have hsub : ∀ t r, (w.mSocketUsers.erase user).lookup t = some r →
      w.mSocketUsers.lookup t = some r := fun t r hr => (lookup_erase_eq_some.mp hr).2
  refine ⟨⟨hw.held, hw.queue, hw.queued_created, fun t r hr => hw.live_created t r (hsub t r hr),
    fun r hq t ht => hw.queued_new r hq t (hsub t r ht), fun t r hr => hw.token t r (hsub t r hr)⟩, ?_⟩
  rintro t (rfl | ht)
  · refine ⟨hw.live_created user t hs, fun hq => hw.queued_new t hq user hs, fun token htoken => ?_⟩
    obtain ⟨hne, htoken⟩ := lookup_erase_eq_some.mp htoken
    exact hne ((hw.token token t htoken).symm.trans (hw.token user t hs))
  · exact ⟨ht.created, ht.queued, fun token htoken => ht.live token (hsub token t htoken)⟩

end World

namespace AsyncWorld

variable {parse : List UInt8 → Option Json} {serialize : Json → List UInt8} {x x' : AsyncWorld}

/-! ### The removal and the lookup -/

/-- The session that `DoRemovePlayer` is at, with its token. -/
def removing : RemovalPc → Option (Token × SessionRef)
  | .idle => none
  | .userDisconnected user s | .close user s | .erase user s => some (user, s)

/-- The session of a removal under way is still in the table, and those that were erased
are gone from it. -/
structure Inv (x : AsyncWorld) : Prop where
  filed : x.world.Filed
  removing : ∀ user s, removing x.removal = some (user, s) →
    x.world.mSocketUsers.lookup user = some s
  gone : ∀ s ∈ x.erased, x.world.Gone s

theorem inv_init (h : x.Init) : x.Inv := by
  refine ⟨⟨h.world.held, ?_, ?_, ?_, ?_, ?_⟩, ?_, ?_⟩
  · rw [h.world.mQueueUserAdd]
    exact List.nodup_nil
  · rw [h.world.mQueueUserAdd]
    exact List.forall_mem_nil _
  · rw [h.world.mSocketUsers]
    exact nofun
  · rw [h.world.mQueueUserAdd]
    exact List.forall_mem_nil _
  · rw [h.world.mSocketUsers]
    exact nofun
  · rw [h.removal]
    exact nofun
  · rw [h.erased]
    exact List.forall_mem_nil _

/-- The world goes on and the table of the sessions stays. -/
theorem Inv.sameSessions {w : World} (hx : x.Inv) (h : x.world.SameSessions w) :
    Inv { x with world := w } := by
  refine ⟨h.filed hx.filed, fun user s hs => ?_, fun s hs => h.gone (hx.gone s hs)⟩
  rw [h.mSocketUsers]
  exact hx.removing user s hs

theorem inv_server {w : World} {e : World.Event} (hx : x.Inv) (hr : e ≠ .removeNext)
    (hmain : OnMainThread e → x.removal = .idle) (h : World.Step parse serialize x.world e w) :
    Inv { x with world := w } := by
  obtain ⟨hfiled, hgone⟩ := World.filed_step hx.filed h hr
  refine ⟨hfiled, fun user s hs => ?_, fun s hs => hgone s (hx.gone s hs)⟩
  have hlookup := hx.removing user s hs
  cases e with
  | addNext =>
    -- the main thread is at a removal
    rw [hmain trivial] at hs
    cases hs
  | removeNext => exact absurd rfl hr
  | connect token =>
    cases h
    exact hlookup
  | _ =>
    rw [(World.sameSessions_step hx.filed.held h nofun nofun nofun).mSocketUsers]
    exact hlookup

theorem inv_beginRemoval {user : Token} (hx : x.Inv) : (x.beginRemoval user).Inv := by
  unfold beginRemoval
  split
  · exact hx
  · next s hs =>
    refine ⟨hx.filed, fun user' s' heq => ?_, hx.gone⟩
    cases heq
    exact hs

/-- A statement of the removal leaves the tables alone, or it is the last one and erases. -/
theorem removalStep_cases (h : x.removalStep = some x') :
    (∃ w pc, x.world.SameSessions w ∧ removing pc = removing x.removal ∧
      (∀ user s, x.removal ≠ .erase user s) ∧ x' = { x with world := w, removal := pc }) ∨
    ∃ user s, x.removal = .erase user s ∧ x' = { x with
      world := { x.world with mSocketUsers := x.world.mSocketUsers.erase user }
      removal := .idle
      erased := s :: x.erased } := by
  unfold removalStep at h
  cases hpc : x.removal with
  | idle =>
    rw [hpc] at h
    cases h
  | userDisconnected user s =>
    rw [hpc] at h
    cases h
    exact Or.inl ⟨_, .close user s, World.sameSessions_userDisconnected x.world s, rfl, nofun, rfl⟩
  | close user s =>
    rw [hpc] at h
    cases h
    exact Or.inl ⟨_, .erase user s, World.sameSessions_close x.world s, rfl, nofun, rfl⟩
  | erase user s =>
    rw [hpc] at h
    cases h
    exact Or.inr ⟨user, s, rfl, rfl⟩

theorem inv_removalStep (hx : x.Inv) (h : x.removalStep = some x') : x'.Inv := by
  rcases removalStep_cases h with ⟨w, pc, hsame, hpc, -, rfl⟩ | ⟨user, s, hpc, rfl⟩
  · have hnext := hx.sameSessions hsame
    refine ⟨hnext.filed, fun user s hs => hnext.removing user s ?_, hnext.gone⟩
    exact hpc.symm.trans hs
  · obtain ⟨hfiled, hgone⟩ := hx.filed.erase (hx.removing user s (by rw [hpc]; rfl))
    refine ⟨hfiled, nofun, fun t ht => hgone t ?_⟩
    exact (List.mem_cons.mp ht).imp_right (hx.gone t)

theorem inv_step {e : Event} (hx : x.Inv) (h : Step parse serialize x e x') : x'.Inv := by
  cases e with
  | server e =>
    obtain ⟨hr, hmain, w, h, rfl⟩ := h
    exact inv_server hx hr hmain h
  | removeNext =>
    obtain ⟨-, user, rest, -, rfl⟩ := h
    exact inv_beginRemoval (hx.sameSessions ⟨rfl, rfl, rfl, fun _ => rfl, rfl⟩)
  | removalStep => exact inv_removalStep hx h
  | lookup user data =>
    obtain ⟨-, rfl⟩ := h
    exact ⟨hx.filed, hx.removing, hx.gone⟩
  | callback =>
    obtain ⟨s, data, -, rfl⟩ := h
    have hnext := hx.sameSessions (World.sameSessions_routMatchNetCommand x.world s data)
    exact ⟨hnext.filed, hnext.removing, hnext.gone⟩

/-- Only the last statement of `DoRemovePlayer` can take the session that was found. -/
theorem silent_removalStep (hsilent : x.Silent) (h : x.removalStep = some x') :
    x'.Silent ↔ ¬ x.ErasesFound .removalStep := by
  rcases removalStep_cases h with ⟨w, pc, -, -, hnot, rfl⟩ | ⟨user, s, hpc, rfl⟩
  · refine iff_of_true hsilent ?_
    rintro ⟨-, user, s, -, hpc, -⟩
    exact hnot user s hpc
  · constructor
    · rintro hnew ⟨-, user', s', data, heq, hfound⟩
      rw [hpc] at heq
      cases heq
      exact hnew s data hfound List.mem_cons_self
    · intro hnot t data hfound ht
      rcases List.mem_cons.mp ht with rfl | ht
      · exact hnot ⟨rfl, user, t, data, hpc, hfound⟩
      · exact hsilent t data hfound ht

/-- One step and the callback that may begin: a lookup finds no session that is gone. -/
theorem silent_step {e : Event} (hx : x.Inv) (hsilent : x.Silent)
    (h : Step parse serialize x e x') : x'.Silent ↔ ¬ x.ErasesFound e := by
  cases e with
  | server e =>
    obtain ⟨-, -, w, -, rfl⟩ := h
    exact iff_of_true hsilent nofun
  | removeNext =>
    obtain ⟨-, user, rest, -, rfl⟩ := h
    refine iff_of_true ?_ nofun
    unfold beginRemoval
    split
    · exact hsilent
    · exact hsilent
  | removalStep => exact silent_removalStep hsilent h
  | lookup user data =>
    obtain ⟨-, rfl⟩ := h
    refine iff_of_true (fun s data' hfound hs => ?_) nofun
    obtain ⟨s', hs', heq⟩ := Option.map_eq_some_iff.mp hfound
    cases heq
    exact (hx.gone s hs).live user hs'
  | callback =>
    obtain ⟨s, data, -, rfl⟩ := h
    exact iff_of_true (fun _ _ hfound => by cases hfound) nofun

/-- In a whole run no callback can begin for a session that was erased, if and only if no
session is erased between its lookup and its callback. -/
theorem silent_iff (parse : List UInt8 → Option Json) (serialize : Json → List UInt8)
    (tr : List (AsyncWorld × Event)) (x : AsyncWorld) (h : (system parse serialize).Exec tr x) :
    (∀ y ∈ visited tr x, y.Silent) ↔ ∀ y ∈ tr, ¬ ErasesFound y.1 y.2 := by
  refine h.safe_iff (fun x => x.Inv ∧ x.Silent) Silent (fun x e => ¬ x.ErasesFound e)
    (fun x hi => ⟨inv_init hi, fun s data hfound => ?_⟩) (fun _ => And.right)
    (fun x e x' hx hnot hst => ⟨inv_step hx.1 hst, (silent_step hx.1 hx.2 hst).mpr hnot⟩)
    fun x e x' hx hbad hst => mt (silent_step hx.1 hx.2 hst).mp hbad
  rw [Init.found hi] at hfound
  cases hfound

theorem removalStep_erase {user : Token} {s : SessionRef} (h : x.removal = .erase user s) :
    x.removalStep = some { x with
      world := { x.world with mSocketUsers := x.world.mSocketUsers.erase user }
      removal := .idle
      erased := s :: x.erased } := by
  unfold removalStep
  rw [h]

/-- Without other steps in between the statements make up `DoRemovePlayer`. -/
theorem removal_uninterrupted {user : Token} {s : SessionRef}
    (hs : x.world.mSocketUsers.lookup user = some s) : ∃ x₁ x₂ x₃,
      (x.beginRemoval user).removalStep = some x₁ ∧ x₁.removalStep = some x₂ ∧
        x₂.removalStep = some x₃ ∧ x₃.removal = .idle ∧
        x₃.world = x.world.doRemovePlayer user := by
  unfold beginRemoval
  rw [hs]
  refine ⟨_, _, _, rfl, rfl, rfl, rfl, ?_⟩
  rw [World.doRemovePlayer_of_some hs]
  have hclose := World.sameSessions_close (x.world.userDisconnected s) s
  have htable := (World.sameSessions_userDisconnected x.world s).trans hclose
  rw [← htable.mSocketUsers]

/-! ### A lookup before the last statement of a removal -/

def jump : Data := ⟨.tcp, OpCodes.Server.matchCommand.toByte, [0x03, 0x01]⟩

/-- The removal of the session "a" has only the erasing left to do. -/
theorem erasing (parse : List UInt8 → Option Json) (serialize : Json → List UInt8) :
    ∃ tr x, (system parse serialize).Exec tr x ∧ x.removal = .erase "a" 0 ∧
      x.world.mSocketUsers.lookup "a" = some 0 ∧ x.found = none ∧ x.erased = [] ∧
      ∀ y ∈ tr, ¬ ErasesFound y.1 y.2 := by
  have h0 : (system parse serialize).Exec [] ⟨World.emptyWorld, .idle, none, []⟩ :=
    .nil ⟨⟨rfl, rfl, rfl, rfl, rfl, rfl, rfl, rfl, rfl⟩, rfl, rfl, rfl⟩
  have h1 := h0.next (.server (.connect "a")) ⟨World.connectedWorld, .idle, none, []⟩
    ⟨nofun, nofun, _, rfl, rfl⟩
  have h2 := h1.next (.server .addNext) ⟨World.addedWorld, .idle, none, []⟩
    ⟨nofun, fun _ => rfl, _, ⟨0, [], rfl, rfl⟩, rfl⟩
  have h3 := h2.next (.server (.removePlayer "a")) ⟨World.addedWorld.removePlayer "a", .idle, none, []⟩
    ⟨nofun, nofun, _, rfl, rfl⟩
  have h4 := h3.next .removeNext ⟨World.addedWorld, .userDisconnected "a" 0, none, []⟩
    ⟨rfl, "a", [], rfl, rfl⟩
  have h5 := h4.next .removalStep _ rfl
  have h6 := h5.next .removalStep _ rfl
  refine ⟨_, _, h6, rfl, rfl, rfl, rfl, ?_⟩
  -- nothing was looked up in this run
  simp only [List.nil_append, List.cons_append, List.forall_mem_cons]
  refine ⟨?_, ?_, ?_, ?_, ?_, ?_, List.forall_mem_nil _⟩ <;> rintro ⟨-, _, _, _, -, hfound⟩ <;>
    cases hfound

/-- The callback is made before the session is erased. -/
theorem callback_in_time : ∃ tr x, (system World.sampleParse fun _ => []).Exec tr x ∧
    x.erased = [0] ∧ (∃ y ∈ tr, y.2 = .callback) ∧ ∀ y ∈ visited tr x, y.Silent := by
  obtain ⟨tr, x, h0, hpc, hlookup, hfound, herased, htr⟩ := erasing World.sampleParse fun _ => []
  have h1 := h0.next (.lookup "a" jump) { x with found := some (0, jump) }
    ⟨hfound, by rw [doProcessLookup, hlookup]; rfl⟩
  have h2 := h1.next .callback
    { x with world := x.world.routMatchNetCommand 0 jump, found := none } ⟨0, jump, rfl, rfl⟩
  have h3 := h2.next .removalStep _ (removalStep_erase hpc)
  refine ⟨_, _, h3, congrArg (List.cons 0) herased, ?_, (silent_iff _ _ _ _ h3).mpr ?_⟩
  · exact ⟨_, List.mem_append_left _ (List.mem_append_right _ (List.mem_singleton.mpr rfl)), rfl⟩
  · simp only [List.forall_mem_append, List.forall_mem_singleton]
    refine ⟨⟨⟨htr, nofun⟩, nofun⟩, ?_⟩
    rintro ⟨-, _, _, _, -, hnone⟩
    cases hnone

/-- The session is erased between the lookup and the callback, which begins then. -/
theorem callback_after_erase : ∃ tr x x', (system World.sampleParse fun _ => []).Exec tr x ∧
    x.erased = [0] ∧ x.found = some (0, jump) ∧ ¬ x.Silent ∧
    Step World.sampleParse (fun _ => []) x .callback x' := by
  obtain ⟨tr, x, h0, hpc, hlookup, hfound, herased, -⟩ := erasing World.sampleParse fun _ => []
  have h1 := h0.next (.lookup "a" jump) { x with found := some (0, jump) }
    ⟨hfound, by rw [doProcessLookup, hlookup]; rfl⟩
  have h2 := h1.next .removalStep _ (removalStep_erase hpc)
  refine ⟨_, _, _, h2, congrArg (List.cons 0) herased, rfl, fun hsilent => ?_, 0, jump, rfl, rfl⟩
  exact hsilent 0 jump rfl List.mem_cons_self

end AsyncWorld

end GameServer
