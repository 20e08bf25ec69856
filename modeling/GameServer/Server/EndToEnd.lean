import GameServer.Network.Intake
import GameServer.Server.AsyncRemoval
import GameServer.Server.EventSessions
import GameServer.Server.MatchTraffic

/-! From the bytes of a client to the commands of a match: the receive path and the command
queues, together with the server that the consumers call into. -/

namespace GameServer

open Lib
open scoped List

namespace World

variable {parse : List UInt8 → Option Json} {serialize : Json → List UInt8} {w w' : World}

/-! ### The sessions of the server -/

/-- A turn of the removal loop. -/
theorem sameSessions_doRemovePlayer (w : World) (user : Token) :
    (w.mSocketUsers.lookup user = none ∧ w.doRemovePlayer user = w) ∨
    ∃ s w₁, w.mSocketUsers.lookup user = some s ∧ w.SameSessions w₁ ∧
      w.doRemovePlayer user = { w₁ with mSocketUsers := w₁.mSocketUsers.erase user } := by
  cases hs : w.mSocketUsers.lookup user with
  | none =>
    refine .inl ⟨rfl, ?_⟩
    unfold doRemovePlayer
    rw [hs]
  | some s =>
    have hsame := (sameSessions_userDisconnected w s).trans (sameSessions_close _ s)
    refine .inr ⟨s, (w.userDisconnected s).close s, rfl, hsame, ?_⟩
    rw [doRemovePlayer_of_some hs, hsame.mSocketUsers]

theorem filed_removeNext {user : Token} {rest : List Token} (hw : w.Filed)
    (h : w' = { w with mQueueUserRemove := rest }.doRemovePlayer user) : w'.Filed := by
  subst h
  have hfiled : Filed { w with mQueueUserRemove := rest } :=
    ⟨hw.held, hw.queue, hw.queued_created, hw.live_created, hw.queued_new, hw.token⟩
  rcases sameSessions_doRemovePlayer { w with mQueueUserRemove := rest } user with
    ⟨-, heq⟩ | ⟨s, w₁, hs, hsame, heq⟩
  · rw [heq]
    exact hfiled
  · rw [heq]
    exact ((hsame.filed hfiled).erase (hsame.mSocketUsers ▸ hs)).1

theorem filed_next {e : Event} (hw : w.Filed) (h : Step parse serialize w e w') : w'.Filed := by
  by_cases hr : e = .removeNext
  · subst hr
    obtain ⟨user, rest, -, h⟩ := h
    exact filed_removeNext hw h
  · exact (filed_step hw h hr).1

theorem connect_token (w : World) (token : Token) (s : SessionRef) :
    ((w.connect token).sessions s).sessionToken =
      if s = w.nextSession then token else (w.sessions s).sessionToken := by
  by_cases hs : s = w.nextSession
  · simp [connect, hs]
  · simp [connect, hs]

/-- No step but a new session gives out a token. -/
theorem tokens_step {e : Event} (hw : w.Filed) (h : Step parse serialize w e w')
    (hc : ∀ token, e ≠ .connect token) : w'.nextSession = w.nextSession ∧
      ∀ s, (w'.sessions s).sessionToken = (w.sessions s).sessionToken := by
  cases e with
  | connect token => exact absurd rfl (hc token)
  | addNext =>
    obtain ⟨s, rest, -, h⟩ := h
    unfold doAddPlayer at h
    split_ifs at h
    · cases h
      exact ⟨rfl, fun _ => rfl⟩
    · have hsame := sameSessions_userConnected h
      exact ⟨hsame.nextSession, hsame.sessionToken⟩
  | removeNext =>
    obtain ⟨user, rest, -, rfl⟩ := h
    rcases sameSessions_doRemovePlayer { w with mQueueUserRemove := rest } user with
      ⟨-, heq⟩ | ⟨s, w₁, -, hsame, heq⟩
    · rw [heq]
      exact ⟨rfl, fun _ => rfl⟩
    · rw [heq]
      exact ⟨hsame.nextSession, hsame.sessionToken⟩
  | _ =>
    have hsame := sameSessions_step hw.held h (by simp) (by simp) (by simp)
    exact ⟨hsame.nextSession, hsame.sessionToken⟩

end World

structure Pipeline where
  intake : Intake OpCodes.Server
  world : World

namespace Pipeline

inductive Event where
  /-- a socket, `Process`, or a consumer before its call -/
  | intake (e : Intake.Event OpCodes.Server)
  /-- a consumer calls the callback that it has looked up -/
  | call (t : Thread) (now : UInt64)
  /-- anything else; what `handle_read` asks for is among it -/
  | world (e : World.Event)

/-- Each callback is registered under its opcode, and bytes come for sessions that were
made. The calls and the table of sessions have events of their own. -/
def Ready (s : Pipeline) : Intake.Event OpCodes.Server → Prop
  | .arrive user _ => user < s.world.nextSession
  | .dispatcher (.addCommand cmd callback _ async) =>
    cmd = callback.toByte ∧ (async = true ↔ callback = .matchCommand)
  | .dispatcher (.call _) | .dispatcher (.addSession _) | .dispatcher (.eraseSession _) => False
  | _ => True

/-- `DoProcess` looks a session up in the `m_socket_users` that `Update` keeps. -/
def withSessions (s : Intake OpCodes.Server) (w : World) : Intake OpCodes.Server :=
  { s with dispatcher := { s.dispatcher with mSocketUsers := w.mSocketUsers.keys } }

section Step

variable (token : SessionRef → Token) (parse : List UInt8 → Option Json)
  (serialize : Json → List UInt8)

/-- A session that `DoProcess` has found is still there when it is called back with. The
main thread removes sessions itself; that it does so while the async thread is between
lookup and call is left out. -/
def Step (s : Pipeline) (e : Event) (s' : Pipeline) : Prop :=
  match e with
  | .intake e => s.Ready e ∧ Intake.Step token s.intake e s'.intake ∧ s'.world = s.world
  | .call t now => ∃ p, (s.intake.dispatcher.consumer t).call = some p ∧
      p.commandObj.callback ≠ none ∧ (s.world.mSocketUsers.lookup p.user).isSome = true ∧
      Intake.Step token s.intake (.dispatcher (.call t)) s'.intake ∧
      World.Step parse serialize s.world (.dispatch p.user p.data now) s'.world
  | .world e => (∀ user data now, e ≠ .dispatch user data now) ∧
      (∀ t, e = .connect t → t = token s.world.nextSession) ∧
      World.Step parse serialize s.world e s'.world ∧ s'.intake = withSessions s.intake s'.world

structure Init (s : Pipeline) : Prop where
  intake : s.intake.Init
  world : s.world.Init
  mSocketUsers : s.intake.dispatcher.mSocketUsers = []

def system : System Pipeline Event := ⟨Init, Step token parse serialize⟩

end Step

/-! ### The run of the server -/

def worldStep : Pipeline × Event → Option (World × World.Event)
  | (_, .intake _) => none
  | (s, .call t now) =>
    (s.intake.dispatcher.consumer t).call.map fun p => (s.world, .dispatch p.user p.data now)
  | (s, .world e) => some (s.world, e)

/-- What `Update` does to `m_socket_users` in this step. -/
def sessionsEvent (w : World) : World.Event → Option (Dispatcher.Event OpCodes.Server)
  | .addNext => w.mQueueUserAdd.head?.bind fun s =>
    if w.hasPlayerSession (w.sessions s).sessionToken then none
    else some (.addSession (w.sessions s).sessionToken)
  | .removeNext => w.mQueueUserRemove.head?.bind fun user =>
    if w.hasPlayerSession user then some (.eraseSession user) else none
  | _ => none

def intakeStep : Pipeline × Event →
    Option (Intake OpCodes.Server × Intake.Event OpCodes.Server)
  | (s, .intake e) => some (s.intake, e)
  | (s, .call t _) => some (s.intake, .dispatcher (.call t))
  | (s, .world e) => (sessionsEvent s.world e).map fun d => (s.intake, .dispatcher d)

variable {token : SessionRef → Token} {parse : List UInt8 → Option Json}
  {serialize : Json → List UInt8} {s s' : Pipeline} {tr : List (Pipeline × Event)}

theorem exec_world (h : (system token parse serialize).Exec tr s) :
    (World.system parse serialize).Exec (tr.filterMap worldStep) s.world := by
  refine (System.Exec.project (S := system token parse serialize)
    (T := World.system parse serialize) (·.world) worldStep (fun _ => True)
    (fun s hi => ⟨trivial, hi.world⟩) (fun s e s' _ hst => ⟨trivial, ?_⟩) h).2
  change Step token parse serialize s e s' at hst
  cases e with
  | intake e => exact .inl ⟨rfl, hst.2.2⟩
  | call t now =>
    obtain ⟨p, hp, -, -, -, hworld⟩ := hst
    refine .inr ⟨.dispatch p.user p.data now, ?_, hworld⟩
    simp [worldStep, hp]
  | world e => exact .inr ⟨e, rfl, hst.2.2.1⟩

/-! ### The sessions -/

/-- The table of sessions changes as `Update` changes it. -/
theorem sessions_step {w w' : World} {e : World.Event} (d : Dispatcher OpCodes.Server)
    (hd : d.mSocketUsers = w.mSocketUsers.keys) (hw : w.Filed)
    (h : World.Step parse serialize w e w') :
    (sessionsEvent w e = none ∧ w'.mSocketUsers.keys = w.mSocketUsers.keys) ∨
      ∃ e', sessionsEvent w e = some e' ∧ e'.overTcp = false ∧
        Dispatcher.Step d e' { d with mSocketUsers := w'.mSocketUsers.keys } := by
  cases e with
  | connect token =>
    cases h
    exact .inl ⟨rfl, rfl⟩
  | addNext =>
    obtain ⟨s, rest, hq, h⟩ := h
    unfold World.doAddPlayer at h
    split_ifs at h with hhas
    · cases h
      refine .inl ⟨?_, rfl⟩
      rw [sessionsEvent, hq]
      exact if_pos hhas
    · have hnew : (w.sessions s).sessionToken ∉ w.mSocketUsers.keys := by
        intro hmem
        exact hhas (AList.lookup_isSome.mpr hmem)
      have hkeys : w'.mSocketUsers.keys = (w.sessions s).sessionToken :: d.mSocketUsers := by
        rw [(World.sameSessions_userConnected h).mSocketUsers, AList.keys_insert, hd,
          List.erase_of_not_mem hnew]
      refine .inr ⟨.addSession (w.sessions s).sessionToken, ?_, rfl, ?_⟩
      · rw [sessionsEvent, hq]
        exact if_neg hhas
      · rw [hkeys]
        rfl
  | removeNext =>
    obtain ⟨user, rest, hq, rfl⟩ := h
    rcases World.sameSessions_doRemovePlayer { w with mQueueUserRemove := rest } user with
      ⟨hnone, heq⟩ | ⟨s, w₁, hs, hsame, heq⟩
    · refine .inl ⟨?_, by rw [heq]⟩
      have hhas : w.hasPlayerSession user = false := Option.isSome_eq_false_iff.mpr
        (Option.isNone_iff_eq_none.mpr hnone)
      rw [sessionsEvent, hq, List.head?_cons, Option.bind_some, hhas]
      rfl
    · have hhas : w.hasPlayerSession user = true := Option.isSome_of_mem hs
      have hkeys : (w₁.mSocketUsers.erase user).keys = d.mSocketUsers.filter (· ≠ user) := by
        rw [hsame.mSocketUsers, AList.keys_erase, hd, (AList.keys_nodup _).erase_eq_filter]
        exact List.filter_congr fun x _ => Bool.eq_iff_iff.mpr (by simp)
      refine .inr ⟨.eraseSession user, ?_, rfl, ?_⟩
      · rw [sessionsEvent, hq, List.head?_cons, Option.bind_some, hhas]
        rfl
      · rw [heq, hkeys]
        rfl
  | _ =>
    have hsame := World.sameSessions_step hw.held h (by simp) (by simp) (by simp)
    exact .inl ⟨rfl, congrArg AList.keys hsame.mSocketUsers⟩

structure Inv (token : SessionRef → Token) (s : Pipeline) : Prop where
  filed : s.world.Filed
  tokens : ∀ u < s.world.nextSession, (s.world.sessions u).sessionToken = token u
  table : s.intake.dispatcher.mSocketUsers = s.world.mSocketUsers.keys

/-- Nothing before a call changes the table of sessions. -/
theorem table_intake {e : Intake.Event OpCodes.Server} (he : s.Ready e)
    (h : Intake.Step token s.intake e s'.intake) :
    s'.intake.dispatcher.mSocketUsers = s.intake.dispatcher.mSocketUsers := by
  have hcommand : ∀ (d : Dispatcher OpCodes.Server) (cmd : UInt8),
      (d.commandAt cmd).2.mSocketUsers = d.mSocketUsers := by
    intro d cmd
    unfold Dispatcher.commandAt
    split <;> rfl
  cases e with
  | arrive user bytes =>
    rw [h]
  | handleRead user error isOpen lengthBuff rest =>
    rw [h.2.2.2]
    change (Intake.process _ _).mSocketUsers = _
    unfold Intake.process
    split
    · exact hcommand _ _
    · rfl
  | dispatcher e =>
    obtain ⟨-, d, hst, heq⟩ := h
    rw [heq]
    change d.mSocketUsers = _
    cases e with
    | addCommand cmd callback obj async =>
      rw [hst]
      unfold Dispatcher.addCommand
      split_ifs <;> rfl
    | receive user command data type =>
      rw [hst]
      exact hcommand _ _
    | push i =>
      obtain ⟨x, -, rfl⟩ := hst
      rfl
    | startAsync =>
      rw [hst]
    | duplicate t =>
      obtain ⟨-, -, rfl⟩ := hst
      rfl
    | lookup t =>
      obtain ⟨c, rest, -, -, rfl⟩ := hst
      rw [Dispatcher.doProcessLookup_snd]
    | call t | addSession user | eraseSession user => exact he.elim

theorem inv_init (h : Init s) : Inv token s := by
  have hw := h.world
  refine ⟨⟨hw.held, ?_, ?_, ?_, ?_, ?_⟩, ?_, ?_⟩
  · simp [hw.mQueueUserAdd]
  · simp [hw.mQueueUserAdd]
  · simp [hw.mSocketUsers]
  · simp [hw.mQueueUserAdd]
  · simp [hw.mSocketUsers]
  · simp [hw.nextSession]
  · rw [h.mSocketUsers, hw.mSocketUsers]
    rfl

theorem inv_step {e : Event} (hs : Inv token s) (h : Step token parse serialize s e s') :
    Inv token s' := by
  cases e with
  | intake e =>
    obtain ⟨hready, hst, hworld⟩ := h
    refine ⟨hworld ▸ hs.filed, fun u hu => ?_, ?_⟩
    · rw [hworld] at hu ⊢
      exact hs.tokens u hu
    · rw [table_intake hready hst, hworld, hs.table]
  | call t now =>
    obtain ⟨p, -, -, -, hintake, hworld⟩ := h
    have hsame := World.sameSessions_dispatch hs.filed.held hworld
    refine ⟨hsame.filed hs.filed, fun u hu => ?_, ?_⟩
    · rw [hsame.sessionToken]
      exact hs.tokens u (hsame.nextSession ▸ hu)
    · obtain ⟨-, d, ⟨q, -, rfl⟩, heq⟩ := hintake
      rw [heq, hsame.mSocketUsers, ← hs.table]
  | world e =>
    obtain ⟨-, htoken, hworld, hintake⟩ := h
    refine ⟨World.filed_next hs.filed hworld, fun u hu => ?_, ?_⟩
    · by_cases hc : ∃ t, e = .connect t
      · obtain ⟨t, rfl⟩ := hc
        change s'.world = s.world.connect t at hworld
        rw [hworld] at hu ⊢
        rw [World.connect_token]
        split_ifs with hnew
        · rw [hnew]
          exact htoken t rfl
        · exact hs.tokens u (Nat.lt_of_le_of_ne (Nat.le_of_lt_succ hu) hnew)
      · obtain ⟨hnext, hsame⟩ := World.tokens_step hs.filed hworld fun t ht => hc ⟨t, ht⟩
        rw [hsame]
        exact hs.tokens u (hnext ▸ hu)
    · rw [hintake]
      rfl

theorem exec_inv (h : (system token parse serialize).Exec tr s) : Inv token s :=
  h.inv (Inv token) (fun _ => inv_init) fun _ _ _ => inv_step

/-- The run of the sockets and the command queues. -/
theorem exec_intake (h : (system token parse serialize).Exec tr s) :
    (Intake.system token OpCodes.Server).Exec (tr.filterMap intakeStep) s.intake := by
  refine (System.Exec.project (S := system token parse serialize)
    (T := Intake.system token OpCodes.Server) (·.intake) intakeStep (Inv token)
    (fun s hi => ⟨inv_init hi, hi.intake⟩) (fun s e s' hs hst => ⟨inv_step hs hst, ?_⟩) h).2
  change Step token parse serialize s e s' at hst
  cases e with
  | intake e => exact .inr ⟨e, rfl, hst.2.1⟩
  | call t now =>
    obtain ⟨p, -, -, -, hintake, -⟩ := hst
    exact .inr ⟨.dispatcher (.call t), rfl, hintake⟩
  | world e =>
    obtain ⟨-, -, hworld, hintake⟩ := hst
    rcases sessions_step s.intake.dispatcher hs.table hs.filed hworld with
      ⟨hnone, hkeys⟩ | ⟨d, hsome, htcp, hd⟩
    · refine .inl ⟨?_, ?_⟩
      · rw [intakeStep, hnone]
        rfl
      · rw [hintake, withSessions, hkeys, ← hs.table]
    · refine .inr ⟨.dispatcher d, ?_, ?_⟩
      · rw [intakeStep, hsome]
        rfl
      · exact ⟨htcp, _, hd, hintake⟩

/-! ### From the frames to the match -/

/-- A command that was submitted to a match, with the session that its callback got and
the thread that called it. -/
structure Submission where
  user : SessionRef
  thread : Thread
  command : MatchCommand

/-- What the client has to send for the command. -/
def Submission.frame (x : Submission) : List UInt8 :=
  x.command.data.command :: x.command.data.buffer

/-- The command came over TCP, and from this session. -/
def Submission.isOf (user : SessionRef) (t : Thread) (x : Submission) : Bool :=
  x.user = user && x.thread = t && x.command.data.type = .tcp

def submission (m : MatchRef) : Pipeline × Event → Option Submission
  | (s, .call t now) => (s.intake.dispatcher.consumer t).call.bind fun p =>
      (s.world.mSocketUsers.lookup p.user).bind fun user =>
        (World.submitted m (s.world, .dispatch p.user p.data now)).map fun c => ⟨user, t, c⟩
  | _ => none

/-- The arguments of the callback that `t` calls in this step. -/
def callArgs (token : SessionRef → Token) (t : Thread) (x : Pipeline × Event) :
    Option (Token × Data) :=
  (((intakeStep x).bind (Intake.dispatch token)).bind (Dispatcher.callMade t)).map PendingCall.args

theorem submission_command {e : Event} (m : MatchRef) (h : Step token parse serialize s e s') :
    (submission m (s, e)).map (·.command) = (worldStep (s, e)).bind (World.submitted m) := by
  cases e with
  | intake e => rfl
  | call t now =>
    obtain ⟨p, hp, -, hlive, -, -⟩ := h
    obtain ⟨user, huser⟩ := Option.isSome_iff_exists.mp hlive
    rw [submission, worldStep, hp, Option.bind_some, huser, Option.bind_some, Option.map_some,
      Option.bind_some, Option.map_map]
    exact congrFun Option.map_id _
  | world e =>
    obtain ⟨hcall, -, -, -⟩ := h
    cases e with
    | dispatch user data now => exact absurd rfl (hcall user data now)
    | _ => rfl

/-- A submitted command has the data of the callback that submits it. -/
theorem submission_data {w : World} {user : Token} {data : Data} {now : UInt64} {m : MatchRef}
    {c : MatchCommand} (h : World.submitted m (w, .dispatch user data now) = some c) :
    c.data = data := by
  rw [World.submitted] at h
  obtain ⟨s, -, h⟩ := Option.bind_eq_some_iff.mp h
  split_ifs at h
  rcases World.submission_cases w s data with ⟨p, m', -, -, -, heq⟩ | ⟨-, hnone⟩
  · rw [heq] at h
    split_ifs at h
    cases h
    rfl
  · rw [hnone] at h
    cases h

theorem submission_callArgs (hs : Inv token s) {e : Event} {m : MatchRef} {x : Submission}
    (h : submission m (s, e) = some x) :
    callArgs token x.thread (s, e) = some (token x.user, x.command.data) := by
  cases e with
  | intake e => cases h
  | world e => cases h
  | call t now =>
    obtain ⟨p, hp, h⟩ := Option.bind_eq_some_iff.mp h
    obtain ⟨user, huser, h⟩ := Option.bind_eq_some_iff.mp h
    obtain ⟨c, hc, rfl⟩ := Option.map_eq_some_iff.mp h
    have htoken : token user = p.user := by
      rw [← hs.tokens user (hs.filed.live_created p.user user huser)]
      exact hs.filed.token p.user user huser
    have hmade : callArgs token t (s, .call t now) = some p.args := by
      simp [callArgs, intakeStep, Intake.dispatch, Dispatcher.callMade, hp]
    rw [hmade, submission_data hc, htoken]
    rfl

theorem filterMap_sublist {α β γ : Type*} {f : α → Option β} {g : α → Option γ} {k : β → γ}
    {l : List α} (h : ∀ x ∈ l, ∀ b, f x = some b → g x = some (k b)) :
    (l.filterMap f).map k <+ l.filterMap g := by
  induction l with
  | nil => exact .slnil
  | cons x l ih =>
    obtain ⟨hx, hl⟩ := List.forall_mem_cons.mp h
    rw [List.filterMap_cons, List.filterMap_cons]
    cases hf : f x with
    | none =>
      refine (ih hl).trans ?_
      cases g x with
      | none => exact .refl _
      | some c => exact List.sublist_cons_self c _
    | some b =>
      rw [hx b hf]
      exact (ih hl).cons_cons (k b)

/-- The submissions of one session and thread are among the calls that the thread makes
for the session. -/
theorem submissions_sublist (h : (system token parse serialize).Exec tr s) (user : SessionRef)
    (t : Thread) (m : MatchRef) :
    ((tr.filterMap (submission m)).filter (·.isOf user t)).map
        (fun x => (token x.user, x.command.data)) <+
      (((Intake.dispatched token (tr.filterMap intakeStep)).filterMap
        (Dispatcher.callMade t)).map PendingCall.args).filter
          (Intake.argsOfSession (token user)) := by
  have hcalls : ((Intake.dispatched token (tr.filterMap intakeStep)).filterMap
      (Dispatcher.callMade t)).map PendingCall.args = tr.filterMap (callArgs token t) := by
    rw [Intake.dispatched, List.filterMap_filterMap, List.filterMap_filterMap, List.map_filterMap]
    refine List.filterMap_congr fun x _ => ?_
    rw [callArgs, Option.bind_assoc]
  have hinv : ∀ x ∈ tr, Inv token x.1 :=
    h.forall_trace (Inv token) (fun _ => inv_init) fun _ _ _ => inv_step
  have hsub : ((tr.filterMap (submission m)).filter (·.isOf user t)).map
      (fun x => (token x.user, x.command.data)) <+ tr.filterMap (callArgs token t) := by
    rw [List.filter_filterMap]
    refine filterMap_sublist fun x hx b hb => ?_
    obtain ⟨hb, hof⟩ := Option.filter_eq_some_iff.mp hb
    have ht : b.thread = t := by
      simp only [Submission.isOf, Bool.and_eq_true, decide_eq_true_eq] at hof
      exact hof.1.2
    rw [← ht]
    exact submission_callArgs (hinv x hx) hb
  have hof := hsub.filter (Intake.argsOfSession (token user))
  rwa [List.filter_eq_self.mpr, ← hcalls] at hof
  intro y hy
  obtain ⟨x, hx, rfl⟩ := List.mem_map.mp hy
  have hx := (List.mem_filter.mp hx).2
  simp only [Submission.isOf, Bool.and_eq_true, decide_eq_true_eq] at hx
  simp [Intake.argsOfSession, hx.1.1, hx.2]

/-- What the matches execute. -/
structure ExecutedAsSent (token : SessionRef → Token) (tr : List (Pipeline × Event))
    (s : Pipeline) : Prop where
  /-- each match executes what is submitted to it, once each and in turn -/
  turn : ∀ m, (tr.filterMap (submission m)).map (·.command) =
    (tr.filterMap worldStep).filterMap (World.executed m) ++ s.world.pending m
  /-- and what a thread submits for a session with a token of its own are frames of its
  bytes, as they were sent and in this order -/
  sent : ∀ user, (∀ v, token v = token user → v = user) → ∀ t m,
    ((tr.filterMap (submission m)).filter (·.isOf user t)).map Submission.frame <+
      (readLoop (token user) (s.intake.arrived user)).1

theorem exec_turn (h : (system token parse serialize).Exec tr s) (m : MatchRef) :
    (tr.filterMap (submission m)).map (·.command) =
      (tr.filterMap worldStep).filterMap (World.executed m) ++ s.world.pending m := by
  have hcommand : ∀ x ∈ steps tr s,
      (submission m (x.1, x.2.1)).map (·.command) =
        (worldStep (x.1, x.2.1)).bind (World.submitted m) :=
    h.forall_steps (fun s e _ => (submission m (s, e)).map (·.command) =
      (worldStep (s, e)).bind (World.submitted m)) fun _ _ _ _ _ hst => submission_command m hst
  rw [← World.exec_commands (exec_world h) m, List.map_filterMap, List.filterMap_filterMap]
  refine List.filterMap_congr fun x hx => ?_
  exact (forall_steps_iff (fun s e => (submission m (s, e)).map (·.command) =
    (worldStep (s, e)).bind (World.submitted m)) tr s).mp hcommand x hx

theorem exec_sent (h : (system token parse serialize).Exec tr s) (user : SessionRef)
    (hu : ∀ v, token v = token user → v = user) (t : Thread) (m : MatchRef) :
    ((tr.filterMap (submission m)).filter (·.isOf user t)).map Submission.frame <+
      (readLoop (token user) (s.intake.arrived user)).1 := by
  obtain ⟨unread, left, hframes, -⟩ := Intake.frames_eq (exec_intake h) hu
  have hsub := (submissions_sublist h user t m).trans
    ((Intake.calls_sublist (exec_intake h) t).trans (List.filter_sublist.map _))
  have hframe := hsub.map fun y => y.2.command :: y.2.buffer
  rw [List.map_map, List.map_map] at hframe
  have hreceived : (Intake.handled token user (tr.filterMap intakeStep)).map
      ((fun y => y.2.command :: y.2.buffer) ∘ fun x => x.2.args) =
        ((Intake.handled token user (tr.filterMap intakeStep)).map Prod.snd).map
          ThreadCommand.received := by
    rw [List.map_map]
    rfl
  rw [hframes, List.map_append, List.append_assoc]
  exact (hreceived ▸ hframe).trans (List.sublist_append_left _ _)

/-- In every run from the bytes of the clients to the matches: each match executes what is
submitted to it in turn, and what a session submits are frames of its stream. -/
theorem executed_as_sent (token : SessionRef → Token) (parse : List UInt8 → Option Json)
    (serialize : Json → List UInt8) (tr : List (Pipeline × Event)) (s : Pipeline)
    (h : (system token parse serialize).Exec tr s) : ExecutedAsSent token tr s :=
  ⟨exec_turn h, exec_sent h⟩

/-! ### A jump that is sent -/

def sampleToken : SessionRef → Token
  | 0 => "a"
  | _ => "b"

theorem sampleToken_zero (v : SessionRef) (h : sampleToken v = sampleToken 0) : v = 0 := by
  cases v with
  | zero => rfl
  | succ v => simp [sampleToken] at h

def sampleFrames : List (List UInt8) :=
  [OpCodes.Server.submitIdentity.toByte :: World.identityText "1",
    OpCodes.Server.joinMatch.toByte :: World.matchText,
    OpCodes.Server.matchCommand.toByte :: World.jumpData.buffer]

def sampleRest (n : ℕ) : List UInt8 := (sampleFrames.drop n).flatMap BufferUtils.addLength

def emptyPipeline : Pipeline :=
  ⟨⟨Dispatcher.fresh OpCodes.Server, fun _ => [], fun _ => true, fun _ => []⟩, World.emptyWorld⟩

theorem emptyPipeline_exec :
    (system sampleToken World.sampleParse fun _ => []).Exec [] emptyPipeline :=
  .nil ⟨⟨⟨rfl, rfl, fun _ => rfl, fun _ => rfl, rfl⟩, fun _ => rfl, fun _ => rfl, fun _ => rfl⟩,
    ⟨rfl, rfl, rfl, rfl, rfl, rfl, rfl, rfl, rfl⟩, rfl⟩

theorem next_intake (h : (system token parse serialize).Exec tr s)
    (e : Intake.Event OpCodes.Server) (i : Intake OpCodes.Server) (hready : s.Ready e)
    (hst : Intake.Step token s.intake e i) :
    (system token parse serialize).Exec (tr ++ [(s, .intake e)]) ⟨i, s.world⟩ :=
  h.next (.intake e) ⟨i, s.world⟩ ⟨hready, hst, rfl⟩

theorem next_world (h : (system token parse serialize).Exec tr s) (e : World.Event) (w : World)
    (hcall : ∀ user data now, e ≠ .dispatch user data now)
    (htoken : ∀ t, e = .connect t → t = token s.world.nextSession)
    (hst : World.Step parse serialize s.world e w) :
    (system token parse serialize).Exec (tr ++ [(s, .world e)]) ⟨withSessions s.intake w, w⟩ :=
  h.next (.world e) ⟨withSessions s.intake w, w⟩ ⟨hcall, htoken, hst, rfl⟩

theorem next_call (h : (system token parse serialize).Exec tr s) (t : Thread) (now : UInt64)
    (p : PendingCall OpCodes.Server) (i : Intake OpCodes.Server) (w : World)
    (hp : (s.intake.dispatcher.consumer t).call = some p) (hcallback : p.commandObj.callback ≠ none)
    (hlive : (s.world.mSocketUsers.lookup p.user).isSome = true)
    (hst : Intake.Step token s.intake (.dispatcher (.call t)) i)
    (hworld : World.Step parse serialize s.world (.dispatch p.user p.data now) w) :
    (system token parse serialize).Exec (tr ++ [(s, .call t now)]) ⟨i, w⟩ :=
  h.next (.call t now) ⟨i, w⟩ ⟨p, hp, hcallback, hlive, hst, hworld⟩

/-- The client 0 logs in, joins the match and jumps, all in one packet. -/
theorem jump_sent : ∃ tr s, (system sampleToken World.sampleParse fun _ => []).Exec tr s ∧
    tr.filterMap (submission 0) = [⟨0, .main, ⟨1, World.jumpData⟩⟩] ∧
    ExecutedAsSent sampleToken tr s ∧
    [OpCodes.Server.matchCommand.toByte :: World.jumpData.buffer] <+
      (readLoop (sampleToken 0) (s.intake.arrived 0)).1 := by
  have h1 := next_intake emptyPipeline_exec
    (.dispatcher (.addCommand OpCodes.Server.submitIdentity.toByte .submitIdentity 0 false)) _
    (by simp [Ready]) ⟨rfl, _, rfl, rfl⟩
  have h2 := next_intake h1
    (.dispatcher (.addCommand OpCodes.Server.joinMatch.toByte .joinMatch 0 false)) _
    (by simp [Ready]) ⟨rfl, _, rfl, rfl⟩
  have h3 := next_intake h2
    (.dispatcher (.addCommand OpCodes.Server.matchCommand.toByte .matchCommand 0 true)) _
    (by simp [Ready]) ⟨rfl, _, rfl, rfl⟩
  have h4 := next_world h3 (.connect "a") World.connectedWorld nofun (by simp; rfl) rfl
  have h5 := next_world h4 .addNext World.addedWorld nofun nofun ⟨0, [], rfl, rfl⟩
  have h6 := next_intake h5 (.arrive 0 (sampleRest 0)) _ Nat.zero_lt_one rfl
  have h7 := next_intake h6 (.handleRead 0 none true (63, 0) (sampleRest 0).tail.tail) _ trivial
    ⟨rfl, nofun, fun _ => rfl, rfl⟩
  have h8 := next_intake h7 (.dispatcher (.push 0)) _ trivial ⟨rfl, _, ⟨_, rfl, rfl⟩, rfl⟩
  have h9 := next_intake h8 (.handleRead 0 none true (17, 0) (sampleRest 1).tail.tail) _ trivial
    ⟨rfl, nofun, fun _ => rfl, rfl⟩
  have h10 := next_intake h9 (.dispatcher (.push 0)) _ trivial ⟨rfl, _, ⟨_, rfl, rfl⟩, rfl⟩
  have h11 := next_intake h10 (.handleRead 0 none true (3, 0) (sampleRest 2).tail.tail) _ trivial
    ⟨rfl, nofun, fun _ => rfl, rfl⟩
  have h12 := next_intake h11 (.dispatcher (.push 0)) _ trivial ⟨rfl, _, ⟨_, rfl, rfl⟩, rfl⟩
  have h13 := next_intake h12 (.dispatcher (.duplicate .main)) _ trivial
    ⟨rfl, _, ⟨rfl, rfl, rfl⟩, rfl⟩
  have h14 := next_intake h13 (.dispatcher (.lookup .main)) _ trivial
    ⟨rfl, _, ⟨_, _, rfl, rfl, rfl⟩, rfl⟩
  have h15 := next_call h14 .main 0 _ _ World.loginWorld rfl nofun rfl
    ⟨rfl, _, ⟨_, rfl, rfl⟩, rfl⟩ rfl
  have h16 := next_world h15 (.createMatch "m" 1) World.hostWorld nofun nofun ⟨rfl, rfl⟩
  have h17 := next_world h16 (.thread 0 (.threadInit 0)) World.waitingWorld nofun nofun
    ⟨Nat.zero_lt_one, _, ⟨rfl, rfl⟩, rfl⟩
  have h18 := next_intake h17 (.dispatcher (.lookup .main)) _ trivial
    ⟨rfl, _, ⟨_, _, rfl, rfl, rfl⟩, rfl⟩
  have h19 := next_call h18 .main 0 _ _ World.joinedWorld rfl nofun rfl
    ⟨rfl, _, ⟨_, rfl, rfl⟩, rfl⟩ rfl
  have h20 := next_intake h19 (.dispatcher (.lookup .main)) _ trivial
    ⟨rfl, _, ⟨_, _, rfl, rfl, rfl⟩, rfl⟩
  have h21 := next_call h20 .main 0 _ _ World.queuedWorld rfl nofun rfl
    ⟨rfl, _, ⟨_, rfl, rfl⟩, rfl⟩ rfl
  have hsent := executed_as_sent _ _ _ _ _ h21
  exact ⟨_, _, h21, rfl, hsent, hsent.sent 0 sampleToken_zero .main 0⟩

end Pipeline

end GameServer
