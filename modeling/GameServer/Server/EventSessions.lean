import GameServer.Server.Refinement

/-! Queued match commands and the sessions of their senders. Closing a session takes
the socket user of its player away, while the player stays in its match and its
queued commands are still executed. -/

namespace GameServer

open Lib

namespace World

variable {parse : List UInt8 → Option Json} {serialize : Json → List UInt8} {w : World}
  {s : SessionRef} {p : PlayerRef} {tr : List (World × Event)}

/-- The step closes a connected session whose `User` is the player. -/
def CutsOff (x : World × Event) (p : PlayerRef) : Prop :=
  ∃ s, (x.2 = .reset s ∨ Removes x s) ∧ (x.1.sessions s).connected = true ∧
    (x.1.sessions s).user = some p

/-- The command that the match executes next reaches `SubmitPlayerEvent` for the player. -/
def ReachesSubmit (w : World) (m : MatchRef) (p : PlayerRef) : Prop :=
  m < w.nextMatch ∧ ∃ cmd rest event data, (w.matchAt m).currentCommands = cmd :: rest ∧
    (w.popCommand m rest).eventCommand cmd.user cmd.data.buffer = some (p, event, data)

/-- `Socket_User()` of the player is not null, and the next command of the match, whatever
session it asks, does not dereference null. -/
structure SocketDefined (serialize : Json → List UInt8) (w : World) (m : MatchRef)
    (p : PlayerRef) : Prop where
  socketUser : (w.players p).mSocketUser ≠ none
  call : ∀ cmd rest authenticated, (w.matchAt m).currentCommands = cmd :: rest →
    (w.popCommand m rest).executeNetCommand serialize authenticated cmd.user cmd.data.buffer ≠
      .error .nullDeref

theorem cuts_map {e : Event} :
    Registry.Cuts (w.abs, w.absAction parse e) p ↔ CutsOff (w, e) p := by
  refine exists_congr fun s => and_congr ?_ Iff.rfl
  exact or_congr absAction_close_iff absAction_remove_iff

theorem ReachesSubmit.rostered {m : MatchRef} (h : ReachesSubmit w m p) : p ∈ w.abs.rostered := by
  obtain ⟨hm, cmd, rest, event, data, -, hev⟩ := h
  have hfind : (w.matchAt m).mPlayers.find? cmd.user = some p := MatchCtx.eventCommand_sender hev
  exact ⟨m, hm, List.mem_map.mpr ⟨_, OrdMap.find?_eq_some.mp hfind, rfl⟩⟩

theorem socketDefined_iff {m : MatchRef} (h : ReachesSubmit w m p) :
    SocketDefined serialize w m p ↔ p ∈ w.abs.online := by
  refine ⟨fun hd => hd.socketUser, fun ho => ⟨ho, fun cmd rest authenticated hq herr => ?_⟩⟩
  obtain ⟨-, cmd', rest', event, data, hq', hev⟩ := h
  obtain ⟨rfl, rfl⟩ := List.cons.inj (hq.symm.trans hq')
  obtain ⟨s, hs⟩ := Option.ne_none_iff_exists'.mp ho
  rw [MatchCtx.executeNetCommand_of_event hev, MatchCtx.submitPlayerEvent] at herr
  replace hs : ((w.popCommand m rest).players p).mSocketUser = some s := hs
  rw [hs] at herr
  dsimp only at herr
  split_ifs at herr <;> cases herr

/-- In a run, the socket user is there when a match executes an event command of the
player, if and only if no step of the run closed a connected session of the player. -/
theorem socketDefined_iff_not_cutOff (parse : List UInt8 → Option Json)
    (serialize : Json → List UInt8) (tr : List (World × Event)) (w : World)
    (h : (system parse serialize).Exec tr w) (m : MatchRef) (p : PlayerRef)
    (hm : ReachesSubmit w m p) :
    SocketDefined serialize w m p ↔ ¬ ∃ x ∈ tr, CutsOff x p := by
  obtain ⟨-, habs⟩ := exec_refines h
  have hcuts : (∃ x ∈ tr.map fun x => (x.1.abs, x.1.absAction parse x.2), Registry.Cuts x p) ↔
      ∃ x ∈ tr, CutsOff x p :=
    exists_abs fun _ _ => cuts_map
  rw [socketDefined_iff hm, Registry.online_iff habs hm.rostered, hcuts]

/-! ### A jump that is queued when its player leaves -/

def hostWorld : World := loginWorld.createMatch "m" 1

def waitingWorld : World := hostWorld.setMatchCtx 0 ((hostWorld.matchCtx 0).threadInit 0)

def joinMatchData : Data := ⟨.tcp, OpCodes.Server.joinMatch.toByte, matchText⟩

def joinedWorld : World := after (doProcess sampleParse 0 waitingWorld "a" joinMatchData)

/-- `Player_Event` with `Jump`. -/
def jumpData : Data := ⟨.tcp, OpCodes.Server.matchCommand.toByte, [0x03, 0x01]⟩

def queuedWorld : World := after (doProcess sampleParse 0 joinedWorld "a" jumpData)

def takenWorld : World :=
  queuedWorld.setMatchCtx 0 ((queuedWorld.matchCtx 0).setMatch fun x =>
    { x with currentCommands := x.mCommandQueue, mCommandQueue := [] })

def jumpRun : List (World × Event) :=
  loginRun ++ [(loginWorld, .createMatch "m" 1)] ++ [(hostWorld, .thread 0 (.threadInit 0))] ++
    [(waitingWorld, .dispatch "a" joinMatchData 0)] ++ [(joinedWorld, .dispatch "a" jumpData 0)] ++
    [(queuedWorld, .takeCommands 0)]

theorem jumpRun_exec : (system sampleParse fun _ => []).Exec jumpRun takenWorld := by
  have h1 := (loginRun_exec fun _ => []).next (.createMatch "m" 1) hostWorld ⟨rfl, rfl⟩
  have h2 := h1.next (.thread 0 (.threadInit 0)) waitingWorld
    ⟨Nat.zero_lt_one, _, ⟨rfl, rfl⟩, rfl⟩
  have h3 := h2.next (.dispatch "a" joinMatchData 0) joinedWorld rfl
  have h4 := h3.next (.dispatch "a" jumpData 0) queuedWorld rfl
  exact h4.next (.takeCommands 0) takenWorld ⟨Nat.zero_lt_one, rfl, rfl⟩

theorem jump_reachesSubmit : ReachesSubmit takenWorld 0 0 :=
  ⟨Nat.zero_lt_one, ⟨1, jumpData⟩, [], .jump, [], rfl, rfl⟩

theorem jump_socketDefined : SocketDefined (fun _ => []) takenWorld 0 0 := by
  apply (socketDefined_iff_not_cutOff sampleParse (fun _ => []) jumpRun takenWorld jumpRun_exec 0 0
    jump_reachesSubmit).mpr
  rintro ⟨x, hx, s, hact, -, -⟩
  simp only [jumpRun, loginRun, List.mem_append, List.mem_cons, List.not_mem_nil, or_false] at hx
  rcases hx with (((((rfl | rfl | rfl) | rfl) | rfl) | rfl) | rfl) | rfl
  all_goals rcases hact with he | ⟨he, -⟩ <;> cases he

/-- The player's session is removed between the queueing and the execution. -/
theorem jump_after_removal :
    ∃ tr w, (system sampleParse fun _ => []).Exec tr w ∧ ReachesSubmit w 0 0 ∧
      (w.players 0).mSocketUser = none ∧ ¬ SocketDefined (fun _ => []) w 0 0 := by
  refine ⟨_, leftWorld takenWorld, leaveRun_exec jumpRun_exec rfl,
    ⟨Nat.zero_lt_one, ⟨1, jumpData⟩, [], .jump, [], rfl, rfl⟩, rfl, fun h => ?_⟩
  exact h.socketUser rfl

end World

end GameServer
