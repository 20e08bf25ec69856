import GameServer.Network.Framing
import GameServer.Network.SenderSafety

/-! What a connection puts on the wire, read back by its client: TCP frames out of one
byte stream, UDP messages one datagram each. -/

namespace GameServer

open Lib BufferUtils
open scoped List

/-- The frame that the call has not pushed yet. -/
def CallPc.unpushed : CallPc → Option (List UInt8)
  | .lock sending | .push sending => some sending
  | _ => none

namespace Sender

/-- The messages of the `Send` calls of an execution. -/
def sends (tr : List (Sender × Event)) : List (List UInt8) :=
  tr.filterMap fun x =>
    match x.2 with
    | .send sending => some sending
    | _ => none

/-- The frames that are not handed to the socket: with the thread, in the queue, and with
the calls. -/
def waiting (s : Sender) : List (List UInt8) :=
  s.thread.inHand ++ s.mSendMessages ++ s.calls.filterMap CallPc.unpushed

theorem filterMap_at (before after : List CallPc) (pc : CallPc) :
    (before ++ pc :: after).filterMap CallPc.unpushed =
      before.filterMap CallPc.unpushed ++ (pc.unpushed.toList ++ after.filterMap CallPc.unpushed) := by
  rw [List.filterMap_append, List.filterMap_cons]
  cases pc.unpushed <;> rfl

theorem filterMap_replaced (before after : List CallPc) (pc' : Option CallPc) :
    (before ++ pc'.toList ++ after).filterMap CallPc.unpushed =
      before.filterMap CallPc.unpushed ++
        ((pc'.bind CallPc.unpushed).toList ++ after.filterMap CallPc.unpushed) := by
  cases pc' with
  | none => simp
  | some pc => rw [Option.toList_some, List.append_assoc, List.singleton_append, filterMap_at]; rfl

/-- A statement of a call pushes the frame or leaves it where it is. -/
theorem callStep_pushed {s t : Sender} {permits : ℕ} {pc : CallPc} {pc' : Option CallPc}
    (h : s.callStep permits pc = some (t, pc')) :
    (t.pushed = s.pushed ∧ pc'.bind CallPc.unpushed = pc.unpushed) ∨
      ∃ sending, pc = .push sending ∧ t.pushed = s.pushed ++ [sending] ∧
        pc'.bind CallPc.unpushed = none := by
  cases pc with
  | lock sending =>
    simp only [callStep] at h
    split_ifs at h
    cases h
    exact .inl ⟨rfl, rfl⟩
  | push sending =>
    cases h
    exact .inr ⟨sending, rfl, rfl, rfl⟩
  | queueLen =>
    simp only [callStep] at h
    cases h
    refine .inl ⟨rfl, ?_⟩
    cases s.type <;> rfl
  | numTrySends | unlock | release =>
    cases h
    exact .inl ⟨rfl, rfl⟩

theorem pushed_thread {s s' : Sender} (h : s.threadStep = some s') :
    s'.pushed = s.pushed ∧ s'.calls = s.calls := by
  cases threadStep_move h <;> exact ⟨rfl, rfl⟩

/-- Every message is pushed once, or its call still holds it. -/
theorem sends_perm {tr : List (Sender × Event)} {s : Sender} (h : system.Exec tr s) :
    ((sends tr).map addLength).Perm (s.pushed ++ s.calls.filterMap CallPc.unpushed) := by
  induction h with
  | nil hi => simp [sends, hi.pushed, hi.calls]
  | @snoc tr s s' e _ hst ih =>
    have hkeep : sends [(s, e)] = [] → s'.pushed = s.pushed →
        s'.calls.filterMap CallPc.unpushed = s.calls.filterMap CallPc.unpushed →
        ((sends (tr ++ [(s, e)])).map addLength).Perm
          (s'.pushed ++ s'.calls.filterMap CallPc.unpushed) := by
      intro hsends hpushed hcalls
      rw [hpushed, hcalls, show sends (tr ++ [(s, e)]) = sends tr ++ sends [(s, e)] from
        List.filterMap_append .., hsends, List.append_nil]
      exact ih
    cases e with
    | send sending =>
      cases hst
      have hsends : sends (tr ++ [(s, .send sending)]) = sends tr ++ [sending] := by simp [sends]
      rw [hsends, List.map_append, List.filterMap_append, ← List.append_assoc]
      exact ih.append_right _
    | call =>
      obtain ⟨before, pc, after, permits, t, pc', hcalls, -, hstep, rfl⟩ := hst
      rcases callStep_pushed hstep with ⟨hpushed, hsame⟩ | ⟨sending, rfl, hpushed, hnone⟩
      · refine hkeep rfl hpushed ?_
        rw [hcalls, filterMap_at]
        dsimp only
        rw [filterMap_replaced, hsame]
      · have hsends : sends (tr ++ [(s, .call)]) = sends tr := by simp [sends]
        rw [hsends]
        dsimp only
        rw [hpushed, filterMap_replaced, hnone]
        rw [hcalls, filterMap_at] at ih
        refine ih.trans ?_
        simp only [CallPc.unpushed, Option.toList_some, Option.toList_none, List.nil_append,
          List.append_assoc]
        exact (List.perm_middle.trans (by simp)).append_left _
    | thread =>
      obtain ⟨hpushed, hcalls⟩ := pushed_thread hst
      exact hkeep rfl hpushed (by rw [hcalls])
    | complete =>
      obtain ⟨before, w, after, permits, -, -, rfl⟩ := hst
      exact hkeep rfl rfl rfl
    | stop =>
      cases hst
      exact hkeep rfl rfl rfl

/-- What was sent is what was handed to the socket, and what still waits. -/
theorem sends_handed {tr : List (Sender × Event)} {s : Sender} (h : system.Exec tr s) :
    ((sends tr).map addLength).Perm (s.handed ++ s.waiting) := by
  have hframes := (h.inv Inv (fun _ => inv_init) fun _ _ _ => inv_step).frames
  have hperm := sends_perm h
  rw [hframes] at hperm
  rw [waiting]
  simpa only [List.append_assoc] using hperm

/-- So when the messages carry the payloads of `items`, each item is the content of one
frame, handed over or waiting. -/
theorem unframe {α : Type*} {tr : List (Sender × Event)} {s : Sender} (h : system.Exec tr s)
    (payload : α → List UInt8) (items : List α) (hitems : sends tr = items.map payload) :
    ∃ received rest, s.handed = received.map (fun x => addLength (payload x)) ∧
      s.waiting = rest.map (fun x => addLength (payload x)) ∧
      items.Perm (received ++ rest) := by
  have hperm := (sends_handed h).symm
  rw [hitems, List.map_map] at hperm
  have hcomp : Relation.Comp (· = List.map (addLength ∘ payload) ·) (· ~ ·)
      (s.handed ++ s.waiting) items := by
    rw [List.eq_map_comp_perm]
    exact hperm
  obtain ⟨all, hall, hsame⟩ := hcomp
  obtain ⟨received, rest, rfl, hhanded, hwaiting⟩ := List.append_eq_map_iff.mp hall
  exact ⟨received, rest, hhanded.symm, hwaiting.symm, hsame.symm⟩

end Sender

/-! ### TCP -/

/-- The frames of messages that fit the length field are read back one by one. -/
theorem readLoop_frames (user : Token) (messages : List (List UInt8))
    (hfits : ∀ m ∈ messages, 1 ≤ m.length ∧ m.length ≤ 65535) :
    readLoop user (messages.map addLength).flatten = (messages, []) := by
  have hend : (frameReader user).readAll [] = ([], []) := Reader.readAll_of_none rfl
  have hread : ∀ m ∈ messages, ∀ rest,
      (frameReader user).read (addLength m ++ rest) = some (m, rest) := fun m hm rest =>
    readFrame_frame user ⟨m, (hfits m hm).1, (hfits m hm).2⟩ rest
  have hall := Reader.readAll_flatMap addLength messages hread []
  rw [hend, List.append_nil, List.append_nil, List.flatMap_def] at hall
  exact hall

/-! ### UDP -/

/-- What the client makes of a datagram: the id and the message, if the length field
tells the truth. -/
def parseDatagram : List UInt8 → Option (UInt16 × List UInt8)
  | lo :: hi :: idLo :: idHi :: message =>
    if (word16 lo hi).toNat = message.length + 2 then some (word16 idLo idHi, message) else none
  | _ => none

theorem parseDatagram_addLength (udpId : UInt16) {message : List UInt8}
    (h : message.length + 2 ≤ 65535) :
    parseDatagram (addLength (addUdpId udpId message)) = some (udpId, message) := by
  have hlen : (addUdpId udpId message).length = message.length + 2 := by
    simp [addUdpId, add, Nat.add_comm]
  rw [addLength, add, hlen, bytes16_eq, addUdpId, add, bytes16_eq]
  simp only [List.cons_append, List.nil_append, parseDatagram, word16_bytes16]
  rw [UInt16.toNat_ofNat', if_pos (Nat.mod_eq_of_lt (by omega))]

end GameServer
