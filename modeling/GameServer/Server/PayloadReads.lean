import GameServer.Lib.ReadProgram
import GameServer.Server.Refinement

/-! What the handlers read of the bytes that a client sends. `RemoveFront` moves the
start of the buffer, so every index here counts from the first received byte. -/

namespace GameServer

open Lib BufferUtils

namespace PayloadReads

/-- The received bytes as memory. -/
def bytes (payload : List UInt8) (i : ℕ) : Option UInt8 := payload[i]?

/-- Where the copy that `RemoveFront` makes of `size` bytes begins. -/
def frontOf (numToRemove size : ℕ) : ℕ := if numToRemove > size then 0 else numToRemove

/-! ### The handlers -/

inductive SystemCommand where
  | disconnect
  | ping
  | clientUdpPort (port : UInt16)
  | unnamed
  deriving DecidableEq, Repr

def systemCmd (size : ℕ) : ReadProgram UInt8 SystemCommand :=
  .read 0 fun subCommand =>
    let front := frontOf 1 size
    if subCommand = 0x02 then .done .disconnect
    else if subCommand = 0x03 then .done .ping
    else if subCommand = 0x04 then
      .read front fun lo => .read (front + 1) fun hi => .done (.clientUdpPort (word16 lo hi))
    else .done .unnamed

/-- The seven floats from `front` on. -/
def updateOrientationNetCmd (front : ℕ) : ReadProgram UInt8 (Vec3 × Quat) :=
  (ReadProgram.range front 28).bind fun buffer =>
    let f := MatchCtx.floatAt buffer
    .done (⟨f 0, f 1, f 2⟩, Quat.ofWxyz (f 6) (f 3) (f 4) (f 5))

inductive NetCommand where
  | debugStart
  | updateOrientation (location : Vec3) (rotation : Quat)
  | playerEvent (eventCmd : OpCodes.PlayerEvents) (data : List UInt8)
  /-- a warning is logged -/
  | malformed
  | unnamed
  deriving DecidableEq, Repr

/-- `ExecuteNetCommand` of a player of the match. -/
def executeNetCommand (size : ℕ) : ReadProgram UInt8 NetCommand :=
  if size = 0 then .done .malformed
  else
    .read 0 fun subCommand =>
      let front := frontOf 1 size
      match OpCodes.ServerMatch.ofByte subCommand with
      | .debugStart => .done .debugStart
      | .updateOrientation =>
        (updateOrientationNetCmd front).bind fun o => .done (.updateOrientation o.1 o.2)
      | .playerEvent =>
        if size - front = 0 then .done .malformed
        else
          .read front fun eventCmd =>
            let front := front + frontOf 1 (size - front)
            (ReadProgram.range front (size - front)).bind fun data =>
              .done (.playerEvent (.ofByte eventCmd) data)
      | .unnamed _ => .done .unnamed

/-- `Handle_Initial_Connect` once `size` bytes are in `message`: whether the handshake
is successful. Otherwise three bytes of the message are logged. -/
def handleInitialConnect (size : ℕ) : ReadProgram UInt8 Bool :=
  let log : ReadProgram UInt8 Bool :=
    .read 0 fun _ => .read 1 fun _ => .read 2 fun _ => .done false
  if size = 3 then
    .read 0 fun b => if b ≠ 0xff then log
      else .read 1 fun b => if b ≠ 0x01 then log
        else .read 2 fun b => if b ≠ 0x01 then log
          else .done true
  else log

/-! ### They are the handlers of the model -/

theorem systemCmd_eq (w : World) (s : SessionRef) (payload : List UInt8) :
    w.systemCmd s payload =
      match (systemCmd payload.length).run (bytes payload) with
      | none => .error .outOfBounds
      | some .disconnect => .ok (w.removePlayer (w.sessions s).sessionToken)
      | some .ping => .ok (w.send s .systemReserved [0x03, 0x01])
      | some (.clientUdpPort _) => .ok w
      | some .unnamed => .ok w := by
  cases payload with
  | nil => rfl
  | cons subCommand rest =>
    have hfront : frontOf 1 (subCommand :: rest).length = 1 := if_neg (by simp)
    have h0 : bytes (subCommand :: rest) 0 = some subCommand := rfl
    unfold World.systemCmd systemCmd
    simp only [ReadProgram.run, h0, hfront]
    split_ifs with h2 h3 h4 hlen
    · rfl
    · rfl
    · rcases rest with _ | ⟨lo, _ | ⟨hi, rest⟩⟩
      · rfl
      · rfl
      · simp at hlen
    · rcases rest with _ | ⟨lo, _ | ⟨hi, rest⟩⟩
      · simp at hlen
      · simp at hlen
      · rfl
    · rfl

theorem floatAt_take (buffer : List UInt8) {i n : ℕ} (h : 4 * i + 4 ≤ n) :
    MatchCtx.floatAt (buffer.take n) i = MatchCtx.floatAt buffer i := by
  unfold MatchCtx.floatAt
  rw [List.drop_take, List.take_take, Nat.min_eq_left (by omega)]

/-- On a buffer without header the program stops where the model says so. -/
theorem run_updateOrientation (payload : List UInt8) (front : ℕ) :
    (updateOrientationNetCmd front).run (bytes payload) =
      if (payload.drop front).length < 28 then none
      else
        let f := MatchCtx.floatAt (payload.drop front)
        some (⟨f 0, f 1, f 2⟩, Quat.ofWxyz (f 6) (f 3) (f 4) (f 5)) := by
  unfold updateOrientationNetCmd bytes
  rw [ReadProgram.run_bind, List.length_drop]
  split_ifs with hlen
  · rw [ReadProgram.range_run_list_none payload front 28 (by decide) (by omega)]
    rfl
  · rw [ReadProgram.range_run_list payload front 28 (by omega)]
    simp [ReadProgram.run, floatAt_take]

theorem updateOrientationNetCmd_eq (player : PlayerRef) (payload : List UInt8) (c : MatchCtx) :
    c.updateOrientationNetCmd player payload =
      match (updateOrientationNetCmd 0).run (bytes payload) with
      | none => .error .outOfBounds
      | some (location, rotation) =>
        .ok (c.setPlayer player fun p => (p.setLocation location).setRotation rotation) := by
  rw [run_updateOrientation, List.drop_zero]
  unfold MatchCtx.updateOrientationNetCmd
  split_ifs
  · rfl
  · rfl

/-- What `ExecuteNetCommand` does for a player of the match with what it has read. -/
def perform (serialize : Json → List UInt8) (authenticated : SessionRef → Bool)
    (player : PlayerRef) (c : MatchCtx) : NetCommand → Exec (MatchCtx × List Broadcast)
  | .debugStart => c.startMatch serialize
  | .updateOrientation location rotation =>
    .ok (c.setPlayer player fun p => (p.setLocation location).setRotation rotation, [])
  | .playerEvent eventCmd data => do
    let c ← c.submitPlayerEvent authenticated player eventCmd data
    .ok (c, [])
  | .malformed | .unnamed => .ok (c, [])

theorem executeNetCommand_eq (serialize : Json → List UInt8) (authenticated : SessionRef → Bool)
    (userID : UserID) (payload : List UInt8) (c : MatchCtx) :
    c.executeNetCommand serialize authenticated userID payload =
      match c.mtch.mPlayers.find? userID with
      | none => .ok (c, [])
      | some player =>
        match (executeNetCommand payload.length).run (bytes payload) with
        | none => .error .outOfBounds
        | some cmd => perform serialize authenticated player c cmd := by
  unfold MatchCtx.executeNetCommand
  cases c.mtch.mPlayers.find? userID with
  | none => rfl
  | some player =>
    cases payload with
    | nil => rfl
    | cons subCommand rest =>
      have hfront : frontOf 1 (subCommand :: rest).length = 1 := if_neg (by simp)
      have h0 : bytes (subCommand :: rest) 0 = some subCommand := rfl
      unfold executeNetCommand
      rw [if_neg (by simp)]
      simp only [ReadProgram.run, h0, hfront, removeFront_one_cons]
      cases OpCodes.ServerMatch.ofByte subCommand with
      | debugStart => rfl
      | unnamed b => rfl
      | updateOrientation =>
        simp only [ReadProgram.run_bind, run_updateOrientation, List.drop_one, List.tail_cons,
          MatchCtx.updateOrientationNetCmd]
        split_ifs
        · rfl
        · rfl
      | playerEvent =>
        cases rest with
        | nil => rfl
        | cons eventCmd data =>
          have hsize : (subCommand :: eventCmd :: data).length = data.length + 2 := rfl
          have h1 : bytes (subCommand :: eventCmd :: data) 1 = some eventCmd := rfl
          have hnext : frontOf 1 (data.length + 1) = 1 := if_neg (by omega)
          have hdata : (ReadProgram.range (1 + 1) data.length).run
              (bytes (subCommand :: eventCmd :: data)) = some data := by
            have hrun := ReadProgram.range_run_list (subCommand :: eventCmd :: data) 2 data.length
              (by rw [hsize]; omega)
            rw [List.drop_succ_cons, List.drop_succ_cons, List.drop_zero, List.take_length] at hrun
            exact hrun
          have hpos : ¬ data.length + 1 = 0 := Nat.succ_ne_zero _
          have hsub : data.length + 2 - 1 = data.length + 1 := rfl
          have hrest : data.length + 2 - (1 + 1) = data.length := rfl
          simp only [hsize, hsub, if_neg hpos, hnext, hrest, ReadProgram.run, h1,
            ReadProgram.run_bind, hdata, removeFront_one_cons]
          rfl

/-! ### Inside the received bytes -/

/-- The program reads received bytes only. -/
def Inside {α : Type} (p : ReadProgram UInt8 α) (payload : List UInt8) : Prop :=
  ∀ i ∈ p.reads (bytes payload), i < payload.length

section Inside

variable {α β : Type} {payload : List UInt8}

/-- So it has a result. -/
theorem inside_iff (p : ReadProgram UInt8 α) :
    Inside p payload ↔ (p.run (bytes payload)).isSome := by
  simp [Inside, ReadProgram.run_isSome, bytes]

@[simp] theorem inside_done (a : α) : Inside (.done a) payload := nofun

theorem inside_read (i : ℕ) (next : UInt8 → ReadProgram UInt8 α) :
    Inside (.read i next) payload ↔ ∃ b, payload[i]? = some b ∧ Inside (next b) payload := by
  simp only [inside_iff, ReadProgram.run, bytes]
  cases payload[i]? with
  | none => simp
  | some b => simp

theorem inside_bind_done (p : ReadProgram UInt8 α) (g : α → β) :
    Inside (p.bind fun a => .done (g a)) payload ↔ Inside p payload := by
  rw [Inside, ReadProgram.reads_bind_done]
  rfl

theorem inside_range (i n : ℕ) :
    Inside (ReadProgram.range i n) payload ↔ n = 0 ∨ i + n ≤ payload.length := by
  have hbytes : bytes payload = fun j => payload[j]? := rfl
  rw [inside_iff, hbytes]
  cases n with
  | zero => simp [ReadProgram.range, ReadProgram.run]
  | succ n =>
    by_cases h : i + (n + 1) ≤ payload.length
    · rw [ReadProgram.range_run_list payload i (n + 1) h]
      simp [h]
    · rw [ReadProgram.range_run_list_none payload i (n + 1) (by omega) (by omega)]
      simp [h]

/-- A read that is followed by reads of the same cells whatever it finds. -/
theorem inside_read_iff {P : Prop} (i : ℕ) {next : UInt8 → ReadProgram UInt8 α}
    (h : ∀ b, Inside (next b) payload ↔ P) :
    Inside (.read i next) payload ↔ i < payload.length ∧ P := by
  rw [inside_read]
  constructor
  · rintro ⟨b, hb, hnext⟩
    exact ⟨(List.getElem?_eq_some_iff.mp hb).1, (h b).mp hnext⟩
  · rintro ⟨hi, hp⟩
    exact ⟨payload[i], List.getElem?_eq_getElem hi, (h _).mpr hp⟩

theorem inside_read_zero (subCommand : UInt8) (rest : List UInt8)
    (next : UInt8 → ReadProgram UInt8 α) :
    Inside (.read 0 next) (subCommand :: rest) ↔ Inside (next subCommand) (subCommand :: rest) := by
  simp [inside_read]

end Inside

theorem inside_systemCmd (payload : List UInt8) :
    Inside (systemCmd payload.length) payload ↔
      payload ≠ [] ∧ (payload.head? = some 0x04 → 3 ≤ payload.length) := by
  cases payload with
  | nil => simp [systemCmd, inside_read]
  | cons subCommand rest =>
    have hfront : frontOf 1 (subCommand :: rest).length = 1 := if_neg (by simp)
    rw [systemCmd, inside_read_zero, hfront]
    by_cases h4 : subCommand = 0x04
    · subst h4
      have hport : Inside (.read 1 fun lo => .read (1 + 1) fun hi =>
          .done (SystemCommand.clientUdpPort (word16 lo hi))) (0x04 :: rest) ↔
          3 ≤ (0x04 :: rest).length := by
        rw [inside_read_iff 1 fun _ => inside_read_iff 2 fun _ => iff_true_intro (inside_done _),
          and_true]
        omega
      simpa using hport
    · split_ifs
      · simp [h4]
      · simp [h4]
      · simp [h4]

theorem inside_updateOrientation (payload : List UInt8) (front : ℕ) :
    Inside (updateOrientationNetCmd front) payload ↔ front + 28 ≤ payload.length := by
  rw [updateOrientationNetCmd, inside_bind_done, inside_range]
  simp

theorem inside_executeNetCommand (payload : List UInt8) :
    Inside (executeNetCommand payload.length) payload ↔
      (payload.head? = some 0x02 → 29 ≤ payload.length) := by
  cases payload with
  | nil => simp [executeNetCommand]
  | cons subCommand rest =>
    have hfront : frontOf 1 (subCommand :: rest).length = 1 := if_neg (by simp)
    rw [executeNetCommand, if_neg (by simp), inside_read_zero, hfront]
    by_cases h2 : subCommand = 0x02
    · subst h2
      simp only [show OpCodes.ServerMatch.ofByte 0x02 = .updateOrientation from rfl]
      rw [inside_bind_done, inside_updateOrientation]
      simp
    · have hne : OpCodes.ServerMatch.ofByte subCommand ≠ .updateOrientation := by
        unfold OpCodes.ServerMatch.ofByte
        split_ifs
        · nofun
        · nofun
        · nofun
      refine iff_of_true ?_ (by simp [h2])
      split
      · exact inside_done _
      · next h => exact absurd h hne
      · dsimp only
        split_ifs with hone
        · exact inside_done _
        · -- what is left behind the event's command
          refine (inside_read_iff 1 fun _ => ?_).mpr ⟨?_, trivial⟩
          · rw [inside_bind_done, inside_range]
            refine iff_true_intro (.inr ?_)
            unfold frontOf
            split_ifs
            · omega
            · omega
          · omega
      · exact inside_done _

theorem inside_handleInitialConnect (message : List UInt8) :
    Inside (handleInitialConnect message.length) message ↔ 3 ≤ message.length := by
  have hlog : Inside (.read 0 fun _ => .read 1 fun _ => .read 2 fun _ => .done false) message ↔
      3 ≤ message.length := by
    rw [inside_read_iff 0 fun _ => inside_read_iff 1 fun _ => inside_read_iff 2 fun _ =>
      iff_true_intro (inside_done _), and_true]
    omega
  unfold handleInitialConnect
  split_ifs with h3
  · have hin : Inside (.read 0 fun _ => .read 1 fun _ => .read 2 fun _ => .done false) message :=
      hlog.mpr (by omega)
    have htest : ∀ (p : Prop) [Decidable p] (q : ReadProgram UInt8 Bool), Inside q message →
        (Inside (if p then .read 0 fun _ => .read 1 fun _ => .read 2 fun _ => .done false else q)
          message ↔ True) := by
      intro p _ q hq
      split_ifs
      · exact iff_true_intro hin
      · exact iff_true_intro hq
    refine iff_of_true ?_ (by omega)
    refine (inside_read_iff 0 fun _ => htest _ _ ?_).mpr ⟨by omega, trivial⟩
    refine (inside_read_iff 1 fun _ => htest _ _ ?_).mpr ⟨by omega, trivial⟩
    refine (inside_read_iff 2 fun _ => htest _ _ ?_).mpr ⟨by omega, trivial⟩
    exact inside_done _
  · exact hlog

/-! ### Every handler -/

end PayloadReads

/-- A handler with the state that it is called in. -/
inductive PayloadHandler where
  | systemCmd (w : World) (socketUser : SessionRef)
  | executeNetCommand (serialize : Json → List UInt8) (authenticated : SessionRef → Bool)
      (c : MatchCtx) (userID : UserID)
  | updateOrientationNetCmd (c : MatchCtx) (player : PlayerRef)
  | handleInitialConnect

namespace PayloadHandler

open PayloadReads

/-- Only received bytes are read. A sender who is not in the match has none read. -/
def Inside : PayloadHandler → List UInt8 → Prop
  | systemCmd _ _, payload => PayloadReads.Inside (PayloadReads.systemCmd payload.length) payload
  | executeNetCommand _ _ c userID, payload =>
    c.hasPlayer userID = true →
      PayloadReads.Inside (PayloadReads.executeNetCommand payload.length) payload
  | updateOrientationNetCmd _ _, payload =>
    PayloadReads.Inside (PayloadReads.updateOrientationNetCmd 0) payload
  | handleInitialConnect, message =>
    PayloadReads.Inside (PayloadReads.handleInitialConnect message.length) message

/-- The payload lacks bytes of its sub-command. -/
def TooShort : PayloadHandler → List UInt8 → Prop
  | systemCmd _ _, payload => payload = [] ∨ payload.head? = some 0x04 ∧ payload.length < 3
  | executeNetCommand _ _ _ _, payload =>
    payload = [] ∨ payload.head? = some 0x02 ∧ payload.length < 29 ∨ payload = [0x03]
  | updateOrientationNetCmd _ _, payload => payload.length < 28
  | handleInitialConnect, message => message.length < 3

/-- The call returns and has changed nothing; the handshake fails. -/
def Unchanged : PayloadHandler → List UInt8 → Prop
  | systemCmd w socketUser, payload => w.systemCmd socketUser payload = .ok w
  | executeNetCommand serialize authenticated c userID, payload =>
    c.executeNetCommand serialize authenticated userID payload = .ok (c, [])
  | updateOrientationNetCmd c player, payload => c.updateOrientationNetCmd player payload = .ok c
  | handleInitialConnect, message =>
    (PayloadReads.handleInitialConnect message.length).run (bytes message) = some false

def Safe (h : PayloadHandler) (payload : List UInt8) : Prop :=
  h.Inside payload ∧ (h.TooShort payload → h.Unchanged payload)

/-- The payload has the bytes that the handler reads without a test of the size. -/
def LongEnough : PayloadHandler → List UInt8 → Prop
  | systemCmd _ _, payload => payload ≠ [] ∧ (payload.head? = some 0x04 → 3 ≤ payload.length)
  | executeNetCommand _ _ c userID, payload =>
    c.hasPlayer userID = true → payload.head? = some 0x02 → 29 ≤ payload.length
  | updateOrientationNetCmd _ _, payload => 28 ≤ payload.length
  | handleInitialConnect, message => 3 ≤ message.length

theorem inside_iff (h : PayloadHandler) (payload : List UInt8) :
    h.Inside payload ↔ h.LongEnough payload := by
  cases h with
  | systemCmd w socketUser => exact inside_systemCmd payload
  | executeNetCommand serialize authenticated c userID =>
    exact imp_congr_right fun _ => inside_executeNetCommand payload
  | updateOrientationNetCmd c player =>
    have h := inside_updateOrientation payload 0
    rwa [Nat.zero_add] at h
  | handleInitialConnect => exact inside_handleInitialConnect payload

/-- A payload that is too short, and of which nothing is read that is not there. -/
theorem unchanged_of_tooShort (h : PayloadHandler) (payload : List UInt8)
    (hlong : h.LongEnough payload) (hshort : h.TooShort payload) : h.Unchanged payload := by
  cases h with
  | systemCmd w socketUser =>
    obtain ⟨hne, hport⟩ := hlong
    rcases hshort with hnil | ⟨h4, hlen⟩
    · exact absurd hnil hne
    · exact absurd (hport h4) (by omega)
  | executeNetCommand serialize authenticated c userID =>
    change c.executeNetCommand serialize authenticated userID payload = .ok (c, [])
    unfold MatchCtx.executeNetCommand
    cases hfind : c.mtch.mPlayers.find? userID with
    | none => rfl
    | some player =>
      have hin : c.hasPlayer userID = true := by simp [MatchCtx.hasPlayer, hfind]
      rcases hshort with rfl | ⟨h2, hlen⟩ | rfl
      · rfl
      · exact absurd (hlong hin h2) (by omega)
      · rfl
  | updateOrientationNetCmd c player =>
    have hlen : 28 ≤ payload.length := hlong
    exact absurd hshort (by simp only [TooShort]; omega)
  | handleInitialConnect =>
    have hlen : 3 ≤ payload.length := hlong
    exact absurd hshort (by simp only [TooShort]; omega)

/-- The handlers read received bytes only, and change nothing for want of some, if and
only if the payload has the bytes that are read without a test. -/
theorem payload_safe_iff (h : PayloadHandler) (payload : List UInt8) :
    h.Safe payload ↔ h.LongEnough payload := by
  rw [Safe, inside_iff]
  exact ⟨And.left, fun hlong => ⟨hlong, unchanged_of_tooShort h payload hlong⟩⟩

/-- The first frame of a client with length zero: its first three bytes are logged. -/
theorem not_payload_safe : ¬ ∀ h payload, Safe h payload := by
  intro hall
  have hread : 0 ∈ (PayloadReads.handleInitialConnect 0).reads (bytes []) := by decide
  have hinside := (hall .handleInitialConnect []).1 0 hread
  exact absurd hinside (by decide)

end PayloadHandler

end GameServer
