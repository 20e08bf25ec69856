import GameServer.Json
import GameServer.Lib.Execution
import GameServer.Lib.Printf

/-! The `Logger`: `AddEntry` of any thread puts an entry into `_entries`, `Update` of the
main thread takes them all and draws one after the other. `Draw` hands its line to
`printf` as the format. -/

namespace GameServer

open Lib
open Json (asciiBytes)

/-! ### A line -/

def logLevelPrint : UInt32 := 0
def logLevelLog : UInt32 := 1
def logLevelWarning : UInt32 := 2
def logLevelError : UInt32 := 3
def logLevelResetInput : UInt32 := 4

structure LogEntry where
  level : UInt32
  message : List UInt8
  deriving DecidableEq, Repr

/-- The `switch` of `Draw`; it has no default. -/
def consoleColor (level : UInt32) : String :=
  if level = logLevelPrint ∨ level = logLevelLog then "0m"
  else if level = logLevelWarning then "93m"
  else if level = logLevelError then "91m"
  else ""

/-- The entry is no `ResetInput`. -/
def LogEntry.logs (ent : LogEntry) : Bool := ent.level ≠ logLevelResetInput

/-- `lineStr` of `Draw`. -/
def LogEntry.lineStr (ent : LogEntry) : List UInt8 :=
  asciiBytes "\x1b[" ++ asciiBytes (consoleColor ent.level) ++ ent.message ++
    asciiBytes "\x1b[0m\n"

/-- `("> " + cur).c_str()`, `cur` what was typed so far. -/
def inputPrompt (cur : List UInt8) : List UInt8 := asciiBytes "> " ++ cur

/-- What one call of `printf` has written. -/
inductive Printed where
  | control (text : List UInt8)
  | line (text : List UInt8)
  | prompt (text : List UInt8)
  deriving DecidableEq, Repr

def clearCurrentConsoleLine : List Printed :=
  [.control (asciiBytes "\x1b[2K"), .control (asciiBytes "\x1b[100D")]

/-- `Logger::Draw`; `none` when a call of `printf` is undefined. -/
def LogEntry.draw (ent : LogEntry) (cur : List UInt8) : Option (List Printed) :=
  if ent.level = logLevelResetInput then
    some (clearCurrentConsoleLine ++ [.prompt (asciiBytes "> ")])
  else do
    let line ← printf ent.lineStr
    let prompt ← printf (inputPrompt cur)
    some (clearCurrentConsoleLine ++ [.line line, .prompt prompt])

/-! ### The queue -/

/-- The next statement of `Update`. -/
inductive LogPc where
  /-- `Update` is not running -/
  | idle
  /-- `_entries` was not empty -/
  | take
  /-- the entries that are still to be drawn -/
  | draw (rest : List LogEntry)
  deriving DecidableEq, Repr

structure Logger where
  entries : List LogEntry
  currentEntries : List LogEntry
  update : LogPc
  written : List Printed
  /-- a call of `printf` was undefined -/
  undefined : Bool

namespace Logger

inductive Event where
  | addEntry (level : UInt32) (message : List UInt8)
  /-- `Update` is called -/
  | update
  /-- it moves `_entries` to `_currentEntries` -/
  | take
  /-- it draws the next entry, while `cur` is typed -/
  | draw (cur : List UInt8)
  | return
  deriving DecidableEq, Repr

def Step (s : Logger) (e : Event) (s' : Logger) : Prop :=
  s.undefined = false ∧
  match e with
  | .addEntry level message => s' = { s with entries := s.entries ++ [⟨level, message⟩] }
  | .update => s.update = .idle ∧
      s' = { s with update := if s.entries = [] then .idle else .take }
  | .take => s.update = .take ∧
      s' = { s with entries := [], currentEntries := s.entries, update := .draw s.entries }
  | .draw cur => ∃ ent rest, s.update = .draw (ent :: rest) ∧
      s' = match ent.draw cur with
        | some out => { s with update := .draw rest, written := s.written ++ out }
        | none => { s with undefined := true }
  | .return => s.update = .draw [] ∧ s' = { s with update := .idle }

/-- Nothing is logged yet. -/
structure Init (s : Logger) : Prop where
  entries : s.entries = []
  currentEntries : s.currentEntries = []
  update : s.update = .idle
  written : s.written = []
  undefined : s.undefined = false

def system : System Logger Event := ⟨Init, Step⟩

/-! ### What was logged and what is to be seen -/

def entryOf : Logger × Event → Option LogEntry
  | (_, .addEntry level message) => some ⟨level, message⟩
  | _ => none

/-- The entries of the calls of `AddEntry`. -/
def added (tr : List (Logger × Event)) : List LogEntry := tr.filterMap entryOf

def lineOf : Printed → Option (List UInt8)
  | .line text => some text
  | .control _ | .prompt _ => none

/-- The log lines that were written. -/
def lines (s : Logger) : List (List UInt8) := s.written.filterMap lineOf

/-- Every entry is written once, in the order of `AddEntry` and as it is. -/
def Faithful (tr : List (Logger × Event)) (s : Logger) : Prop :=
  s.undefined = false ∧ s.lines = ((added tr).filter LogEntry.logs).map LogEntry.lineStr

/-- A call of `Update` has come to its end, and nothing was added meanwhile. -/
def FinalUpdate (tr : List (Logger × Event)) (s : Logger) : Prop :=
  ∃ past x own, tr = past ++ x :: own ∧ x.2 = .update ∧ (∀ y ∈ own, entryOf y = none) ∧
    (s.undefined = true ∨ s.update = .idle)

/-- The prompt of the step is no undefined format. -/
def PromptDefined : Logger × Event → Prop
  | (s, .draw cur) => ∀ ent rest, s.update = .draw (ent :: rest) →
      LogEntry.logs ent = true → (printf (inputPrompt cur)).isSome = true
  | _ => True

/-! ### One line -/

section Line

variable {ent : LogEntry} {cur : List UInt8} {out : List Printed}

theorem plain_consoleColor (level : UInt32) : Plain (asciiBytes (consoleColor level)) := by
  unfold consoleColor
  split_ifs <;> decide +kernel

theorem plain_lineStr (ent : LogEntry) : Plain ent.lineStr ↔ Plain ent.message := by
  have hstart : Plain (asciiBytes "\x1b[") := by decide +kernel
  have hreset : Plain (asciiBytes "\x1b[0m\n") := by decide +kernel
  rw [LogEntry.lineStr, plain_append, plain_append, plain_append, and_iff_left hreset,
    and_iff_right ⟨hstart, plain_consoleColor ent.level⟩]

theorem draw_of_reset (h : ent.logs = false) :
    ent.draw cur = some (clearCurrentConsoleLine ++ [.prompt (asciiBytes "> ")]) := by
  have hreset : ent.level = logLevelResetInput := by simpa [LogEntry.logs] using h
  unfold LogEntry.draw
  rw [if_pos hreset]

theorem draw_of_logs (h : ent.logs = true) :
    ent.draw cur = (printf ent.lineStr).bind fun line => (printf (inputPrompt cur)).bind
      fun prompt => some (clearCurrentConsoleLine ++ [.line line, .prompt prompt]) := by
  have hlogs : ¬ ent.level = logLevelResetInput := by simpa [LogEntry.logs] using h
  unfold LogEntry.draw
  rw [if_neg hlogs]
  rfl

/-- The lines of a call of `Draw`. -/
theorem lines_draw (h : ent.draw cur = some out) :
    ([ent].filter LogEntry.logs).map (fun ent => printf ent.lineStr) =
        (out.filterMap lineOf).map some ∧
      (ent.logs = true → (printf (inputPrompt cur)).isSome = true) := by
  cases hlogs : ent.logs with
  | false =>
    rw [draw_of_reset hlogs] at h
    cases h
    refine ⟨?_, nofun⟩
    rw [List.filter_cons_of_neg (by simp [hlogs])]
    rfl
  | true =>
    rw [draw_of_logs hlogs] at h
    obtain ⟨line, hline, h⟩ := Option.bind_eq_some_iff.mp h
    obtain ⟨prompt, hprompt, h⟩ := Option.bind_eq_some_iff.mp h
    cases h
    refine ⟨?_, fun _ => by rw [hprompt]; rfl⟩
    rw [List.filter_cons_of_pos hlogs]
    change [printf ent.lineStr] = [some line]
    rw [hline]

/-- When a call of `Draw` is undefined, its line or its prompt is. -/
theorem draw_none (h : ent.draw cur = none) :
    ent.logs = true ∧ (printf ent.lineStr = none ∨ ¬ (printf (inputPrompt cur)).isSome = true) := by
  cases hlogs : ent.logs with
  | false =>
    rw [draw_of_reset hlogs] at h
    cases h
  | true =>
    refine ⟨rfl, ?_⟩
    rw [draw_of_logs hlogs] at h
    cases hline : printf ent.lineStr with
    | none => exact .inl rfl
    | some line =>
      rw [hline, Option.bind_some] at h
      right
      cases hprompt : printf (inputPrompt cur) with
      | none => exact Bool.false_ne_true
      | some prompt =>
        rw [hprompt] at h
        cases h

end Line

/-! ### A step -/

variable {s s' : Logger} {e : Event} {tr : List (Logger × Event)}

/-- The entries that `Update` has taken and not drawn. -/
def remaining (s : Logger) : List LogEntry :=
  match s.update with
  | .draw rest => rest
  | .idle | .take => []

/-- Every entry is drawn, about to be drawn or waiting, in the order of `AddEntry`. -/
structure Drawn (tr : List (Logger × Event)) (s : Logger) : Prop where
  prompts : ∀ x ∈ tr, PromptDefined x
  order : ∃ drawn, added tr = drawn ++ (s.remaining ++ s.entries) ∧
    (drawn.filter LogEntry.logs).map (fun ent => printf ent.lineStr) = s.lines.map some

/-- A call of `printf` in the run was undefined. -/
def Broken (tr : List (Logger × Event)) : Prop :=
  (∃ x ∈ tr, ¬ PromptDefined x) ∨
    ∃ ent ∈ added tr, ent.logs = true ∧ printf ent.lineStr = none

theorem added_snoc (tr : List (Logger × Event)) (x : Logger × Event) :
    added (tr ++ [x]) = added tr ++ (entryOf x).toList := by
  rw [added, List.filterMap_append]
  refine congrArg _ ?_
  cases hentry : entryOf x with
  | none => exact List.filterMap_cons_none hentry
  | some ent => exact List.filterMap_cons_some hentry

theorem Drawn.next (hs : Drawn tr s) (hprompt : PromptDefined (s, e))
    (hentry : entryOf (s, e) = none)
    (hsame : s'.remaining ++ s'.entries = s.remaining ++ s.entries) (hlines : s'.lines = s.lines) :
    Drawn (tr ++ [(s, e)]) s' := by
  obtain ⟨drawn, hadded, hdrawn⟩ := hs.order
  refine ⟨?_, drawn, ?_, ?_⟩
  · intro x hx
    rcases List.mem_append.mp hx with hx | hx
    · exact hs.prompts x hx
    · rw [List.mem_singleton.mp hx]
      exact hprompt
  · rw [added_snoc, hentry, hsame, hadded, Option.toList_none, List.append_nil]
  · rw [hlines, hdrawn]

theorem promptDefined_draw {ent : LogEntry} {rest : List LogEntry} {cur : List UInt8}
    (hq : s.update = .draw (ent :: rest)) : PromptDefined (s, .draw cur) ↔
      (ent.logs = true → (printf (inputPrompt cur)).isSome = true) := by
  constructor
  · exact fun h => h ent rest hq
  · intro h ent' rest' hq'
    cases hq.symm.trans hq'
    exact h

theorem drawn_draw {ent : LogEntry} {rest : List LogEntry} {cur : List UInt8}
    {out : List Printed} (hs : Drawn tr s) (hq : s.update = .draw (ent :: rest))
    (h : ent.draw cur = some out) :
    Drawn (tr ++ [(s, .draw cur)])
      { s with update := .draw rest, written := s.written ++ out } := by
  obtain ⟨hlines, hprompt⟩ := lines_draw h
  obtain ⟨drawn, hadded, hdrawn⟩ := hs.order
  refine ⟨?_, drawn ++ [ent], ?_, ?_⟩
  · intro x hx
    rcases List.mem_append.mp hx with hx | hx
    · exact hs.prompts x hx
    · rw [List.mem_singleton.mp hx]
      exact (promptDefined_draw hq).mpr hprompt
  · have hremaining : s.remaining = ent :: rest := by rw [remaining, hq]
    rw [added_snoc, hadded, hremaining]
    simp [entryOf, remaining]
  · rw [List.filter_append, List.map_append, hdrawn, hlines, ← List.map_append]
    refine congrArg _ ?_
    rw [lines, lines, List.filterMap_append]

theorem broken_draw {ent : LogEntry} {rest : List LogEntry} {cur : List UInt8}
    (hs : Drawn tr s) (hq : s.update = .draw (ent :: rest)) (h : ent.draw cur = none) :
    Broken (tr ++ [(s, .draw cur)]) := by
  obtain ⟨hlogs, hline | hprompt⟩ := draw_none h
  · obtain ⟨drawn, hadded, -⟩ := hs.order
    have hremaining : s.remaining = ent :: rest := by rw [remaining, hq]
    refine .inr ⟨ent, ?_, hlogs, hline⟩
    rw [added_snoc, hadded, hremaining]
    simp
  · refine .inl ⟨_, List.mem_append_right _ (List.mem_singleton.mpr rfl), fun hdefined => ?_⟩
    exact hprompt ((promptDefined_draw hq).mp hdefined hlogs)

/-- The lines are in order, or a call of `printf` was undefined. -/
def Inv (tr : List (Logger × Event)) (s : Logger) : Prop :=
  (s.undefined = false ∧ Drawn tr s) ∨ (s.undefined = true ∧ Broken tr)

theorem drawn_init (h : s.Init) : Drawn [] s := by
  refine ⟨fun x hx => absurd hx List.not_mem_nil, [], ?_, ?_⟩
  · rw [remaining, h.update, h.entries]
    rfl
  · rw [lines, h.written]
    rfl

theorem inv_step (hs : Inv tr s) (h : Step s e s') : Inv (tr ++ [(s, e)]) s' := by
  obtain ⟨hdefined, h⟩ := h
  replace hs : Drawn tr s := by
    rcases hs with ⟨-, hs⟩ | ⟨htrue, -⟩
    · exact hs
    · rw [hdefined] at htrue
      cases htrue
  cases e with
  | addEntry level message =>
    dsimp only at h
    subst h
    obtain ⟨drawn, hadded, hdrawn⟩ := hs.order
    refine .inl ⟨hdefined, ?_, drawn, ?_, hdrawn⟩
    · intro x hx
      rcases List.mem_append.mp hx with hx | hx
      · exact hs.prompts x hx
      · rw [List.mem_singleton.mp hx]
        trivial
    · rw [added_snoc, hadded, List.append_assoc, List.append_assoc]
      rfl
  | update =>
    obtain ⟨hidle, rfl⟩ := h
    refine .inl ⟨hdefined, hs.next trivial rfl ?_ rfl⟩
    rw [remaining, remaining, hidle]
    dsimp only
    split_ifs
    · rfl
    · rfl
  | take =>
    obtain ⟨htake, rfl⟩ := h
    refine .inl ⟨hdefined, hs.next trivial rfl ?_ rfl⟩
    rw [remaining, remaining, htake]
    exact List.append_nil _
  | draw cur =>
    obtain ⟨ent, rest, hq, rfl⟩ := h
    cases hdraw : ent.draw cur with
    | some out => exact .inl ⟨hdefined, drawn_draw hs hq hdraw⟩
    | none => exact .inr ⟨rfl, broken_draw hs hq hdraw⟩
  | «return» =>
    obtain ⟨hend, rfl⟩ := h
    refine .inl ⟨hdefined, hs.next trivial rfl ?_ rfl⟩
    rw [remaining, remaining, hend]

theorem exec_inv (h : system.Exec tr s) : Inv tr s :=
  h.trace_inv Inv (fun _ (hi : Init _) => .inl ⟨hi.undefined, drawn_init hi⟩)
    fun _ _ _ _ _ => inv_step

/-! ### The end of `Update` -/

/-- From its call on, `Update` is before its move or has left nothing behind. -/
theorem taken_of_update {past own : List (Logger × Event)} {x : Logger × Event}
    (h : system.Exec (past ++ x :: own) s) (hx : x.2 = .update) :
    (∀ y ∈ own, entryOf y = none) → s.update = .take ∨ s.entries = [] := by
  refine h.since (fun own s => (∀ y ∈ own, entryOf y = none) → s.update = .take ∨ s.entries = [])
    (fun s _ hst _ => ?_) fun own s e s' ih hst hown => ?_
  · rw [hx] at hst
    obtain ⟨-, -, rfl⟩ := hst
    by_cases hempty : x.1.entries = []
    · exact .inr hempty
    · exact .inl (if_neg hempty)
  · rw [List.forall_mem_append] at hown
    obtain ⟨hown, hlast⟩ := hown
    have hs := ih hown
    obtain ⟨-, hst⟩ := hst
    cases e with
    | addEntry level message => cases hlast _ (List.mem_singleton.mpr rfl)
    | update =>
      obtain ⟨hidle, rfl⟩ := hst
      rw [hidle] at hs
      exact .inr (hs.resolve_left nofun)
    | take =>
      obtain ⟨-, rfl⟩ := hst
      exact .inr rfl
    | draw cur =>
      obtain ⟨ent, rest, hq, rfl⟩ := hst
      rw [hq] at hs
      have hempty := hs.resolve_left nofun
      cases hdraw : ent.draw cur with
      | some out => exact .inr hempty
      | none => exact .inr hempty
    | «return» =>
      obtain ⟨hend, rfl⟩ := hst
      rw [hend] at hs
      exact hs.imp_left nofun

/-- When everything is drawn, the lines are as they should be if and only if no message
has a byte that `printf` takes for something else. -/
theorem lines_eq_iff (hs : Drawn tr s) (hremaining : s.remaining = []) (hentries : s.entries = []) :
    s.lines = ((added tr).filter LogEntry.logs).map LogEntry.lineStr ↔
      ∀ ent ∈ added tr, ent.logs = true → Plain ent.message := by
  obtain ⟨drawn, hadded, hdrawn⟩ := hs.order
  rw [hremaining, hentries, List.append_nil, List.append_nil] at hadded
  have hmap : s.lines = ((added tr).filter LogEntry.logs).map LogEntry.lineStr ↔
      s.lines.map some = (((added tr).filter LogEntry.logs).map LogEntry.lineStr).map some :=
    (List.map_injective_iff.mpr (Option.some_injective _)).eq_iff.symm
  rw [hmap, ← hdrawn, hadded, List.map_map, List.map_inj_left]
  refine forall_congr' fun ent => ?_
  rw [List.mem_filter, and_imp]
  refine imp_congr_right fun _ => imp_congr_right fun _ => ?_
  rw [Function.comp_apply, printf_eq_self_iff, plain_lineStr]

theorem not_broken (hplain : ∀ ent ∈ added tr, ent.logs = true → Plain ent.message)
    (hprompts : ∀ x ∈ tr, PromptDefined x) : ¬ Broken tr := by
  rintro (⟨x, hx, hnot⟩ | ⟨ent, hent, hlogs, hnone⟩)
  · exact hnot (hprompts x hx)
  · rw [printf_of_plain ((plain_lineStr ent).mpr (hplain ent hent hlogs))] at hnone
    cases hnone

/-- After the final `Update` every entry has been written once, in order and as it is, if
and only if no message has a percent sign or a byte 0, and what was typed meanwhile made
no undefined format. -/
theorem logging_faithful_iff (tr : List (Logger × Event)) (s : Logger) (h : system.Exec tr s)
    (hfinal : FinalUpdate tr s) :
    Faithful tr s ↔ (∀ ent ∈ added tr, ent.logs = true → Plain ent.message) ∧
      ∀ x ∈ tr, PromptDefined x := by
  rcases exec_inv h with ⟨hdefined, hs⟩ | ⟨hundefined, hbroken⟩
  · obtain ⟨past, x, own, rfl, hx, hown, hend⟩ := hfinal
    have hidle : s.update = .idle := hend.resolve_left (by rw [hdefined]; exact nofun)
    have hentries : s.entries = [] :=
      (taken_of_update h hx hown).resolve_left (by rw [hidle]; exact nofun)
    have hremaining : s.remaining = [] := by rw [remaining, hidle]
    rw [Faithful, and_iff_right hdefined, lines_eq_iff hs hremaining hentries,
      and_iff_left hs.prompts]
  · refine iff_of_false (fun hfaithful => ?_) fun ⟨hplain, hprompts⟩ =>
      not_broken hplain hprompts hbroken
    rw [hfaithful.1] at hundefined
    cases hundefined

/-! ### One message -/

def emptyLogger : Logger := ⟨[], [], .idle, [], false⟩

/-- The logger when `Update` has taken the one entry there is. -/
def takenLogger (ent : LogEntry) : Logger := ⟨[], [ent], .draw [ent], [], false⟩

def takenRun (ent : LogEntry) : List (Logger × Event) :=
  [(emptyLogger, .addEntry ent.level ent.message),
    ({ emptyLogger with entries := [ent] }, .update),
    ({ emptyLogger with entries := [ent], update := .take }, .take)]

theorem takenRun_exec (ent : LogEntry) : system.Exec (takenRun ent) (takenLogger ent) := by
  have h0 : system.Exec [] emptyLogger := .nil ⟨rfl, rfl, rfl, rfl, rfl⟩
  have h1 := h0.next (.addEntry ent.level ent.message) { emptyLogger with entries := [ent] }
    ⟨rfl, rfl⟩
  have h2 := h1.next .update { emptyLogger with entries := [ent], update := .take } ⟨rfl, rfl, rfl⟩
  exact h2.next .take (takenLogger ent) ⟨rfl, rfl, rfl⟩

/-- The entry is drawn and `Update` returns. -/
theorem drawn_exec (ent : LogEntry) (line : List UInt8) (hlogs : ent.logs = true)
    (hline : printf ent.lineStr = some line) : ∃ tr s, system.Exec tr s ∧ FinalUpdate tr s ∧
      s.undefined = false ∧ s.lines = [line] ∧ added tr = [ent] := by
  have hprompt : printf (inputPrompt []) = some (inputPrompt []) := printf_of_plain (by decide +kernel)
  have hdraw : ent.draw [] =
      some (clearCurrentConsoleLine ++ [.line line, .prompt (inputPrompt [])]) := by
    rw [draw_of_logs hlogs, hline, hprompt]
    rfl
  have h1 := (takenRun_exec ent).next (.draw []) ⟨[], [ent], .draw [], _, false⟩
    ⟨rfl, ent, [], rfl, by rw [hdraw]; rfl⟩
  have h2 := h1.next .return ⟨[], [ent], .idle, _, false⟩ ⟨rfl, rfl, rfl⟩
  exact ⟨_, _, h2, ⟨[_], _, [_, _, _], rfl, rfl, by simp [entryOf], .inr rfl⟩, rfl, rfl, rfl⟩

/-- A line whose format is undefined. -/
theorem undefined_exec (ent : LogEntry) (hlogs : ent.logs = true)
    (hline : printf ent.lineStr = none) : ∃ tr s, system.Exec tr s ∧ FinalUpdate tr s ∧
      s.undefined = true ∧ added tr = [ent] := by
  have hdraw : ent.draw [] = none := by
    rw [draw_of_logs hlogs, hline]
    rfl
  have h1 := (takenRun_exec ent).next (.draw []) { takenLogger ent with undefined := true }
    ⟨rfl, ent, [], rfl, by rw [hdraw]⟩
  exact ⟨_, _, h1, ⟨[_], _, [_, _], rfl, rfl, by simp [entryOf], .inl rfl⟩, rfl, rfl⟩

theorem plain_message_faithful : ∃ tr s, system.Exec tr s ∧ FinalUpdate tr s ∧ Faithful tr s := by
  have hplain : Plain (asciiBytes "[time]: Set user") := by decide +kernel
  obtain ⟨tr, s, h, hfinal, hdefined, -, hadded⟩ :=
    drawn_exec ⟨logLevelLog, asciiBytes "[time]: Set user"⟩ _ rfl
      (printf_of_plain ((plain_lineStr _).mpr hplain))
  refine ⟨tr, s, h, hfinal, (logging_faithful_iff tr s h hfinal).mpr ⟨?_, ?_⟩⟩
  · rw [hadded]
    intro ent hent _
    rw [List.mem_singleton.mp hent]
    exact hplain
  · rcases exec_inv h with ⟨-, hs⟩ | ⟨hundefined, -⟩
    · exact hs.prompts
    · rw [hdefined] at hundefined
      cases hundefined

/-- `100%%` is written with one percent sign, a text loses what follows its byte 0, and
`%s` reads an argument that is not there. -/
theorem percent_not_faithful :
    (∃ tr s, system.Exec tr s ∧ FinalUpdate tr s ∧
      added tr = [⟨logLevelLog, asciiBytes "[time]: 100%%"⟩] ∧
      s.lines = [asciiBytes "\x1b[0m[time]: 100%\x1b[0m\n"] ∧ ¬ Faithful tr s) ∧
    (∃ tr s, system.Exec tr s ∧ FinalUpdate tr s ∧
      added tr = [⟨logLevelLog, asciiBytes "[time]: a\x00b"⟩] ∧
      s.lines = [asciiBytes "\x1b[0m[time]: a"] ∧ ¬ Faithful tr s) ∧
    ∃ tr s, system.Exec tr s ∧ FinalUpdate tr s ∧
      added tr = [⟨logLevelLog, asciiBytes "[time]: %s"⟩] ∧ ¬ Faithful tr s := by
  refine ⟨?_, ?_, ?_⟩
  · obtain ⟨tr, s, h, hfinal, -, hlines, hadded⟩ :=
      drawn_exec ⟨logLevelLog, asciiBytes "[time]: 100%%"⟩
        (asciiBytes "\x1b[0m[time]: 100%\x1b[0m\n") rfl (by decide +kernel)
    refine ⟨tr, s, h, hfinal, hadded, hlines, fun hfaithful => ?_⟩
    have heq := hfaithful.2
    rw [hlines, hadded] at heq
    exact absurd heq (by decide +kernel)
  · obtain ⟨tr, s, h, hfinal, -, hlines, hadded⟩ :=
      drawn_exec ⟨logLevelLog, asciiBytes "[time]: a\x00b"⟩
        (asciiBytes "\x1b[0m[time]: a") rfl (by decide +kernel)
    refine ⟨tr, s, h, hfinal, hadded, hlines, fun hfaithful => ?_⟩
    have heq := hfaithful.2
    rw [hlines, hadded] at heq
    exact absurd heq (by decide +kernel)
  · obtain ⟨tr, s, h, hfinal, hundefined, hadded⟩ :=
      undefined_exec ⟨logLevelLog, asciiBytes "[time]: %s"⟩ rfl (by decide +kernel)
    refine ⟨tr, s, h, hfinal, hadded, fun hfaithful => ?_⟩
    rw [hfaithful.1] at hundefined
    cases hundefined

end Logger

end GameServer
