import TreeStore.Proofs.Shell.Script
import TreeStore.Shell.Program

/-!
# Conversations and scripts

A conversation shows a greeting, a prompt before every line and the help; apart from these
(`Console.answers`) it is the run of a script.  The lines of the script are those that the
conversation executes: the lines before the one that asks to leave, but for those that ask for help.
Every turn of the conversation is a turn of the script or none (`Console.answers_converse`), so both
leave the same store and show the same for the same lines: `Console.conversation_json`.
-/

namespace TreeStore.Shell

open Text (IsLine joinLines splitLines_joinLines splitFeeds_joinLines)

/-- It was shown for a line, as its output or its fault. -/
def Shown.isBlock : Shown → Bool
  | block _ => true
  | _ => false

namespace Console

/-- The console as if only outputs and faults of lines had been shown. -/
def answers (c : Console) : Console := { c with shown := c.shown.filter Shown.isBlock }

@[simp] theorem store_answers (c : Console) : c.answers.store = c.store := rfl

@[simp] theorem log_answers (c : Console) : c.answers.log = c.log := rfl

@[simp] theorem shown_answers (c : Console) :
    c.answers.shown = c.shown.filter Shown.isBlock := rfl

/-- The lines of a conversation that are executed. -/
def executed (lines : List String) : List String :=
  (lines.takeWhile fun line => !isLeave line).filter fun line => !isHelp line

/-! ### One line -/

section Line

variable (c : Console) (line : String)

theorem answers_display {s : Shown} (h : s.isBlock = false) :
    (c.display s).answers = c.answers := by
  rw [answers, display, List.filter_append, List.filter_cons_of_neg (by simp [h]), List.filter_nil,
    List.append_nil]
  rfl

theorem answers_display_block (text : String) :
    (c.display (.block text)).answers = c.answers.display (.block text) := by
  rw [answers, display, List.filter_append]
  rfl

theorem answers_debug (logger message : String) :
    (c.debug logger message).answers = c.answers.debug logger message := by
  have hlevels : c.answers.levels = c.levels := rfl
  rw [debug, debug, hlevels]
  split
  · rfl
  · rfl

theorem answers_note (outcome : LineOutcome) :
    (c.note line outcome).answers = c.answers.note line outcome := by
  rw [note, note]
  cases storeLine line outcome with
  | none => rfl
  | some message => exact c.answers_debug _ message

theorem answers_report (outcome : LineOutcome) :
    c.answers.report line outcome =
      ((c.report line outcome).1, (c.report line outcome).2.answers) := by
  cases outcome with
  | ok shown =>
    cases shown with
    | none => rfl
    | some shown => exact congrArg (Prod.mk true) (c.answers_display_block _).symm
  | error f =>
    cases f with
    | flaw f => exact congrArg (Prod.mk false) (c.answers_display_block _).symm
    | fault f =>
      cases f with
      | refused e =>
        -- a refusal is logged before it is shown
        have hdebug := c.answers_debug Log.commandLogger ("command failed: " ++ line)
        show (false, (c.answers.debug _ _).display (.block (renderFault
          (c.answers.debug _ _).screen (c.answers.debug _ _).style (.fault (.refused e))))) = _
        rw [← hdebug]
        exact congrArg (Prod.mk false) (answers_display_block _ _).symm
      | _ => exact congrArg (Prod.mk false) (c.answers_display_block _).symm

/-- What is shown around the lines makes no difference to them. -/
theorem answers_runLine :
    c.answers.runLine line = ((c.runLine line).1, (c.runLine line).2.answers) := by
  show (note (answers { c with store := (execute c.messages line c.store).2 }) line
    (execute c.messages line c.store).1).report line (execute c.messages line c.store).1 = _
  rw [← answers_note, answers_report]
  rfl

theorem answers_reply :
    (c.reply line).answers = if isHelp line then c.answers else (c.answers.runLine line).2 := by
  rw [reply, answers_runLine]
  split
  · exact c.answers_display rfl
  · rfl

end Line

/-! ### All lines -/

section Lines

variable {line : String} {lines : List String}

theorem executed_leave (h : isLeave line = true) : executed (line :: lines) = [] := by
  rw [executed, List.takeWhile_cons_of_neg (by simp [h]), List.filter_nil]

theorem executed_cons (h : isLeave line = false) :
    executed (line :: lines) = if isHelp line then executed lines else line :: executed lines := by
  rw [executed, List.takeWhile_cons_of_pos (by simp [h]), List.filter_cons]
  cases isHelp line <;> rfl

/-- A conversation executes its lines as a script does. -/
theorem answers_converse (c : Console) (lines : List String) :
    (c.converse lines).answers = (c.answers.runLines (executed lines)).2 := by
  induction lines generalizing c with
  | nil => exact c.answers_display rfl
  | cons line lines ih =>
    have hprompt : (c.display .prompt).answers = c.answers := c.answers_display rfl
    rw [converse_cons]
    cases hleave : isLeave line with
    | true =>
      rw [if_pos rfl, executed_leave hleave]
      exact hprompt
    | false =>
      rw [if_neg Bool.false_ne_true, ih, answers_reply, hprompt, executed_cons hleave]
      cases isHelp line <;> rfl

/-- Nothing behind a line that asks to leave makes a difference. -/
theorem converse_leave (c : Console) (h : isLeave line = true) (before after : List String) :
    c.converse (before ++ line :: after) = c.converse (before ++ [line]) := by
  induction before generalizing c with
  | nil =>
    rw [List.nil_append, List.nil_append, converse_cons, converse_cons, if_pos h, if_pos h]
  | cons first before ih =>
    rw [List.cons_append, List.cons_append, converse_cons, converse_cons, ih]

theorem mem_of_mem_executed (h : line ∈ executed lines) : line ∈ lines :=
  (List.takeWhile_sublist _).subset (List.mem_of_mem_filter h)

end Lines

/-! ### Whole jobs -/

theorem run_conversation (c : Console) {lines : List String} (h : ∀ line ∈ lines, IsLine line) :
    Job.conversation.run (joinLines lines) c = (0, (c.display .banner).converse lines) := by
  rw [Job.run, runShell, splitFeeds_joinLines h]

theorem run_script (c : Console) {lines : List String} (h : ∀ line ∈ lines, IsLine line)
    (input : String) :
    ((Job.script (joinLines lines)).run input c).2 = (c.runLines lines).2 := by
  rw [Job.run, runScript, splitLines_joinLines h]

/-- A conversation in the JSON style, on any screen, executes the lines before the one that asks to
leave, but for those that ask for help.  It leaves the store that the script of these lines leaves,
and shows and logs the same for each of them, payloads and messages of flawed lines alike; what
stands behind the line that asks to leave makes no difference.  It ends well, whatever became of its
lines. -/
theorem conversation_json (screen : Screen) (config : Config) (levels : Log.Levels)
    {lines : List String} (hlines : ∀ line ∈ lines, IsLine line) :
    let c := start screen config levels .json
    let run := executeAll c.messages (executed lines) c.store
    let shell := Job.conversation.run (joinLines lines) c
    let script := (Job.script (joinLines (executed lines))).run "" c
    run.1.map Executed.line = executed lines ∧
    (shell.2.store = run.2 ∧ script.2.store = run.2) ∧
    (shell.2.shown.filter Shown.isBlock = run.1.flatMap (·.shown screen .json) ∧
      script.2.shown = run.1.flatMap (·.shown screen .json)) ∧
    shell.2.log = script.2.log ∧
    (∀ before line after, lines = before ++ line :: after → isLeave line = true →
      shell = Job.conversation.run (joinLines (before ++ [line])) c) ∧
    shell.1 = 0 := by
  intro c run shell script
  have hexecuted : ∀ line ∈ executed lines, IsLine line := fun line hline =>
    hlines line (mem_of_mem_executed hline)
  have hscript : script.2 = (c.runLines (executed lines)).2 := c.run_script hexecuted ""
  have hshell : shell = (0, (c.display .banner).converse lines) := c.run_conversation hlines
  have hanswers : shell.2.answers = script.2 := by
    have hfresh : c.answers = c := rfl
    rw [hshell, hscript, answers_converse, c.answers_display rfl, hfresh]
  obtain ⟨records, hrun⟩ := c.runLines_eq (executed lines)
  have hstore : script.2.store = run.2 := by rw [hscript, hrun]
  have hshown : script.2.shown = run.1.flatMap (·.shown screen .json) := by
    rw [hscript, hrun]
    exact List.nil_append _
  refine ⟨map_line_executeAll, ⟨?_, hstore⟩, ⟨?_, hshown⟩, ?_, ?_, by rw [hshell]⟩
  · rw [← store_answers, hanswers, hstore]
  · rw [← shown_answers, hanswers, hshown]
  · rw [← log_answers, hanswers]
  · rintro before line after hcut hleave
    have hshort : ∀ l ∈ before ++ [line], IsLine l := fun l hl => hlines l (by
      rw [hcut, ← List.singleton_append, ← List.append_assoc]
      exact List.mem_append_left after hl)
    rw [hshell, c.run_conversation hshort, hcut, converse_leave _ hleave]

/-- A question for help, a line that fails, and one behind the end. -/
theorem conversation_json_failure :
    let c := start .terminal {} Log.Levels.initial .json
    let lines := ["mkdir /a", " help", "get /b", "exit\t", "rm /a"]
    executed lines = ["mkdir /a", "get /b"] ∧
      (executeAll c.messages (executed lines) c.store).1.map Executed.failed = [false, true] ∧
      (Job.conversation.run (joinLines lines) c).1 = 0 ∧
      (Job.conversation.run (joinLines lines) c).2.store =
        (executeAll c.messages ["mkdir /a", "get /b"] c.store).2 := by
  intro c lines
  have hexecuted : executed lines = ["mkdir /a", "get /b"] := by decide +kernel
  have hlines : ∀ line ∈ lines, IsLine line := by
    have hall : (lines.all fun l => l.toList.all fun ch => !Text.isBoundary ch) = true := by decide
    intro line hline ch hch
    simpa using List.all_eq_true.mp (List.all_eq_true.mp hall line hline) ch hch
  obtain ⟨-, ⟨hstore, -⟩, -, -, -, hstatus⟩ :=
    conversation_json .terminal {} Log.Levels.initial hlines
  rw [hexecuted] at hstore
  exact ⟨hexecuted, by decide +kernel, hstatus, hstore⟩

end Console

end TreeStore.Shell
