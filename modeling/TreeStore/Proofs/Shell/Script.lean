import TreeStore.Proofs.Json.Ascii
import TreeStore.Proofs.Shell.Commands
import TreeStore.Proofs.Store.Counters
import TreeStore.Proofs.Store.Reachable
import TreeStore.Proofs.Text.Lines
import TreeStore.Shell.Console
import TreeStore.Shell.Terminal

/-!
# Scripts and the failures in them

A line of a script does one of five things to the store it finds: `LineRun`.  A line that fails
changes nothing but the counter of failures, and a line that succeeds does not depend on that
counter.  So a script without the lines that failed comes to the same store, up to the failures
counted, and its lines come to the same outcomes: `executeAll_succeeded`.  In the JSON style each
line that is a command shows one line of ASCII, whatever the screen: `Console.runScript_json`.
-/

namespace TreeStore.Shell

open Text (IsVisible IsLine splitLines unifyNewlines joinLines)

/-! ### Lines one after the other -/

/-- A line that was run: the store it found, what it came to, and the store it left. -/
structure Executed where
  before : Store
  line : String
  outcome : LineOutcome
  after : Store

/-- Runs a line on a store. -/
def executeLine (messages : Messages) (line : String) (s : Store) : Executed :=
  ⟨s, line, (execute messages line s).1, (execute messages line s).2⟩

/-- Runs all lines, each on the store that the one before it left; gives the last store, too. -/
def executeAll (messages : Messages) : List String → Store → List Executed × Store
  | [], s => ([], s)
  | line :: lines, s =>
    let x := executeLine messages line s
    let rest := executeAll messages lines x.after
    (x :: rest.1, rest.2)

/-- The texts that are shown for an outcome. -/
def blocks (screen : Screen) (style : Style) : LineOutcome → List String
  | .ok none => []
  | .ok (some (name, output)) => [render screen style name output]
  | .error f => [renderFault screen style f]

/-- What a command shows, as if nothing had failed before it. -/
def Output.withoutFailures : Output → Output
  | result r => .result r
  | stats st => .stats st.withoutFailures

/-- The outcome as if nothing had failed before it. -/
def LineOutcome.withoutFailures (o : LineOutcome) : LineOutcome :=
  o.map (Option.map fun (name, output) => (name, output.withoutFailures))

namespace Executed

def failed (x : Executed) : Bool := !x.outcome.isOk

/-- The line is no command of the language. -/
def Flawed (x : Executed) : Prop := ∃ f, x.outcome = .error (.flaw f)

/-- The store has refused what the line asked for. -/
def Refused (x : Executed) : Prop := ∃ e, x.outcome = .error (.fault (.refused e))

/-- What a console shows for the line. -/
def shown (screen : Screen) (style : Style) (x : Executed) : List Shown :=
  (blocks screen style x.outcome).map .block

/-- The characters shown for the line. -/
def text (screen : Screen) (style : Style) (x : Executed) : String :=
  String.join ((x.shown screen style).map Shown.text)

/-- The same line, as if nothing had failed before it. -/
def withoutFailures (x : Executed) : Executed where
  before := x.before.withoutFailures
  line := x.line
  outcome := x.outcome.withoutFailures
  after := x.after.withoutFailures

theorem failed_withoutFailures (x : Executed) : x.withoutFailures.failed = x.failed := by
  rw [failed, failed, withoutFailures]
  cases x.outcome <;> rfl

theorem after_withoutFailures (x : Executed) :
    x.withoutFailures.after = x.after.withoutFailures := rfl

end Executed

theorem executeAll_cons (messages : Messages) (line : String) (lines : List String) (s : Store) :
    executeAll messages (line :: lines) s =
      (executeLine messages line s ::
          (executeAll messages lines (executeLine messages line s).after).1,
        (executeAll messages lines (executeLine messages line s).after).2) := rfl

/-! ### One line -/

/-- What a line can do to a store: its outcome, and the store it leaves. -/
inductive LineRun (messages : Messages) (line : String) (s : Store) :
    LineOutcome → Store → Prop where
  | flawed {f : Flaw} (h : parseLine line = .error f) : LineRun messages line s (.error (.flaw f)) s
  | blank (h : parseLine line = .ok none) : LineRun messages line s (.ok none) s
  | stats {name : String} (h : parseLine line = .ok (some (name, .stats))) :
      LineRun messages line s (.ok (some (name, .stats s.stats))) s
  | refused {name : String} {r : Request} {e : StoreError}
      (h : parseLine line = .ok (some (name, .request r))) :
      LineRun messages line s (.error (.fault (.refused e))) (s.count r.action false)
  | done {name : String} {r : Request} {result : Result} {s' : Store}
      (h : parseLine line = .ok (some (name, .request r)))
      (hdone : Store.perform messages r s = .ok result s') :
      LineRun messages line s (.ok (some (name, .result result))) s'

section Line

variable {messages : Messages} {line : String} {s s' : Store} {outcome : LineOutcome}

theorem lineRun_execute (hs : s.Sound) (messages : Messages) (line : String) :
    LineRun messages line s (execute messages line s).1 (execute messages line s).2 := by
  cases hline : parseLine line with
  | error f =>
    rw [execute, hline]
    exact .flawed hline
  | ok command =>
    cases command with
    | none =>
      rw [execute, hline]
      exact .blank hline
    | some command =>
      obtain ⟨name, c⟩ := command
      cases c with
      | stats =>
        rw [execute, hline]
        exact .stats hline
      | request r =>
        rw [execute_of_request hline s, Store.run]
        rcases hs.perform_cases messages r with ⟨code, cause, -, h⟩ | ⟨result, g, -, h, -⟩
        · rw [h]
          exact .refused hline
        · rw [h]
          exact .done hline h

theorem LineRun.sound (h : LineRun messages line s outcome s') (hs : s.Sound) : s'.Sound := by
  cases h with
  | flawed | blank | stats => exact hs
  | refused => exact ⟨hs.linked, hs.free⟩
  | @done _ r _ _ _ hdone =>
    have hrun := hs.run_perform messages r
    rwa [Store.run, hdone] at hrun

theorem LineRun.isOk_eq_false_iff (h : LineRun messages line s outcome s') :
    outcome.isOk = false ↔
      (∃ f, outcome = .error (.flaw f)) ∨ ∃ e, outcome = .error (.fault (.refused e)) := by
  cases h <;> simp [Except.isOk, Except.toBool]

theorem LineRun.eq_none_iff (h : LineRun messages line s outcome s') :
    outcome = .ok none ↔ parseLine line = .ok none := by
  cases h with
  | flawed h | blank h | stats h | refused h | done h => simp [h]

theorem parseLine_eq_none_iff : parseLine line = .ok none ↔ words line = .ok [] := by
  rw [parseLine]
  cases words line with
  | error w => simp
  | ok ws =>
    cases ws with
    | nil => simp
    | cons name args => cases hparse : Command.parse name args <;> simp [Except.map, hparse]

/-- A line that is no command leaves the store as it is. -/
theorem LineRun.unchanged (h : LineRun messages line s outcome s')
    (hno : (∃ f, outcome = .error (.flaw f)) ∨ outcome = .ok none) : s' = s := by
  cases h with
  | flawed | blank | stats => rfl
  | refused | done => simp at hno

/-- A line that fails leaves the store as it is, up to the failures counted. -/
theorem LineRun.failure (h : LineRun messages line s outcome s') (hfailed : outcome.isOk = false) :
    s'.withoutFailures = s.withoutFailures := by
  cases h with
  | flawed => rfl
  | @refused _ r => exact s.withoutFailures_failure r.action
  | blank | stats | done => cases hfailed

/-- A line that succeeds does the same to the store without the failures before it. -/
theorem LineRun.success (h : LineRun messages line s outcome s') (hok : outcome.isOk = true) :
    execute messages line s.withoutFailures = (outcome.withoutFailures, s'.withoutFailures) := by
  cases h with
  | flawed | refused => cases hok
  | blank hline =>
    rw [execute, hline]
    rfl
  | stats hline =>
    rw [execute, hline]
    rfl
  | done hline hdone =>
    rw [execute_of_request hline, Store.run, Store.perform_withoutFailures hdone]
    rfl

end Line

/-! ### All lines -/

section Lines

variable {messages : Messages} {lines : List String} {s : Store}

theorem map_line_executeAll :
    (executeAll messages lines s).1.map Executed.line = lines := by
  induction lines generalizing s with
  | nil => rfl
  | cons line lines ih => exact congrArg (line :: ·) ih

theorem line_mem {x : Executed} (hx : x ∈ (executeAll messages lines s).1) : x.line ∈ lines := by
  have hlines := @map_line_executeAll messages lines s
  rw [← hlines]
  exact List.mem_map_of_mem hx

theorem lineRun_of_mem (hs : s.Sound) {x : Executed} (hx : x ∈ (executeAll messages lines s).1) :
    LineRun messages x.line x.before x.outcome x.after := by
  induction lines generalizing s with
  | nil => cases hx
  | cons line lines ih =>
    have hrun := lineRun_execute hs messages line
    rcases List.mem_cons.mp hx with rfl | hx
    · exact hrun
    · exact ih (hrun.sound hs) hx

/-- The lines that succeeded come to the same without the others, up to the failures counted. -/
theorem executeAll_succeeded (hs : s.Sound) :
    executeAll messages
        (((executeAll messages lines s).1.filter (!·.failed)).map Executed.line)
        s.withoutFailures =
      (((executeAll messages lines s).1.filter (!·.failed)).map Executed.withoutFailures,
        (executeAll messages lines s).2.withoutFailures) := by
  induction lines generalizing s with
  | nil => rfl
  | cons line lines ih =>
    have hrun := lineRun_execute hs messages line
    have hrest := @ih (executeLine messages line s).after (hrun.sound hs)
    rw [executeAll_cons]
    cases hfailed : (executeLine messages line s).failed with
    | true =>
      have hafter : (executeLine messages line s).after.withoutFailures = s.withoutFailures :=
        hrun.failure ((Bool.not_eq_true' _).mp hfailed)
      rw [List.filter_cons_of_neg (by simp [hfailed]), ← hafter]
      exact hrest
    | false =>
      have hok := hrun.success ((Bool.not_eq_false' _).mp hfailed)
      have hagain : executeLine messages line s.withoutFailures =
          (executeLine messages line s).withoutFailures := by
        rw [executeLine, hok]
        rfl
      rw [List.filter_cons_of_pos (by simp [hfailed]), List.map_cons, List.map_cons]
      show executeAll messages (line :: _) _ = _
      rw [executeAll_cons, hagain, Executed.after_withoutFailures, hrest]

end Lines

/-! ### What is shown -/

theorem Output.visible_toJson (output : Output) : output.toJson.Visible .spaced := by
  cases output with
  | result r => exact r.visible_toJson Json.visible_spaced
  | stats st =>
    refine Json.visible_obj Json.visible_spaced fun f hf => ?_
    obtain ⟨c, -, rfl⟩ := List.mem_map.mp hf
    exact Json.visible_int c.2

namespace Executed

theorem text_block (x : Executed) {screen : Screen} {style : Style} {block : String}
    (h : blocks screen style x.outcome = [block]) : x.text screen style = block ++ "\n" := by
  rw [text, shown, h]
  simp [Shown.text]

theorem join_text (screen : Screen) (style : Style) (xs : List Executed) :
    String.join ((xs.flatMap (·.shown screen style)).map Shown.text) =
      String.join (xs.map (·.text screen style)) := by
  induction xs with
  | nil => rfl
  | cons x xs ih =>
    rw [List.flatMap_cons, List.map_append, String.join_append, List.map_cons, String.join_cons, ih]
    rfl

end Executed

/-- In the JSON style a line that is a command shows one line of ASCII. -/
theorem LineRun.blocks_json {messages : Messages} {line : String} {s s' : Store}
    {outcome : LineOutcome} (h : LineRun messages line s outcome s') (screen : Screen)
    (hflaw : ∀ f, outcome ≠ .error (.flaw f)) (hblank : outcome ≠ .ok none) :
    ∃ block, blocks screen .json outcome = [block] ∧ ∀ c ∈ block.toList, IsVisible c := by
  have hrender (name : String) (output : Output) :
      ∀ c ∈ (render screen .json name output).toList, IsVisible c := by
    rw [render, Json.render, String.toList_ofList]
    exact output.visible_toJson
  cases h with
  | flawed => exact absurd rfl (hflaw _)
  | blank => exact absurd rfl hblank
  | stats => exact ⟨_, rfl, hrender _ _⟩
  | done => exact ⟨_, rfl, hrender _ _⟩
  | @refused _ _ e =>
    have hrefusal : ∀ c ∈ e.jsonText.toList, IsVisible c := by
      rw [StoreError.jsonText, Json.renderCompact, String.toList_ofList]
      exact e.visible_toJson Json.visible_compact
    exact ⟨_, rfl, hrefusal⟩

/-- What holds of every line of a script. -/
theorem executed_json (screen : Screen) {messages : Messages} {lines : List String} {s : Store}
    (hs : s.Sound) (hlines : ∀ l ∈ lines, IsLine l) {x : Executed}
    (hx : x ∈ (executeAll messages lines s).1) :
    (x.failed = true ↔ x.Flawed ∨ x.Refused) ∧
    (x.outcome = .ok none ↔ Writes [] x.line.toList) ∧
    (x.Flawed ∨ Writes [] x.line.toList → x.after = x.before) ∧
    (¬x.Flawed → ¬Writes [] x.line.toList →
      ∃ block, x.text screen .json = block ++ "\n" ∧ ∀ c ∈ block.toList, IsVisible c) := by
  have hrun := lineRun_of_mem hs hx
  have hline : '\n' ∉ x.line.toList := fun hfeed =>
    absurd (hlines _ (line_mem hx) '\n' hfeed) (by decide)
  have hblank : x.outcome = .ok none ↔ Writes [] x.line.toList :=
    hrun.eq_none_iff.trans (parseLine_eq_none_iff.trans (words_eq_nil_iff hline))
  refine ⟨?_, hblank, fun hno => hrun.unchanged (hno.imp_right hblank.mpr),
    fun hflawed hblank' => ?_⟩
  · rw [Executed.failed, Bool.not_eq_true']
    exact hrun.isOk_eq_false_iff
  · obtain ⟨block, hblock, hvisible⟩ := hrun.blocks_json screen
      (fun f hf => hflawed ⟨f, hf⟩) (mt hblank.mp hblank')
    exact ⟨block, x.text_block hblock, hvisible⟩

/-! ### The console -/

namespace Console

theorem debug_eq (c : Console) (logger message : String) :
    ∃ log, c.debug logger message = { c with log := log } := by
  unfold debug
  split
  · exact ⟨_, rfl⟩
  · exact ⟨c.log, rfl⟩

theorem note_eq (c : Console) (line : String) (outcome : LineOutcome) :
    ∃ log, c.note line outcome = { c with log := log } := by
  unfold note
  split
  · exact c.debug_eq _ _
  · exact ⟨c.log, rfl⟩

theorem report_eq (c : Console) (line : String) (outcome : LineOutcome) :
    ∃ log, c.report line outcome =
      (outcome.isOk, { c with
        shown := c.shown ++ (blocks c.screen c.style outcome).map .block
        log := log }) := by
  cases outcome with
  | ok shown =>
    cases shown with
    | none => exact ⟨c.log, by simp [report, blocks, Except.isOk, Except.toBool]⟩
    | some shown => exact ⟨c.log, rfl⟩
  | error f =>
    cases f with
    | flaw f => exact ⟨c.log, rfl⟩
    | fault f =>
      cases f with
      | refused e =>
        obtain ⟨log, hlog⟩ := c.debug_eq Log.commandLogger ("command failed: " ++ line)
        exact ⟨log, by rw [report, hlog]; rfl⟩
      | _ => exact ⟨c.log, rfl⟩

/-- A line changes the store as it does when it is executed, and adds what it shows. -/
theorem runLine_eq (c : Console) (line : String) :
    ∃ log, c.runLine line =
      (!(executeLine c.messages line c.store).failed,
        { c with
          store := (executeLine c.messages line c.store).after
          shown := c.shown ++ (executeLine c.messages line c.store).shown c.screen c.style
          log := log }) := by
  obtain ⟨log, hnote⟩ := note_eq { c with store := (execute c.messages line c.store).2 } line
    (execute c.messages line c.store).1
  obtain ⟨log', hreport⟩ := report_eq
    { c with store := (execute c.messages line c.store).2, log := log } line
    (execute c.messages line c.store).1
  refine ⟨log', ?_⟩
  show (note { c with store := (execute c.messages line c.store).2 } line
    (execute c.messages line c.store).1).report line (execute c.messages line c.store).1 = _
  rw [hnote, hreport, Executed.failed, Bool.not_not]
  rfl

theorem runLines_eq (c : Console) (lines : List String) :
    ∃ log, c.runLines lines =
      ((executeAll c.messages lines c.store).1.countP Executed.failed,
        { c with
          store := (executeAll c.messages lines c.store).2
          shown := c.shown ++
            (executeAll c.messages lines c.store).1.flatMap (·.shown c.screen c.style)
          log := log }) := by
  induction lines generalizing c with
  | nil => exact ⟨c.log, by simp [executeAll]⟩
  | cons line lines ih =>
    obtain ⟨log, hline⟩ := c.runLine_eq line
    obtain ⟨log', hrest⟩ := ih (c.runLine line).2
    refine ⟨log', ?_⟩
    rw [runLines_cons, hrest, hline, executeAll_cons, List.countP_cons, List.flatMap_cons,
      ← List.append_assoc]
    cases (executeLine c.messages line c.store).failed <;> rfl

/-- The status, the store and the text after a script on a console that has shown nothing. -/
theorem runScript_eq {c : Console} (hshown : c.shown = []) (script : String) :
    (c.runScript script).1 =
        (if (executeAll c.messages (splitLines (unifyNewlines script)) c.store).1.any
          Executed.failed then 1 else 0) ∧
      (c.runScript script).2.store =
        (executeAll c.messages (splitLines (unifyNewlines script)) c.store).2 ∧
      (c.runScript script).2.text =
        String.join ((executeAll c.messages (splitLines (unifyNewlines script)) c.store).1.map
          (·.text c.screen c.style)) := by
  obtain ⟨log, hlines⟩ := c.runLines_eq (splitLines (unifyNewlines script))
  generalize executeAll c.messages (splitLines (unifyNewlines script)) c.store = run at hlines ⊢
  rw [runScript, hlines, ← Executed.join_text, hshown]
  refine ⟨?_, rfl, rfl⟩
  show (if run.1.countP Executed.failed = 0 then 0 else 1) = _
  cases hany : run.1.any Executed.failed with
  | true =>
    obtain ⟨x, hx, hfailed⟩ := List.any_eq_true.mp hany
    rw [if_neg (List.countP_pos_iff.mpr ⟨x, hx, hfailed⟩).ne']
    rfl
  | false =>
    rw [if_pos (List.countP_eq_zero.mpr fun x hx => ?_)]
    · rfl
    · simpa using List.any_eq_false.mp hany x hx

/-- A script whose lines are those that succeeded in another one. -/
theorem runScript_succeeded {c : Console} (hs : c.store.Sound) (hshown : c.shown = [])
    (hnew : c.store.withoutFailures = c.store) {lines : List String} {shorter : String}
    (hshorter : splitLines (unifyNewlines shorter) =
      ((executeAll c.messages lines c.store).1.filter (!·.failed)).map Executed.line) :
    (c.runScript shorter).2.store = (executeAll c.messages lines c.store).2.withoutFailures ∧
    (c.runScript shorter).2.text =
      String.join (((executeAll c.messages lines c.store).1.filter (!·.failed)).map
        (·.withoutFailures.text c.screen c.style)) ∧
    (c.runScript shorter).1 = 0 := by
  have hagain := @executeAll_succeeded c.messages lines _ hs
  rw [hnew] at hagain
  obtain ⟨hstatus, hstore, htext⟩ := runScript_eq hshown shorter
  rw [hshorter, hagain] at hstatus hstore htext
  refine ⟨hstore, ?_, ?_⟩
  · rw [htext, List.map_map]
    rfl
  · rw [hstatus]
    refine if_neg fun hfailed => ?_
    obtain ⟨y, hy, hfailed⟩ := List.any_eq_true.mp hfailed
    obtain ⟨x, hx, rfl⟩ := List.mem_map.mp hy
    rw [x.failed_withoutFailures] at hfailed
    simpa [hfailed] using List.of_mem_filter hx

/-- A script in the JSON style, on any screen.  All lines are executed, in order, and the status is
1 if one of them failed, by a flaw or by a refusal of the store.  A flawed line, a blank one and a
comment leave the store as it is; any other line shows one line of ASCII.  Without the lines that
failed the script comes to the same store, up to the failures counted, none of its lines fails, and
each of them shows what it showed before, but for the failures that `stats` lists. -/
theorem runScript_json (screen : Screen) (config : Config) (levels : Log.Levels)
    (script : String) :
    let c := start screen config levels .json
    let run := executeAll c.messages (splitLines (unifyNewlines script)) c.store
    let kept := run.1.filter (!·.failed)
    (run.1.map Executed.line = splitLines (unifyNewlines script) ∧
      (c.runScript script).2.store = run.2 ∧
      (c.runScript script).2.text = String.join (run.1.map (·.text screen .json)) ∧
      (c.runScript script).1 = if run.1.any Executed.failed then 1 else 0) ∧
    (∀ x ∈ run.1,
      (x.failed = true ↔ x.Flawed ∨ x.Refused) ∧
      (x.outcome = .ok none ↔ Writes [] x.line.toList) ∧
      (x.Flawed ∨ Writes [] x.line.toList → x.after = x.before) ∧
      (¬x.Flawed → ¬Writes [] x.line.toList →
        ∃ block, x.text screen .json = block ++ "\n" ∧ ∀ ch ∈ block.toList, IsVisible ch)) ∧
    (∃ shorter, splitLines (unifyNewlines shorter) = kept.map Executed.line) ∧
    executeAll c.messages (kept.map Executed.line) c.store =
      (kept.map Executed.withoutFailures, run.2.withoutFailures) ∧
    ∀ shorter, splitLines (unifyNewlines shorter) = kept.map Executed.line →
      (c.runScript shorter).2.store = run.2.withoutFailures ∧
      (c.runScript shorter).2.text = String.join (kept.map (·.withoutFailures.text screen .json)) ∧
      (c.runScript shorter).1 = 0 := by
  intro c run kept
  have hs : c.store.Sound := Store.sound_new config
  have hlines : ∀ l ∈ splitLines (unifyNewlines script), IsLine l := fun l hl =>
    Text.isLine_of_mem_splitLines hl
  have hkept : ∀ l ∈ kept.map Executed.line, IsLine l := by
    intro l hl
    obtain ⟨x, hx, rfl⟩ := List.mem_map.mp hl
    exact hlines x.line (line_mem (List.mem_of_mem_filter hx))
  obtain ⟨hstatus, hstore, htext⟩ := @runScript_eq c rfl script
  exact ⟨⟨map_line_executeAll, hstore, htext, hstatus⟩,
    fun x hx => executed_json screen hs hlines hx,
    ⟨joinLines (kept.map Executed.line), Text.splitLines_joinLines hkept⟩,
    executeAll_succeeded hs, fun shorter hshorter => runScript_succeeded hs rfl rfl hshorter⟩

/-- A line that is no command and a key that is not there, between two lines that succeed. -/
theorem runScript_json_stats :
    let c := start .terminal {} Log.Levels.initial .json
    let run := executeAll c.messages
      (splitLines (unifyNewlines "mkdir /a\nrename /a\r\nget /b\n\nstats # all")) c.store
    run.1.map Executed.failed = [false, true, true, false, false] ∧
      (c.runScript "mkdir /a\n\nstats # all").2.store = run.2.withoutFailures ∧
      (c.runScript "mkdir /a\n\nstats # all").1 = 0 := by
  have hshorter := (runScript_json .terminal {} Log.Levels.initial
    "mkdir /a\nrename /a\r\nget /b\n\nstats # all").2.2.2.2 "mkdir /a\n\nstats # all"
    (by decide +kernel)
  exact ⟨by decide +kernel, hshorter.1, hshorter.2.2⟩

end Console

end TreeStore.Shell
