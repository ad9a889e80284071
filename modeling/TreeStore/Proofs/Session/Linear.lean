import TreeStore.Proofs.Session.Law

/-!
# Runs with handlers are runs of the commands they take

The trace of a run lists the commands in the order in which they took effect.  Taken one after the
other in that order, without any handler, they lead to the same stores and tables and each has the
same outcome, whatever the handlers did and however deep they nested: `Behaviour.linear_run`.  Who
took a command sees that outcome, or the fault of a handler that the command's own event called
after it had taken effect: `Behaviour.took_command`.  What handlers assign is seen by no other
handler than those of the same emit: `Behaviour.unseen`.
-/

namespace TreeStore

open Session

/-- The commands of a trace, in the order in which they took effect. -/
def calls (trace : List Event) : List (Nat × Command) := trace.filterMap fun
  | .performed i c _ => some (i, c)
  | _ => none

/-- What the commands of a trace came to. -/
def outcomes (trace : List Event) : List (Except Fault Answer) := trace.filterMap fun
  | .performed _ _ outcome => some outcome
  | _ => none

theorem calls_append (d d' : List Event) : calls (d ++ d') = calls d ++ calls d' :=
  List.filterMap_append

theorem outcomes_append (d d' : List Event) : outcomes (d ++ d') = outcomes d ++ outcomes d' :=
  List.filterMap_append

theorem Pool.runAll_cons (p : Pool) (i : Nat) (c : Command) (rest : List (Nat × Command)) :
    p.runAll ((i, c) :: rest) =
      ((p.run i c).1 :: ((p.run i c).2.runAll rest).1, ((p.run i c).2.runAll rest).2) := rfl

theorem Pool.runAll_append {p p₁ p₂ : Pool} {cs cs' : List (Nat × Command)}
    {os os' : List (Except Fault Answer)} (h : p.runAll cs = (os, p₁))
    (h' : p₁.runAll cs' = (os', p₂)) : p.runAll (cs ++ cs') = (os ++ os', p₂) := by
  induction cs generalizing p os with
  | nil =>
    cases h
    exact h'
  | cons head rest ih =>
    obtain ⟨i, c⟩ := head
    rw [runAll_cons] at h
    obtain ⟨rfl, rfl⟩ := Prod.mk.inj h
    rw [List.cons_append, runAll_cons, ih rfl, List.cons_append]

/-- Takes commands one after the other, as steps of a session. -/
def callAll (take : Step → Run Answer) :
    List (Nat × Command) → Session → List (Except Fault Answer) × Session
  | [], s => ([], s)
  | (i, c) :: rest, s =>
    let (outcome, s) := settle (take (.command i c)) s
    let (outcomes, s) := callAll take rest s
    (outcome :: outcomes, s)

namespace Behaviour

variable {b : Behaviour}

/-! ### The law -/

/-- Each step that a trace records as over was taken, and ended there. -/
def Recorded (b : Behaviour) (s : Session) (done : List Event) : Prop :=
  ∀ pre handler seen post, done = pre ++ .attempted handler seen :: post →
    ∃ t s₁ s₂, b.Took t seen s₁ s₂ ∧ s.trace <+: s₁.trace ∧ s₂.trace = s.trace ++ pre

/-- What was done between two sessions is what its commands do one after the other. -/
def Linear (b : Behaviour) (s s' : Session) : Prop :=
  ∃ done, s'.trace = s.trace ++ done ∧ s.pool.runAll (calls done) = (outcomes done, s'.pool) ∧
    b.Recorded s done

theorem Linear.trans {s₁ s₂ s₃ : Session} (h : b.Linear s₁ s₂) (h' : b.Linear s₂ s₃) :
    b.Linear s₁ s₃ := by
  obtain ⟨d, htrace, hpool, hrec⟩ := h
  obtain ⟨d', htrace', hpool', hrec'⟩ := h'
  refine ⟨d ++ d', by rw [htrace', htrace, List.append_assoc], ?_, ?_⟩
  · rw [calls_append, outcomes_append]
    exact Pool.runAll_append hpool hpool'
  · intro pre handler seen post hsplit
    rcases split_append hsplit with ⟨mid, hd, -⟩ | ⟨mid, rfl, hd'⟩
    · exact hrec pre handler seen mid hd
    · obtain ⟨t, s, s', htook, hs, hs'⟩ := hrec' mid handler seen post hd'
      exact ⟨t, s, s', htook, ((List.prefix_append _ _).trans (htrace ▸ hs)),
        by rw [hs', htrace, List.append_assoc]⟩

/-- Something that leaves the stores and the trace alone. -/
theorem linear_of_eq {s s' : Session} (htrace : s'.trace = s.trace) (hpool : s'.pool = s.pool) :
    b.Linear s s' := by
  refine ⟨[], by rw [htrace, List.append_nil], by rw [hpool]; rfl, ?_⟩
  intro pre handler seen post hsplit
  simp at hsplit

/-- An event that is no command's effect and no end of a step. -/
theorem linear_noted (s : Session) {e : Event} (hcall : calls [e] = []) (hout : outcomes [e] = [])
    (hover : ∀ handler seen, e ≠ .attempted handler seen) : b.Linear s (s.noted e) := by
  refine ⟨[e], rfl, by rw [hcall, hout]; rfl, ?_⟩
  intro pre handler seen post hsplit
  exact absurd (split_singleton hsplit).2.symm (hover handler seen)

theorem law_linear (b : Behaviour) : Law b b.Linear where
  refl s := linear_of_eq rfl rfl
  trans := Linear.trans
  performed s i c := by
    refine ⟨[.performed i c (s.pool.run i c).1], rfl, rfl, ?_⟩
    intro pre handler seen post hsplit
    cases (split_singleton hsplit).2
  logged s record := linear_noted s rfl rfl nofun
  on s i event handler := linear_of_eq rfl rfl
  once s i event handler := linear_of_eq rfl rfl
  off s i event handler := linear_of_eq rfl rfl
  clear s i event := linear_of_eq rfl rfl
  memory s g := linear_of_eq rfl rfl
  attempted := by
    rintro t seen s s' handler htook ⟨d, htrace, hpool, hrec⟩
    refine ⟨d ++ [.attempted handler seen], ?_, ?_, ?_⟩
    · show s'.trace ++ _ = _
      rw [htrace, List.append_assoc]
    · rw [calls_append, outcomes_append]
      show s.pool.runAll (calls d ++ []) = (outcomes d ++ [], s'.pool)
      rw [List.append_nil, List.append_nil, hpool]
    · intro pre handler' seen' post hsplit
      -- the record is one of before, or the one that this step adds at the end
      rcases split_append hsplit with ⟨mid, hd, -⟩ | ⟨mid, rfl, hlast⟩
      · exact hrec pre handler' seen' mid hd
      · obtain ⟨rfl, he⟩ := split_singleton hlast
        cases he
        exact ⟨t, s, s', htook, List.prefix_rfl, by rw [htrace, List.append_nil]⟩

theorem linear_emitted (s : Session) (i : Nat) (event : String) (payload : Payload) :
    b.Linear s (s.noted (.emitted i event payload ((s.emitter i).listeners event))) :=
  linear_noted s rfl rfl nofun

theorem linear_entered (s : Session) (i : Nat) (event : String) (r : Registration)
    (payload : Payload) : b.Linear s (s.entered i event r payload) := by
  cases r with
  | plain handler => exact linear_noted s rfl rfl nofun
  | once id handler => exact .trans (linear_of_eq rfl rfl) (linear_noted _ rfl rfl nofun)

theorem linear_step (depth : Nat) (t : Step) : Keeps b.Linear (b.step depth t) :=
  b.law_linear.step (fun _ => b.law_linear.emit linear_emitted linear_entered) depth t

theorem linear_emit (depth i : Nat) (event : String) (handout : Handout) :
    Keeps b.Linear (b.emit (b.step depth) i event handout) :=
  b.law_linear.emit linear_emitted linear_entered (linear_step depth) i event handout

theorem linear_invoke (depth i : Nat) (event : String) (handout : Handout) (r : Registration) :
    Keeps b.Linear (b.invoke (b.step depth) i event handout r) :=
  b.law_linear.invoke linear_entered (linear_step depth) i event handout r

/-! ### What the taker of a command sees -/

/-- A handler called for an event of a store ends with a fault. -/
def Failed (b : Behaviour) (i : Nat) (event : String) (f : Fault) (s s' : Session) : Prop :=
  ∃ depth handout r, settle (b.invoke (b.step depth) i event handout r) s = (.error f, s')

/-- The taker of a command sees the outcome that it had when it took effect, or the fault of a
handler that it called later. -/
theorem took_command {i : Nat} {c : Command} {seen : Except Fault Answer} {s s' : Session}
    (h : b.Took (.command i c) seen s s') :
    ∃ rest, s'.trace = s.trace ++ .performed i c (s.pool.run i c).1 :: rest ∧
      (seen = (s.pool.run i c).1 ∨ ∃ f event s₁, seen = .error f ∧ b.Failed i event f s₁ s' ∧
        s.trace ++ [.performed i c (s.pool.run i c).1] <+: s₁.trace) := by
  obtain ⟨depth, h⟩ := h
  obtain ⟨s₁, heffect, hsilent | ⟨event, news, handout, s₂, sent, s₃, hlend, hsend, hsent⟩⟩ :=
    b.command_cases depth i c s
  · obtain ⟨lines, htrace⟩ := heffect.trace
    cases hsilent.symm.trans h
    exact ⟨lines, htrace, Or.inl rfl⟩
  · obtain ⟨lines, htrace⟩ := heffect.trace
    obtain ⟨hseen, rfl⟩ := Prod.mk.inj (hsent.symm.trans h)
    obtain ⟨g, -, rfl⟩ := copy_of_lend hlend
    have hlinear := linear_emit (b := b) depth i event handout (s₁.withMemory g)
    rw [hsend] at hlinear
    obtain ⟨done, hdone, -⟩ := hlinear
    change _ = s₁.trace ++ done at hdone
    refine ⟨lines ++ done, by rw [hdone, htrace, List.append_assoc, List.cons_append], ?_⟩
    cases sent with
    | ok n => exact Or.inl hseen.symm
    | error f =>
      -- the emit was cut short, so one of its calls ended with this fault, and the emit with it
      obtain ⟨ended, s', hended, hemit⟩ :=
        settle_emit b (b.step depth) i event handout (s₁.withMemory g)
      obtain ⟨hfault, rfl⟩ := Prod.mk.inj (hemit.symm.trans hsend)
      cases ended with
      | ok _ => cases hfault
      | error f' =>
        cases hfault
        obtain ⟨r, s₄, ⟨before, hbefore, -⟩, hcall⟩ :=
          b.law_linear.dispatch_error (linear_invoke depth i event handout) _ _ hended
        refine Or.inr ⟨f, event, s₄, hseen.symm, ⟨depth, handout, r, hcall⟩, ?_⟩
        rw [hbefore]
        show _ <+: (s₁.trace ++ _) ++ _
        rw [htrace]
        simp

/-! ### What handlers assign -/

/-- What handlers assign is seen by nobody but the handlers of the same emit. -/
structure Unseen (b : Behaviour) : Prop where
  /-- No step changes a node of a result that somebody had before it. -/
  kept {t : Step} {seen : Except Fault Answer} {s s' : Session} :
    b.Took t seen s s' → s.memory.Extends s'.memory
  /-- What a command gives its taker looks like the outcome that the command had, when the step is
  over and as long as memory only grows. -/
  told {i : Nat} {c : Command} {seen : Except Fault Answer} {s s' : Session} {g : Graph} :
    b.Took (.command i c) seen s s' → s'.memory.Extends g →
      (s.held i c).map (·.read g) = (s.pool.run i c).1
  /-- The handlers are handed a copy, and the node that they can assign to had not been there. -/
  lent {news handout : Handout} {s s' : Session} : settle (lend news) s = (.ok handout, s') →
    handout.Beyond s.memory ∧ s.memory.Extends s'.memory ∧
      ∀ depth i event, Spares s.memory (b.emit (b.step depth) i event handout)
  /-- What a store shows of a node looks like a copy that is made beside the tree, and an assignment
  to this copy changes no node of the store. -/
  shown (st : Store) (i : Nat) (depth : Node.Depth) (sorted : Bool) :
    ∃ copy g, st.graph.clone i depth sorted = (copy, g) ∧
      g.view copy = (st.graph.view i).clone depth sorted ∧
      ∀ value, st.graph.Extends (g.setValue copy value)

theorem unseen (b : Behaviour) : b.Unseen where
  kept := by
    rintro t seen s s' ⟨depth, htook⟩
    have hgrows := b.grows_step (depth + 1) t s
    rwa [htook] at hgrows
  told := by
    rintro i c seen s s' g ⟨depth, htook⟩ hext
    have hown := extends_command (b.grows_step depth) i c s
    rw [htook] at hown
    exact read_keep (hown.trans hext)
  lent := by
    intro news handout s s' hlend
    obtain ⟨hbeyond, hext⟩ := beyond_lend hlend
    exact ⟨hbeyond, hext, fun depth i event => b.spares_emit (b.grows_step depth) hbeyond i event⟩
  shown st i depth sorted := by
    obtain ⟨g, hclone, hext, -⟩ := st.graph.clone_forest i depth sorted
    have hview := st.graph.view_clone i depth sorted
    rw [hclone] at hview
    exact ⟨_, g, hclone, hview, fun value => hext.update (Nat.le_refl _) _⟩

/-! ### Without handlers -/

/-- Without handlers a command has no other effect than its own. -/
theorem settle_command_of_quiet (depth i : Nat) (c : Command) {s : Session}
    (hs : ∀ i, s.emitter i = {}) :
    ∃ s', settle (b.step (depth + 1) (.command i c)) s = ((s.pool.run i c).1, s') ∧
      s'.pool = (s.pool.run i c).2 ∧ ∀ i, s'.emitter i = {} := by
  obtain ⟨s₁, heffect, hsilent | ⟨event, news, handout, s₂, sent, s₃, hlend, hsend, hsent⟩⟩ :=
    b.command_cases depth i c s
  · exact ⟨s₁, hsilent, heffect.pool, fun j => by rw [heffect.emitter, hs]⟩
  · -- the emit finds no registration and works through none
    obtain ⟨g, -, rfl⟩ := copy_of_lend hlend
    have hs₁ (j : Nat) : (s₁.withMemory g).emitter j = {} := (heffect.emitter j).trans (hs j)
    obtain ⟨ended, s', hended, hemit⟩ :=
      settle_emit b (b.step depth) i event handout (s₁.withMemory g)
    rw [hs₁] at hended
    cases hended
    obtain ⟨rfl, rfl⟩ := Prod.mk.inj (hemit.symm.trans hsend)
    exact ⟨_, hsent, heffect.pool, hs₁⟩

theorem callAll_of_quiet (depth : Nat) (cs : List (Nat × Command)) {s : Session}
    (hs : ∀ i, s.emitter i = {}) :
    ∃ s', callAll (b.step (depth + 1)) cs s = ((s.pool.runAll cs).1, s') ∧
      s'.pool = (s.pool.runAll cs).2 := by
  induction cs generalizing s with
  | nil => exact ⟨s, rfl, rfl⟩
  | cons head rest ih =>
    obtain ⟨i, c⟩ := head
    obtain ⟨s₁, htake, hpool, hs₁⟩ := settle_command_of_quiet (b := b) depth i c hs
    obtain ⟨s₂, hrest, hpool'⟩ := ih hs₁
    refine ⟨s₂, ?_, ?_⟩
    · unfold callAll
      rw [htake]
      simp only
      rw [hrest, Pool.runAll_cons, hpool]
    · rw [hpool', hpool, Pool.runAll_cons]

/-! ### Runs -/

/-- Any program, with any handlers, taking steps whose handlers nest to any depth: the stores, their
counters and the tables end as after the commands of its trace, taken one by one in the order of
their effects, and each command has the outcome that it has there; be they run on the pool alone or
as steps on the same stores without handlers.  Each step that the trace records as over, at the top
or inside of a handler, was taken in the course of the run; and wherever a command is taken, its
effect is the first that happens, and its taker sees the outcome of that effect or the fault of a
handler that the command's own event called afterwards.

What a handler assigns is seen by nobody but the handlers of the same emit: neither by the stores,
nor by the taker of the command, nor by anybody else who has a result. -/
theorem linear_run (b : Behaviour) (depth : Nat) (client : Program) (name : String)
    (handout : Handout) (s : Session) :
    ∃ ended s' done, settle (client.run (b.step depth) name handout) s = (ended, s') ∧
      s'.trace = s.trace ++ done ∧
      s.pool.runAll (calls done) = (outcomes done, s'.pool) ∧
      (∀ b' depth', ∃ s'', s''.pool = s'.pool ∧
        callAll (Behaviour.step b' (depth' + 1)) (calls done) s.quiet = (outcomes done, s'')) ∧
      (∀ pre handler seen post, done = pre ++ .attempted handler seen :: post →
        ∃ t s₁ s₂, b.Took t seen s₁ s₂ ∧ s.trace <+: s₁.trace ∧ s₂.trace = s.trace ++ pre) ∧
      (∀ i c seen s₁ s₂, b.Took (.command i c) seen s₁ s₂ →
        ∃ rest, s₂.trace = s₁.trace ++ .performed i c (s₁.pool.run i c).1 :: rest ∧
          (seen = (s₁.pool.run i c).1 ∨ ∃ f event s₃, seen = .error f ∧ b.Failed i event f s₃ s₂ ∧
            s₁.trace ++ [.performed i c (s₁.pool.run i c).1] <+: s₃.trace)) ∧
      b.Unseen := by
  obtain ⟨ended, s', hrun⟩ : ∃ ended s',
      settle (client.run (b.step depth) name handout) s = (ended, s') := ⟨_, _, rfl⟩
  have hlinear : b.Linear s s' := by
    simpa [hrun] using b.law_linear.program (linear_step depth) name client handout s
  obtain ⟨done, htrace, hpool, hrecorded⟩ := hlinear
  refine ⟨ended, s', done, hrun, htrace, hpool, ?_, hrecorded, fun _ _ _ _ _ => took_command,
    b.unseen⟩
  intro b' depth'
  obtain ⟨s'', hcalls, hpool''⟩ :=
    callAll_of_quiet (b := b') depth' (calls done) (emitter_quiet s)
  refine ⟨s'', ?_, ?_⟩
  · rw [hpool'', show s.quiet.pool = s.pool from rfl, hpool]
  · rw [hcalls, show s.quiet.pool = s.pool from rfl, hpool]

/-- A handler creates a node while the event of another one is sent, and then raises. -/
example :
    calls (settle (runActions
      (Session.step [("a", [.setValue (some "x"),
        .step (.command 0 (.request (.create "/a/b" true none))), .raise "no"])] maxDepth) "main"
      [.step (.once 0 "create" "a"), .step (.command 0 (.request (.create "/a" true none))),
        .step (.command 0 .size)] (.values []))
      ((Session.withShared []).addStore {} .shared)).2.trace =
    [(0, .request (.create "/a" true none)), (0, .request (.create "/a/b" true none)),
      (0, .size)] := by
  decide +kernel

/-- A handler assigns a value: the next handler of the emit is handed it, the taker of the command
and the store have the one from before. -/
example :
    let s := (((Session.withShared []).addStore {} .shared).withEmitter 0
      (·.on "create" (.plain "a"))).withEmitter 0 (·.on "create" (.plain "b"))
    let (seen, s') := settle (Session.step [("a", [.setValue (some "x")]), ("b", [])] maxDepth
      (.command 0 (.request (.create "/a" false (some "v"))))) s
    let values : Except Fault Answer → Option (Option String) := fun
      | .ok (.result r) => some r.node.value
      | _ => none
    s'.trace.filterMap (fun
      | .called _ _ _ (.result r) => some r.node.value
      | _ => none) = [some "v", some "x"] ∧
    values seen = some (some "v") ∧
    values (s'.pool.run 0 (.request (.get "/a" false none))).1 = some (some "v") := by
  decide +kernel

end Behaviour

end TreeStore
