import TreeStore.Proofs.Pool
import TreeStore.Proofs.Session.Moment

/-!
# No fault of the store itself, and no lock held

At every moment of a run nobody holds the lock of a store: not when a handler starts, not when a
step is taken, and not when it is over.  So a call never waits for the lock, and all that it can
come to by itself is a success or a refusal that the paths of the store call for
(`Pool.Reachable.run_proper`).  What else its taker may see was raised by a handler that the call's
own event set off (`seen_of_command`): a fault is raised at a moment, and from there on every
program and every emit only passes it on.
-/

namespace TreeStore

open Session

namespace Pool

/-- Nobody holds the lock of a store, and nobody waits for one. -/
def Unlocked (p : Pool) : Prop := ∀ m ∈ p.members, m.store.lock = Lock.free

/-- What a command on a store may come to by itself: a request succeeds, or it is refused as the
paths of the store and the table of its messages say; all else is answered. -/
def Proper (p : Pool) (m : Member) : Command → Except Fault Answer → Prop
  | .request r, own =>
    (∃ result, own = .ok (.result result)) ∨
    ∃ e, own = .error (.refused e) ∧ r.refusal m.store.pathMap = some (e.code, e.cause) ∧
      e.message = (p.messages m.registry).get e.code ∧ e.code ∈ ErrorCode.refusals
  | .exists _, own => ∃ flag, own = .ok (.flag flag)
  | .size, own => ∃ n, own = .ok (.count n)
  | _, own => ∃ answer, own = .ok answer

section Outcome

variable {p : Pool} (hp : p.Reachable)
include hp

theorem Reachable.unlocked : p.Unlocked := fun m hm => (hp m hm).sound.free

theorem Reachable.run_proper {i : Nat} {m : Member} (hm : p.members[i]? = some m) (c : Command) :
    p.Proper m c (p.run i c).1 := by
  have hs := (hp m (List.mem_of_getElem? hm)).sound
  cases c with
  | request r =>
    simp only [Pool.run, hm, Store.run]
    rcases hs.perform_cases (p.messages m.registry) r with
      ⟨code, cause, hr, h⟩ | ⟨result, g, -, h, -⟩
    · rw [h]
      exact Or.inr ⟨_, rfl, hr, rfl, Request.code_of_refusal hr⟩
    · rw [h]
      exact Or.inl ⟨result, rfl⟩
  | «exists» key =>
    simp only [Pool.run, hm, Store.run, hs.exists?_ok key]
    exact ⟨_, rfl⟩
  | size =>
    simp only [Pool.run, hm, Store.run, hs.size_ok]
    exact ⟨_, rfl⟩
  | _ =>
    simp only [Pool.run, hm]
    exact ⟨_, rfl⟩

/-- A command fails by itself only if it is refused, or if there is no such store. -/
theorem Reachable.fault_of_run {i : Nat} {c : Command} {f : Fault}
    (h : (p.run i c).1 = .error f) : f.isRefusal = true ∨ f = .noStore i := by
  cases hm : p.members[i]? with
  | none =>
    rw [Pool.run, hm] at h
    exact Or.inr (Except.error.inj h).symm
  | some m =>
    have hproper := hp.run_proper hm c
    rw [h] at hproper
    cases c with
    | request r =>
      rcases hproper with ⟨result, hok⟩ | ⟨e, he, -⟩
      · cases hok
      · cases he
        exact Or.inl rfl
    | _ =>
      obtain ⟨answer, hok⟩ := hproper
      cases hok

end Outcome

end Pool

namespace Behaviour

variable {b : Behaviour}

/-! ### The stores stay reachable -/

theorem law_reachable (b : Behaviour) : Law b fun s s' => s.pool.Reachable → s'.pool.Reachable where
  refl _ hs := hs
  trans h h' hs := h' (h hs)
  performed _ i c hs := hs.run i c
  logged _ _ hs := hs
  on _ _ _ _ hs := hs
  once _ _ _ _ hs := hs
  off _ _ _ _ hs := hs
  clear _ _ _ hs := hs
  memory _ _ hs := hs
  attempted _ _ h := h

theorem reachable_entered (s : Session) (i : Nat) (event : String) (r : Registration)
    (payload : Payload) (hs : s.pool.Reachable) : (s.entered i event r payload).pool.Reachable := by
  cases r <;> exact hs

theorem reachable_moment {m m' : Moment} (h : b.Reaches m m') (hs : m.session.pool.Reachable) :
    m'.session.pool.Reachable :=
  b.law_reachable.reaches (fun _ _ _ _ hs => hs) reachable_entered h hs

theorem reachable_step (depth : Nat) (t : Step) {s : Session} (hs : s.pool.Reachable) :
    (settle (b.step depth t) s).2.pool.Reachable :=
  b.law_reachable.keeps_step (fun _ _ _ _ hs => hs) reachable_entered depth t s hs

theorem reachable_run (depth : Nat) (name : String) (p : Program) (handout : Handout) {s : Session}
    (hs : s.pool.Reachable) : (settle (p.run (b.step depth) name handout) s).2.pool.Reachable :=
  b.law_reachable.program (fun t _ => reachable_step depth t) name p handout s hs

/-! ### Where a fault comes from -/

/-- The fault comes up at a moment that `m` reaches. -/
def Origin (b : Behaviour) (m : Moment) (f : Fault) : Prop := ∃ m', b.Reaches m m' ∧ m'.Raises f

theorem Origin.head {m m' : Moment} {f : Fault} (h : b.Leads m m') (h' : b.Origin m' f) :
    b.Origin m f := by
  obtain ⟨m'', hreach, hraises⟩ := h'
  exact ⟨m'', h.reaches hreach, hraises⟩

section Origin

-- A program passes on no fault of its steps but one, that the nesting is too deep.  Where that one
-- comes from is known of the steps here, and the induction on the depth comes last.
variable {depth : Nat} {f : Fault}
  (hdeep : ∀ t s s', s.pool.Reachable → settle (b.step depth t) s = (.error .tooDeep, s') →
    b.Origin ⟨depth, .step t, s⟩ .tooDeep)
include hdeep

/-- The fault that ends a program was raised in the course of it. -/
theorem fault_of_program {name : String} {p : Program} {handout : Handout} {s s' : Session}
    (hs : s.pool.Reachable) (h : settle (p.run (b.step depth) name handout) s = (.error f, s')) :
    b.Origin ⟨depth, .program name p handout, s⟩ f := by
  induction p generalizing s with
  | finish => cases h
  | raise g =>
    cases h
    exact ⟨_, .refl _, rfl⟩
  | log record next ih =>
    unfold Program.run at h
    rw [settle_get] at h
    refine .head .log ?_
    split_ifs at h ⊢
    · exact ih (s := s.noted (.logged record)) hs h
    · exact ih hs h
  | setValue value next ih =>
    cases handout with
    | result held => exact .head .setValue (ih (s := s.withMemory _) hs h)
    | error e =>
      cases h
      exact ⟨_, .refl _, rfl⟩
    | values args =>
      cases h
      exact ⟨_, .refl _, rfl⟩
  | step t next ih =>
    obtain ⟨seen, s₁, htook⟩ : ∃ seen s₁, settle (b.step depth t) s = (seen, s₁) := ⟨_, _, rfl⟩
    have hs₁ := reachable_step (b := b) depth t hs
    rw [htook] at hs₁
    rcases settle_step htook name next handout with ⟨hseen, hgo⟩ | ⟨rfl, hstop⟩
    · exact .head (.goOn htook hseen)
        (ih seen (s := s₁.noted (.attempted name seen)) hs₁ (hgo.symm.trans h))
    · cases hstop.symm.trans h
      exact .head .take (hdeep t s _ hs htook)

theorem fault_of_calls {i : Nat} {event : String} {rs : List Registration} {handout : Handout}
    {s s' : Session} (hs : s.pool.Reachable)
    (h : settle (dispatch (b.invoke (b.step depth) i event handout) rs) s = (.error f, s')) :
    b.Origin ⟨depth, .calls i event rs handout, s⟩ f := by
  induction rs generalizing s with
  | nil => cases h
  | cons r rs ih =>
    obtain ⟨o, s₁, hcall⟩ : ∃ o s₁,
        settle (b.invoke (b.step depth) i event handout r) s = (o, s₁) := ⟨_, _, rfl⟩
    rw [Session.dispatch, settle_bind, hcall] at h
    have hentered := reachable_entered s i event r (handout.shown s.memory) hs
    have hprogram := hcall
    rw [settle_invoke] at hprogram
    cases o with
    | error g =>
      cases h
      exact .head (.call rfl) (fault_of_program hdeep hentered hprogram)
    | ok _ =>
      have hs₁ := reachable_run (b := b) depth r.handler
        (b r.handler (s.entered i event r (handout.shown s.memory)).trace
          (handout.shown s.memory)) handout hentered
      rw [hprogram] at hs₁
      exact .head (.next hcall) (ih hs₁ h)

theorem fault_of_emit {i : Nat} {event : String} {handout : Handout} {s s' : Session}
    (hs : s.pool.Reachable)
    (h : settle (b.emit (b.step depth) i event handout) s = (.error f, s')) :
    b.Origin ⟨depth, .calls i event ((s.emitter i).listeners event) handout,
      s.noted (.emitted i event (handout.shown s.memory) ((s.emitter i).listeners event))⟩ f := by
  obtain ⟨ended, s₁, hended, hemit⟩ := settle_emit b (b.step depth) i event handout s
  rw [hemit] at h
  cases ended with
  | ok last => cases h
  | error g =>
    cases h
    exact fault_of_calls hdeep (s := s.noted _) hs hended

theorem seen_of_command_succ {i : Nat} {c : Command} {seen : Except Fault Answer} {s s' : Session}
    (hs : s.pool.Reachable) (h : settle (b.step (depth + 1) (.command i c)) s = (seen, s')) :
    seen = (s.pool.run i c).1 ∨
      ∃ f, seen = .error f ∧ b.Origin ⟨depth + 1, .step (.command i c), s⟩ f := by
  obtain ⟨s₁, hperform, ⟨-, hsilent⟩ | ⟨r, event, news, handout, s₂, sent, s₃, rfl, hnews, hemits,
    hlend, hsend, hsent⟩⟩ := b.command_news depth i c s
  · cases hsilent.symm.trans h
    exact Or.inl rfl
  · cases hsent.symm.trans h
    cases sent with
    | ok n => exact Or.inl rfl
    | error g =>
      have hs₂ : s₂.pool.Reachable := by
        obtain ⟨g, -, rfl⟩ := copy_of_lend hlend
        show s₁.pool.Reachable
        rw [(effect_of_perform hperform).1.pool]
        exact hs.run i _
      exact Or.inr ⟨g, rfl,
        .head (.announce hperform hnews hemits hlend) (fault_of_emit hdeep hs₂ hsend)⟩

end Origin

theorem origin_of_tooDeep (depth : Nat) (t : Step) (s s' : Session) (hs : s.pool.Reachable)
    (h : settle (b.step depth t) s = (.error .tooDeep, s')) :
    b.Origin ⟨depth, .step t, s⟩ .tooDeep := by
  induction depth generalizing t s s' with
  | zero => exact ⟨_, .refl _, rfl, rfl⟩
  | succ depth ih =>
    cases t with
    | command i c =>
      rcases seen_of_command_succ ih hs h with hown | ⟨f, hf, horigin⟩
      · -- a command by itself is never too deep
        rcases hs.fault_of_run hown.symm with hrefusal | hstore
        · cases hrefusal
        · cases hstore
      · cases hf
        exact horigin
    | emit i event args =>
      obtain ⟨sent, s₁, hsend⟩ : ∃ sent s₁,
          settle (b.emit (b.step depth) i event (.values args)) s = (sent, s₁) := ⟨_, _, rfl⟩
      have hstep : settle (b.step (depth + 1) (.emit i event args)) s = _ :=
        settle_bind (b.emit (b.step depth) i event (.values args))
          (fun n => pure (Answer.count n)) s
      rw [hstep, hsend] at h
      cases sent with
      | ok n => cases h
      | error g =>
        cases h
        exact .head .emit (fault_of_emit ih hs hsend)
    | off i event handler => cases handler <;> cases h
    | _ => cases h

/-- Who takes a command sees its own outcome, or a fault that came up in the course of it. -/
theorem seen_of_command {depth i : Nat} {c : Command} {seen : Except Fault Answer} {s s' : Session}
    (hs : s.pool.Reachable) (h : settle (b.step depth (.command i c)) s = (seen, s')) :
    seen = (s.pool.run i c).1 ∨
      ∃ f, seen = .error f ∧ b.Origin ⟨depth, .step (.command i c), s⟩ f := by
  cases depth with
  | zero =>
    cases h
    exact Or.inr ⟨.tooDeep, rfl, _, .refl _, rfl, rfl⟩
  | succ depth => exact seen_of_command_succ (origin_of_tooDeep depth) hs h

/-! ### Every call -/

/-- At every moment of a run, at the top and inside of handlers however deep they nest, nobody holds
the lock of a store or waits for it; nor when a step is over, whatever came of it, nor when the run
is.  Each command and each call of a handler that the run records stands at such a moment.

A command on a store has an outcome of its own: a request succeeds or is refused, with one of the
codes of the store, the cause that its paths call for and the message of the code; all else is
answered.  Who took it sees that outcome, or a fault that came up in a handler which its event
called.  Every operation has a name that results and counters know. -/
theorem calls_safe (b : Behaviour) (depth : Nat) (client : Program) (name : String)
    (handout : Handout) {s : Session} (hs : s.pool.Reachable) :
    (∀ m, b.Reaches ⟨depth, .program name client handout, s⟩ m → m.session.pool.Unlocked ∧
      ∀ t seen s', m.task = .step t → settle (b.step m.depth t) m.session = (seen, s') →
        s'.pool.Unlocked ∧
        ∀ i c, t = .command i c →
          (seen = (m.session.pool.run i c).1 ∨
            ∃ f m', seen = .error f ∧ b.Reaches m m' ∧ m'.Raises f) ∧
          ∀ n, m.session.pool.members[i]? = some n →
            m.session.pool.Proper n c (m.session.pool.run i c).1) ∧
    (settle (client.run (b.step depth) name handout) s).2.pool.Unlocked ∧
    b.Covers ⟨depth, .program name client handout, s⟩
      (settle (client.run (b.step depth) name handout) s).2 ∧
    ∀ (r : Request) (node : Node) (prev : Option Node) (stats : Stats) (ok : Bool),
      Result.makeNamed r.action.name node prev = Result.make r.action node prev ∧
      stats.recordNamed? r.action.name ok = some (stats.record r.action ok) := by
  refine ⟨fun m hreach => ?_, (reachable_run depth name client handout hs).unlocked,
    covers_run depth name client handout s, fun r node prev stats ok => ⟨?_, ?_⟩⟩
  · have hm := reachable_moment hreach hs
    refine ⟨hm.unlocked, fun t seen s' htask htook => ?_⟩
    have hs' := reachable_step (b := b) m.depth t hm
    rw [htook] at hs'
    refine ⟨hs'.unlocked, ?_⟩
    rintro i c rfl
    refine ⟨?_, fun n hn => hm.run_proper hn c⟩
    obtain ⟨depth', task, s₁⟩ := m
    obtain rfl : task = _ := htask
    rcases seen_of_command hm htook with hown | ⟨f, hf, m', hreach', hraises⟩
    · exact Or.inl hown
    · exact Or.inr ⟨f, m', hf, hreach', hraises⟩
  · rw [Result.makeNamed, Action.ofName?_name]
  · exact Stats.recordNamed?_name stats r.action ok

/-- A handler that was called for the event of a request takes a step of its own. -/
theorem calls_safe_nested :
    ∃ (b : Behaviour) (s : Session) (client : Program) (m : Moment), s.pool.Reachable ∧
      b.Reaches ⟨2, .program "main" client (.values []), s⟩ m ∧ m.depth = 1 ∧
      m.task = .step (.command 0 .size) ∧ m.session.pool.Unlocked := by
  let b := ofHandlers [("a", [.step (.command 0 .size), .raise "no"])]
  let s := ((Session.withShared []).addStore {} .shared).withEmitter 0 (·.on "create" (.plain "a"))
  let request := Request.create "/x" false none
  have hs : s.pool.Reachable := (Pool.reachable_withShared []).add {} .shared
  obtain ⟨own, news, handout, s₁, s₂, h, hnews, hemits, hlend, hlisteners⟩ :
      ∃ own news handout s₁ s₂,
        settle (perform 0 (.request request)) s = (.ok own, s₁) ∧
        announcement request own = some ("create", news) ∧ s₁.emitsEvents 0 = true ∧
        settle (lend news) s₁ = (.ok handout, s₂) ∧
        (s₂.emitter 0).listeners "create" = [.plain "a"] :=
    ⟨_, _, _, _, _, rfl, rfl, rfl, rfl, rfl⟩
  have hannounce : b.Leads ⟨2, .step (.command 0 (.request request)), s⟩ ⟨1, _, _⟩ :=
    Leads.announce h hnews hemits hlend
  rw [hlisteners] at hannounce
  have hreach : b.Reaches ⟨2, .program "main" (.step (.command 0 (.request request)) fun _ =>
      .finish) (.values []), s⟩ _ :=
    Leads.take.reaches (hannounce.reaches ((Leads.call rfl).reaches (Leads.take.reaches (.refl _))))
  obtain ⟨hmoments, -, -, -⟩ := b.calls_safe 2 _ "main" (.values []) hs
  exact ⟨b, s, _, _, hs, hreach, rfl, rfl, (hmoments _ hreach).1⟩

end Behaviour

end TreeStore
