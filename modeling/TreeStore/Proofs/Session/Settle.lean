import TreeStore.Proofs.Session.Program
import Mathlib.Tactic.SplitIfs

/-!
# What happens in a session

Each thing that can happen leads from one session to the next: a command takes effect, a line is
logged, a registration is added or removed, an emit or a call starts, a value is assigned.  `settle`
runs a computation and gives its outcome with the session after it; the lemmas here say what the
computations of a session settle to, in terms of these.
-/

namespace TreeStore

namespace Session

variable {α β : Type}

/-- The outcome of a run and the session after it. -/
def settle (c : Run α) (s : Session) : Except Fault α × Session :=
  match c s with
  | .ok a s' => (.ok a, s')
  | .error f s' => (.error f, s')

theorem settle_bind (c : Run α) (k : α → Run β) (s : Session) :
    settle (c >>= k) s =
      match settle c s with
      | (.ok a, s') => settle (k a) s'
      | (.error f, s') => (.error f, s') := by
  show settle (EStateM.bind c k) s = _
  unfold settle EStateM.bind
  cases c s <;> rfl

@[simp] theorem settle_pure (a : α) (s : Session) : settle (pure a : Run α) s = (.ok a, s) := rfl

theorem settle_get (k : Session → Run β) (s : Session) :
    settle (get >>= k) s = settle (k s) s := rfl

/-! ### Where an event of a trace stands -/

theorem split_append {α : Type} {l₁ l₂ pre post : List α} {e : α}
    (h : l₁ ++ l₂ = pre ++ e :: post) :
    (∃ mid, l₁ = pre ++ e :: mid ∧ post = mid ++ l₂) ∨
      ∃ mid, pre = l₁ ++ mid ∧ l₂ = mid ++ e :: post := by
  rcases List.append_eq_append_iff.mp h with ⟨mid, hpre, hl₂⟩ | ⟨mid, hl₁, hmid⟩
  · exact Or.inr ⟨mid, hpre, hl₂⟩
  · cases mid with
    | nil => exact Or.inr ⟨[], by simpa using hl₁.symm, by simpa using hmid.symm⟩
    | cons e' mid =>
      obtain ⟨rfl, hpost⟩ := List.cons_eq_cons.mp hmid
      exact Or.inl ⟨mid, hl₁, hpost⟩

theorem split_singleton {α : Type} {e e' : α} {pre post : List α} (h : [e] = pre ++ e' :: post) :
    pre = [] ∧ e' = e := by
  cases pre with
  | nil =>
    cases h
    exact ⟨rfl, rfl⟩
  | cons _ pre => simp at h

/-! ### What can happen -/

/-- The session with one more event in its trace. -/
def noted (s : Session) (e : Event) : Session := { s with trace := s.trace ++ [e] }

/-- What the taker of a command has of its outcome. -/
def held (s : Session) (i : Nat) (c : Command) : Except Fault Kept :=
  (keep s.memory (s.pool.run i c).1).1

/-- The session after a command took effect. -/
def performed (s : Session) (i : Nat) (c : Command) : Session :=
  { s with
    pool := (s.pool.run i c).2
    memory := (keep s.memory (s.pool.run i c).1).2 }.noted (.performed i c (s.pool.run i c).1)

/-- The session with another memory. -/
def withMemory (s : Session) (g : Graph) : Session := { s with memory := g }

/-- The session with a change to the emitter of a store. -/
def withEmitter (s : Session) (i : Nat) (f : Emitter → Emitter) : Session :=
  { s with emitters := s.emitters.set i (f (s.emitter i)) }

/-- The session with a one-time registration under an identity of its own. -/
def withOnce (s : Session) (i : Nat) (event handler : String) : Session :=
  { s with fresh := s.fresh + 1 }.withEmitter i (·.on event (.once s.fresh handler))

/-- The session after a call through a registration has started. -/
def entered (s : Session) (i : Nat) (event : String) (r : Registration) (payload : Payload) :
    Session :=
  (match r with
    | .once .. => s.withEmitter i (·.off event r)
    | .plain _ => s).noted (.called i event r payload)

/-- The same stores, without any handler registered. -/
def quiet (s : Session) : Session := { s with emitters := s.emitters.map fun _ => {} }

@[simp] theorem emitter_quiet (s : Session) (i : Nat) : s.quiet.emitter i = {} := by
  unfold emitter quiet
  rw [List.getD_eq_getElem?_getD, List.getElem?_map]
  cases s.emitters[i]? <;> rfl

theorem settle_modify (f : Session → Session) (s : Session) :
    settle (modify f) s = (.ok (), f s) := rfl

@[simp] theorem settle_note (e : Event) (s : Session) :
    settle (note e) s = (.ok (), s.noted e) := rfl

theorem settle_setValue (take : Step → Run Answer) (name : String) (value : Option String)
    (next : Program) (h : Held) (s : Session) :
    settle ((Program.setValue value next).run take name (.result h)) s =
      settle (next.run take name (.result h)) (s.withMemory (h.setValue s.memory value)) := rfl

theorem settle_invoke (b : Behaviour) (take : Step → Run Answer) (i : Nat) (event : String)
    (handout : Handout) (r : Registration) (s : Session) :
    settle (b.invoke take i event handout r) s =
      settle ((b r.handler (s.entered i event r (handout.shown s.memory)).trace
          (handout.shown s.memory)).run take r.handler handout)
        (s.entered i event r (handout.shown s.memory)) := by
  cases r <;> rfl

theorem settle_emit (b : Behaviour) (take : Step → Run Answer) (i : Nat) (event : String)
    (handout : Handout) (s : Session) :
    ∃ ended s',
      settle (dispatch (b.invoke take i event handout) ((s.emitter i).listeners event))
        (s.noted (.emitted i event (handout.shown s.memory) ((s.emitter i).listeners event))) =
          (ended, s') ∧
      settle (b.emit take i event handout) s =
        (ended.map fun _ => ((s.emitter i).listeners event).length, s') := by
  obtain ⟨ended, s', hended⟩ : ∃ ended s',
      settle (dispatch (b.invoke take i event handout) ((s.emitter i).listeners event))
        (s.noted (.emitted i event (handout.shown s.memory) ((s.emitter i).listeners event))) =
          (ended, s') := ⟨_, _, rfl⟩
  refine ⟨ended, s', hended, ?_⟩
  unfold Behaviour.emit
  rw [settle_get]
  dsimp only
  rw [settle_get, settle_bind, settle_note]
  simp only [settle_bind, hended]
  cases ended <;> rfl

/-- Every outcome of a step is one that a program can see, but for too deep a nesting. -/
theorem settle_attempt {c : Run Answer} {seen : Except Fault Answer} {s s' : Session}
    (h : settle c s = (seen, s')) :
    seen ≠ .error .tooDeep ∧ settle (runActions.attempt c) s = (.ok seen, s') ∨
      seen = .error .tooDeep ∧ settle (runActions.attempt c) s = (.error .tooDeep, s') := by
  unfold settle at h ⊢
  unfold runActions.attempt
  cases hrun : c s with
  | ok a s₁ =>
    rw [hrun] at h
    cases h
    exact Or.inl ⟨nofun, rfl⟩
  | error f s₁ =>
    rw [hrun] at h
    cases h
    cases f <;> first | exact Or.inl ⟨nofun, rfl⟩ | exact Or.inr ⟨rfl, rfl⟩

/-- A program goes on with the outcome of its step, unless the nesting went too deep. -/
theorem settle_step {take : Step → Run Answer} {t : Step} {seen : Except Fault Answer}
    {s s' : Session} (h : settle (take t) s = (seen, s')) (name : String)
    (next : Except Fault Answer → Program) (handout : Handout) :
    seen ≠ .error .tooDeep ∧ settle ((Program.step t next).run take name handout) s =
        settle ((next seen).run take name handout) (s'.noted (.attempted name seen)) ∨
      seen = .error .tooDeep ∧
        settle ((Program.step t next).run take name handout) s = (.error .tooDeep, s') := by
  have hrun : settle ((Program.step t next).run take name handout) s =
      _ := settle_bind (runActions.attempt (take t)) (fun outcome => do
        note (.attempted name outcome)
        (next outcome).run take name handout) s
  rw [hrun]
  rcases settle_attempt h with ⟨hseen, h⟩ | ⟨hseen, h⟩
  · exact Or.inl ⟨hseen, by rw [h]; rfl⟩
  · exact Or.inr ⟨hseen, by rw [h]⟩

/-! ### Commands -/

/-- The session in which a command has taken effect, with its line in the log if it has one. -/
inductive Effect (s : Session) (i : Nat) (c : Command) : Session → Prop where
  | silent : Effect s i c (s.performed i c)
  | logged (record : Log.Record) : Effect s i c ((s.performed i c).noted (.logged record))

section

variable {s s' : Session} {i : Nat} {c : Command}

theorem Effect.trace (h : Effect s i c s') :
    ∃ lines, s'.trace = s.trace ++ .performed i c (s.pool.run i c).1 :: lines := by
  cases h with
  | silent => exact ⟨[], rfl⟩
  | logged record => exact ⟨[.logged record], List.append_assoc _ _ _⟩

theorem Effect.pool (h : Effect s i c s') : s'.pool = (s.pool.run i c).2 := by
  cases h <;> rfl

theorem Effect.memory (h : Effect s i c s') :
    s'.memory = (keep s.memory (s.pool.run i c).1).2 := by
  cases h <;> rfl

theorem Effect.emitter (h : Effect s i c s') (j : Nat) : s'.emitter j = s.emitter j := by
  cases h <;> rfl

end

theorem settle_debug (line : String) (s : Session) :
    settle (debug line) s = (.ok (),
      if s.levels.passes Log.storeLogger Log.Level.debug.value then
        s.noted (.logged ⟨Log.storeLogger, Log.Level.debug.value, line⟩)
      else s) := by
  unfold debug
  rw [settle_get]
  split_ifs <;> rfl

section Perform

variable {i : Nat} {r : Request} {s : Session}

theorem settle_perform_silent (h : logLine r (s.pool.run i (.request r)).1 = none) :
    settle (perform i (.request r)) s =
      (.ok (s.held i (.request r)), s.performed i (.request r)) := by
  unfold perform
  rw [settle_get]
  dsimp only
  rw [settle_get]
  simp only [settle_bind, settle_modify, settle_note, h]
  rfl

theorem settle_perform_logged {line : String}
    (h : logLine r (s.pool.run i (.request r)).1 = some line) :
    settle (perform i (.request r)) s = (.ok (s.held i (.request r)),
      if s.levels.passes Log.storeLogger Log.Level.debug.value then
        (s.performed i (.request r)).noted (.logged ⟨Log.storeLogger, Log.Level.debug.value, line⟩)
      else s.performed i (.request r)) := by
  unfold perform
  rw [settle_get]
  dsimp only
  rw [settle_get]
  simp only [settle_bind, settle_modify, settle_note, settle_debug, h]
  rfl

end Perform

theorem settle_perform (i : Nat) (c : Command) (s : Session) :
    ∃ s', Effect s i c s' ∧ settle (perform i c) s = (.ok (s.held i c), s') := by
  cases c with
  | request r =>
    cases hlog : logLine r (s.pool.run i (.request r)).1 with
    | none => exact ⟨_, .silent, settle_perform_silent hlog⟩
    | some line =>
      have h := settle_perform_logged hlog
      split_ifs at h
      · exact ⟨_, .logged _, h⟩
      · exact ⟨_, .silent, h⟩
  | _ => exact ⟨_, .silent, rfl⟩

theorem effect_of_perform {i : Nat} {c : Command} {own : Except Fault Kept} {s s₁ : Session}
    (h : settle (perform i c) s = (.ok own, s₁)) : Effect s i c s₁ ∧ own = s.held i c := by
  obtain ⟨s', heffect, hperform⟩ := settle_perform i c s
  obtain ⟨hown, rfl⟩ := Prod.mk.inj (hperform.symm.trans h)
  exact ⟨heffect, (Except.ok.inj hown).symm⟩

theorem settle_lend (news : Handout) (s : Session) :
    settle (lend news) s = (.ok (news.copy s.memory).1, s.withMemory (news.copy s.memory).2) := rfl

theorem copy_of_lend {news handout : Handout} {s s' : Session}
    (h : settle (lend news) s = (.ok handout, s')) :
    ∃ g, news.copy s.memory = (handout, g) ∧ s' = s.withMemory g := by
  obtain ⟨hhandout, rfl⟩ := Prod.mk.inj ((settle_lend news s).symm.trans h)
  exact ⟨_, Prod.ext (Except.ok.inj hhandout) rfl, rfl⟩

theorem settle_tell (own : Except Fault Kept) (s : Session) :
    settle (tell own) s = (own.map (·.read s.memory), s) := by
  cases own <;> rfl

/-- A command is performed, and then, only if it has news and the store sends events, a copy of what
its taker has is sent.  Unless this ends in a fault, the taker is told what it has by then. -/
theorem command_sends (send : Nat → String → Handout → Run Nat) (i : Nat) (c : Command)
    (s : Session) :
    ∃ s₁, settle (perform i c) s = (.ok (s.held i c), s₁) ∧
      (((∀ r event news, c = .request r →
          announcement r (s.held i c) = some (event, news) → s₁.emitsEvents i = false) ∧
          settle (stepWith send (.command i c)) s =
            ((s.held i c).map (·.read s₁.memory), s₁)) ∨
        ∃ r event news handout s₂ sent s₃, c = .request r ∧
          announcement r (s.held i c) = some (event, news) ∧ s₁.emitsEvents i = true ∧
          settle (lend news) s₁ = (.ok handout, s₂) ∧
          settle (send i event handout) s₂ = (sent, s₃) ∧
          settle (stepWith send (.command i c)) s =
            (sent.bind fun _ => (s.held i c).map (·.read s₃.memory), s₃)) := by
  obtain ⟨s₁, -, hperform⟩ := settle_perform i c s
  refine ⟨s₁, hperform, ?_⟩
  generalize s.held i c = own at hperform ⊢
  unfold stepWith
  rw [settle_bind, hperform]
  cases c with
  | request r =>
    simp only
    cases hnews : announcement r own with
    | none =>
      refine Or.inl ⟨fun r' event news hr hnews' => ?_, settle_tell own s₁⟩
      cases hr
      cases hnews.symm.trans hnews'
    | some announced =>
      obtain ⟨event, news⟩ := announced
      simp only [settle_get]
      split_ifs with hemits
      · obtain ⟨handout, s₂, hlend⟩ : ∃ handout s₂, settle (lend news) s₁ = (.ok handout, s₂) :=
          ⟨_, _, settle_lend news s₁⟩
        obtain ⟨sent, s₃, hsend⟩ : ∃ sent s₃, settle (send i event handout) s₂ = (sent, s₃) :=
          ⟨_, _, rfl⟩
        refine Or.inr ⟨r, event, news, handout, s₂, sent, s₃, rfl, hnews, hemits, hlend, hsend, ?_⟩
        rw [settle_bind, hlend]
        simp only
        rw [settle_bind, hsend]
        cases sent with
        | error f => rfl
        | ok n => exact settle_tell own s₃
      · exact Or.inl ⟨fun _ _ _ _ _ => by simpa using hemits, settle_tell own s₁⟩
  | _ =>
    refine Or.inl ⟨fun _ _ _ hr _ => ?_, settle_tell own s₁⟩
    cases hr

end Session

end TreeStore
