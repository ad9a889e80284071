import TreeStore.Proofs.Session.Memory

/-!
# Laws of all that happens in a session

A relation between sessions is a `Law` of a behaviour if it holds of each thing that can happen: a
command takes effect, a line is logged, a registration is added or removed, memory changes, a step
of a handler is over; and if it holds of one thing after another.  Then it holds of every program
that takes steps whose emits keep it (`Law.program`), and so of every step, whatever the handlers do
and however deep they nest (`Law.step`).  If it holds of the start of an emit and of the start of
each call as well, emits keep it (`Law.emit`).

What a command comes to is said once, in `Behaviour.command_news`; `Behaviour.command_cases` is what
laws need of it.
-/

namespace TreeStore

open Session

namespace Behaviour

/-! ### Commands -/

/-- A command is performed, and then a copy of its news is sent if it has any and the store sends
events, and only then.  Its taker sees the outcome that it had, unless the sending ends in a
fault: whatever was assigned, it was not assigned to what the taker has. -/
theorem command_news (b : Behaviour) (depth i : Nat) (c : Command) (s : Session) :
    ∃ s₁, settle (perform i c) s = (.ok (s.held i c), s₁) ∧
      (((∀ r event news, c = .request r →
          announcement r (s.held i c) = some (event, news) → s₁.emitsEvents i = false) ∧
          settle (b.step (depth + 1) (.command i c)) s = ((s.pool.run i c).1, s₁)) ∨
        ∃ r event news handout s₂ sent s₃, c = .request r ∧
          announcement r (s.held i c) = some (event, news) ∧ s₁.emitsEvents i = true ∧
          settle (lend news) s₁ = (.ok handout, s₂) ∧
          settle (b.emit (b.step depth) i event handout) s₂ = (sent, s₃) ∧
          settle (b.step (depth + 1) (.command i c)) s =
            (sent.bind fun _ => (s.pool.run i c).1, s₃)) := by
  have hown : (s.held i c).map (·.read (settle (b.step (depth + 1) (.command i c)) s).2.memory) =
      (s.pool.run i c).1 := read_keep (extends_command (b.grows_step depth) i c s)
  obtain ⟨s₁, hperform, ⟨hnone, h⟩ | ⟨r, event, news, handout, s₂, sent, s₃, hr, hnews, hemits,
    hlend, hsend, h⟩⟩ := command_sends (b.emit (b.step depth)) i c s
  · refine ⟨s₁, hperform, Or.inl ⟨hnone, ?_⟩⟩
    rw [step, h] at hown ⊢
    rw [hown]
  · refine ⟨s₁, hperform, Or.inr
      ⟨r, event, news, handout, s₂, sent, s₃, hr, hnews, hemits, hlend, hsend, ?_⟩⟩
    rw [step, h] at hown ⊢
    rw [hown]

/-- A command first takes effect.  Its taker sees the outcome that it had, unless an emit follows
and ends in a fault. -/
theorem command_cases (b : Behaviour) (depth i : Nat) (c : Command) (s : Session) :
    ∃ s₁, Effect s i c s₁ ∧
      (settle (b.step (depth + 1) (.command i c)) s = ((s.pool.run i c).1, s₁) ∨
        ∃ event news handout s₂ sent s₃, settle (lend news) s₁ = (.ok handout, s₂) ∧
          settle (b.emit (b.step depth) i event handout) s₂ = (sent, s₃) ∧
          settle (b.step (depth + 1) (.command i c)) s =
            (sent.bind fun _ => (s.pool.run i c).1, s₃)) := by
  obtain ⟨s₁, hperform, hcases⟩ := b.command_news depth i c s
  refine ⟨s₁, (effect_of_perform hperform).1, hcases.imp And.right ?_⟩
  rintro ⟨_, event, news, handout, s₂, sent, s₃, -, -, -, hlend, hsend, h⟩
  exact ⟨event, news, handout, s₂, sent, s₃, hlend, hsend, h⟩

end Behaviour

/-! ### Laws -/

/-- A run leads from each session to one that `R` relates to it. -/
def Session.Keeps {α : Type} (R : Session → Session → Prop) (c : Run α) : Prop :=
  ∀ s, R s (settle c s).2

namespace Behaviour

variable {b : Behaviour} {R : Session → Session → Prop}

/-- A step that the bound on the nesting allows leads from one session to another, with an
outcome. -/
def Took (b : Behaviour) (t : Step) (seen : Except Fault Answer) (s s' : Session) : Prop :=
  ∃ depth, settle (b.step (depth + 1) t) s = (seen, s')

theorem took_of_settle {depth : Nat} {t : Step} {seen : Except Fault Answer} {s s' : Session}
    (h : settle (b.step depth t) s = (seen, s')) (hseen : seen ≠ .error .tooDeep) :
    b.Took t seen s s' := by
  cases depth with
  | zero =>
    cases h
    exact absurd rfl hseen
  | succ depth => exact ⟨depth, h⟩

/-- The relation holds of all that happens outside of emits. -/
structure Law (b : Behaviour) (R : Session → Session → Prop) : Prop where
  refl (s : Session) : R s s
  trans {s₁ s₂ s₃ : Session} : R s₁ s₂ → R s₂ s₃ → R s₁ s₃
  performed (s : Session) (i : Nat) (c : Command) : R s (s.performed i c)
  logged (s : Session) (record : Log.Record) : R s (s.noted (.logged record))
  on (s : Session) (i : Nat) (event handler : String) :
    R s (s.withEmitter i (·.on event (.plain handler)))
  once (s : Session) (i : Nat) (event handler : String) : R s (s.withOnce i event handler)
  off (s : Session) (i : Nat) (event handler : String) :
    R s (s.withEmitter i (·.off event (.plain handler)))
  clear (s : Session) (i : Nat) (event : String) : R s (s.withEmitter i (·.clear event))
  memory (s : Session) (g : Graph) : R s (s.withMemory g)
  /-- A handler's step is over. -/
  attempted {t : Step} {seen : Except Fault Answer} {s s' : Session} (handler : String) :
    b.Took t seen s s' → R s s' → R s (s'.noted (.attempted handler seen))

namespace Law

variable (hR : Law b R)

include hR

theorem effect {s s' : Session} {i : Nat} {c : Command} (h : Effect s i c s') : R s s' := by
  cases h with
  | silent => exact hR.performed s i c
  | logged record => exact hR.trans (hR.performed s i c) (hR.logged _ record)

theorem lent {news handout : Handout} {s s' : Session}
    (h : settle (lend news) s = (.ok handout, s')) : R s s' := by
  obtain ⟨g, -, rfl⟩ := copy_of_lend h
  exact hR.memory s g

theorem bind {α β : Type} {c : Run α} {k : α → Run β} (hc : Keeps R c) (hk : ∀ a, Keeps R (k a)) :
    Keeps R (c >>= k) := by
  intro s
  obtain ⟨o, s', h⟩ : ∃ o s', settle c s = (o, s') := ⟨_, _, rfl⟩
  have hfirst : R s s' := by simpa [h] using hc s
  rw [settle_bind, h]
  cases o with
  | error f => exact hfirst
  | ok a => exact hR.trans hfirst (hk a s')

/-- A program keeps what its steps keep, whatever it makes of their outcomes. -/
theorem program {depth : Nat} (hsteps : ∀ t, Keeps R (b.step depth t)) (name : String)
    (p : Program) (handout : Handout) : Keeps R (p.run (b.step depth) name handout) := by
  induction p with
  | finish => exact fun s => hR.refl s
  | raise f => exact fun s => hR.refl s
  | log record next ih =>
    intro s
    unfold Program.run
    rw [settle_get]
    split_ifs
    · exact hR.trans (hR.logged s record) (ih _)
    · exact ih s
  | setValue value next ih =>
    cases handout with
    | result h => exact fun s => hR.trans (hR.memory s (h.setValue s.memory value)) (ih _)
    | error e => exact fun s => hR.refl s
    | values args => exact fun s => hR.refl s
  | step t next ih =>
    intro s
    obtain ⟨seen, s₁, htook⟩ : ∃ seen s₁, settle (b.step depth t) s = (seen, s₁) := ⟨_, _, rfl⟩
    have hfirst : R s s₁ := by simpa [htook] using hsteps t s
    rcases settle_step htook name next handout with ⟨hseen, h⟩ | ⟨-, h⟩
    · rw [h]
      exact hR.trans (hR.attempted name (took_of_settle htook hseen) hfirst) (ih seen _)
    · rw [h]
      exact hfirst

theorem dispatch {call : Registration → Run Unit} (hcall : ∀ r, Keeps R (call r))
    (rs : List Registration) : Keeps R (Session.dispatch call rs) := by
  induction rs with
  | nil => exact fun s => hR.refl s
  | cons r rs ih => exact hR.bind (hcall r) fun _ => ih

/-- A fault that ends the work of an emit is the fault of one of its calls. -/
theorem dispatch_error {call : Registration → Run Unit} (hcall : ∀ r, Keeps R (call r)) {f : Fault}
    {s' : Session} (rs : List Registration) (s : Session)
    (h : settle (Session.dispatch call rs) s = (.error f, s')) :
    ∃ r s₁, R s s₁ ∧ settle (call r) s₁ = (.error f, s') := by
  induction rs generalizing s with
  | nil => cases h
  | cons r rs ih =>
    obtain ⟨o, s₁, hfirst⟩ : ∃ o s₁, settle (call r) s = (o, s₁) := ⟨_, _, rfl⟩
    have hR₁ : R s s₁ := by simpa [hfirst] using hcall r s
    unfold Session.dispatch at h
    rw [settle_bind, hfirst] at h
    cases o with
    | error g =>
      cases h
      exact ⟨r, s, hR.refl s, hfirst⟩
    | ok _ =>
      obtain ⟨r', s₂, hR₂, hfault⟩ := ih s₁ h
      exact ⟨r', s₂, hR.trans hR₁ hR₂, hfault⟩

/-- The call of a handler keeps what its start and the handler's steps keep. -/
theorem invoke (hentered : ∀ s i event r payload, R s (s.entered i event r payload)) {depth : Nat}
    (hsteps : ∀ t, Keeps R (b.step depth t)) (i : Nat) (event : String) (handout : Handout)
    (r : Registration) : Keeps R (b.invoke (b.step depth) i event handout r) := by
  intro s
  rw [settle_invoke]
  exact hR.trans (hentered s i event r _) (hR.program hsteps _ _ _ _)

/-- Emits keep what their start, the start of each call and the steps of handlers keep. -/
theorem emit
    (hemitted : ∀ s i event payload,
      R s (s.noted (.emitted i event payload ((s.emitter i).listeners event))))
    (hentered : ∀ s i event r payload, R s (s.entered i event r payload)) {depth : Nat}
    (hsteps : ∀ t, Keeps R (b.step depth t)) (i : Nat) (event : String) (handout : Handout) :
    Keeps R (b.emit (b.step depth) i event handout) := by
  intro s
  obtain ⟨ended, s', hended, hemit⟩ := settle_emit b (b.step depth) i event handout s
  have hcalls := hR.dispatch (hR.invoke hentered hsteps i event handout)
    ((s.emitter i).listeners event)
    (s.noted (.emitted i event (handout.shown s.memory) ((s.emitter i).listeners event)))
  rw [hended] at hcalls
  rw [hemit]
  exact hR.trans (hemitted s i event _) hcalls

/-- Steps keep what emits keep, however deep their handlers nest. -/
theorem step
    (hemit : ∀ depth, (∀ t, Keeps R (b.step depth t)) →
      ∀ i event handout, Keeps R (b.emit (b.step depth) i event handout)) :
    ∀ depth t, Keeps R (b.step depth t) := by
  intro depth
  induction depth with
  | zero => exact fun t s => hR.refl s
  | succ depth ih =>
    intro t s
    cases t with
    | command i c =>
      obtain ⟨s₁, heffect, h | ⟨event, news, handout, s₂, sent, s₃, hlend, hsend, h⟩⟩ :=
        b.command_cases depth i c s
      · rw [h]
        exact hR.effect heffect
      · have hsent := hemit depth ih i event handout s₂
        rw [hsend] at hsent
        rw [h]
        exact hR.trans (hR.effect heffect) (hR.trans (hR.lent hlend) hsent)
    | sameRegistry i j => exact hR.refl s
    | logLevel => exact hR.refl s
    | on i event handler => exact hR.on s i event handler
    | once i event handler => exact hR.once s i event handler
    | off i event handler =>
      cases handler with
      | some h => exact hR.off s i event h
      | none => exact hR.clear s i event
    | emit i event args =>
      exact hR.bind (k := fun n => pure (Answer.count n)) (hemit depth ih i event (.values args))
        (fun _ s => hR.refl s) s
    | listeners i event => exact hR.refl s

end Law

end Behaviour

end TreeStore
