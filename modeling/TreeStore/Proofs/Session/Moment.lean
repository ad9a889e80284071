import Mathlib.Logic.Relation
import TreeStore.Proofs.Session.Law

/-!
# The moments of a run

A run with handlers is one computation.  Its `Moment`s are the places inside of it: somebody goes on
with a program, a step is taken, an emit works through registrations.  `Leads` goes from a moment to
the next one, or into the parts of what is to be done there; `Reaches` is any number of such moves.
So what holds at every moment that is reached holds whenever a handler starts, before and after
every step that is taken, at whatever depth.

* `Law.reaches`: what is a law of a behaviour relates every moment to those that it reaches;
* `covers_run`: every command and every call of a handler in a trace has its moment.
-/

namespace TreeStore

open Session

/-- What is to be done at a moment. -/
inductive Task where
  /-- A handler that was called, or who uses the session from outside, goes on with a program. -/
  | program (name : String) (p : Program) (handout : Handout)
  /-- A step is taken. -/
  | step (t : Step)
  /-- An emit has registrations to work through. -/
  | calls (store : Nat) (event : String) (rs : List Registration) (handout : Handout)

/-- A place in a run: how deep handlers may nest from there, what is to be done, and the session. -/
structure Moment where
  depth : Nat
  task : Task
  session : Session

/-- A fault comes up at the moment: a handler raises it, or changes a value where there is none, or
the nesting has become too deep. -/
def Moment.Raises (m : Moment) (f : Fault) : Prop :=
  match m.task with
  | .program _ (.raise g) _ => f = g
  | .program _ (.setValue ..) (.result _) => False
  | .program _ (.setValue ..) _ => f = .noValue
  | .step _ => m.depth = 0 ∧ f = .tooDeep
  | _ => False

/-- A command takes effect with this event, or a handler is called. -/
def Event.isMove : Event → Bool
  | performed .. | called .. => true
  | _ => false

/-- The event is what happens first at the moment. -/
def Moment.Marks (m : Moment) : Event → Prop
  | .performed i c outcome =>
    m.task = .step (.command i c) ∧ outcome = (m.session.pool.run i c).1
  | .called i event r payload => ∃ rs handout, m.task = .calls i event (r :: rs) handout ∧
    payload = handout.shown m.session.memory
  | _ => False

namespace Behaviour

/-- From a moment to the next one, or to a part of what is to be done there. -/
inductive Leads (b : Behaviour) : Moment → Moment → Prop where
  | log {depth : Nat} {name : String} {record : Log.Record} {next : Program} {handout : Handout}
      {s : Session} :
      Leads b ⟨depth, .program name (.log record next) handout, s⟩
        ⟨depth, .program name next handout,
          if s.levels.passes record.logger record.level then s.noted (.logged record) else s⟩
  | setValue {depth : Nat} {name : String} {value : Option String} {next : Program} {h : Held}
      {s : Session} :
      Leads b ⟨depth, .program name (.setValue value next) (.result h), s⟩
        ⟨depth, .program name next (.result h), s.withMemory (h.setValue s.memory value)⟩
  | take {depth : Nat} {name : String} {t : Step} {next : Except Fault Answer → Program}
      {handout : Handout} {s : Session} :
      Leads b ⟨depth, .program name (.step t next) handout, s⟩ ⟨depth, .step t, s⟩
  | goOn {depth : Nat} {name : String} {t : Step} {next : Except Fault Answer → Program}
      {handout : Handout} {seen : Except Fault Answer} {s s' : Session}
      (h : settle (b.step depth t) s = (seen, s')) (hseen : seen ≠ .error .tooDeep) :
      Leads b ⟨depth, .program name (.step t next) handout, s⟩
        ⟨depth, .program name (next seen) handout, s'.noted (.attempted name seen)⟩
  /-- A request has been performed and a copy of its news is sent. -/
  | announce {depth i : Nat} {r : Request} {own : Except Fault Kept} {event : String}
      {news handout : Handout} {s s₁ s₂ : Session}
      (h : settle (perform i (.request r)) s = (.ok own, s₁))
      (hnews : announcement r own = some (event, news)) (hemits : s₁.emitsEvents i = true)
      (hlend : settle (lend news) s₁ = (.ok handout, s₂)) :
      Leads b ⟨depth + 1, .step (.command i (.request r)), s⟩
        ⟨depth, .calls i event ((s₂.emitter i).listeners event) handout,
          s₂.noted (.emitted i event (handout.shown s₂.memory) ((s₂.emitter i).listeners event))⟩
  | emit {depth i : Nat} {event : String} {args : List Json} {s : Session} :
      Leads b ⟨depth + 1, .step (.emit i event args), s⟩
        ⟨depth, .calls i event ((s.emitter i).listeners event) (.values args),
          s.noted (.emitted i event (.values args) ((s.emitter i).listeners event))⟩
  /-- A handler starts. -/
  | call {depth i : Nat} {event : String} {r : Registration} {rs : List Registration}
      {handout : Handout} {payload : Payload} {s : Session}
      (hshown : handout.shown s.memory = payload) :
      Leads b ⟨depth, .calls i event (r :: rs) handout, s⟩
        ⟨depth, .program r.handler (b r.handler (s.entered i event r payload).trace payload)
          handout, s.entered i event r payload⟩
  | next {depth i : Nat} {event : String} {r : Registration} {rs : List Registration}
      {handout : Handout} {s s' : Session}
      (h : settle (b.invoke (b.step depth) i event handout r) s = (.ok (), s')) :
      Leads b ⟨depth, .calls i event (r :: rs) handout, s⟩ ⟨depth, .calls i event rs handout, s'⟩

/-- From a moment to any later one within what is to be done there. -/
def Reaches (b : Behaviour) : Moment → Moment → Prop := Relation.ReflTransGen (Leads b)

variable {b : Behaviour}

theorem Reaches.refl (m : Moment) : b.Reaches m m := Relation.ReflTransGen.refl

theorem Leads.reaches {m m₁ m₂ : Moment} (h : b.Leads m m₁) (h' : b.Reaches m₁ m₂) :
    b.Reaches m m₂ := Relation.ReflTransGen.head h h'

theorem Reaches.trans {m m₁ m₂ : Moment} (h : b.Reaches m m₁) (h' : b.Reaches m₁ m₂) :
    b.Reaches m m₂ := Relation.ReflTransGen.trans h h'

/-! ### Laws at every moment -/

section Law

variable {R : Session → Session → Prop} (hR : Law b R)
  (hemitted : ∀ s i event payload,
    R s (s.noted (.emitted i event payload ((s.emitter i).listeners event))))
  (hentered : ∀ s i event r payload, R s (s.entered i event r payload))
include hR hemitted hentered

theorem Law.keeps_step (depth : Nat) (t : Step) : Keeps R (b.step depth t) :=
  hR.step (fun _ => hR.emit hemitted hentered) depth t

theorem Law.leads {m m' : Moment} (h : b.Leads m m') : R m.session m'.session := by
  cases h with
  | @log _ _ record _ _ s =>
    show R s (if _ then _ else _)
    split_ifs
    · exact hR.logged s record
    · exact hR.refl s
  | setValue => exact hR.memory _ _
  | take => exact hR.refl _
  | @goOn depth name t _ _ _ s s' h hseen =>
    have hstep := hR.keeps_step hemitted hentered depth t s
    rw [h] at hstep
    exact hR.attempted name (took_of_settle h hseen) hstep
  | announce h _ _ hlend =>
    exact hR.trans (hR.effect (effect_of_perform h).1) (hR.trans (hR.lent hlend) (hemitted ..))
  | emit => exact hemitted _ _ _ _
  | call => exact hentered _ _ _ _ _
  | @next depth i event r _ handout s _ h =>
    have hcall := hR.invoke hentered (hR.keeps_step hemitted hentered depth) i event handout r s
    rw [h] at hcall
    exact hcall

theorem Law.reaches {m m' : Moment} (h : b.Reaches m m') : R m.session m'.session := by
  induction h with
  | refl => exact hR.refl _
  | tail _ hlast ih => exact hR.trans ih (hR.leads hemitted hentered hlast)

end Law

/-! ### Every event has its moment -/

/-- What the trace has more in `s` than at the moment `m`, commands and calls of handlers, happened
at moments that `m` reaches. -/
def Covers (b : Behaviour) (m : Moment) (s : Session) : Prop :=
  ∃ done, s.trace = m.session.trace ++ done ∧ ∀ pre e post, done = pre ++ e :: post →
    e.isMove = true → ∃ m', b.Reaches m m' ∧ m'.session.trace = m.session.trace ++ pre ∧ m'.Marks e

section Covers

variable {m m₁ : Moment} {s : Session}

theorem covers_of_trace_eq (h : s.trace = m.session.trace) : b.Covers m s := by
  refine ⟨[], by rw [h, List.append_nil], fun pre e post hsplit => ?_⟩
  simp at hsplit

/-- First up to a moment that is reached, then from there. -/
theorem Covers.trans (hreach : b.Reaches m m₁) (h : b.Covers m m₁.session) (h' : b.Covers m₁ s) :
    b.Covers m s := by
  obtain ⟨done, htrace, hdone⟩ := h
  obtain ⟨done', htrace', hdone'⟩ := h'
  refine ⟨done ++ done', by rw [htrace', htrace, List.append_assoc], ?_⟩
  intro pre e post hsplit he
  rcases split_append hsplit with ⟨mid, hpre, -⟩ | ⟨mid, rfl, hpost⟩
  · exact hdone pre e mid hpre he
  · obtain ⟨m', hm', htrace'', hmarks⟩ := hdone' mid e post hpost he
    exact ⟨m', hreach.trans hm', by rw [htrace'', htrace, List.append_assoc], hmarks⟩

theorem Covers.of_take (hreach : b.Reaches m m₁) (hsame : m₁.session = m.session)
    (h : b.Covers m₁ s) : b.Covers m s :=
  .trans hreach (covers_of_trace_eq (by rw [hsame])) h

theorem Covers.noted (h : b.Covers m s) {e : Event} (he : e.isMove = false) :
    b.Covers m (s.noted e) := by
  obtain ⟨done, htrace, hdone⟩ := h
  refine ⟨done ++ [e], ?_, fun pre e' post hsplit he' => ?_⟩
  · show s.trace ++ [e] = _
    rw [htrace, List.append_assoc]
  · rcases split_append hsplit with ⟨mid, hpre, -⟩ | ⟨mid, -, hlast⟩
    · exact hdone pre e' mid hpre he'
    · rw [(split_singleton hlast).2, he] at he'
      cases he'

/-- The first thing that happens at a moment. -/
theorem Covers.first {e : Event} (hmarks : m.Marks e) (h : s.trace = m.session.trace ++ [e]) :
    b.Covers m s := by
  refine ⟨[e], h, fun pre e' post hsplit _ => ⟨m, .refl m, ?_⟩⟩
  obtain ⟨rfl, rfl⟩ := split_singleton hsplit
  exact ⟨(List.append_nil _).symm, hmarks⟩

end Covers

section Coverage

variable {depth : Nat}
  (hsteps : ∀ t s, b.Covers ⟨depth, .step t, s⟩ (settle (b.step depth t) s).2)
include hsteps

theorem covers_program (name : String) (p : Program) (handout : Handout) (s : Session) :
    b.Covers ⟨depth, .program name p handout, s⟩
      (settle (p.run (b.step depth) name handout) s).2 := by
  induction p generalizing s with
  | finish => exact covers_of_trace_eq rfl
  | raise f => exact covers_of_trace_eq rfl
  | log record next ih =>
    have hlog : b.Covers ⟨depth, .program name (.log record next) handout, s⟩
        (if s.levels.passes record.logger record.level then s.noted (.logged record) else s) := by
      split_ifs
      · exact (covers_of_trace_eq rfl).noted rfl
      · exact covers_of_trace_eq rfl
    have hnext := Covers.trans (Leads.log.reaches (.refl _)) hlog (ih _)
    unfold Program.run
    rw [settle_get]
    split_ifs at hnext ⊢
    · exact hnext
    · exact hnext
  | setValue value next ih =>
    cases handout with
    | result h =>
      exact .trans (Leads.setValue.reaches (.refl _)) (covers_of_trace_eq rfl)
        (ih (s.withMemory (h.setValue s.memory value)))
    | error e => exact covers_of_trace_eq rfl
    | values args => exact covers_of_trace_eq rfl
  | step t next ih =>
    obtain ⟨seen, s₁, htook⟩ : ∃ seen s₁, settle (b.step depth t) s = (seen, s₁) := ⟨_, _, rfl⟩
    have hstep : b.Covers ⟨depth, .program name (.step t next) handout, s⟩ s₁ := by
      have hcovers := hsteps t s
      rw [htook] at hcovers
      exact .of_take (Leads.take.reaches (.refl _)) rfl hcovers
    rcases settle_step htook name next handout with ⟨hseen, h⟩ | ⟨-, h⟩
    · rw [h]
      exact .trans ((Leads.goOn htook hseen).reaches (.refl _)) (hstep.noted rfl) (ih seen _)
    · rw [h]
      exact hstep

theorem covers_calls (i : Nat) (event : String) (rs : List Registration) (handout : Handout)
    (s : Session) :
    b.Covers ⟨depth, .calls i event rs handout, s⟩
      (settle (dispatch (b.invoke (b.step depth) i event handout) rs) s).2 := by
  induction rs generalizing s with
  | nil => exact covers_of_trace_eq rfl
  | cons r rs ih =>
    have hfirst : b.Covers ⟨depth, .calls i event (r :: rs) handout, s⟩
        (settle (b.invoke (b.step depth) i event handout r) s).2 := by
      obtain ⟨payload, hshown⟩ : ∃ payload, handout.shown s.memory = payload := ⟨_, rfl⟩
      have hprogram := covers_program hsteps r.handler
        (b r.handler (s.entered i event r payload).trace payload) handout
        (s.entered i event r payload)
      rw [settle_invoke, hshown]
      -- the call itself stands first, at this moment; the rest belongs to the handler's program
      refine .trans ((Leads.call hshown).reaches (.refl _))
        (.first (e := .called i event r payload) ?_ ?_) hprogram
      · exact ⟨rs, handout, rfl, hshown.symm⟩
      · cases r <;> rfl
    obtain ⟨o, s₁, hcall⟩ : ∃ o s₁,
        settle (b.invoke (b.step depth) i event handout r) s = (o, s₁) := ⟨_, _, rfl⟩
    rw [hcall] at hfirst
    rw [Session.dispatch, settle_bind, hcall]
    cases o with
    | error f => exact hfirst
    | ok _ => exact .trans ((Leads.next hcall).reaches (.refl _)) hfirst (ih s₁)

theorem covers_emit {m : Moment} {s : Session} {i : Nat} {event : String} {handout : Handout}
    (hm : b.Covers m s)
    (hlead : b.Leads m ⟨depth, .calls i event ((s.emitter i).listeners event) handout,
      s.noted (.emitted i event (handout.shown s.memory) ((s.emitter i).listeners event))⟩) :
    b.Covers m (settle (b.emit (b.step depth) i event handout) s).2 := by
  obtain ⟨ended, s', hended, hemit⟩ := settle_emit b (b.step depth) i event handout s
  have hcalls := covers_calls hsteps i event ((s.emitter i).listeners event) handout
    (s.noted (.emitted i event (handout.shown s.memory) ((s.emitter i).listeners event)))
  rw [hended] at hcalls
  rw [hemit]
  exact .trans (hlead.reaches (.refl _)) (hm.noted rfl) hcalls

end Coverage

theorem covers_effect {depth i : Nat} {c : Command} {s s' : Session} (h : Effect s i c s') :
    b.Covers ⟨depth, .step (.command i c), s⟩ s' := by
  have hperformed : b.Covers ⟨depth, .step (.command i c), s⟩ (s.performed i c) :=
    .first (e := .performed i c (s.pool.run i c).1) ⟨rfl, rfl⟩ rfl
  cases h with
  | silent => exact hperformed
  | logged record => exact hperformed.noted rfl

theorem covers_step (depth : Nat) (t : Step) (s : Session) :
    b.Covers ⟨depth, .step t, s⟩ (settle (b.step depth t) s).2 := by
  induction depth generalizing t s with
  | zero => exact covers_of_trace_eq rfl
  | succ depth ih =>
    cases t with
    | command i c =>
      obtain ⟨s₁, hperform, ⟨-, h⟩ | ⟨r, event, news, handout, s₂, sent, s₃, rfl, hnews, hemits,
        hlend, hsend, h⟩⟩ := b.command_news depth i c s
      · rw [h]
        exact covers_effect (effect_of_perform hperform).1
      · have hlead : b.Leads ⟨depth + 1, .step (.command i (.request r)), s⟩ ⟨depth, _, _⟩ :=
          .announce hperform hnews hemits hlend
        have hperformed : b.Covers ⟨depth + 1, .step (.command i (.request r)), s⟩ s₁ :=
          covers_effect (effect_of_perform hperform).1
        have hlent : b.Covers ⟨depth + 1, .step (.command i (.request r)), s⟩ s₂ := by
          obtain ⟨g, -, rfl⟩ := copy_of_lend hlend
          exact hperformed
        have hsent := covers_emit (fun t s => ih t s) hlent hlead
        rw [hsend] at hsent
        rw [h]
        exact hsent
    | emit i event args =>
      have hlead : b.Leads ⟨depth + 1, .step (.emit i event args), s⟩ ⟨depth, _, _⟩ := .emit
      have hsent := covers_emit (fun t s => ih t s) (covers_of_trace_eq rfl) hlead
      show b.Covers _ (settle (b.emit _ i event _ >>= fun n => pure (Answer.count n)) s).2
      rw [settle_bind]
      cases hends : settle (b.emit (b.step depth) i event (.values args)) s with
      | mk ended s' =>
        rw [hends] at hsent
        cases ended <;> exact hsent
    | off i event handler => cases handler <;> exact covers_of_trace_eq rfl
    | _ => exact covers_of_trace_eq rfl

/-- Every command and every call of a handler in the trace of a run has its moment. -/
theorem covers_run (depth : Nat) (name : String) (p : Program) (handout : Handout) (s : Session) :
    b.Covers ⟨depth, .program name p handout, s⟩
      (settle (p.run (b.step depth) name handout) s).2 :=
  covers_program (covers_step depth) name p handout s

end Behaviour

end TreeStore
