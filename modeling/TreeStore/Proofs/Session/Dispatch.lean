import TreeStore.Proofs.Session.Deeds

/-!
# Emits as work on a ledger

That the deeds of a run can be done on the ledger of the registrations holds of a program if it
holds of its steps (`refines_program`), of an emit if it holds of the steps of its handlers
(`refines_emit`), and so of every step, however deep its handlers nest (`refines_step`).
-/

namespace TreeStore

open Session

theorem Session.tooDeep_eq_false {seen : Except Fault Answer} (h : seen ≠ .error .tooDeep) :
    tooDeep seen = false := by
  cases seen with
  | ok a => rfl
  | error f => cases f <;> first | rfl | exact absurd rfl h

theorem Session.emitters_missing {s : Session} {i : Nat} (hi : s.emitters.length ≤ i)
    (f : Emitter → Emitter) : (s.withEmitter i f).emitters = s.emitters :=
  List.set_eq_of_length_le hi

namespace Behaviour

section

variable {b : Behaviour} {take : Step → Run Answer} {inner : Step → Session → List Deed}
  (hsteps : ∀ t (s : Session), s.Refines (inner t s) (settle (take t) s).2)

include hsteps

/-- What a program does can be done on the ledger if that holds of its steps. -/
theorem refines_program (name : String) (p : Program) (handout : Handout) (s : Session) :
    s.Refines (p.deeds take inner name handout s) (settle (p.run take name handout) s).2 := by
  induction p generalizing s with
  | finish => exact .refl s
  | raise f => exact .refl s
  | log record next ih =>
    unfold Program.run Program.deeds
    rw [settle_get]
    split_ifs
    · have hlog : s.Refines [] (s.noted (.logged record)) := .noted rfl
      exact hlog.trans (ih _)
    · exact ih s
  | setValue value next ih =>
    cases handout with
    | result h =>
      have hassigned : s.Refines [] (s.withMemory (h.setValue s.memory value)) := .withMemory s _
      exact hassigned.trans (ih _)
    | error e => exact .refl s
    | values args => exact .refl s
  | step t next ih =>
    obtain ⟨seen, s₁, htook⟩ : ∃ seen s₁, settle (take t) s = (seen, s₁) := ⟨_, _, rfl⟩
    have hfirst := hsteps t s
    rw [htook] at hfirst
    simp only [Program.deeds, htook]
    rcases settle_step htook name next handout with ⟨hseen, hrun⟩ | ⟨rfl, hrun⟩
    · have hover : s₁.Refines [] (s₁.noted (.attempted name seen)) := .noted rfl
      rw [hrun, tooDeep_eq_false hseen]
      exact hfirst.trans (hover.trans (ih seen _))
    · rw [hrun]
      exact hfirst.trans (.refl _)

/-- The calls of an emit go through its registrations in order, up to the first that raises. -/
theorem works_calls (i : Nat) (event : String) (handout : Handout) (rs : List Registration)
    {s s' : Session} {ended : Except Fault Unit}
    (h : settle (dispatch (b.invoke take i event handout) rs) s = (ended, s')) :
    ∃ called, Works i event called (onTop i event rs false) (afterCalls i event ended) s
      (b.callDeeds take inner i event handout rs s) s' ∧ ∀ a, ended = .ok a → called = rs := by
  induction rs generalizing s with
  | nil =>
    cases h
    exact ⟨[], .refl _, fun _ _ => rfl⟩
  | cons r rs ih =>
    have hcall : Works i event [r] _ _ s [.call i event r]
        (s.entered i event r (handout.shown s.memory)) := .call s r rs _
    have hprogram := refines_program hsteps r.handler
      (b r.handler (s.entered i event r (handout.shown s.memory)).trace (handout.shown s.memory))
      handout (s.entered i event r (handout.shown s.memory))
    rw [← settle_invoke] at hprogram
    obtain ⟨o, s₁, hinvoke⟩ : ∃ o s₁, settle (b.invoke take i event handout r) s = (o, s₁) :=
      ⟨_, _, rfl⟩
    rw [hinvoke] at hprogram
    have hwork := hcall.trans (.of_refines hprogram rs)
    rw [dispatch, settle_bind, hinvoke] at h
    simp only [callDeeds, hinvoke]
    cases o with
    | error f =>
      cases h
      exact ⟨_, hwork.trans (.raised _ rs f), fun a ha => by cases ha⟩
    | ok _ =>
      obtain ⟨called, hrest, hall⟩ := ih h
      refine ⟨[r] ++ called, ?_, fun a ha => congrArg _ (hall a ha)⟩
      simpa using hwork.trans (.trans (.returned _ rs) hrest)

/-- An emit is its start, its calls, and its end if they all returned. -/
theorem refines_emit (i : Nat) (event : String) (handout : Handout) (s : Session) :
    s.Refines (b.emitDeeds take inner i event handout s)
      (settle (b.emit take i event handout) s).2 := by
  obtain ⟨ended, s', hended, hemit⟩ := settle_emit b take i event handout s
  obtain ⟨called, hworks, -⟩ := works_calls hsteps i event handout (s.registered i event) hended
  simp only [emitDeeds, hemit]
  cases ended with
  | error f => exact hworks.emit [] (fun _ _ => .nil) rfl
  | ok a => exact hworks.emit [.finish _] (fun _ _ => Dispatcher.Step.finish.plays) rfl

/-- An emit whose handlers all return and leave the emitter alone: of the registrations for its
event the plain ones remain. -/
theorem plain_remain {i n : Nat} {event : String} {handout : Handout} {s s' : Session}
    (h : settle (b.emit take i event handout) s = (.ok n, s'))
    (huntouched : ∀ d ∈ b.callDeeds take inner i event handout (s.registered i event)
      (s.noted (.emitted i event (handout.shown s.memory) (s.registered i event))),
      d.touches i = false) :
    n = (s.registered i event).length ∧ ∀ event', s'.registered i event' =
      if event' = event then (s.registered i event).filter Registration.isPlain
      else s.registered i event' := by
  obtain ⟨ended, s'', hended, hemit⟩ := settle_emit b take i event handout s
  obtain ⟨called, hworks, hall⟩ := works_calls hsteps i event handout (s.registered i event) hended
  obtain ⟨hn, rfl⟩ := Prod.mk.inj (hemit.symm.trans h)
  cases ended with
  | error f => cases hn
  | ok a =>
    refine ⟨(Except.ok.inj hn).symm, fun event' => ?_⟩
    rw [hworks.spends i huntouched event', hall a rfl]
    by_cases hevent : event' = event
    · rw [if_pos ⟨rfl, hevent⟩, if_pos hevent, hevent]
      exact leftover_self _
    · rw [if_neg fun h => hevent h.2, if_neg hevent]
      rfl

end

/-- What a step does can be done on the ledger, however deep its handlers nest. -/
theorem refines_step (b : Behaviour) (depth : Nat) (t : Step) (s : Session) :
    s.Refines (b.deeds depth t s) (settle (b.step depth t) s).2 := by
  induction depth generalizing t s with
  | zero => exact .refl s
  | succ depth ih =>
    cases t with
    | command i c =>
      obtain ⟨s₁, hperform, hcases⟩ := b.command_news depth i c s
      have heffect : s.Refines [] s₁ := .of_effect (effect_of_perform hperform).1
      obtain ⟨hquiet, h⟩ | ⟨r, event, news, handout, s₂, sent, s₃, rfl, hnews, hemits, hlend, hsend,
        h⟩ := hcases
      · have hnone : b.deeds (depth + 1) (.command i c) s = [] := by
          cases c with
          | request r =>
            simp only [deeds, Step.deeds, hperform]
            cases hnews : announcement r (s.held i (.request r)) with
            | none => rfl
            | some announced =>
              obtain ⟨event, news⟩ := announced
              exact if_neg (by simp [hquiet r event news rfl hnews])
          | _ => rfl
        rw [h, hnone]
        exact heffect
      · have hsent := refines_emit (b := b) ih i event handout s₂
        obtain ⟨g, hcopy, rfl⟩ := copy_of_lend hlend
        rw [hsend] at hsent
        rw [h]
        simp only [deeds, Step.deeds, hperform, hnews, hcopy, if_pos hemits]
        exact heffect.trans ((Refines.withMemory s₁ g).trans hsent)
    | sameRegistry i j => exact .refl s
    | logLevel => exact .refl s
    | on i event handler =>
      simp only [deeds, Step.deeds]
      split_ifs with hi
      · exact .on hi event handler
      · have hsame := emitters_missing (Nat.not_lt.mp hi) (·.on event (.plain handler))
        exact .idle (List.append_nil _).symm rfl hsame (Nat.le_refl _)
    | once i event handler =>
      simp only [deeds, Step.deeds]
      split_ifs with hi
      · exact .once hi event handler
      · have hsame := emitters_missing (Nat.not_lt.mp hi) (·.on event (.once s.fresh handler))
        exact .idle (List.append_nil _).symm rfl hsame (Nat.le_succ _)
    | off i event handler =>
      cases handler with
      | some handler => exact .off s i event handler
      | none => exact .clear s i event
    | emit i event args =>
      have hsent := refines_emit (b := b) ih i event (.values args) s
      show s.Refines _ (settle (b.emit _ i event _ >>= fun n => pure (Answer.count n)) s).2
      rw [settle_bind]
      cases hends : settle (b.emit (b.step depth) i event (.values args)) s with
      | mk ended s' =>
        rw [hends] at hsent
        cases ended <;> exact hsent
    | listeners i event => exact .count s i event

/-- Emitters as ledgers of registrations.  What any run does to emitters that started without
registrations, emits within emits included, can be done on a blank ledger in the same order, and
the ledger ends with the registrations of the emitters; the emits and calls are those of the trace.
Every emit among them found the registrations for its event at its start and itself called these,
and gave their number, or some of them up to the first that raised.  Whoever asks for the count is
told the length of the list.  Where the handlers of an emit all return and none of them touches its
emitter, the plain registrations for the event remain, and other events keep theirs. -/
theorem dispatch_refines (b : Behaviour) (depth : Nat) (client : Program) (name : String)
    (handout : Handout) (s : Session) :
    ∃ ended s' done ds used, settle (client.run (b.step depth) name handout) s.quiet = (ended, s') ∧
      ds = client.deeds (b.step depth) (b.deeds depth) name handout s.quiet ∧
      s'.trace = s.trace ++ done ∧ ds.filter Deed.inTrace = done.filterMap Event.deed? ∧
      Dispatcher.blank.Plays ds ⟨s'.registered, used, []⟩ ∧
      (∀ before i event found after, ds = before ++ .start i event found :: after →
        ∃ m, Dispatcher.blank.Plays before m ∧ found = m.ledger i event ∧
          ((Deed.ending 0 after = some (some found.length) ∧ Deed.direct 0 after = found) ∨
            (Deed.ending 0 after = some none ∧ Deed.direct 0 after ≠ [] ∧
              Deed.direct 0 after <+: found))) ∧
      (∀ depth i event s₁, settle (b.step (depth + 1) (.listeners i event)) s₁ =
        (.ok (.count (s₁.registered i event).length), s₁)) ∧
      ∀ depth i event handout s₁ n s₂,
        settle (b.emit (b.step depth) i event handout) s₁ = (.ok n, s₂) →
        (∀ d ∈ b.callDeeds (b.step depth) (b.deeds depth) i event handout (s₁.registered i event)
          (s₁.noted (.emitted i event (handout.shown s₁.memory) (s₁.registered i event))),
          d.touches i = false) →
        n = (s₁.registered i event).length ∧
          (s₂.emitter i).count event =
            ((s₁.registered i event).filter Registration.isPlain).length ∧
          ∀ event', s₂.registered i event' =
            if event' = event then (s₁.registered i event).filter Registration.isPlain
            else s₁.registered i event' := by
  obtain ⟨ended, s', hrun⟩ : ∃ ended s',
      settle (client.run (b.step depth) name handout) s.quiet = (ended, s') := ⟨_, _, rfl⟩
  have hrefines := refines_program (b.refines_step depth) name client handout s.quiet
  rw [hrun] at hrefines
  obtain ⟨done, htrace, hdone⟩ := hrefines.shows
  obtain ⟨used, -, hplays⟩ :=
    hrefines.plays [] 0 s.tidy_quiet trivial (Nat.zero_le _)
  have hblank : s.quiet.registered = fun _ _ => [] := by
    funext i event
    rw [registered, emitter_quiet]
    rfl
  rw [hblank] at hplays
  refine ⟨ended, s', done, _, used, hrun, rfl, htrace, hdone, hplays, ?_, fun _ _ _ _ => rfl, ?_⟩
  · intro before i event found after hds
    rw [hds] at hplays
    exact hplays.emit
  intro depth i event handout s₁ n s₂ h huntouched
  obtain ⟨hn, hremain⟩ := plain_remain (b.refines_step depth) h huntouched
  refine ⟨hn, ?_, hremain⟩
  have hevent := hremain event
  rw [if_pos rfl] at hevent
  rw [Emitter.count, ← hevent]
  rfl

/-- A handler emits another event while its own is worked through, and the next one removes that
handler and raises, so that its second registration is not called.  Elsewhere handlers do nothing,
and one of two registrations is left after the emit. -/
theorem dispatch_refines_raising : ∃ (s' s₂ : Session) (used : Nat) (m : Dispatcher),
    Dispatcher.blank.Plays
      [.on 0 "x" "a", .once 0 "x" 0 "b", .on 0 "x" "a",
        .start 0 "x" [.plain "a", .once 0 "b", .plain "a"], .call 0 "x" (.plain "a"),
        .start 0 "y" [], .finish 0, .returned, .call 0 "x" (.once 0 "b"), .off 0 "x" "a", .raised,
        .count 0 "x" 0]
      ⟨s'.registered, used, []⟩ ∧
    [.plain "a", .once 0 "b", .plain "a"] = m.ledger 0 "x" ∧
    (s₂.emitter 0).count "x" = 1 := by
  let b := ofHandlers
    [("a", [.step (.emit 0 "y" [])]), ("b", [.step (.off 0 "x" (some "a")), .raise "no"])]
  let client := Program.ofActions [.step (.on 0 "x" "a"), .step (.once 0 "x" "b"),
    .step (.on 0 "x" "a"), .step (.emit 0 "x" []), .step (.listeners 0 "x")]
  let s := (Session.withShared []).addStore {} .shared
  let s₁ := (s.withEmitter 0 (·.on "x" (.plain "c"))).withOnce 0 "x" "c"
  obtain ⟨-, s', -, _, used, -, rfl, -, -, hplays, hemits, -, hremain⟩ :=
    b.dispatch_refines 2 client "main" (.values []) s
  obtain ⟨m, -, hfound, -⟩ := hemits [_, _, _] 0 "x" _ _ rfl
  obtain ⟨-, hcount, -⟩ := hremain 1 0 "x" (.values []) s₁ 2 _ rfl (by decide)
  exact ⟨s', _, used, m, hplays, hfound, hcount⟩

end Behaviour

end TreeStore
