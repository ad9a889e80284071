import TreeStore.Proofs.Session.Ledger
import TreeStore.Proofs.Session.Once

/-!
# What runs do to emitters

The deeds of a run are what its steps do to emitters, in the order in which it happens: registering,
removing and counting as the steps ask for it, emits with the registrations that they found and the
number that they gave, calls with the way in which they ended.  Emits and calls stand in the trace
of the session as well.

`Refines` says that such a list of deeds can be done on the ledger of the registrations and comes to
the registrations afterwards, `Works` says it of a piece of the work of one emit.
-/

namespace TreeStore

open Session

/-- A registration that stays when it is called. -/
def Registration.isPlain : Registration → Bool
  | plain _ => true
  | once .. => false

/-- What is left of a list when registrations were called: the one-time ones among them are gone. -/
def leftover (called rs : List Registration) : List Registration :=
  rs.filter fun r => r.isPlain || !called.contains r

@[simp] theorem leftover_nil (rs : List Registration) : leftover [] rs = rs :=
  List.filter_eq_self.mpr fun r _ => by cases r.isPlain <;> rfl

theorem leftover_append (called called' rs : List Registration) :
    leftover (called ++ called') rs = leftover called' (leftover called rs) := by
  rw [leftover, leftover, leftover, List.filter_filter]
  refine List.filter_congr fun r _ => ?_
  cases r.isPlain <;> simp [Bool.and_comm]

theorem leftover_plain (handler : String) (rs : List Registration) :
    leftover [.plain handler] rs = rs :=
  List.filter_eq_self.mpr fun r _ => by
    cases r <;> simp [Registration.isPlain]

theorem leftover_once (id : Nat) (handler : String) (rs : List Registration) :
    leftover [.once id handler] rs = rs.filter (· ≠ .once id handler) :=
  List.filter_congr fun r _ => by
    cases r <;> simp [Registration.isPlain]

theorem leftover_self (rs : List Registration) : leftover rs rs = rs.filter Registration.isPlain :=
  List.filter_congr fun r hr => by simp [hr]

/-! ### What a run does -/

/-- The outcome ends the program that took the step: the nesting was too deep. -/
def Session.tooDeep : Except Fault Answer → Bool
  | .error .tooDeep => true
  | _ => false

namespace Program

/-- What a program does; `inner` is what its steps do, `take` what they mean. -/
def deeds (take : Step → Run Answer) (inner : Step → Session → List Deed)
    (name : String) : Program → Handout → Session → List Deed
  | finish, _, _ => []
  | raise _, _, _ => []
  | log record next, handout, s =>
    deeds take inner name next handout
      (if s.levels.passes record.logger record.level then s.noted (.logged record) else s)
  | setValue value next, handout, s =>
    match handout with
    | .result h =>
      deeds take inner name next handout (s.withMemory (h.setValue s.memory value))
    | _ => []
  | step t next, handout, s =>
    let (seen, s') := settle (take t) s
    inner t s ++
      if tooDeep seen then []
      else deeds take inner name (next seen) handout (s'.noted (.attempted name seen))

end Program

/-- What a step does, where `send` is what an emit does. -/
def Step.deeds (send : Nat → String → Handout → Session → List Deed) :
    Step → Session → List Deed
  | .command i c, s =>
    match c with
    | .request r =>
      match announcement r (s.held i c) with
      | some (event, news) =>
        let s₁ := (settle (perform i c) s).2
        let (handout, g) := news.copy s₁.memory
        if s₁.emitsEvents i then send i event handout (s₁.withMemory g) else []
      | none => []
    | _ => []
  | .on i event handler, s =>
    if i < s.emitters.length then [.on i event handler] else []
  | .once i event handler, s =>
    if i < s.emitters.length then [.once i event s.fresh handler] else []
  | .off i event (some handler), _ => [.off i event handler]
  | .off i event none, _ => [.clear i event]
  | .emit i event args, s => send i event (.values args) s
  | .listeners i event, s => [.count i event ((s.emitter i).count event)]
  | .sameRegistry .., _ => []
  | .logLevel, _ => []

namespace Behaviour

section

variable (b : Behaviour) (take : Step → Run Answer)
  (inner : Step → Session → List Deed)

/-- What an emit does in working through registrations. -/
def callDeeds (i : Nat) (event : String) (handout : Handout) :
    List Registration → Session → List Deed
  | [], _ => []
  | r :: rs, s =>
    let payload := handout.shown s.memory
    let entered := s.entered i event r payload
    .call i event r ::
      ((b r.handler entered.trace payload).deeds take inner r.handler handout entered ++
        match settle (b.invoke take i event handout r) s with
        | (.ok _, s') => .returned :: callDeeds i event handout rs s'
        | (.error _, _) => [.raised])

/-- What an emit does. -/
def emitDeeds (i : Nat) (event : String) (handout : Handout) (s : Session) : List Deed :=
  let found := s.registered i event
  .start i event found ::
    (b.callDeeds take inner i event handout found
        (s.noted (.emitted i event (handout.shown s.memory) found)) ++
      match (settle (b.emit take i event handout) s).1 with
      | .ok n => [.finish n]
      | .error _ => [])

end

/-- What a step does whose handlers nest fewer than `depth` levels deep. -/
def deeds (b : Behaviour) : (depth : Nat) → Step → Session → List Deed
  | 0, _, _ => []
  | depth + 1, t, s => t.deeds (b.emitDeeds (b.step depth) (b.deeds depth)) s

end Behaviour

/-! ### Changes of the registrations -/

namespace Session

variable {s s₁ s₂ : Session} {ds ds' : List Deed} {i : Nat} {event : String}

theorem registered_of_length_le (h : s.emitters.length ≤ i) (event : String) :
    s.registered i event = [] :=
  List.eq_nil_iff_forall_not_mem.mpr fun _ hr => Nat.not_lt.mpr h (lt_of_mem_registered hr)

/-- A change of the list of one event, provided that there is one to be changed. -/
theorem registered_change {f : Emitter → Emitter} {g : List Registration → List Registration}
    (hf : ∀ e event', (f e).listeners event' =
      if event' = event then g (e.listeners event') else e.listeners event')
    (hg : i < s.emitters.length ∨ g [] = []) :
    (s.withEmitter i f).registered =
      Ledger.write s.registered i event (g (s.registered i event)) := by
  funext j event'
  rw [registered_withEmitter, Ledger.write, hf]
  by_cases hi : i < s.emitters.length
  · by_cases hj : j = i
    · by_cases he : event' = event
      · simp [hi, hj, he, registered]
      · simp [hi, hj, he, registered]
    · simp [hj]
  · have hnil := hg.resolve_left hi
    have hnone := registered_of_length_le (Nat.not_lt.mp hi)
    by_cases hj : j = i ∧ event' = event
    · rw [if_neg fun h => hi h.2, if_pos hj, hj.1, hnone, hnone, hnil]
    · rw [if_neg fun h => hi h.2, if_neg hj]

theorem registered_off (s : Session) (i : Nat) (event : String) (r : Registration) :
    (s.withEmitter i (·.off event r)).registered =
      Ledger.write s.registered i event ((s.registered i event).filter (· ≠ r)) :=
  registered_change (fun e _ => e.listeners_off event _ r) (.inr rfl)

theorem registered_clear (s : Session) (i : Nat) (event : String) :
    (s.withEmitter i (·.clear event)).registered = Ledger.write s.registered i event [] :=
  registered_change (g := fun _ => []) (fun e _ => e.listeners_clear event _) (.inr rfl)

theorem registered_on (hi : i < s.emitters.length) (event : String) (r : Registration) :
    (s.withEmitter i (·.on event r)).registered =
      Ledger.write s.registered i event (s.registered i event ++ [r]) :=
  registered_change (g := (· ++ [r])) (fun e _ => e.listeners_on event _ r) (.inl hi)

theorem registered_once (hi : i < s.emitters.length) (event handler : String) :
    (s.withOnce i event handler).registered =
      Ledger.write s.registered i event (s.registered i event ++ [.once s.fresh handler]) :=
  registered_on (s := { s with fresh := s.fresh + 1 }) hi event (.once s.fresh handler)

/-- What occurs at most once is filtered out by erasing it. -/
theorem erase_eq_filter {r : Registration} {rs : List Registration} (h : rs.count r ≤ 1) :
    rs.erase r = rs.filter (· ≠ r) := by
  induction rs with
  | nil => rfl
  | cons r' rs ih =>
    rw [List.count_cons] at h
    by_cases hr : r' = r
    · subst hr
      have hnone : r' ∉ rs := List.count_eq_zero.mp (by simpa using h)
      rw [List.erase_cons_head, List.filter_cons_of_neg (by simp), List.filter_eq_self.mpr]
      intro r'' hmem
      exact decide_eq_true fun heq => hnone (heq ▸ hmem)
    · rw [List.erase_cons_tail (by simpa using hr), List.filter_cons_of_pos (by simpa using hr), ih]
      omega

/-! ### Runs on the ledger -/

/-- The emits and calls among the deeds are those that the trace has more in the other session. -/
def Shows (s : Session) (ds : List Deed) (s' : Session) : Prop :=
  ∃ done, s'.trace = s.trace ++ done ∧ ds.filter Deed.inTrace = done.filterMap Event.deed?

theorem Shows.trans (h : Shows s ds s₁) (h' : Shows s₁ ds' s₂) : Shows s (ds ++ ds') s₂ := by
  obtain ⟨done, htrace, hdone⟩ := h
  obtain ⟨done', htrace', hdone'⟩ := h'
  refine ⟨done ++ done', by rw [htrace', htrace, List.append_assoc], ?_⟩
  rw [List.filter_append, List.filterMap_append, hdone, hdone']

/-- A deed that leaves no trace. -/
theorem Shows.of_eq (htrace : s₁.trace = s.trace) {d : Deed} (hd : d.inTrace = false) :
    Shows s [d] s₁ := ⟨[], by rw [htrace, List.append_nil], by simp [hd]⟩

/-- The deeds can be done on the ledger of the registrations, by whoever is at work, and come to the
registrations of the other session; they show in its trace; and what they do not touch is left
alone. -/
structure Refines (s : Session) (ds : List Deed) (s' : Session) : Prop where
  plays (K : List Emission) (n : Nat) : s.Tidy → Working K → n ≤ s.fresh → ∃ n' ≤ s'.fresh,
    Dispatcher.Plays ⟨s.registered, n, K⟩ ds ⟨s'.registered, n', K⟩
  tidy : s.Tidy → s'.Tidy
  shows : Shows s ds s'
  frame (i : Nat) : (∀ d ∈ ds, d.touches i = false) →
    ∀ event, s'.registered i event = s.registered i event

namespace Refines

theorem trans (h : Refines s ds s₁) (h' : Refines s₁ ds' s₂) : Refines s (ds ++ ds') s₂ where
  plays K n hs hK hn := by
    obtain ⟨n₁, hn₁, hplays⟩ := h.plays K n hs hK hn
    obtain ⟨n₂, hn₂, hplays'⟩ := h'.plays K n₁ (h.tidy hs) hK hn₁
    exact ⟨n₂, hn₂, hplays.append hplays'⟩
  tidy hs := h'.tidy (h.tidy hs)
  shows := h.shows.trans h'.shows
  frame i hi event := by
    rw [h'.frame i (fun d hd => hi d (List.mem_append_right _ hd)),
      h.frame i (fun d hd => hi d (List.mem_append_left _ hd))]

/-- Nothing is done to emitters. -/
theorem idle {done : List Event} (htrace : s₁.trace = s.trace ++ done)
    (hdone : done.filterMap Event.deed? = []) (hemitters : s₁.emitters = s.emitters)
    (hfresh : s.fresh ≤ s₁.fresh) : Refines s [] s₁ := by
  have hsame : s₁.registered = s.registered := by
    funext i event
    rw [registered, registered, emitter, emitter, hemitters]
  exact {
    plays := fun K n _ _ hn => ⟨n, Nat.le_trans hn hfresh, hsame ▸ .nil⟩
    tidy := fun hs => {
      single := hsame ▸ hs.single
      old := fun h => Nat.lt_of_lt_of_le (hs.old (hsame ▸ h)) hfresh
      home := fun h h' => hs.home (hsame ▸ h) (hsame ▸ h') }
    shows := ⟨done, htrace, hdone.symm⟩
    frame := fun i _ event => by rw [hsame] }

theorem refl (s : Session) : Refines s [] s :=
  idle (List.append_nil _).symm rfl rfl (Nat.le_refl _)

theorem noted {e : Event} (he : e.deed? = none) : Refines s [] (s.noted e) :=
  idle rfl (List.filterMap_eq_nil_iff.mpr (by simpa using he)) rfl (Nat.le_refl _)

theorem withMemory (s : Session) (g : Graph) : Refines s [] (s.withMemory g) :=
  idle (List.append_nil _).symm rfl rfl (Nat.le_refl _)

theorem of_effect {c : Command} (h : Effect s i c s₁) : Refines s [] s₁ := by
  have hperformed (c : Command) : Refines s [] (s.performed i c) :=
    idle rfl rfl rfl (Nat.le_refl _)
  cases h with
  | silent => exact hperformed c
  | logged record => exact (hperformed c).trans (noted rfl)

/-- A change of the list of one event. -/
theorem changed {d : Deed} {rs : List Registration} (hspent : s.Tidy → Spent [] s [] s₁)
    (htrace : s₁.trace = s.trace)
    (hregistered : s₁.registered = Ledger.write s.registered i event rs)
    (htouches : d.touches i = true) (hinTrace : d.inTrace = false)
    (hstep : ∀ K n, Working K → n ≤ s.fresh → ∃ n' ≤ s₁.fresh, Dispatcher.Step
      ⟨s.registered, n, K⟩ d ⟨Ledger.write s.registered i event rs, n', K⟩) :
    Refines s [d] s₁ where
  plays K n _ hK hn := by
    obtain ⟨n', hn', h⟩ := hstep K n hK hn
    exact ⟨n', hn', hregistered ▸ h.plays⟩
  tidy hs := (hspent hs).tidy
  shows := .of_eq htrace hinTrace
  frame j hj event' := by
    have hji : j ≠ i := by
      rintro rfl
      rw [hj d (List.mem_singleton_self d)] at htouches
      cases htouches
    rw [hregistered, Ledger.write, if_neg fun h => hji h.1]

theorem on (hi : i < s.emitters.length) (event handler : String) :
    Refines s [.on i event handler] (s.withEmitter i (·.on event (.plain handler))) :=
  changed (fun hs => spent_on_plain hs handler) rfl (registered_on hi event _)
    (decide_eq_true rfl) rfl fun _ n hK hn => ⟨n, hn, .on hK⟩

theorem once (hi : i < s.emitters.length) (event handler : String) :
    Refines s [.once i event s.fresh handler] (s.withOnce i event handler) :=
  changed (fun hs => spent_withOnce hs handler) rfl (registered_once hi event handler)
    (decide_eq_true rfl) rfl fun _ _ hK hn => ⟨s.fresh + 1, Nat.le_refl _, .once hK hn⟩

theorem off (s : Session) (i : Nat) (event handler : String) :
    Refines s [.off i event handler] (s.withEmitter i (·.off event (.plain handler))) :=
  changed (fun hs => spent_off hs _) rfl (registered_off s i event _)
    (decide_eq_true rfl) rfl fun _ n hK hn => ⟨n, hn, .off hK⟩

theorem clear (s : Session) (i : Nat) (event : String) :
    Refines s [.clear i event] (s.withEmitter i (·.clear event)) :=
  changed (fun hs => spent_clear hs) rfl (registered_clear s i event)
    (decide_eq_true rfl) rfl fun _ n hK hn => ⟨n, hn, .clear hK⟩

theorem count (s : Session) (i : Nat) (event : String) :
    Refines s [.count i event ((s.emitter i).count event)] s where
  plays _ n _ hK hn := ⟨n, hn, (Dispatcher.Step.count hK).plays⟩
  tidy hs := hs
  shows := .of_eq rfl rfl
  frame _ _ _ := rfl

end Refines

/-! ### The work of an emit -/

/-- An emit with registrations still to be called, on top of those around it. -/
def onTop (i : Nat) (event : String) (rs : List Registration) (calling : Bool) (size : Nat)
    (K : List Emission) : List Emission := ⟨i, event, size, rs, calling⟩ :: K

/-- When the calls of an emit are over: it is still there, or it has broken off. -/
def afterCalls (i : Nat) (event : String) : Except Fault Unit → Nat → List Emission →
    List Emission
  | .ok _ => onTop i event [] false
  | .error _ => fun _ K => K

/-- A piece of the work of an emit, which calls `called` directly and takes the emits under way from
`before` to `after`, where they depend on the number that the emit found and on those around it. -/
structure Works (i : Nat) (event : String) (called : List Registration)
    (before after : Nat → List Emission → List Emission) (s : Session) (ds : List Deed)
    (s' : Session) : Prop where
  plays (size : Nat) (K : List Emission) (n : Nat) : s.Tidy → n ≤ s.fresh → ∃ n' ≤ s'.fresh,
    Dispatcher.Plays ⟨s.registered, n, before size K⟩ ds ⟨s'.registered, n', after size K⟩
  tidy : s.Tidy → s'.Tidy
  shows : Shows s ds s'
  /-- If nobody else touches the emitter, one-time registrations that were called are gone. -/
  spends (j : Nat) : (∀ d ∈ ds, d.touches j = false) → ∀ event', s'.registered j event' =
    if j = i ∧ event' = event then leftover called (s.registered j event')
    else s.registered j event'

namespace Works

variable {called called' : List Registration}
  {before mid after : Nat → List Emission → List Emission}

theorem trans (h : Works i event called before mid s ds s₁)
    (h' : Works i event called' mid after s₁ ds' s₂) :
    Works i event (called ++ called') before after s (ds ++ ds') s₂ where
  plays size K n hs hn := by
    obtain ⟨n₁, hn₁, hplays⟩ := h.plays size K n hs hn
    obtain ⟨n₂, hn₂, hplays'⟩ := h'.plays size K n₁ (h.tidy hs) hn₁
    exact ⟨n₂, hn₂, hplays.append hplays'⟩
  tidy hs := h'.tidy (h.tidy hs)
  shows := h.shows.trans h'.shows
  spends j hj event' := by
    rw [h'.spends j fun d hd => hj d (List.mem_append_right _ hd),
      h.spends j fun d hd => hj d (List.mem_append_left _ hd)]
    split_ifs
    · exact (leftover_append ..).symm
    · rfl

theorem refl (s : Session) : Works i event [] before before s [] s where
  plays _ _ n _ hn := ⟨n, hn, .nil⟩
  tidy hs := hs
  shows := ⟨[], (List.append_nil _).symm, rfl⟩
  spends j _ event' := by simp

/-- What a handler does is part of the work of the emit that called it. -/
theorem of_refines (h : Refines s ds s₁) (rs : List Registration) :
    Works i event [] (onTop i event rs true) (onTop i event rs true) s ds s₁ where
  plays size K n hs hn := h.plays _ n hs rfl hn
  tidy := h.tidy
  shows := h.shows
  spends j hj event' := by
    rw [h.frame j hj event']
    simp

/-- A call has ended. -/
theorem of_step {d : Deed} (hinTrace : d.inTrace = false)
    (hstep : ∀ size K n,
      Dispatcher.Step ⟨s.registered, n, before size K⟩ d ⟨s.registered, n, after size K⟩) :
    Works i event [] before after s [d] s where
  plays size K n _ hn := ⟨n, hn, (hstep size K n).plays⟩
  tidy hs := hs
  shows := .of_eq rfl hinTrace
  spends j _ event' := by simp

theorem returned (s : Session) (rs : List Registration) :
    Works i event [] (onTop i event rs true) (onTop i event rs false) s [.returned] s :=
  of_step rfl fun _ _ _ => .returned

theorem raised (s : Session) (rs : List Registration) (f : Fault) :
    Works i event [] (onTop i event rs true) (afterCalls i event (.error f)) s [.raised] s :=
  of_step rfl fun _ _ _ => .raised

theorem call (s : Session) (r : Registration) (rs : List Registration) (payload : Payload) :
    Works i event [r] (onTop i event (r :: rs) false) (onTop i event rs true) s
      [.call i event r] (s.entered i event r payload) := by
  cases r with
  | plain handler =>
    exact {
      plays := fun size K n _ hn => ⟨n, hn, Dispatcher.Step.callPlain.plays⟩
      tidy := fun hs => ⟨hs.single, hs.old, hs.home⟩
      shows := ⟨[.called i event (.plain handler) payload], rfl, rfl⟩
      spends := fun j _ event' => by
        rw [leftover_plain, ite_self]
        rfl }
  | once id handler =>
    have hregistered : (s.entered i event (.once id handler) payload).registered = _ :=
      registered_off s i event (.once id handler)
    exact {
      plays := fun size K n hs hn => by
        rw [hregistered, ← erase_eq_filter (hs.single i event id handler)]
        exact ⟨n, hn, Dispatcher.Step.callOnce.plays⟩
      tidy := fun hs => by
        have hoff : Spent [] s [] (s.withEmitter i (·.off event (.once id handler))) :=
          spent_off hs _
        exact ⟨hoff.tidy.single, hoff.tidy.old, hoff.tidy.home⟩
      shows := ⟨[.called i event (.once id handler) payload], rfl, rfl⟩
      spends := fun j _ event' => by
        rw [hregistered, Ledger.write, leftover_once]
        split_ifs with h
        · rw [h.1, h.2]
        · rfl }

/-- The whole emit, from its start, where `last` ends it. -/
theorem emit {payload : Payload}
    (h : Works i event called (onTop i event (s.registered i event) false) after
      (s.noted (.emitted i event payload (s.registered i event))) ds s₁) (last : List Deed)
    (hlast : ∀ K n, Dispatcher.Plays
      ⟨s₁.registered, n, after (s.registered i event).length K⟩ last ⟨s₁.registered, n, K⟩)
    (hinTrace : last.filter Deed.inTrace = []) :
    Refines s (.start i event (s.registered i event) :: (ds ++ last)) s₁ where
  plays K n hs hK hn := by
    obtain ⟨n', hn', hplays⟩ :=
      h.plays (s.registered i event).length K n ⟨hs.single, hs.old, hs.home⟩ hn
    exact ⟨n', hn', .cons (.start hK) (hplays.append (hlast K n'))⟩
  tidy hs := h.tidy ⟨hs.single, hs.old, hs.home⟩
  shows := by
    obtain ⟨done, htrace, hdone⟩ := h.shows
    refine ⟨.emitted i event payload (s.registered i event) :: done, ?_, ?_⟩
    · rw [htrace]
      exact List.append_assoc _ _ _
    · rw [List.filter_cons_of_pos rfl, List.filter_append, hdone, hinTrace, List.append_nil]
      rfl
  frame j hj event' := by
    have hji : j ≠ i := by
      rintro rfl
      exact absurd (hj _ List.mem_cons_self) (by simp [Deed.touches])
    rw [h.spends j fun d hd => hj d (List.mem_cons_of_mem _ (List.mem_append_left _ hd)),
      if_neg fun h => hji h.1]
    rfl

end Works

end Session

end TreeStore
