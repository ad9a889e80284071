import TreeStore.Proofs.Session.Law

/-!
# How often a one-time registration is called

A one-time registration is removed before its call, so that no emit that starts later finds it.  An
emit that started before has found it: it works through the registrations that were there at its
start, and a handler that it calls may emit the same event and have the registration called first.
So a one-time registration is called at most as often as emits found it, and all of these started
before its first call: `Behaviour.once_calls`.  Where two of them nest it can be called twice:
`Behaviour.once_called_twice`.

What carries the induction is `Spent`: an emit under way owes a call to each registration that it
has found and not yet worked through, and a call pays for one of them.
-/

namespace TreeStore

open Session

namespace Event

/-- A handler is called through the registration. -/
def fires (r : Registration) : Event → Bool
  | called _ _ r' _ => r' = r
  | _ => false

/-- An emit starts that will work through the registration. -/
def lists (r : Registration) : Event → Bool
  | emitted _ _ _ rs => r ∈ rs
  | _ => false

end Event

/-- The number of calls through a registration. -/
def firings (r : Registration) (trace : List Event) : Nat := trace.countP (Event.fires r)

/-- The number of emits that found a registration. -/
def listings (r : Registration) (trace : List Event) : Nat := trace.countP (Event.lists r)

theorem firings_append (r : Registration) (d d' : List Event) :
    firings r (d ++ d') = firings r d + firings r d' := List.countP_append

theorem listings_append (r : Registration) (d d' : List Event) :
    listings r (d ++ d') = listings r d + listings r d' := List.countP_append

namespace Session

/-- The registrations for an event of a store. -/
def registered (s : Session) (i : Nat) (event : String) : List Registration :=
  (s.emitter i).listeners event

/-- Each one-time registration stands in one place, once, under an identity given out before. -/
structure Tidy (s : Session) : Prop where
  single (i : Nat) (event : String) (id : Nat) (handler : String) :
    (s.registered i event).count (.once id handler) ≤ 1
  old {i : Nat} {event : String} {id : Nat} {handler : String} :
    .once id handler ∈ s.registered i event → id < s.fresh
  home {i j : Nat} {event event' : String} {id : Nat} {handler : String} :
    .once id handler ∈ s.registered i event → .once id handler ∈ s.registered j event' →
      i = j ∧ event = event'

/-- A one-time registration was there and is there no longer. -/
def Gone (s : Session) (id : Nat) (handler : String) : Prop :=
  id < s.fresh ∧ ∀ i event, .once id handler ∉ s.registered i event

/-- A one-time registration was for an event of a store, and is for no other. -/
def Home (s : Session) (i : Nat) (event : String) (r : Registration) : Prop :=
  ∀ id handler, r = .once id handler →
    id < s.fresh ∧ ∀ j event', r ∈ s.registered j event' → j = i ∧ event' = event

/-- What was done between two sessions calls a one-time registration no more often than emits found
it, those registrations apart that an emit under way has yet to work through. -/
structure Spent (owed : List Registration) (s : Session) (done : List Event) (s' : Session) :
    Prop where
  trace : s'.trace = s.trace ++ done
  tidy : s'.Tidy
  fresh : s.fresh ≤ s'.fresh
  /-- What was there before and is there now has been there all along. -/
  kept {id : Nat} {handler : String} {i : Nat} {event : String} : id < s.fresh →
    .once id handler ∈ s'.registered i event → .once id handler ∈ s.registered i event
  /-- No emit finds what is gone. -/
  unlisted {id : Nat} {handler : String} : s.Gone id handler → listings (.once id handler) done = 0
  fewer (id : Nat) (handler : String) : firings (.once id handler) done ≤
    listings (.once id handler) done + owed.count (.once id handler)
  /-- What was called is gone. -/
  after {id : Nat} {handler : String} {pre post : List Event} {e : Event} :
    done = pre ++ e :: post → e.fires (.once id handler) →
      listings (.once id handler) post = 0 ∧ s'.Gone id handler

section

variable {owed owed' : List Registration} {s s₁ s₂ : Session} {done done' : List Event}
  {i : Nat} {event : String} {payload : Payload}

theorem Spent.gone (h : Spent owed s done s₁) {id : Nat} {handler : String}
    (hgone : s.Gone id handler) : s₁.Gone id handler :=
  ⟨Nat.lt_of_lt_of_le hgone.1 h.fresh, fun i event hmem => hgone.2 i event (h.kept hgone.1 hmem)⟩

theorem Spent.home (h : Spent owed s done s₁) {r : Registration} (hr : s.Home i event r) :
    s₁.Home i event r := by
  rintro id handler rfl
  obtain ⟨hold, hplace⟩ := hr id handler rfl
  exact ⟨Nat.lt_of_lt_of_le hold h.fresh, fun j event' hmem => hplace j event' (h.kept hold hmem)⟩

theorem Spent.trans (h : Spent owed s done s₁) (h' : Spent owed' s₁ done' s₂) :
    Spent (owed ++ owed') s (done ++ done') s₂ where
  trace := by rw [h'.trace, h.trace, List.append_assoc]
  tidy := h'.tidy
  fresh := Nat.le_trans h.fresh h'.fresh
  kept hold hmem := h.kept hold (h'.kept (Nat.lt_of_lt_of_le hold h.fresh) hmem)
  unlisted hgone := by rw [listings_append, h.unlisted hgone, h'.unlisted (h.gone hgone)]
  fewer id handler := by
    have := h.fewer id handler
    have := h'.fewer id handler
    rw [firings_append, listings_append, List.count_append]
    omega
  after hsplit hfires := by
    -- what was called in the first part is gone after it, and so not found in the second
    rcases split_append hsplit with ⟨mid, hdone, rfl⟩ | ⟨mid, rfl, hdone'⟩
    · obtain ⟨hmid, hgone⟩ := h.after hdone hfires
      exact ⟨by rw [listings_append, hmid, h'.unlisted hgone], h'.gone hgone⟩
    · exact h'.after hdone' hfires

/-- A change that adds no one-time registration. -/
theorem spent_of_count_le (hs : s.Tidy) (htrace : s₁.trace = s.trace) (hfresh : s₁.fresh = s.fresh)
    (hcount : ∀ i event id handler, (s₁.registered i event).count (.once id handler) ≤
      (s.registered i event).count (.once id handler)) : Spent owed s [] s₁ := by
  have hmem {id : Nat} {handler : String} {i : Nat} {event : String}
      (h : .once id handler ∈ s₁.registered i event) : .once id handler ∈ s.registered i event :=
    List.count_pos_iff.mp
      (Nat.lt_of_lt_of_le (List.count_pos_iff.mpr h) (hcount i event id handler))
  exact {
    trace := by rw [htrace, List.append_nil]
    tidy := {
      single := fun i event id handler =>
        Nat.le_trans (hcount i event id handler) (hs.single i event id handler)
      old := fun h => hfresh ▸ hs.old (hmem h)
      home := fun h h' => hs.home (hmem h) (hmem h') }
    fresh := Nat.le_of_eq hfresh.symm
    kept := fun _ => hmem
    unlisted := fun _ => rfl
    fewer := fun _ _ => Nat.zero_le _
    after := fun hsplit => by simp at hsplit }

theorem Spent.refl (hs : s.Tidy) : Spent owed s [] s :=
  spent_of_count_le hs rfl rfl fun _ _ _ _ => Nat.le_refl _

/-- An event that is no emit and no call through a one-time registration. -/
theorem spent_noted (hs : s.Tidy) {e : Event} (hlists : ∀ r, e.lists r = false)
    (hfires : ∀ id handler, e.fires (.once id handler) = false) :
    Spent owed s [e] (s.noted e) where
  trace := rfl
  tidy := ⟨hs.single, hs.old, hs.home⟩
  fresh := Nat.le_refl _
  kept _ hmem := hmem
  unlisted _ := by simp [listings, hlists]
  fewer id handler := by simp [firings, hfires]
  after hsplit h := by
    obtain ⟨-, rfl⟩ := split_singleton hsplit
    simp [hfires] at h

/-! ### Changes of the registrations -/

theorem lt_of_mem_registered {r : Registration} (h : r ∈ s.registered i event) :
    i < s.emitters.length := by
  refine Nat.lt_of_not_le fun hlen => ?_
  rw [registered, emitter, List.getD_eq_getElem?_getD, List.getElem?_eq_none hlen] at h
  cases h

theorem registered_withEmitter (s : Session) (i j : Nat) (f : Emitter → Emitter) (event : String) :
    (s.withEmitter i f).registered j event =
      if j = i ∧ i < s.emitters.length then (f (s.emitter i)).listeners event
      else s.registered j event := by
  show Emitter.listeners ((s.emitters.set i (f (s.emitter i))).getD j {}) event = _
  rw [List.getD_eq_getElem?_getD, List.getElem?_set]
  by_cases hj : i = j
  · subst hj
    by_cases hlen : i < s.emitters.length
    · simp [hlen]
    · simp [hlen, registered, emitter]
  · rw [if_neg hj, if_neg fun h => hj h.1.symm]
    rfl

theorem spent_withEmitter (hs : s.Tidy) {f : Emitter → Emitter}
    (hf : ∀ event id handler, ((f (s.emitter i)).listeners event).count (.once id handler) ≤
      (s.registered i event).count (.once id handler)) : Spent owed s [] (s.withEmitter i f) := by
  refine spent_of_count_le hs rfl rfl fun j event id handler => ?_
  rw [registered_withEmitter]
  split
  next h => exact h.1 ▸ hf event id handler
  next => exact Nat.le_refl _

theorem spent_on_plain (hs : s.Tidy) (handler : String) :
    Spent owed s [] (s.withEmitter i (·.on event (.plain handler))) := by
  refine spent_withEmitter hs fun event' id handler' => ?_
  rw [Emitter.listeners_on]
  split
  · rw [List.count_append]
    exact Nat.le_refl _
  · exact Nat.le_refl _

theorem spent_off (hs : s.Tidy) (r : Registration) :
    Spent owed s [] (s.withEmitter i (·.off event r)) := by
  refine spent_withEmitter hs fun event' id handler' => ?_
  rw [Emitter.listeners_off]
  split
  · exact List.filter_sublist.count_le _
  · exact Nat.le_refl _

theorem spent_clear (hs : s.Tidy) : Spent owed s [] (s.withEmitter i (·.clear event)) := by
  refine spent_withEmitter hs fun event' id handler' => ?_
  rw [Emitter.listeners_clear]
  split
  · exact Nat.zero_le _
  · exact Nat.le_refl _

theorem count_registered_withOnce (s : Session) (i j : Nat) (event event' handler : String)
    (id : Nat) (handler' : String) :
    ((s.withOnce i event handler).registered j event').count (.once id handler') ≤
      (s.registered j event').count (.once id handler') +
        if id = s.fresh ∧ j = i ∧ event' = event then 1 else 0 := by
  show (({ s with fresh := s.fresh + 1 }.withEmitter i
    (·.on event (.once s.fresh handler))).registered j event').count _ ≤ _
  rw [registered_withEmitter]
  split
  next hplace =>
    obtain ⟨rfl, -⟩ := hplace
    rw [Emitter.listeners_on]
    split
    next hevent =>
      subst hevent
      rw [List.count_append, List.count_singleton]
      refine Nat.add_le_add_left ?_ _
      by_cases hid : id = s.fresh
      · split <;> simp [hid]
      · rw [if_neg (by simp [Ne.symm hid])]
        exact Nat.zero_le _
    next => exact Nat.le_add_right _ _
  next => exact Nat.le_add_right _ _

theorem mem_registered_withOnce {j : Nat} {event' handler : String} {id : Nat} {handler' : String}
    (h : .once id handler' ∈ (s.withOnce i event handler).registered j event') :
    .once id handler' ∈ s.registered j event' ∨ id = s.fresh ∧ j = i ∧ event' = event := by
  refine Decidable.byContradiction fun hnot => ?_
  obtain ⟨hmem, hnew⟩ := not_or.mp hnot
  have hcount := count_registered_withOnce s i j event event' handler id handler'
  rw [if_neg hnew, List.count_eq_zero_of_not_mem hmem] at hcount
  exact Nat.not_lt_zero _ (Nat.lt_of_lt_of_le (List.count_pos_iff.mpr h) hcount)

theorem spent_withOnce (hs : s.Tidy) (handler : String) :
    Spent owed s [] (s.withOnce i event handler) where
  trace := (List.append_nil _).symm
  tidy := {
    single := fun j event' id handler' => by
      have hcount := count_registered_withOnce s i j event event' handler id handler'
      by_cases hid : id = s.fresh
      · have hnew : .once id handler' ∉ s.registered j event' := fun hmem =>
          Nat.lt_irrefl _ (hid ▸ hs.old hmem)
        rw [List.count_eq_zero_of_not_mem hnew] at hcount
        split at hcount <;> omega
      · rw [if_neg fun h => hid h.1] at hcount
        exact Nat.le_trans hcount (hs.single j event' id handler')
    old := fun hmem => by
      rcases mem_registered_withOnce hmem with hmem | ⟨rfl, -⟩
      · exact Nat.lt_succ_of_lt (hs.old hmem)
      · exact Nat.lt_succ_self _
    home := fun hmem hmem' => by
      rcases mem_registered_withOnce hmem with hmem | ⟨rfl, rfl, rfl⟩
      · rcases mem_registered_withOnce hmem' with hmem' | ⟨rfl, -⟩
        · exact hs.home hmem hmem'
        · exact absurd (hs.old hmem) (Nat.lt_irrefl _)
      · rcases mem_registered_withOnce hmem' with hmem' | ⟨-, rfl, rfl⟩
        · exact absurd (hs.old hmem') (Nat.lt_irrefl _)
        · exact ⟨rfl, rfl⟩ }
  fresh := Nat.le_succ _
  kept hold hmem := by
    rcases mem_registered_withOnce hmem with hmem | ⟨rfl, -⟩
    · exact hmem
    · exact absurd hold (Nat.lt_irrefl _)
  unlisted _ := rfl
  fewer _ _ := Nat.zero_le _
  after hsplit := by simp at hsplit

/-! ### Calls and emits -/

theorem gone_off (hs : s.Tidy) {id : Nat} {handler : String}
    (hr : s.Home i event (.once id handler)) :
    (s.withEmitter i (·.off event (.once id handler))).Gone id handler := by
  obtain ⟨hold, hplace⟩ := hr id handler rfl
  refine ⟨hold, fun j event' hmem => ?_⟩
  have hoff : Spent [] s [] (s.withEmitter i (·.off event (.once id handler))) := spent_off hs _
  have hbefore := hoff.kept hold hmem
  obtain ⟨rfl, rfl⟩ := hplace j event' hbefore
  rw [registered_withEmitter, if_pos ⟨rfl, lt_of_mem_registered hbefore⟩, Emitter.listeners_off,
    if_pos rfl] at hmem
  simp at hmem

theorem spent_called (hs : s.Tidy) {id : Nat} {handler : String} (hgone : s.Gone id handler) :
    Spent [.once id handler] s [.called i event (.once id handler) payload]
      (s.noted (.called i event (.once id handler) payload)) where
  trace := rfl
  tidy := ⟨hs.single, hs.old, hs.home⟩
  fresh := Nat.le_refl _
  kept _ hmem := hmem
  unlisted _ := rfl
  fewer id' handler' := by
    by_cases hsame : (.once id handler : Registration) = .once id' handler'
    · simp [firings, Event.fires, hsame]
    · simp [firings, Event.fires, hsame]
  after hsplit hfires := by
    obtain ⟨rfl, rfl⟩ := split_singleton hsplit
    obtain ⟨rfl⟩ := (List.cons.inj hsplit).2
    obtain ⟨rfl, rfl⟩ : id = _ ∧ handler = _ := by simpa [Event.fires] using hfires
    exact ⟨rfl, hgone⟩

/-- The start of a call uses up its registration. -/
theorem spent_entered (hs : s.Tidy) {r : Registration} (hr : s.Home i event r) :
    Spent [r] s [.called i event r payload] (s.entered i event r payload) := by
  cases r with
  | plain handler => exact spent_noted hs (fun _ => rfl) fun _ _ => by simp [Event.fires]
  | once id handler =>
    have hoff : Spent [] s [] (s.withEmitter i (·.off event (.once id handler))) := spent_off hs _
    exact hoff.trans (spent_called hoff.tidy (gone_off hs hr))

/-- An emit: what it found is what its calls may use up. -/
theorem Spent.emitted (hs : s.Tidy)
    (h : Spent (s.registered i event) (s.noted (.emitted i event payload (s.registered i event)))
      done s₁) :
    Spent [] s (.emitted i event payload (s.registered i event) :: done) s₁ where
  trace := by
    rw [h.trace]
    exact List.append_assoc _ _ _
  tidy := h.tidy
  fresh := h.fresh
  kept hold hmem := h.kept hold hmem
  unlisted {id handler} hgone := by
    have hnot : .once id handler ∉ s.registered i event := hgone.2 i event
    have hrest : listings (.once id handler) done = 0 := h.unlisted hgone
    simpa [listings, Event.lists, hnot] using hrest
  fewer id handler := by
    have hfewer := h.fewer id handler
    have hsingle := hs.single i event id handler
    by_cases hmem : .once id handler ∈ s.registered i event
    · have hlist : listings (.once id handler)
          (.emitted i event payload (s.registered i event) :: done) =
            listings (.once id handler) done + 1 := by simp [listings, Event.lists, hmem]
      have hfire : firings (.once id handler)
          (.emitted i event payload (s.registered i event) :: done) =
            firings (.once id handler) done := by simp [firings, Event.fires]
      simp only [hlist, hfire, List.count_nil]
      omega
    · simpa [firings, listings, Event.fires, Event.lists, hmem, List.count_eq_zero_of_not_mem hmem]
        using hfewer
  after {id handler pre post e} hsplit hfires := by
    cases pre with
    | nil =>
      cases hsplit
      simp [Event.fires] at hfires
    | cons first pre => exact h.after (List.cons.inj hsplit).2 hfires

end

/-- From a tidy session, one-time registrations are called as often as emits find them, at most. -/
def Spends (s s' : Session) : Prop := s.Tidy → ∃ done, Spent [] s done s'

theorem spends_noted (s : Session) {e : Event} (hlists : ∀ r, e.lists r = false)
    (hfires : ∀ id handler, e.fires (.once id handler) = false) : Spends s (s.noted e) :=
  fun hs => ⟨[e], spent_noted hs hlists hfires⟩

theorem Spends.trans {s₁ s₂ s₃ : Session} (h : Spends s₁ s₂) (h' : Spends s₂ s₃) :
    Spends s₁ s₃ := by
  intro hs
  obtain ⟨done, hdone⟩ := h hs
  obtain ⟨done', hdone'⟩ := h' hdone.tidy
  exact ⟨done ++ done', hdone.trans hdone'⟩

theorem tidy_quiet (s : Session) : s.quiet.Tidy := by
  have hnone (i : Nat) (event : String) : s.quiet.registered i event = [] := by
    rw [registered, emitter_quiet]
    rfl
  exact {
    single := fun i event id handler => by simp [hnone]
    old := fun h => by simp [hnone] at h
    home := fun h => by simp [hnone] at h }

end Session

namespace Behaviour

variable {b : Behaviour}

theorem law_spends (b : Behaviour) : Law b Spends where
  refl s := fun hs => ⟨[], .refl hs⟩
  trans := Spends.trans
  performed s i c := by
    refine Spends.trans ?_ (spends_noted _ (fun _ => rfl) fun _ _ => rfl)
    exact fun hs => ⟨[], spent_of_count_le hs rfl rfl fun _ _ _ _ => Nat.le_refl _⟩
  logged s record := spends_noted s (fun _ => rfl) fun _ _ => rfl
  on s i event handler := fun hs => ⟨[], spent_on_plain hs handler⟩
  once s i event handler := fun hs => ⟨[], spent_withOnce hs handler⟩
  off s i event handler := fun hs => ⟨[], spent_off hs _⟩
  clear s i event := fun hs => ⟨[], spent_clear hs⟩
  memory s g := fun hs => ⟨[], spent_of_count_le hs rfl rfl fun _ _ _ _ => Nat.le_refl _⟩
  attempted handler _ h := h.trans (spends_noted _ (fun _ => rfl) fun _ _ => rfl)

/-- The call of a handler uses up its registration. -/
theorem spent_invoke {depth : Nat} (hsteps : ∀ t, Keeps Spends (b.step depth t)) {i : Nat}
    {event : String} (handout : Handout) (r : Registration) {s : Session} (hs : s.Tidy)
    (hr : s.Home i event r) :
    ∃ done, Spent [r] s done (settle (b.invoke (b.step depth) i event handout r) s).2 := by
  rw [settle_invoke]
  generalize handout.shown s.memory = payload
  have hentered : Spent [r] s [.called i event r payload] (s.entered i event r payload) :=
    spent_entered hs hr
  obtain ⟨done, hdone⟩ := b.law_spends.program hsteps r.handler
    (b r.handler (s.entered i event r payload).trace payload) handout _ hentered.tidy
  exact ⟨_, hentered.trans hdone⟩

theorem spent_dispatch {depth : Nat} (hsteps : ∀ t, Keeps Spends (b.step depth t)) {i : Nat}
    {event : String} (handout : Handout) (rs : List Registration) {s : Session} (hs : s.Tidy)
    (hrs : ∀ r ∈ rs, s.Home i event r) :
    ∃ done, Spent rs s done
      (settle (dispatch (b.invoke (b.step depth) i event handout) rs) s).2 := by
  induction rs generalizing s with
  | nil => exact ⟨[], .refl hs⟩
  | cons r rs ih =>
    obtain ⟨o, s₁, hcall⟩ : ∃ o s₁,
        settle (b.invoke (b.step depth) i event handout r) s = (o, s₁) := ⟨_, _, rfl⟩
    obtain ⟨done, hdone⟩ := spent_invoke hsteps handout r hs (hrs r List.mem_cons_self)
    rw [hcall] at hdone
    unfold dispatch
    rw [settle_bind, hcall]
    cases o with
    | error f =>
      -- the calls that the emit still owes are never made
      exact ⟨_, hdone.trans (.refl hdone.tidy)⟩
    | ok _ =>
      obtain ⟨done', hdone'⟩ := ih hdone.tidy fun r' hr' =>
        hdone.home (hrs r' (List.mem_cons_of_mem r hr'))
      exact ⟨_, hdone.trans hdone'⟩

theorem spends_emit {depth : Nat} (hsteps : ∀ t, Keeps Spends (b.step depth t)) (i : Nat)
    (event : String) (handout : Handout) :
    Keeps Spends (b.emit (b.step depth) i event handout) := by
  intro s hs
  obtain ⟨ended, s', hended, hemit⟩ := settle_emit b (b.step depth) i event handout s
  rw [hemit]
  generalize handout.shown s.memory = payload at hended
  have hhome : ∀ r ∈ s.registered i event, s.Home i event r := by
    rintro r hmem id handler rfl
    exact ⟨hs.old hmem, fun j event' hmem' => hs.home hmem' hmem⟩
  have hnoted : (s.noted (.emitted i event payload (s.registered i event))).Tidy :=
    ⟨hs.single, hs.old, hs.home⟩
  obtain ⟨done, hdone⟩ := spent_dispatch hsteps handout (s.registered i event) hnoted hhome
  have hend : (settle (dispatch (b.invoke (b.step depth) i event handout) (s.registered i event))
      (s.noted (.emitted i event payload (s.registered i event)))).2 = s' :=
    congrArg Prod.snd hended
  rw [hend] at hdone
  exact ⟨_, .emitted hs hdone⟩

theorem spends_step (depth : Nat) (t : Step) : Keeps Spends (b.step depth t) :=
  b.law_spends.step (fun _ => spends_emit) depth t

/-- In any run that starts with no handler registered, a one-time registration is called at most as
often as emits found it, and none that starts after a call of it finds it: it is gone. -/
theorem once_calls (b : Behaviour) (depth : Nat) (client : Program) (name : String)
    (handout : Handout) (s : Session) :
    ∃ ended s' done, settle (client.run (b.step depth) name handout) s.quiet = (ended, s') ∧
      s'.trace = s.trace ++ done ∧
      ∀ id handler, firings (.once id handler) done ≤ listings (.once id handler) done ∧
        ∀ pre e post, done = pre ++ e :: post → e.fires (.once id handler) →
          listings (.once id handler) post = 0 ∧ s'.Gone id handler := by
  obtain ⟨ended, s', hrun⟩ : ∃ ended s',
      settle (client.run (b.step depth) name handout) s.quiet = (ended, s') := ⟨_, _, rfl⟩
  obtain ⟨done, hdone⟩ :=
    b.law_spends.program (spends_step depth) name client handout s.quiet s.tidy_quiet
  rw [hrun] at hdone
  exact ⟨ended, s', done, hrun, hdone.trace, fun id handler =>
    ⟨hdone.fewer id handler, fun pre e post => hdone.after⟩⟩

/-- A handler that has its own event sent again, and with it the next registration's handler
called, does not keep the emit that called it from calling that handler as well. -/
theorem once_called_twice :
    firings (.once 1 "b") (settle (runActions
      (Session.step [("a", [.step (.command 0 (.request (.create "/b" false none)))]), ("b", [])]
        maxDepth) "main"
      [.step (.once 0 "create" "a"), .step (.once 0 "create" "b"),
        .step (.command 0 (.request (.create "/a" false none)))] (.values []))
      ((Session.withShared []).addStore {} .shared)).2.trace = 2 := by
  decide +kernel

end Behaviour

end TreeStore
