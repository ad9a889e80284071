import TreeStore.Proofs.Pool
import TreeStore.Session

/-!
# Sessions in lockstep

`Lockstep P asks` says of a relation between pools that commands keep it, and that their outcomes
are the same but for commands that `asks` admits.  Then two sessions with related pools go on alike:
whatever steps are taken, and whatever their handlers do, every step comes to the same end and
leaves the pools related (`Lockstep.step`).  A handler cannot make use of an answer, so that even
the steps it takes need not have the same outcome.

Applied to a relation that only equal pools are in, it says what the steps of a session keep:
`takeAll_reachable`.
-/

namespace TreeStore

/-- A relation between pools that commands keep.  Their outcomes are the same, or the command asks
for something in which the pools may differ and both are answered; a request never does. -/
structure Lockstep (P : Pool → Pool → Prop) (asks : Nat → Command → Prop) : Prop where
  pool : ∀ {p p'}, P p p' → ∀ store c, P (p.run store c).2 (p'.run store c).2
  outcome : ∀ {p p'}, P p p' → ∀ store c, (p.run store c).1 = (p'.run store c).1 ∨
    asks store c ∧ ∃ x x', (p.run store c).1 = .ok x ∧ (p'.run store c).1 = .ok x'
  request : ∀ store r, ¬ asks store (.request r)
  config : ∀ {p p'}, P p p' → ∀ store : Nat,
    (p.members[store]?).map (·.store.config) = (p'.members[store]?).map (·.store.config)
  registry : ∀ {p p'}, P p p' → ∀ store : Nat,
    (p.members[store]?).map (·.registry) = (p'.members[store]?).map (·.registry)

namespace Session

variable {α β : Type} {P : Pool → Pool → Prop}

/-- The sessions agree in all but what they have recorded, and their pools are related. -/
structure Agree (P : Pool → Pool → Prop) (s s' : Session) : Prop where
  pool : P s.pool s'.pool
  emitters : s'.emitters = s.emitters
  levels : s'.levels = s.levels
  fresh : s'.fresh = s.fresh
  memory : s'.memory = s.memory

/-- Two ends of runs: the same fault, or two answers in the relation `Q`. -/
inductive SameEnd (P : Pool → Pool → Prop) (Q : α → α → Prop) :
    EStateM.Result Fault Session α → EStateM.Result Fault Session α → Prop where
  | ok {x x' : α} {s s' : Session} (hq : Q x x') (h : Agree P s s') :
      SameEnd P Q (.ok x s) (.ok x' s')
  | error {f : Fault} {s s' : Session} (h : Agree P s s') :
      SameEnd P Q (.error f s) (.error f s')

/-- From sessions that agree the runs come to the same end. -/
def Alike (P : Pool → Pool → Prop) (Q : α → α → Prop) (c c' : Run α) : Prop :=
  ∀ s s', Agree P s s' → SameEnd P Q (c s) (c' s')

/-! ### Runs in general -/

theorem alike_pure {Q : α → α → Prop} {x x' : α} (h : Q x x') :
    Alike P Q (pure x) (pure x') := fun _ _ hs => .ok h hs

theorem alike_throw {Q : α → α → Prop} (f : Fault) : Alike P Q (throw f) (throw f) :=
  fun _ _ hs => .error hs

theorem Alike.mono {Q Q' : α → α → Prop} {c c' : Run α} (h : Alike P Q c c')
    (hQ : ∀ x x', Q x x' → Q' x x') : Alike P Q' c c' := by
  intro s s' hs
  have h := h s s' hs
  generalize c s = e at h ⊢
  generalize c' s' = e' at h ⊢
  cases h with
  | ok hq h => exact .ok (hQ _ _ hq) h
  | error h => exact .error h

theorem Alike.bind {Q : α → α → Prop} {Q' : β → β → Prop} {c c' : Run α} {k k' : α → Run β}
    (hc : Alike P Q c c') (hk : ∀ x x', Q x x' → Alike P Q' (k x) (k' x')) :
    Alike P Q' (c >>= k) (c' >>= k') := by
  intro s s' hs
  show SameEnd P Q' (EStateM.bind c k s) (EStateM.bind c' k' s')
  unfold EStateM.bind
  have h := hc s s' hs
  generalize c s = e at h
  generalize c' s' = e' at h
  cases h with
  | ok hq h => exact hk _ _ hq _ _ h
  | error h => exact .error h

theorem alike_get {Q : β → β → Prop} {k k' : Session → Run β}
    (h : ∀ s s', Agree P s s' → Alike P Q (k s) (k' s')) :
    Alike P Q (get >>= k) (get >>= k') := fun s s' hs => h s s' hs s s' hs

theorem alike_modify {f f' : Session → Session} (h : ∀ s s', Agree P s s' → Agree P (f s) (f' s')) :
    Alike P Eq (modify f) (modify f') := fun s s' hs => .ok rfl (h s s' hs)

theorem alike_note (e e' : Event) : Alike P Eq (note e) (note e') :=
  alike_modify fun _ _ h => ⟨h.pool, h.emitters, h.levels, h.fresh, h.memory⟩

theorem alike_assign (h : Held) (value : Option String) :
    Alike P Eq (assign h value) (assign h value) :=
  alike_modify fun _ _ hs =>
    ⟨hs.pool, hs.emitters, hs.levels, hs.fresh, congrArg (h.setValue · value) hs.memory⟩

theorem alike_updateEmitter (store : Nat) (f : Emitter → Emitter) :
    Alike P Eq (updateEmitter store f) (updateEmitter store f) := by
  refine alike_modify fun s s' h => ⟨h.pool, ?_, h.levels, h.fresh, h.memory⟩
  simp only [emitter, h.emitters]

theorem alike_debug (message : String) : Alike P Eq (debug message) (debug message) := by
  refine alike_get fun s s' h => ?_
  rw [h.levels]
  split
  · exact alike_note _ _
  · exact alike_pure rfl

theorem alike_lend (news : Handout) : Alike P Eq (lend news) (lend news) := by
  intro s s' hs
  show SameEnd P Eq (.ok (news.copy s.memory).1 { s with memory := (news.copy s.memory).2 })
    (.ok (news.copy s'.memory).1 { s' with memory := (news.copy s'.memory).2 })
  rw [hs.memory]
  exact .ok rfl ⟨hs.pool, hs.emitters, hs.levels, hs.fresh, rfl⟩

theorem alike_tell (own : Except Fault Kept) : Alike P Eq (tell own) (tell own) := by
  cases own with
  | ok own =>
    refine alike_get fun s s' hs => ?_
    rw [hs.memory]
    exact alike_pure rfl
  | error f => exact alike_throw f

/-! ### Handlers -/

theorem alike_dispatch {call : Registration → Run Unit}
    (hcall : ∀ r, Alike P Eq (call r) (call r)) (registrations : List Registration) :
    Alike P Eq (dispatch call registrations) (dispatch call registrations) := by
  induction registrations with
  | nil => exact alike_pure rfl
  | cons r rs ih => exact (hcall r).bind fun _ _ _ => ih

section Handlers

variable {take : Step → Run Answer} (htake : ∀ t, Alike P (fun _ _ => True) (take t) (take t))
include htake

theorem alike_attempt (t : Step) :
    Alike P (fun _ _ => True) (runActions.attempt (take t)) (runActions.attempt (take t)) := by
  intro s s' hs
  have h := htake t s s' hs
  unfold runActions.attempt
  generalize take t s = e at h
  generalize take t s' = e' at h
  cases h with
  | ok _ h => exact .ok trivial h
  | @error f _ _ h =>
    cases f with
    | tooDeep => exact .error h
    | _ => exact .ok trivial h

theorem alike_runActions (handler : String) (actions : List HandlerAction) (handout : Handout) :
    Alike P Eq (runActions take handler actions handout)
      (runActions take handler actions handout) := by
  induction actions with
  | nil => exact alike_pure rfl
  | cons action rest ih =>
    cases action with
    | raise message => exact alike_throw _
    | setValue value =>
      cases handout with
      | result h => exact (alike_assign h value).bind fun _ _ _ => ih
      | error e => exact alike_throw _
      | values args => exact alike_throw _
    | step t =>
      exact (alike_attempt htake t).bind fun _ _ _ => (alike_note _ _).bind fun _ _ _ => ih

theorem alike_invoke (handlers : Handlers) (store : Nat) (event : String) (handout : Handout)
    (r : Registration) : Alike P Eq (invoke take handlers store event handout r)
      (invoke take handlers store event handout r) := by
  unfold invoke
  cases r with
  | plain handler =>
    exact alike_get fun _ _ _ => (alike_note _ _).bind fun _ _ _ =>
      alike_runActions htake _ _ handout
  | once id handler =>
    exact (alike_updateEmitter _ _).bind fun _ _ _ => alike_get fun _ _ _ =>
      (alike_note _ _).bind fun _ _ _ => alike_runActions htake _ _ handout

theorem alike_emit (handlers : Handlers) (store : Nat) (event : String) (handout : Handout) :
    Alike P Eq (emit take handlers store event handout)
      (emit take handlers store event handout) := by
  refine alike_get fun s s' hs => alike_get fun _ _ _ => ?_
  have hsame : s'.emitter store = s.emitter store := by rw [emitter, emitter, hs.emitters]
  rw [hsame]
  exact (alike_note _ _).bind fun _ _ _ =>
    (alike_dispatch (alike_invoke htake handlers store event handout) _).bind fun _ _ _ =>
      alike_pure rfl

end Handlers

/-! ### Steps -/

/-- The step is a command that asks for something in which the pools may differ. -/
def asked (asks : Nat → Command → Prop) (t : Step) : Prop :=
  ∃ store c, t = .command store c ∧ asks store c

/-- Only requests give results. -/
theorem keep_run_of_not_request {c : Command} (hc : ∀ r, c ≠ .request r) (p : Pool) (store : Nat)
    (g : Graph) : keep g (p.run store c).1 = ((p.run store c).1.map .other, g) := by
  unfold Pool.run
  cases p.members[store]? with
  | none => rfl
  | some m =>
    cases c with
    | request r => exact absurd rfl (hc r)
    | «exists» key =>
      simp only
      cases (Store.run (Store.exists? key) m.store).1 <;> rfl
    | size =>
      simp only
      cases (Store.run Store.size m.store).1 <;> rfl
    | registry call => cases call <;> rfl
    | _ => rfl

section Steps

variable {asks : Nat → Command → Prop} (hP : Lockstep P asks)
include hP

theorem Agree.emitsEvents {s s' : Session} (h : Agree P s s') (store : Nat) :
    s'.emitsEvents store = s.emitsEvents store := by
  have hconfig := hP.config h.pool store
  unfold Session.emitsEvents
  cases hm : s.pool.members[store]? with
  | none =>
    rw [hm, Option.map_none, eq_comm, Option.map_eq_none_iff] at hconfig
    rw [hconfig]
  | some m =>
    rw [hm, Option.map_some, eq_comm, Option.map_eq_some_iff] at hconfig
    obtain ⟨m', hm', hc⟩ := hconfig
    simp only [hm', hc]

theorem Agree.sameRegistry {s s' : Session} (h : Agree P s s') (j k : Nat) :
    s'.pool.sameRegistry j k = s.pool.sameRegistry j k := by
  have hj := hP.registry h.pool j
  have hk := hP.registry h.pool k
  unfold Pool.sameRegistry
  cases hm : s.pool.members[j]? with
  | none =>
    rw [hm, Option.map_none, eq_comm, Option.map_eq_none_iff] at hj
    rw [hj]
  | some m =>
    rw [hm, Option.map_some, eq_comm, Option.map_eq_some_iff] at hj
    obtain ⟨m', hm', hr⟩ := hj
    cases hn : s.pool.members[k]? with
    | none =>
      rw [hn, Option.map_none, eq_comm, Option.map_eq_none_iff] at hk
      rw [hm', hk]
    | some n =>
      rw [hn, Option.map_some, eq_comm, Option.map_eq_some_iff] at hk
      obtain ⟨n', hn', hr'⟩ := hk
      simp only [hm', hn', hr, hr']

theorem alike_perform (store : Nat) (c : Command) :
    Alike P (fun o o' => o = o' ∨
        asks store c ∧ ∃ x x', o = .ok (.other x) ∧ o' = .ok (.other x'))
      (perform store c) (perform store c) := by
  refine alike_get fun s s' hs => ?_
  have hpool := hP.pool hs.pool store c
  have houtcome := hP.outcome hs.pool store c
  have hc (hasks : asks store c) (r : Request) : c ≠ .request r := fun h =>
    hP.request store r (h ▸ hasks)
  have hkept (hasks : asks store c) := keep_run_of_not_request (hc hasks) s.pool store
  have hkept' (hasks : asks store c) := keep_run_of_not_request (hc hasks) s'.pool store
  generalize s.pool.run store c = e at hpool houtcome hkept ⊢
  generalize s'.pool.run store c = e' at hpool houtcome hkept' ⊢
  obtain ⟨o, p⟩ := e
  obtain ⟨o', p'⟩ := e'
  refine alike_get fun t t' ht => ?_
  rw [ht.memory]
  have hset (g : Graph) : Alike P Eq (modify fun s => { s with pool := p, memory := g } : Run Unit)
      (modify fun s => { s with pool := p', memory := g }) :=
    alike_modify fun _ _ h => ⟨hpool, h.emitters, h.levels, h.fresh, rfl⟩
  rcases houtcome with rfl | ⟨hasks, x, x', rfl, rfl⟩
  · refine (hset _).bind fun _ _ _ => (alike_note _ _).bind fun _ _ _ => ?_
    cases c with
    | request r =>
      simp only
      cases logLine r o with
      | none => exact alike_pure (Or.inl rfl)
      | some line => exact (alike_debug line).bind fun _ _ _ => alike_pure (Or.inl rfl)
    | _ => exact alike_pure (Or.inl rfl)
  · simp only [hkept hasks, hkept' hasks]
    refine (hset _).bind fun _ _ _ => (alike_note _ _).bind fun _ _ _ => ?_
    cases c with
    | request r => exact absurd hasks (hP.request store r)
    | _ => exact alike_pure (Or.inr ⟨hasks, x, x', rfl, rfl⟩)

variable {send : Nat → String → Handout → Run Nat} (hsend : ∀ store event handout,
  Alike P Eq (send store event handout) (send store event handout))
include hsend

theorem alike_send {Q : Answer → Answer → Prop} {k : Run Answer} (hk : Alike P Q k k)
    (store : Nat) (event : String) (news : Handout) :
    Alike P Q
      (do if (← get).emitsEvents store then
            let _ ← send store event (← lend news)
          k)
      (do if (← get).emitsEvents store then
            let _ ← send store event (← lend news)
          k) := by
  refine alike_get fun s s' hs => ?_
  rw [hs.emitsEvents hP]
  split
  · refine (alike_lend news).bind fun handout handout' hhandout => ?_
    rw [hhandout]
    exact (hsend store event handout').bind fun _ _ _ => hk
  · exact hk

theorem alike_stepWith (t : Step) :
    Alike P (fun x x' => ¬ asked asks t → x = x') (stepWith send t) (stepWith send t) := by
  cases t with
  | command store c =>
    refine (alike_perform hP store c).bind fun o o' ho => ?_
    rcases ho with rfl | ⟨hasks, x, x', rfl, rfl⟩
    · have hend : Alike P (fun x x' => ¬ asked asks (.command store c) → x = x') (tell o)
          (tell o) := (alike_tell o).mono fun _ _ h _ => h
      cases c with
      | request r =>
        simp only
        cases announcement r o with
        | none => exact hend
        | some news => exact alike_send hP hsend hend store news.1 news.2
      | _ => exact hend
    · cases c with
      | request r => exact absurd hasks (hP.request store r)
      | _ =>
        exact alike_get fun _ _ _ => alike_pure fun h => absurd ⟨store, _, rfl, hasks⟩ h
  | sameRegistry b c =>
    refine alike_get fun s s' hs => ?_
    rw [hs.sameRegistry hP]
    exact alike_pure fun _ => rfl
  | logLevel =>
    refine alike_get fun s s' hs => ?_
    rw [hs.levels]
    exact alike_pure fun _ => rfl
  | on store event handler =>
    exact (alike_updateEmitter _ _).bind fun _ _ _ => alike_pure fun _ => rfl
  | once store event handler =>
    refine alike_get fun s s' hs => ?_
    rw [hs.fresh]
    have hset : Alike P Eq (modify fun t => { t with fresh := s.fresh + 1 } : Run Unit)
        (modify fun t => { t with fresh := s.fresh + 1 }) :=
      alike_modify fun _ _ h => ⟨h.pool, h.emitters, h.levels, rfl, h.memory⟩
    exact hset.bind fun _ _ _ => (alike_updateEmitter _ _).bind fun _ _ _ =>
      alike_pure fun _ => rfl
  | off store event handler =>
    exact (alike_updateEmitter _ _).bind fun _ _ _ => alike_pure fun _ => rfl
  | emit store event args =>
    refine (hsend store event _).bind fun n n' hn => ?_
    rw [hn]
    exact alike_pure fun _ => rfl
  | listeners store event =>
    refine alike_get fun s s' hs => ?_
    rw [emitter, emitter, hs.emitters]
    exact alike_pure fun _ => rfl

end Steps

end Session

/-! ### Whole steps -/

section

open Session

variable {P : Pool → Pool → Prop} {asks : Nat → Command → Prop} (hP : Lockstep P asks)
include hP

theorem Lockstep.step (handlers : Handlers) (depth : Nat) (t : Step) :
    Alike P (fun x x' => ¬ asked asks t → x = x') (step handlers depth t)
      (step handlers depth t) := by
  induction depth generalizing t with
  | zero => exact alike_throw _
  | succ depth ih =>
    have htake (t : Step) :
        Alike P (fun _ _ => True) (Session.step handlers depth t) (Session.step handlers depth t) :=
      (ih t).mono fun _ _ _ => trivial
    exact alike_stepWith hP (alike_emit htake handlers) t

theorem Lockstep.take {s s' : Session} (h : Agree P s s') (handlers : Handlers) (t : Step) :
    Agree P (take handlers s t).2 (take handlers s' t).2 ∧
      (¬ asked asks t → (take handlers s' t).1 = (take handlers s t).1) := by
  have hend := hP.step handlers maxDepth t { s with trace := [] } { s' with trace := [] }
    ⟨h.pool, h.emitters, h.levels, h.fresh, h.memory⟩
  unfold Session.take
  generalize Session.step handlers maxDepth t { s with trace := [] } = e at hend ⊢
  generalize Session.step handlers maxDepth t { s' with trace := [] } = e' at hend ⊢
  cases hend with
  | ok hq h => exact ⟨h, fun hasks => by rw [hq hasks]⟩
  | error h => exact ⟨h, fun _ => rfl⟩

end

namespace Session

/-- The session after a list of steps. -/
def takeAll (handlers : Handlers) (s : Session) (steps : List Step) : Session :=
  steps.foldl (fun s t => (take handlers s t).2) s

end Session

open Session in
theorem Lockstep.takeAll {P : Pool → Pool → Prop} {asks : Nat → Command → Prop}
    (hP : Lockstep P asks) {s s' : Session} (h : Agree P s s') (handlers : Handlers)
    (steps : List Step) : Agree P (takeAll handlers s steps) (takeAll handlers s' steps) := by
  induction steps generalizing s s' with
  | nil => exact h
  | cons t rest ih => exact ih (hP.take h handlers t).1

/-! ### What the steps keep -/

/-- A property of pools that commands keep, as a relation. -/
theorem lockstep_of_run {I : Pool → Prop} (h : ∀ p, I p → ∀ store c, I (p.run store c).2) :
    Lockstep (fun p p' => p = p' ∧ I p) fun _ _ => False where
  pool := by
    rintro p _ ⟨rfl, hp⟩ store c
    exact ⟨rfl, h p hp store c⟩
  outcome := by
    rintro p _ ⟨rfl, -⟩ store c
    exact Or.inl rfl
  request := fun _ _ => id
  config := by
    rintro p _ ⟨rfl, -⟩ store
    rfl
  registry := by
    rintro p _ ⟨rfl, -⟩ store
    rfl

/-- The stores of a session stay reachable, whatever its handlers do. -/
theorem Session.takeAll_reachable {s : Session} (h : s.pool.Reachable) (handlers : Handlers)
    (steps : List Step) : (takeAll handlers s steps).pool.Reachable := by
  have hP := lockstep_of_run fun p (hp : p.Reachable) store c => hp.run store c
  exact (hP.takeAll ⟨⟨rfl, h⟩, rfl, rfl, rfl, rfl⟩ handlers steps).pool.2

end TreeStore
