import TreeStore.Proofs.Session.Linear
import TreeStore.Proofs.Session.Safe
import Mathlib.Data.List.DropRight

/-!
# What the calls of a session leave behind

Each call of an operation counts once, when its own part is over and before any handler of its event
is called: at every moment of a run the counters of a store are the calls that the trace has since
their last reset (`Behaviour.counted_moment`).  This is a fact about the commands of the trace in
their order, so it is proved of pools and carried to sessions by `Behaviour.Linear`.

What a call does by itself is its record in the log and the start of one emit, in this order
(`settle_request`); `Announces` says which event that is and what it hands to the handlers.

* `Behaviour.accounting`: counters, events and records, at every moment of every run.
-/

namespace TreeStore

open Session

/-! ### What a trace counts -/

/-- One of the two counters of each action. -/
def Stats.tally (st : Stats) (ok : Bool) : Tally := if ok then st.success else st.fail

theorem Stats.tally_record (st : Stats) (a b : Action) (ok ok' : Bool) :
    ((st.record a ok).tally ok').of b =
      (st.tally ok').of b + if a = b ∧ ok = ok' then 1 else 0 := by
  cases ok <;> cases ok' <;> simp [record, tally, Tally.of_bump, eq_comm]

namespace Event

/-- A request to the store came to an end by itself: with an answer, or refused. -/
def served (i : Nat) : Event → Option (Action × Bool)
  | performed j (.request r) (.ok _) => if j = i then some (r.action, true) else none
  | performed j (.request r) (.error (.refused _)) => if j = i then some (r.action, false) else none
  | _ => none

/-- The counters of the store were reset. -/
def resets (i : Nat) : Event → Bool
  | performed j .reset _ => j == i
  | _ => false

/-- What the event makes of the counters of a store. -/
def heed (i : Nat) (st : Stats) (e : Event) : Stats :=
  if e.resets i then {} else
    match e.served i with
    | some (a, ok) => st.record a ok
    | none => st

end Event

/-- The end of a trace from the last reset of a store's counters on. -/
def sinceReset (i : Nat) (trace : List Event) : List Event :=
  trace.rtakeWhile fun e => !e.resets i

/-- The calls of an action that succeeded, or were refused, since the last reset. -/
def callsSince (i : Nat) (a : Action) (ok : Bool) (trace : List Event) : Nat :=
  (sinceReset i trace).countP fun e => e.served i == some (a, ok)

theorem Event.heed_of_ne {i j : Nat} (hji : j ≠ i) (st : Stats) (c : Command)
    (outcome : Except Fault Answer) : (performed j c outcome).heed i st = st := by
  have hresets : (performed j c outcome).resets i = false := by cases c <;> simp [resets, hji]
  have hserved : (performed j c outcome).served i = none := by
    unfold served
    split <;> simp_all
  rw [heed, hresets, hserved]
  rfl

theorem Event.tally_heed (i : Nat) (a : Action) (ok : Bool) (st : Stats) (e : Event) :
    ((e.heed i st).tally ok).of a =
      if e.resets i then 0
      else (st.tally ok).of a + if e.served i = some (a, ok) then 1 else 0 := by
  unfold heed
  split_ifs with hreset hserved
  · cases ok <;> cases a <;> rfl
  · simp [hserved, Stats.tally_record]
  · cases hcall : e.served i with
    | none => simp
    | some call =>
      have hne : ¬(call.1 = a ∧ call.2 = ok) := by
        rintro ⟨rfl, rfl⟩
        exact hserved hcall
      simp [Stats.tally_record, hne]

theorem callsSince_concat (i : Nat) (a : Action) (ok : Bool) (trace : List Event) (e : Event) :
    callsSince i a ok (trace ++ [e]) =
      if e.resets i then 0
      else callsSince i a ok trace + if e.served i = some (a, ok) then 1 else 0 := by
  unfold callsSince sinceReset
  rw [List.rtakeWhile_concat]
  cases e.resets i <;> simp [List.countP_append, List.countP_cons]

/-- Heeded one after the other, the events of a trace leave the calls since the last reset. -/
theorem tally_foldl_heed (i : Nat) (a : Action) (ok : Bool) (st : Stats) (trace : List Event) :
    ((trace.foldl (Event.heed i) st).tally ok).of a =
      (if trace.any (·.resets i) then 0 else (st.tally ok).of a) + callsSince i a ok trace := by
  induction trace using List.reverseRecOn with
  | nil => rfl
  | append_singleton trace e ih =>
    rw [List.foldl_append, List.foldl_cons, List.foldl_nil, Event.tally_heed, callsSince_concat,
      List.any_append, ih]
    cases hreset : e.resets i
    · simp [hreset, Nat.add_assoc]
    · simp [hreset]

/-! ### Counters -/

namespace Pool

variable {p : Pool} {i j : Nat} {m n : Member}

theorem getElem?_setStore (hn : p.members[j]? = some n) (s : Store) (i : Nat) :
    (p.setStore j n s).members[i]? =
      if j = i then some { n with store := s } else p.members[i]? := by
  have hj := (List.getElem?_eq_some_iff.mp hn).1
  show (p.members.set j _)[i]? = _
  rw [List.getElem?_set, if_pos hj]

theorem setStore_self (hm : p.members[i]? = some m) : p.setStore i m m.store = p := by
  have hset : p.members.set i m = p.members := by
    obtain ⟨hi, rfl⟩ := List.getElem?_eq_some_iff.mp hm
    exact List.set_getElem_self hi
  show { p with members := p.members.set i m } = p
  rw [hset]

/-- A command concerns no other store. -/
theorem members_run_of_ne (hji : j ≠ i) (p : Pool) (c : Command) :
    (p.run j c).2.members[i]? = p.members[i]? := by
  unfold Pool.run
  cases hn : p.members[j]? with
  | none => rfl
  | some n => cases c <;> simp [getElem?_setStore hn, hji]

/-- A command leaves the configuration of its store, and the counters heed it. -/
theorem Reachable.member_run_self (hp : p.Reachable) (hm : p.members[i]? = some m) (c : Command) :
    ∃ m', (p.run i c).2.members[i]? = some m' ∧ m'.store.config = m.store.config ∧
      m'.store.stats = (Event.performed i c (p.run i c).1).heed i m.store.stats := by
  have hs := (hp m (List.mem_of_getElem? hm)).sound
  have hset (s : Store) : (p.setStore i m s).members[i]? = some { m with store := s } := by
    rw [getElem?_setStore hm, if_pos rfl]
  unfold Pool.run
  rw [hm]
  cases c with
  | request r =>
    rcases hs.perform_cases (p.messages m.registry) r with
      ⟨code, cause, -, h⟩ | ⟨result, g, -, h, -⟩
    · simp only [Store.run, h]
      refine ⟨_, hset _, rfl, ?_⟩
      simp [Event.heed, Event.resets, Event.served, Except.map, Store.count]
    · simp only [Store.run, h]
      refine ⟨_, hset _, rfl, ?_⟩
      simp [Event.heed, Event.resets, Event.served, Except.map, Store.count]
  | «exists» key =>
    simp only [Store.run, hs.exists?_ok key]
    exact ⟨_, hset _, rfl, rfl⟩
  | size =>
    simp only [Store.run, hs.size_ok]
    exact ⟨_, hset _, rfl, rfl⟩
  | reset => exact ⟨_, hset _, rfl, by simp [Event.heed, Event.resets]⟩
  | _ => exact ⟨_, hm, rfl, rfl⟩

theorem Reachable.member_run (hp : p.Reachable) (hm : p.members[i]? = some m) (j : Nat)
    (c : Command) :
    ∃ m', (p.run j c).2.members[i]? = some m' ∧ m'.store.config = m.store.config ∧
      m'.store.stats = (Event.performed j c (p.run j c).1).heed i m.store.stats := by
  by_cases hji : j = i
  · subst hji
    exact hp.member_run_self hm c
  · refine ⟨m, by rw [members_run_of_ne hji, hm], rfl, ?_⟩
    rw [Event.heed_of_ne hji]

/-- Questions about keys and the size change nothing at all. -/
theorem Reachable.run_question (hp : p.Reachable) (i : Nat) {c : Command}
    (hc : (∃ key, c = .exists key) ∨ c = .size) : (p.run i c).2 = p := by
  cases hm : p.members[i]? with
  | none => rw [Pool.run, hm]
  | some m =>
    have hs := (hp m (List.mem_of_getElem? hm)).sound
    rcases hc with ⟨key, rfl⟩ | rfl
    · simp only [Pool.run, hm, Store.run, hs.exists?_ok key]
      exact setStore_self hm
    · simp only [Pool.run, hm, Store.run, hs.size_ok]
      exact setStore_self hm

/-- After the commands of a trace the counters of each store are what the trace makes of them. -/
theorem Reachable.member_runAll (hp : p.Reachable) (hm : p.members[i]? = some m)
    {trace : List Event} {p' : Pool} (h : p.runAll (calls trace) = (outcomes trace, p')) :
    ∃ m', p'.members[i]? = some m' ∧
      m'.store.stats = trace.foldl (Event.heed i) m.store.stats := by
  induction trace generalizing p m with
  | nil =>
    cases h
    exact ⟨m, hm, rfl⟩
  | cons e rest ih =>
    cases e with
    | performed j c outcome =>
      rw [show calls (.performed j c outcome :: rest) = (j, c) :: calls rest from rfl,
        show outcomes (.performed j c outcome :: rest) = outcome :: outcomes rest from rfl,
        runAll_cons] at h
      obtain ⟨hout, rfl⟩ := Prod.mk.inj h
      obtain ⟨rfl, hrest⟩ := List.cons_eq_cons.mp hout
      obtain ⟨m₁, hm₁, -, hstats⟩ := hp.member_run hm j c
      obtain ⟨m', hm', hstats'⟩ := ih (hp.run j c) hm₁ (Prod.ext hrest rfl)
      exact ⟨m', hm', by rw [hstats', hstats, List.foldl_cons]⟩
    | _ => exact ih hp hm h

end Pool

theorem Stats.total_eq_sum_counters (st : Stats) :
    st.total = (st.counters.map (·.2)).foldl (· + ·) 0 := by
  have hsuccess : st.success.total = st.success.get + st.success.set + st.success.update +
      st.success.create + st.success.delete := by simp [Tally.total, Action.all, Tally.of]
  have hfail : st.fail.total = st.fail.get + st.fail.set + st.fail.update + st.fail.create +
      st.fail.delete := by simp [Tally.total, Action.all, Tally.of]
  have hcounters : (st.counters.map (·.2)).foldl (· + ·) 0 =
      st.success.get + st.fail.get + st.success.set + st.fail.set + st.success.update +
        st.fail.update + st.success.create + st.fail.create + st.success.delete +
          st.fail.delete := by simp [counters, Action.all, Tally.of]
  rw [total, hsuccess, hfail, hcounters]
  omega

/-- Each store of `s` is there in `s'`, with counters that have the calls of the trace since `s` and
since their last reset, and what they had in `s` if they were not reset. -/
def Counted (s s' : Session) : Prop :=
  ∃ done, s'.trace = s.trace ++ done ∧ ∀ i m, s.pool.members[i]? = some m →
    ∃ m', s'.pool.members[i]? = some m' ∧ ∀ a ok, (m'.store.stats.tally ok).of a =
      (if done.any (·.resets i) then 0 else (m.store.stats.tally ok).of a) +
        callsSince i a ok done

theorem counted_of_linear {b : Behaviour} {s s' : Session} (hs : s.pool.Reachable)
    (h : b.Linear s s') : Counted s s' := by
  obtain ⟨done, htrace, hpool, -⟩ := h
  refine ⟨done, htrace, fun i m hm => ?_⟩
  obtain ⟨m', hm', hstats⟩ := hs.member_runAll hm hpool
  exact ⟨m', hm', fun a ok => by rw [hstats, tally_foldl_heed]⟩

/-! ### What a call does by itself -/

/-- What a call comes to by itself is news: a change tells its result under the name of its action,
a refusal tells its error. -/
inductive Announces (r : Request) : Except Fault Answer → String → Payload → Prop where
  | change {result : Result} (h : r.action ≠ .get) :
      Announces r (.ok (.result result)) r.action.name (.result result)
  | refusal {e : StoreError} : Announces r (.error (.refused e)) "error" (.error e)

theorem announcement_of_announces {r : Request} {own : Except Fault Answer} {event : String}
    {payload : Payload} (h : Announces r own event payload) (g : Graph) :
    ∃ news, announcement r (keep g own).1 = some (event, news) := by
  cases h with
  | change hget => exact ⟨_, if_neg hget⟩
  | refusal => exact ⟨_, rfl⟩

/-- The copy that is handed out shows what the call came to. -/
theorem announces_of_lend {r : Request} {own : Except Fault Answer} {event : String}
    {news handout : Handout} {g : Graph} {s s' : Session}
    (hnews : announcement r (keep g own).1 = some (event, news))
    (hext : Graph.Extends (keep g own).2 s.memory)
    (hlend : settle (lend news) s = (.ok handout, s')) :
    Announces r own event (handout.shown s'.memory) := by
  cases own with
  | error f =>
    cases f with
    | refused e =>
      cases hnews
      cases hlend
      exact .refusal
    | _ => cases hnews
  | ok answer =>
    cases answer with
    | result result =>
      rw [keep, announcement] at hnews
      split_ifs at hnews with hget
      cases hnews
      rw [shown_lend ((Held.shows_plant g result).extends hext) hlend]
      exact .change hget
    | _ => cases hnews

/-- The calls that write a line to the log are those that are announced. -/
theorem logLine_isSome (r : Request) (own : Except Fault Answer) (g : Graph) :
    (logLine r own).isSome = (announcement r (keep g own).1).isSome := by
  cases own with
  | error f => cases f <;> rfl
  | ok answer =>
    cases answer with
    | result result =>
      cases r with
      | set key isDir value => cases hprev : result.prev <;>
          simp [logLine, Store.logLine, announcement, keep, Request.action, hprev]
      | _ => rfl
    | _ => rfl

/-- The records that a call writes to the log: one if it has news and debug lines pass. -/
structure Session.Records (s : Session) (r : Request) (own : Except Fault Answer)
    (records : List Log.Record) : Prop where
  one : (∃ event payload, Announces r own event payload) →
    s.levels.passes Log.storeLogger Log.Level.debug.value = true → records.length = 1
  none : (∀ event payload, ¬Announces r own event payload) ∨
    s.levels.passes Log.storeLogger Log.Level.debug.value = false → records = []
  debug : ∀ record ∈ records,
    record.logger = Log.storeLogger ∧ record.level = Log.Level.debug.value

/-- A call of a request after it took effect in `s`, and what its taker sees: it is over, or it has
news, and the handlers of the one event are called with it. -/
inductive Behaviour.Sends (b : Behaviour) (depth i : Nat) (r : Request)
    (own : Except Fault Answer) (s : Session) : Except Fault Answer → Session → Prop where
  | nothing (h : ∀ event payload, Announces r own event payload → s.emitsEvents i = false) :
      Sends b depth i r own s own s
  | event {event : String} {news handout : Handout} {payload : Payload} {ended : Except Fault Unit}
      {s₁ s' : Session} (hemits : s.emitsEvents i = true) (hnews : Announces r own event payload)
      (hlend : settle (lend news) s = (.ok handout, s₁))
      (hshown : handout.shown s₁.memory = payload)
      (hcalls : settle (dispatch (b.invoke (b.step depth) i event handout)
          ((s₁.emitter i).listeners event))
        (s₁.noted (.emitted i event payload ((s₁.emitter i).listeners event))) = (ended, s')) :
      Sends b depth i r own s (ended.bind fun _ => own) s'

namespace Session

/-- The session with some more records in its log. -/
def logging (s : Session) (records : List Log.Record) : Session :=
  { s with trace := s.trace ++ records.map .logged }

theorem settle_request (i : Nat) (r : Request) (s : Session) :
    ∃ records, s.Records r (s.pool.run i (.request r)).1 records ∧
      settle (perform i (.request r)) s =
        (.ok (s.held i (.request r)), (s.performed i (.request r)).logging records) := by
  have hline := logLine_isSome r (s.pool.run i (.request r)).1 s.memory
  have hnothing : (s.performed i (.request r)).logging [] = s.performed i (.request r) := by
    simp [logging]
  cases hlog : logLine r (s.pool.run i (.request r)).1 with
  | none =>
    refine ⟨[], ⟨?_, fun _ => rfl, nofun⟩, by rw [hnothing, settle_perform_silent hlog]⟩
    rintro ⟨event, payload, hnews⟩
    obtain ⟨news, hnews⟩ := announcement_of_announces hnews s.memory
    rw [hlog, hnews] at hline
    cases hline
  | some line =>
    obtain ⟨⟨event, news⟩, hnews⟩ := Option.isSome_iff_exists.mp
      (hline.symm.trans (by rw [hlog]; rfl))
    have hnews' : Announces r _ event _ :=
      announces_of_lend hnews (.refl _) (settle_lend news (s.performed i (.request r)))
    rw [settle_perform_logged hlog]
    by_cases hdebug : s.levels.passes Log.storeLogger Log.Level.debug.value = true
    · refine ⟨[⟨Log.storeLogger, Log.Level.debug.value, line⟩], ⟨fun _ _ => rfl, ?_, ?_⟩, ?_⟩
      · rintro (h | h)
        · exact absurd hnews' (h event _)
        · rw [hdebug] at h
          cases h
      · simp
      · rw [if_pos hdebug]
        rfl
    · refine ⟨[], ⟨fun _ h => absurd h hdebug, fun _ => rfl, nofun⟩, ?_⟩
      rw [if_neg hdebug, hnothing]

theorem emitsEvents_performed {s : Session} (hs : s.pool.Reachable) {i : Nat} {n : Member}
    (hn : s.pool.members[i]? = some n) (c : Command) (records : List Log.Record) :
    ((s.performed i c).logging records).emitsEvents i = n.store.config.emitEvents.truthy := by
  obtain ⟨n', hn', hconfig, -⟩ := hs.member_run_self hn c
  have hmember : ((s.performed i c).logging records).pool.members[i]? = some n' := hn'
  rw [emitsEvents, hmember, ← hconfig]

end Session

namespace Behaviour

variable {b : Behaviour}

theorem sends_of_settle {depth i : Nat} {r : Request} {seen : Except Fault Answer}
    {s s' : Session} (h : settle (b.step (depth + 1) (.command i (.request r))) s = (seen, s')) :
    ∃ records, s.Records r (s.pool.run i (.request r)).1 records ∧
      b.Sends depth i r (s.pool.run i (.request r)).1
        ((s.performed i (.request r)).logging records) seen s' := by
  obtain ⟨records, hrecords, hrequest⟩ := settle_request i r s
  refine ⟨records, hrecords, ?_⟩
  obtain ⟨s₁, hperform, ⟨hnone, hsilent⟩ | ⟨r', event, news, handout, s₂, sent, s₃, hr, hnews,
    hemits, hlend, hsend, hsent⟩⟩ := b.command_news depth i (.request r) s
  · obtain rfl := (Prod.mk.inj (hrequest.symm.trans hperform)).2
    obtain ⟨rfl, rfl⟩ := Prod.mk.inj (h.symm.trans hsilent)
    refine .nothing fun event payload hnews => ?_
    obtain ⟨news, hnews⟩ := announcement_of_announces hnews s.memory
    exact hnone r event news rfl hnews
  · cases hr
    obtain rfl := (Prod.mk.inj (hrequest.symm.trans hperform)).2
    obtain ⟨ended, s', hended, hemit⟩ := settle_emit b (b.step depth) i event handout s₂
    obtain ⟨rfl, rfl⟩ := Prod.mk.inj (hemit.symm.trans hsend)
    obtain ⟨rfl, rfl⟩ := Prod.mk.inj (h.symm.trans hsent)
    have hsends := Sends.event hemits (announces_of_lend hnews (.refl _) hlend) hlend rfl hended
    cases ended <;> exact hsends

theorem counted_moment {m m' : Moment} (h : b.Reaches m m') (hs : m.session.pool.Reachable) :
    Counted m.session m'.session :=
  counted_of_linear hs (b.law_linear.reaches linear_emitted linear_entered h)

theorem counted_run (depth : Nat) (name : String) (p : Program) (handout : Handout) {s : Session}
    (hs : s.pool.Reachable) : Counted s (settle (p.run (b.step depth) name handout) s).2 :=
  counted_of_linear hs (b.law_linear.program (linear_step depth) name p handout s)

/-! ### Every call -/

/-- At every moment of a run, at the top and inside of handlers however deep they nest, and when the
run is over, the counters of each store are the calls that succeeded and those that were refused
since the last reset; the total is the sum of the ten, and questions count nothing.

A call of a request takes effect first, with its count, then writes a record to the log if it has
news and debug lines pass, and then sends its news if the store sends events: this starts one emit,
and all that follows is done by the handlers that the emit calls.  Its taker sees the outcome of the
request, or the fault that ended the emit. -/
theorem accounting (b : Behaviour) (depth : Nat) (client : Program) (name : String)
    (handout : Handout) {s : Session} (hs : s.pool.Reachable) :
    (∀ m, b.Reaches ⟨depth, .program name client handout, s⟩ m →
      Counted s m.session ∧
      (∀ i n, m.session.pool.members[i]? = some n →
        n.store.stats.counters.length = 10 ∧
        (m.session.pool.run i .total).1 =
          .ok (.count ((n.store.stats.counters.map (·.2)).foldl (· + ·) 0))) ∧
      (∀ i c, (∃ key, c = .exists key) ∨ c = .size →
        (m.session.pool.run i c).2 = m.session.pool) ∧
      ∀ below i r n seen s', m.depth = below + 1 → m.task = .step (.command i (.request r)) →
        m.session.pool.members[i]? = some n →
        settle (b.step m.depth (.command i (.request r))) m.session = (seen, s') →
        ∃ records s₁, m.session.Records r (m.session.pool.run i (.request r)).1 records ∧
          s₁ = (m.session.performed i (.request r)).logging records ∧
          s₁.emitsEvents i = n.store.config.emitEvents.truthy ∧
          b.Sends below i r (m.session.pool.run i (.request r)).1 s₁ seen s') ∧
    Counted s (settle (client.run (b.step depth) name handout) s).2 ∧
    b.Covers ⟨depth, .program name client handout, s⟩
      (settle (client.run (b.step depth) name handout) s).2 := by
  refine ⟨fun m hreach => ?_, counted_run depth name client handout hs,
    covers_run depth name client handout s⟩
  have hm := reachable_moment hreach hs
  refine ⟨counted_moment hreach hs, fun i n hn => ⟨rfl, ?_⟩,
    fun i c hc => hm.run_question i hc, ?_⟩
  · rw [Pool.run, hn]
    exact congrArg (Except.ok ∘ Answer.count) (Stats.total_eq_sum_counters n.store.stats)
  · intro below i r n seen s' hdepth _ hn htook
    rw [hdepth] at htook
    obtain ⟨records, hrecords, hsends⟩ := sends_of_settle htook
    exact ⟨records, _, hrecords, rfl, emitsEvents_performed hm hn _ records, hsends⟩

/-- The end of a program that raises what its last step did. -/
def relay : Except Fault Answer → Program
  | .ok _ => .finish
  | .error f => .raise f

/-- A handler of the event of a creation sets another node and then raises.  When it takes its step
the creation is counted already; when the run is over with the error of the handler, both are. -/
theorem accounting_raising :
    ∃ (b : Behaviour) (s : Session) (client : Program) (m : Moment), s.pool.Reachable ∧
      b.Reaches ⟨2, .program "main" client (.values []), s⟩ m ∧ m.depth = 1 ∧
      m.task = .step (.command 0 (.request (.set "/y" false none))) ∧
      (∃ n, m.session.pool.members[0]? = some n ∧ (n.store.stats.tally true).of .create = 1 ∧
        (n.store.stats.tally true).of .set = 0) ∧
      (settle (client.run (b.step 2) "main" (.values [])) s).1.toOption.isNone ∧
      ∃ n, (settle (client.run (b.step 2) "main" (.values [])) s).2.pool.members[0]? = some n ∧
        (n.store.stats.tally true).of .create = 1 ∧ (n.store.stats.tally true).of .set = 1 := by
  let request := Request.create "/x" false none
  let b := ofHandlers
    [("a", [.step (.command 0 (.request (.set "/y" false none))), .raise "no"])]
  let s := ((Session.withShared []).addStore {} .shared).withEmitter 0 (·.on "create" (.plain "a"))
  let client : Program := .step (.command 0 (.request request)) relay
  have hs : s.pool.Reachable := (Pool.reachable_withShared []).add {} .shared
  obtain ⟨own, news, handout, s₁, s', h, hnews, hemits, hlend, hlisteners, hcreate, hset⟩ :
      ∃ own news handout s₁ s',
        settle (perform 0 (.request request)) s = (.ok own, s₁) ∧
        announcement request own = some ("create", news) ∧ s₁.emitsEvents 0 = true ∧
        settle (lend news) s₁ = (.ok handout, s') ∧
        (s'.emitter 0).listeners "create" = [.plain "a"] ∧
        callsSince 0 .create true s'.trace = 1 ∧ callsSince 0 .set true s'.trace = 0 :=
    ⟨_, _, _, _, _, rfl, rfl, rfl, rfl, rfl, rfl, rfl⟩
  have hannounce : b.Leads ⟨2, .step (.command 0 (.request request)), s⟩ ⟨1, _, _⟩ :=
    Leads.announce h hnews hemits hlend
  rw [hlisteners] at hannounce
  have hreach : b.Reaches ⟨2, .program "main" client (.values []), s⟩ _ :=
    Leads.take.reaches (hannounce.reaches ((Leads.call rfl).reaches (Leads.take.reaches (.refl _))))
  obtain ⟨hmoments, hend, -⟩ := b.accounting 2 client "main" (.values []) hs
  refine ⟨b, s, client, _, hs, hreach, rfl, rfl, ?_, by decide +kernel, ?_⟩
  · obtain ⟨done, hdone, hcount⟩ := (hmoments _ hreach).1
    obtain ⟨n, hn, hn'⟩ := hcount 0 _ rfl
    -- the emit and the call of the handler, which come after the count, are no calls of operations
    obtain rfl : s'.trace ++ [_] ++ [_] = done := hdone
    refine ⟨n, hn, ?_, ?_⟩
    · rw [hn', callsSince_concat, callsSince_concat, hcreate]
      exact congrArg (· + 1) (ite_self 0)
    · rw [hn', callsSince_concat, callsSince_concat, hset]
      exact ite_self 0
  · obtain ⟨done, hdone, hcount⟩ := hend
    obtain ⟨n, hn, hn'⟩ := hcount 0 _ rfl
    obtain rfl : _ = done := hdone
    refine ⟨n, hn, ?_, ?_⟩
    · rw [hn']
      decide +kernel
    · rw [hn']
      decide +kernel

end Behaviour

end TreeStore
