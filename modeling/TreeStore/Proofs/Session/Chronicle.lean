import Mathlib.Data.List.GetD
import TreeStore.Proofs.Messages.History
import TreeStore.Proofs.Session.Accounting

/-!
# Tables of messages over whole runs

A chronicle says from outside what was done: which tables were made, which stores were built and
which table each of them was given, and, table by table, which calls it got and which refusals took
their message from it (`Chronicle`).  It is written for anything that can be done with sessions:
making tables and stores, calling a table itself, and using the stores, with all that handlers do
(`Session.Chronicled`).

What a session comes to is what its chronicle says (`Pool.Follows`, kept by each command).  So a
table answers as the calls on it say, whoever made them, every refusal carries the text of its own
time, and stores that were not given a common table have nothing in common.
-/

namespace TreeStore

open Session

/-! ### Making tables and stores -/

namespace Pool

/-- The pool with one more table. -/
def withTable (p : Pool) (list : List (Int × String)) : Pool :=
  { p with registries := p.registries ++ [Messages.ofList list] }

/-- The pool with one more store, which uses the table it is given, whatever that table holds, or
else one of its own with the messages of its configuration. -/
def withStore (p : Pool) (config : Config) : Option Nat → Pool
  | some n => { p with members := p.members ++ [⟨{ config := config }, n⟩] }
  | none => p.add config .configured

/-- The pool after a call on a table itself. -/
def callTable (p : Pool) (n : Nat) (c : RegistryCall) : Pool :=
  { p with registries := p.registries.set n (c.next (p.messages n)) }

end Pool

namespace Session

def withTable (s : Session) (list : List (Int × String)) : Session :=
  { s with pool := s.pool.withTable list }

def withStore (s : Session) (config : Config) (given : Option Nat) : Session :=
  { s with
    pool := s.pool.withStore config given
    emitters := s.emitters ++ [{}]
    levels := Pool.levelsFor s.levels config }

def callTable (s : Session) (n : Nat) (c : RegistryCall) : Session :=
  { s with pool := s.pool.callTable n c }

end Session

/-! ### Chronicles -/

/-- Something that concerns a table: a call on it, or a refusal that takes its message from it. -/
inductive Deal where
  | call (c : RegistryCall)
  | refusal (e : StoreError)
deriving DecidableEq

namespace Deal

/-- What a command on a store is to the table that the store uses. -/
def of? : Command → Except Fault Answer → Option Deal
  | .registry c, _ => some (.call c)
  | .request _, .error (.refused e) => some (.refusal e)
  | _, _ => none

def write? : Deal → Option RegistryCall
  | call c => if c.writes then some c else none
  | refusal _ => none

end Deal

/-- A store as it was built: its configuration, the table it was given, if any, and the table that
it is to use. -/
structure Built where
  config : Config
  given : Option Nat
  table : Nat

/-- What was done with tables and stores: how many tables were made, the stores in the order in
which they were built, and all that concerns a table, with its number and in order. -/
structure Chronicle where
  tables : Nat := 0
  stores : List Built := []
  deals : List (Nat × Deal) := []

/-- The calls that wrote to a table. -/
def history (deals : List (Nat × Deal)) (n : Nat) : List RegistryCall :=
  deals.filterMap fun d => if d.1 = n then d.2.write? else none

namespace Chronicle

variable (log : Chronicle)

def note (n : Nat) (d : Deal) : Chronicle := { log with deals := log.deals ++ [(n, d)] }

/-- A table is made: this counts as its first replacement. -/
def table (list : List (Int × String)) : Chronicle :=
  { log with
    tables := log.tables + 1
    deals := log.deals ++ [(log.tables, .call (.replace list))] }

/-- A store is built, and a table with it unless it is given one. -/
def store (config : Config) : Option Nat → Chronicle
  | some n => { log with stores := log.stores ++ [⟨config, some n, n⟩] }
  | none =>
    { log.table config.messages.entries with
      stores := log.stores ++ [⟨config, none, log.tables⟩] }

/-- A store is added with its choice of a table: the first table, one that is made for it, or none
that is given. -/
def add (config : Config) : RegistryChoice → Chronicle
  | .shared => log.store config (some 0)
  | .own list => (log.table list).store config (some log.tables)
  | .configured => log.store config none

/-- What an event of a session is to a table. -/
def deal? : Event → Option (Nat × Deal)
  | .performed i c outcome =>
    log.stores[i]?.bind fun b => (Deal.of? c outcome).map fun d => (b.table, d)
  | _ => none

/-- The stores are used, with these events. -/
def follow (events : List Event) : Chronicle :=
  { log with deals := log.deals ++ events.filterMap log.deal? }

end Chronicle

/-- Sessions with what was done to get there.  The one before all is without stores and tables. -/
inductive Session.Chronicled : Session → Chronicle → Prop where
  | start {s : Session} (h : s.pool = {}) : Chronicled s {}
  | table {s : Session} {log : Chronicle} (list : List (Int × String)) :
      Chronicled s log → Chronicled (s.withTable list) (log.table list)
  | store {s : Session} {log : Chronicle} (config : Config) (given : Option Nat)
      (hgiven : ∀ n, given = some n → n < s.pool.registries.length) :
      Chronicled s log → Chronicled (s.withStore config given) (log.store config given)
  | call {s : Session} {log : Chronicle} (n : Nat) (c : RegistryCall)
      (hn : n < s.pool.registries.length) :
      Chronicled s log → Chronicled (s.callTable n c) (log.note n (.call c))
  /-- Somebody uses the stores, and so do the handlers that this calls. -/
  | use {s : Session} {log : Chronicle} (b : Behaviour) (depth : Nat) (name : String)
      (client : Program) (handout : Handout) : Chronicled s log →
      Chronicled (settle (client.run (b.step depth) name handout) s).2
        (log.follow ((settle (client.run (b.step depth) name handout) s).2.trace.drop
          s.trace.length))
  /-- The same in the middle of such a use, be it inside of a handler. -/
  | inside {s : Session} {log : Chronicle} {b : Behaviour} {depth : Nat} {name : String}
      {client : Program} {handout : Handout} {m : Moment}
      (h : b.Reaches ⟨depth, .program name client handout, s⟩ m) : Chronicled s log →
      Chronicled m.session (log.follow (m.session.trace.drop s.trace.length))

/-! ### Histories -/

theorem history_append (deals deals' : List (Nat × Deal)) (n : Nat) :
    history (deals ++ deals') n = history deals n ++ history deals' n := List.filterMap_append

/-- A call on a table has its effect on the history of that table. -/
theorem after_history_call (deals : List (Nat × Deal)) (k n : Nat) (c : RegistryCall) :
    Messages.after (history (deals ++ [(k, .call c)]) n) =
      if k = n then c.next (Messages.after (history deals n))
      else Messages.after (history deals n) := by
  rw [history_append]
  by_cases hk : k = n
  · cases hwrites : c.writes
    · simp [history, Deal.write?, hk, hwrites, RegistryCall.next_of_not_writes hwrites]
    · simp [history, Deal.write?, hk, hwrites, Messages.after_concat]
  · simp [history, hk]

theorem history_refusal (deals : List (Nat × Deal)) (k n : Nat) (e : StoreError) :
    history (deals ++ [(k, .refusal e)]) n = history deals n := by
  rw [history_append]
  simp [history, Deal.write?]

namespace Chronicle

theorem follow_nil (log : Chronicle) : log.follow [] = log := by
  simp [follow]

theorem follow_cons (log : Chronicle) (e : Event) (events : List Event) :
    log.follow (e :: events) = (log.follow [e]).follow events := by
  show { log with deals := log.deals ++ ([e] ++ events).filterMap log.deal? } =
    { log with
      deals := (log.deals ++ [e].filterMap log.deal?) ++ events.filterMap log.deal? }
  rw [List.filterMap_append, List.append_assoc]

section

variable {log : Chronicle}

theorem follow_of_none {e : Event} (h : log.deal? e = none) : log.follow [e] = log := by
  rw [follow, List.filterMap_cons_none h, List.filterMap_nil, List.append_nil]

theorem follow_of_deal {i : Nat} {c : Command} {outcome : Except Fault Answer} {b : Built}
    {d : Deal} (hb : log.stores[i]? = some b) (hd : Deal.of? c outcome = some d) :
    log.follow [.performed i c outcome] = log.note b.table d := by
  have hdeal : log.deal? (.performed i c outcome) = some (b.table, d) := by simp [deal?, hb, hd]
  rw [follow, List.filterMap_cons_some hdeal, List.filterMap_nil, note]

end

end Chronicle

/-! ### What commands do to tables and members -/

/-- The command is a call on the table of its store. -/
def Command.isCall : Command → Bool
  | .registry _ => true
  | _ => false

/-- What a store was built with. -/
def Member.terms (m : Member) : Config × Nat := (m.store.config, m.registry)

namespace Pool

variable {p : Pool} {i : Nat} {m : Member}

theorem run_registry (hm : p.members[i]? = some m) (c : RegistryCall) :
    p.run i (.registry c) =
      (.ok (c.answer (p.messages m.registry)), p.callTable m.registry c) := by
  rw [run, hm]
  rfl

theorem registries_run {c : Command} (h : c.isCall = false) (p : Pool) (i : Nat) :
    (p.run i c).2.registries = p.registries := by
  unfold run
  cases p.members[i]? with
  | none => rfl
  | some m =>
    cases c with
    | registry call => cases h
    | _ => rfl

theorem messages_callTable {n : Nat} (hn : n < p.registries.length) (c : RegistryCall) (k : Nat) :
    (p.callTable n c).messages k = if n = k then c.next (p.messages n) else p.messages k := by
  unfold callTable messages
  by_cases hk : n = k
  · subst hk
    simp [hn]
  · simp [hk]

theorem messages_append (p : Pool) (table : Messages) (k : Nat) :
    { p with registries := p.registries ++ [table] }.messages k =
      if p.registries.length = k then table else p.messages k := by
  unfold messages
  rcases Nat.lt_trichotomy p.registries.length k with hk | rfl | hk
  · rw [if_neg (Nat.ne_of_lt hk), List.getD_eq_default _ _ (Nat.le_of_lt hk),
      List.getD_eq_default _ _ (by simpa using hk)]
  · simp
  · rw [if_neg (Nat.ne_of_gt hk), List.getD_append _ _ _ _ hk]

/-- A command leaves the configurations of the stores and the tables that they use. -/
theorem Reachable.terms_run (hp : p.Reachable) (i : Nat) (c : Command) :
    (p.run i c).2.members.map Member.terms = p.members.map Member.terms := by
  cases hm : p.members[i]? with
  | none => rw [Pool.run, hm]
  | some m =>
    have hs := (hp m (List.mem_of_getElem? hm)).sound
    have hset {s : Store} (hconfig : s.config = m.store.config) :
        (p.setStore i m s).members.map Member.terms = p.members.map Member.terms := by
      refine List.ext_getElem? fun j => ?_
      rw [List.getElem?_map, List.getElem?_map, getElem?_setStore hm]
      split_ifs with hj
      · rw [← hj, hm]
        simp [Member.terms, hconfig]
      · rfl
    cases c with
    | request r =>
      simp only [Pool.run, hm, Store.run]
      rcases hs.perform_cases (p.messages m.registry) r with
        ⟨code, cause, -, h⟩ | ⟨result, g, -, h, -⟩
      · rw [h]
        exact hset rfl
      · rw [h]
        exact hset rfl
    | «exists» key =>
      simp only [Pool.run, hm, Store.run, hs.exists?_ok key]
      exact hset rfl
    | size =>
      simp only [Pool.run, hm, Store.run, hs.size_ok]
      exact hset rfl
    | reset =>
      simp only [Pool.run, hm]
      exact hset rfl
    | _ =>
      simp only [Pool.run, hm]

end Pool

/-! ### Chronicles by themselves -/

namespace Chronicle

/-- What the making of tables and stores sees to: a store that is given a table uses that one; a
table of its own is new, and its history begins with the messages of the configuration.  So two
stores use one table only if the later one was given it. -/
structure Ordered (log : Chronicle) : Prop where
  deals : ∀ d ∈ log.deals, d.1 < log.tables
  stores : ∀ b ∈ log.stores, b.table < log.tables
  given : ∀ b ∈ log.stores, ∀ n, b.given = some n → b.table = n
  own : ∀ b ∈ log.stores, b.given = none →
    ∃ rest, history log.deals b.table = .replace b.config.messages.entries :: rest
  shared : log.stores.Pairwise fun b b' => b.table = b'.table → b'.given = some b.table

section Ordered

variable {log : Chronicle} (h : log.Ordered)
include h

theorem Ordered.history_eq_nil {n : Nat} (hn : log.tables ≤ n) : history log.deals n = [] := by
  refine List.filterMap_eq_nil_iff.mpr fun d hd => if_neg ?_
  exact Nat.ne_of_lt (Nat.lt_of_lt_of_le (h.deals d hd) hn)

theorem Ordered.append {deals : List (Nat × Deal)} (hdeals : ∀ d ∈ deals, d.1 < log.tables) :
    Ordered { log with deals := log.deals ++ deals } where
  deals d hd := (List.mem_append.mp hd).elim (h.deals d) (hdeals d)
  stores := h.stores
  given := h.given
  own b hb hgiven := by
    obtain ⟨rest, hrest⟩ := h.own b hb hgiven
    exact ⟨rest ++ history deals b.table, by rw [history_append, hrest, List.cons_append]⟩
  shared := h.shared

theorem Ordered.note {n : Nat} (hn : n < log.tables) (d : Deal) : (log.note n d).Ordered :=
  h.append fun d' hd' => by rw [List.mem_singleton.mp hd']; exact hn

theorem Ordered.follow (events : List Event) : (log.follow events).Ordered := by
  refine h.append fun d hd => ?_
  obtain ⟨e, -, he⟩ := List.mem_filterMap.mp hd
  cases e with
  | performed i c outcome =>
    obtain ⟨b, hb, hd⟩ := Option.bind_eq_some_iff.mp he
    obtain ⟨d', -, rfl⟩ := Option.map_eq_some_iff.mp hd
    exact h.stores b (List.mem_of_getElem? hb)
  | _ => cases he

theorem Ordered.table (list : List (Int × String)) : (log.table list).Ordered := by
  have hmore : Ordered { log with tables := log.tables + 1 } :=
    { h with
      deals := fun d hd => Nat.lt_succ_of_lt (h.deals d hd)
      stores := fun b hb => Nat.lt_succ_of_lt (h.stores b hb) }
  exact hmore.note (Nat.lt_succ_self log.tables) _

theorem Ordered.build {b : Built} (hb : b.table < log.tables)
    (hgiven : ∀ n, b.given = some n → b.table = n)
    (hown : b.given = none →
      ∃ rest, history log.deals b.table = .replace b.config.messages.entries :: rest)
    (hshared : ∀ b' ∈ log.stores, b'.table = b.table → b.given = some b'.table) :
    Ordered { log with stores := log.stores ++ [b] } where
  deals := h.deals
  stores := List.forall_mem_append.mpr ⟨h.stores, List.forall_mem_singleton.mpr hb⟩
  given := List.forall_mem_append.mpr ⟨h.given, List.forall_mem_singleton.mpr hgiven⟩
  own := List.forall_mem_append.mpr ⟨h.own, List.forall_mem_singleton.mpr hown⟩
  shared := List.pairwise_append.mpr ⟨h.shared, List.pairwise_singleton _ b,
    fun b' hb' => List.forall_mem_singleton.mpr (hshared b' hb')⟩

theorem Ordered.store (config : Config) {given : Option Nat}
    (hgiven : ∀ n, given = some n → n < log.tables) : (log.store config given).Ordered := by
  cases given with
  | some n =>
    refine h.build (hgiven n rfl) (fun k hk => Option.some.inj hk) nofun ?_
    intro b _ hb
    rw [hb]
  | none =>
    refine (h.table config.messages.entries).build (Nat.lt_succ_self log.tables) nofun ?_ ?_
    · intro _
      refine ⟨[], ?_⟩
      show history (log.deals ++ _) log.tables = _
      rw [history_append, h.history_eq_nil (Nat.le_refl log.tables)]
      simp [history, Deal.write?, RegistryCall.writes]
    · -- the new table has a number that no store uses so far
      intro b hb htable
      exact absurd htable (Nat.ne_of_lt (h.stores b hb))

end Ordered

end Chronicle

/-! ### Sessions follow their chronicles -/

/-- Every refusal has the text that was left for its code when it was made. -/
def Timely (deals : List (Nat × Deal)) : Prop :=
  ∀ before n e after, deals = before ++ (n, .refusal e) :: after →
    Says (history before n) e.code e.message

theorem Timely.concat {deals : List (Nat × Deal)} (h : Timely deals) {d : Nat × Deal}
    (hd : ∀ n e, d = (n, .refusal e) → Says (history deals n) e.code e.message) :
    Timely (deals ++ [d]) := by
  intro before n e after hsplit
  rcases split_append hsplit with ⟨mid, hbefore, -⟩ | ⟨mid, rfl, hlast⟩
  · exact h before n e mid hbefore
  · obtain ⟨rfl, hrefusal⟩ := split_singleton hlast
    rw [List.append_nil]
    exact hd n e hrefusal.symm

namespace Pool

/-- The tables, the stores and the refusals are those that the chronicle tells of. -/
structure Follows (p : Pool) (log : Chronicle) : Prop where
  reachable : p.Reachable
  count : p.registries.length = log.tables
  messages (n : Nat) : p.messages n = Messages.after (history log.deals n)
  terms : p.members.map Member.terms = log.stores.map fun b => (b.config, b.table)
  bound : ∀ b ∈ log.stores, b.table < log.tables
  timely : Timely log.deals

section Follows

variable {p p' : Pool} {log : Chronicle} (h : p.Follows log)
include h

theorem Follows.store_of_member {i : Nat} {m : Member} (hm : p.members[i]? = some m) :
    ∃ b, log.stores[i]? = some b ∧ m.store.config = b.config ∧ m.registry = b.table := by
  have hterms := congrArg (·[i]?) h.terms
  simp only [List.getElem?_map, hm, Option.map_some] at hterms
  obtain ⟨b, hb, heq⟩ := Option.map_eq_some_iff.mp hterms.symm
  exact ⟨b, hb, (congrArg Prod.fst heq).symm, (congrArg Prod.snd heq).symm⟩

theorem Follows.length_members : p.members.length = log.stores.length := by
  simpa using congrArg List.length h.terms

theorem Follows.congr (hp' : p'.Reachable) (hregistries : p'.registries = p.registries)
    (hterms : p'.members.map Member.terms = p.members.map Member.terms) : p'.Follows log := by
  have hmessages (n : Nat) : p'.messages n = p.messages n := by
    rw [Pool.messages, Pool.messages, hregistries]
  exact
    { h with
      reachable := hp'
      count := by rw [hregistries, h.count]
      messages := fun n => by rw [hmessages, h.messages]
      terms := hterms.trans h.terms }

theorem Follows.callTable {n : Nat} (hn : n < p.registries.length) (c : RegistryCall) :
    (p.callTable n c).Follows (log.note n (.call c)) where
  reachable := h.reachable
  count := (List.length_set ..).trans h.count
  messages k := by
    rw [messages_callTable hn, Chronicle.note, after_history_call, h.messages, h.messages]
    by_cases hk : n = k
    · rw [hk]
    · rw [if_neg hk, if_neg hk]
  terms := h.terms
  bound := h.bound
  timely := h.timely.concat nofun

theorem Follows.refuse {n : Nat} {e : StoreError}
    (he : Says (history log.deals n) e.code e.message) :
    p.Follows (log.note n (.refusal e)) :=
  { h with
    messages := fun k => by rw [Chronicle.note, history_refusal, h.messages]
    timely := h.timely.concat fun k e' heq => by cases heq; exact he }

theorem Follows.withTable (list : List (Int × String)) :
    (p.withTable list).Follows (log.table list) where
  reachable := h.reachable
  count := by simp [Pool.withTable, Chronicle.table, h.count]
  messages k := by
    rw [Pool.withTable, messages_append, Chronicle.table, after_history_call, h.messages, h.count]
    rfl
  terms := h.terms
  bound b hb := Nat.lt_succ_of_lt (h.bound b hb)
  timely := h.timely.concat nofun

theorem Follows.build (config : Config) (given : Option Nat) {n : Nat}
    (hn : n < p.registries.length) :
    (p.withStore config (some n)).Follows
      { log with stores := log.stores ++ [⟨config, given, n⟩] } where
  reachable := List.forall_mem_append.mpr ⟨h.reachable, List.forall_mem_singleton.mpr (.new config)⟩
  count := h.count
  messages := h.messages
  terms := by simp [Pool.withStore, h.terms, Member.terms]
  bound := List.forall_mem_append.mpr
    ⟨h.bound, List.forall_mem_singleton.mpr (Nat.lt_of_lt_of_eq hn h.count)⟩
  timely := h.timely

theorem Follows.withStore (config : Config) {given : Option Nat}
    (hgiven : ∀ n, given = some n → n < p.registries.length) :
    (p.withStore config given).Follows (log.store config given) := by
  cases given with
  | some n => exact h.build config (some n) (hgiven n rfl)
  | none =>
    have hlast : p.registries.length < (p.withTable config.messages.entries).registries.length := by
      simp [Pool.withTable]
    have hbuild := (h.withTable config.messages.entries).build config none hlast
    rw [h.count] at hbuild
    have hsame : p.withStore config none = (p.withTable config.messages.entries).withStore config
        (some log.tables) := by
      rw [← h.count, Pool.withTable, Messages.ofList_entries]
      rfl
    rw [hsame]
    exact hbuild

theorem Follows.run_of_not_isCall (i : Nat) {c : Command} (hc : c.isCall = false) :
    (p.run i c).2.Follows log :=
  h.congr (h.reachable.run i c) (registries_run hc p i) (h.reachable.terms_run i c)

/-- Commands keep to the chronicle. -/
theorem Follows.run (i : Nat) (c : Command) :
    (p.run i c).2.Follows (log.follow [.performed i c (p.run i c).1]) := by
  cases hm : p.members[i]? with
  | none =>
    have hb : log.stores[i]? = none := by
      rw [List.getElem?_eq_none_iff] at hm ⊢
      rwa [← h.length_members]
    rw [Chronicle.follow_of_none (by simp [Chronicle.deal?, hb]), Pool.run, hm]
    exact h
  | some m =>
    obtain ⟨b, hb, -, htable⟩ := h.store_of_member hm
    have hsilent {o : Except Fault Answer} (hc : c.isCall = false) (hdeal : Deal.of? c o = none) :
        (p.run i c).2.Follows (log.follow [.performed i c o]) := by
      rw [Chronicle.follow_of_none (by simp [Chronicle.deal?, hb, hdeal])]
      exact h.run_of_not_isCall i hc
    cases c with
    | registry call =>
      have hn : b.table < p.registries.length := by
        rw [h.count]
        exact h.bound b (List.mem_of_getElem? hb)
      rw [run_registry hm, Chronicle.follow_of_deal hb rfl, htable]
      exact h.callTable hn call
    | request r =>
      rcases h.reachable.run_proper hm (.request r) with ⟨result, hown⟩ | ⟨e, hown, -, htext, -⟩
      · rw [hown]
        exact hsilent rfl rfl
      · rw [hown, Chronicle.follow_of_deal hb rfl]
        rw [h.messages, htable] at htext
        have he := (Messages.get_eq_iff fun _ _ => Messages.get?_after).mp htext.symm
        exact (h.refuse he).run_of_not_isCall i rfl
    | _ => exact hsilent rfl rfl

theorem Follows.runAll {trace : List Event}
    (hrun : p.runAll (calls trace) = (outcomes trace, p')) : p'.Follows (log.follow trace) := by
  induction trace generalizing p log with
  | nil =>
    cases hrun
    rw [Chronicle.follow_nil]
    exact h
  | cons e rest ih =>
    rw [Chronicle.follow_cons]
    cases e with
    | performed j c outcome =>
      rw [show calls (.performed j c outcome :: rest) = (j, c) :: calls rest from rfl,
        show outcomes (.performed j c outcome :: rest) = outcome :: outcomes rest from rfl,
        runAll_cons] at hrun
      obtain ⟨hout, rfl⟩ := Prod.mk.inj hrun
      obtain ⟨rfl, hrest⟩ := List.cons_eq_cons.mp hout
      exact ih (h.run j c) (Prod.ext hrest rfl)
    | _ =>
      rw [Chronicle.follow_of_none rfl]
      exact ih h hrun

end Follows

end Pool

namespace Session

/-- So do runs, whatever the handlers do. -/
theorem follows_of_linear {b : Behaviour} {s s' : Session} {log : Chronicle}
    (h : s.pool.Follows log) (hlinear : b.Linear s s') :
    s'.pool.Follows (log.follow (s'.trace.drop s.trace.length)) := by
  obtain ⟨done, htrace, hrun, -⟩ := hlinear
  rw [htrace, List.drop_left]
  exact h.runAll hrun

theorem Chronicled.follows {s : Session} {log : Chronicle} (h : Chronicled s log) :
    s.pool.Follows log ∧ log.Ordered := by
  induction h with
  | start h =>
    rw [h]
    refine ⟨⟨nofun, rfl, fun n => rfl, rfl, nofun, ?_⟩, ⟨nofun, nofun, nofun, nofun, .nil⟩⟩
    intro before n e after hsplit
    simp at hsplit
  | table list _ ih => exact ⟨ih.1.withTable list, ih.2.table list⟩
  | store config given hgiven _ ih =>
    refine ⟨ih.1.withStore config hgiven, ih.2.store config fun n hn => ?_⟩
    rw [← ih.1.count]
    exact hgiven n hn
  | call n c hn _ ih => exact ⟨ih.1.callTable hn c, ih.2.note (ih.1.count ▸ hn) _⟩
  | @use s log b depth name client handout _ ih =>
    have hlinear := b.law_linear.program (Behaviour.linear_step depth) name client handout s
    exact ⟨follows_of_linear ih.1 hlinear, ih.2.follow _⟩
  | @inside _ _ b _ _ _ _ _ h _ ih =>
    have hlinear := b.law_linear.reaches Behaviour.linear_emitted Behaviour.linear_entered h
    exact ⟨follows_of_linear ih.1 hlinear, ih.2.follow _⟩

/-- The sessions that are built store by store have their chronicles. -/
theorem Chronicled.addStore {s : Session} {log : Chronicle} (h : Chronicled s log)
    (hshared : 0 < s.pool.registries.length) (config : Config) (choice : RegistryChoice) :
    Chronicled (s.addStore config choice) (log.add config choice) := by
  cases choice with
  | shared => exact h.store config (some 0) fun n hn => Option.some.inj hn ▸ hshared
  | own list =>
    have hlast : log.tables < (s.withTable list).pool.registries.length := by
      simp [Session.withTable, Pool.withTable, h.follows.1.count]
    show Chronicled ((s.withTable list).withStore config (some s.pool.registries.length)) _
    rw [h.follows.1.count]
    exact (h.table list).store config (some log.tables) fun n hn => Option.some.inj hn ▸ hlast
  | configured => exact h.store config none nofun

/-- At any time, at the top and inside of handlers.

A table answers as the calls on it say that were made since it was made, whoever made them: a code
has the text of the latest call with the code that no replacement has followed.  A call through a
store is a call on the table of the store.  Merges that have no code in common lead to the same
table in any order, and lose nothing.

A refusal carries the text that its store's table has for its code when it is made, and it is this
refusal that the chronicle keeps and that the caller sees, unless a handler raises a fault of its
own, whatever becomes of the table in the meantime.

A store uses the table that it was given, be it empty, for good, and keeps its configuration.  One
that was given none has a table of its own that starts with the messages of its configuration, the
same at any time, and shares it only with later ones that are given it.  A call on the table of one
store leaves the messages of every other table, and all stores. -/
theorem Chronicled.latest_text {s : Session} {log : Chronicle} (h : Chronicled s log) :
    (∀ n, (s.pool.messages n).Tells (history log.deals n)) ∧
    (∀ i m c, s.pool.members[i]? = some m → s.pool.run i (.registry c) =
      (.ok (c.answer (s.pool.messages m.registry)), s.pool.callTable m.registry c)) ∧
    (∀ n before (lists : List (List (Int × String))),
      history log.deals n = before ++ lists.map .merge → lists.Pairwise CodesApart →
      (∀ code text, Leaves (history log.deals n) code text ↔
        (∃ list ∈ lists, list.reverse.lookup code = some text) ∨
          (∀ list ∈ lists, list.reverse.lookup code = none) ∧ Leaves before code text) ∧
      ∀ s' log' n' (lists' : List (List (Int × String))), Chronicled s' log' →
        history log'.deals n' = before ++ lists'.map .merge → lists'.Perm lists →
        s'.pool.messages n' = s.pool.messages n) ∧
    (∀ before n e after, log.deals = before ++ (n, .refusal e) :: after →
      Says (history before n) e.code e.message) ∧
    (∀ (b : Behaviour) i m r e seen s', s.pool.members[i]? = some m →
      (s.pool.run i (.request r)).1 = .error (.refused e) →
      b.Took (.command i (.request r)) seen s s' →
      Says (history log.deals m.registry) e.code e.message ∧
      (∃ rest, (log.follow (s'.trace.drop s.trace.length)).deals =
        log.deals ++ (m.registry, .refusal e) :: rest) ∧
      (seen = .error (.refused e) ∨ ∃ f event s₁, seen = .error f ∧ b.Failed i event f s₁ s')) ∧
    s.pool.members.map (fun m => (m.store.config, m.registry)) =
      log.stores.map (fun b => (b.config, b.table)) ∧
    (∀ b ∈ log.stores, (∀ n, b.given = some n → b.table = n) ∧ (b.given = none →
      ∃ rest, history log.deals b.table = .replace b.config.messages.entries :: rest)) ∧
    log.stores.Pairwise (fun b b' => b.table = b'.table → b'.given = some b.table) ∧
    (∀ i m c n, s.pool.members[i]? = some m → n ≠ m.registry →
      (s.pool.run i (.registry c)).2.messages n = s.pool.messages n ∧
      (s.pool.run i (.registry c)).2.members = s.pool.members) ∧
    ∀ config, (s.pool.withStore config none).messages s.pool.registries.length =
      config.messages := by
  obtain ⟨hfollows, hordered⟩ := h.follows
  refine ⟨fun n => ?_, fun i m c hm => Pool.run_registry hm c, fun n before lists hhistory hapart =>
    ⟨fun code text => ?_, fun s' log' n' lists' h' hhistory' hperm => ?_⟩, hfollows.timely, ?_,
    hfollows.terms, fun b hb => ⟨hordered.given b hb, hordered.own b hb⟩, hordered.shared, ?_,
    fun config => ?_⟩
  · rw [hfollows.messages]
    exact Messages.tells_after _
  · rw [hhistory]
    exact leaves_merges hapart
  · rw [hfollows.messages, h'.follows.1.messages, hhistory, hhistory']
    exact after_merges_perm hapart hperm
  · intro b i m r e seen s' hm hown htook
    obtain ⟨built, hbuilt, -, htable⟩ := hfollows.store_of_member hm
    obtain ⟨rest, htrace, hseen⟩ := Behaviour.took_command htook
    rw [hown] at htrace hseen
    refine ⟨?_, ?_, hseen.imp_right ?_⟩
    · rcases hfollows.reachable.run_proper hm (.request r) with ⟨result, h⟩ | ⟨e', h, -, htext, -⟩
      · cases hown.symm.trans h
      · cases hown.symm.trans h
        rw [hfollows.messages] at htext
        exact (Messages.get_eq_iff fun _ _ => Messages.get?_after).mp htext.symm
    · rw [htrace, List.drop_left, htable]
      refine ⟨rest.filterMap log.deal?, ?_⟩
      have hdeal : log.deal? (.performed i (.request r) (.error (.refused e))) =
          some (built.table, .refusal e) := by simp [Chronicle.deal?, hbuilt, Deal.of?]
      rw [Chronicle.follow, List.filterMap_cons_some hdeal]
    · rintro ⟨f, event, s₁, hf, hfailed, -⟩
      exact ⟨f, event, s₁, hf, hfailed⟩
  · intro i m c n hm hn
    obtain ⟨built, hbuilt, -, htable⟩ := hfollows.store_of_member hm
    have hbound : m.registry < s.pool.registries.length := by
      rw [hfollows.count, htable]
      exact hfollows.bound built (List.mem_of_getElem? hbuilt)
    rw [Pool.run_registry hm]
    refine ⟨?_, rfl⟩
    rw [Pool.messages_callTable hbound, if_neg hn.symm]
  · exact (Pool.messages_append s.pool config.messages _).trans (if_pos rfl)

/-- Two stores share an empty table, a third one has its own.  A handler of refusals gives the code
at hand a text, through the other store: the refusal that called it keeps the empty text, the next
one has the new text, and the third store still has its own. -/
theorem latest_text_shared :
    let deals : List (Nat × Deal) :=
      [(0, .call (.replace [])), (1, .call (.replace Messages.default.entries)),
        (0, .refusal ⟨ErrorCode.exists, "", "/a"⟩),
        (0, .call (.merge [(ErrorCode.exists, "taken")])),
        (0, .refusal ⟨ErrorCode.exists, "taken", "/a"⟩),
        (0, .call (.merge [(ErrorCode.exists, "taken")])),
        (1, .refusal ⟨ErrorCode.exists, "Target is exists", "/a"⟩)]
    ∃ s log, Chronicled s log ∧ log.deals = deals ∧
      Says (history (deals.take 2) 0) ErrorCode.exists "" ∧
      RegistryCall.answer (s.pool.messages 0) (.get ErrorCode.exists) = .text "taken" ∧
      RegistryCall.answer (s.pool.messages 1) (.get ErrorCode.exists) =
        .text "Target is exists" := by
  intro deals
  let b := Behaviour.ofHandlers
    [("fix", [.step (.command 1 (.registry (.merge [(ErrorCode.exists, "taken")])))])]
  let create (i : Nat) (next : Program) : Program :=
    .step (.command i (.request (.create "/a" false none))) fun _ => next
  let client : Program :=
    .step (.on 0 "error" "fix") fun _ =>
      create 0 (create 0 (create 0 (create 2 (create 2 .finish))))
  let s :=
    (((Session.withShared []).addStore {} .shared).addStore {} .shared).addStore {} .configured
  have hshared : Chronicled (Session.withShared []) _ := .table [] (.start (s := {}) rfl)
  have hs : Chronicled s _ :=
    ((hshared.addStore Nat.zero_lt_one {} .shared).addStore Nat.zero_lt_one {} .shared).addStore
      Nat.zero_lt_one {} .configured
  obtain ⟨s', log, hused, hdeals⟩ : ∃ s' log, Chronicled s' log ∧ log.deals = deals :=
    ⟨_, _, hs.use b 3 "main" client (.values []), by decide +kernel⟩
  obtain ⟨htells, -, -, htimely, -⟩ := hused.latest_text
  refine ⟨s', log, hused, hdeals, htimely _ 0 ⟨_, _, _⟩ _ hdeals, ?_, ?_⟩
  · refine ((htells 0).get _ _).mpr (Or.inl
      ⟨[.replace [], .merge [(ErrorCode.exists, "taken")]],
        .merge [(ErrorCode.exists, "taken")], [], ?_, rfl, nofun⟩)
    rw [hdeals]
    rfl
  · refine ((htells 1).get _ _).mpr (Or.inl
      ⟨[], .replace Messages.default.entries, [], ?_, rfl, nofun⟩)
    rw [hdeals]
    rfl

end Session

end TreeStore
