import TreeStore.Store

/-!
# Calls and the counters

A call is blind if it neither reads the counters nor changes them: on a store with other counters it
does the same.  Every body is blind, and so is every question; a whole operation adds its one count,
and counts commute.  So two stores that differ in their counters only are told apart by nothing but
the counters.
-/

namespace TreeStore

/-- The counters as if no call had failed. -/
def Stats.withoutFailures (st : Stats) : Stats := { st with fail := {} }

/-! ### Counts commute -/

theorem Tally.bump_comm (t : Tally) (a b : Action) : (t.bump a).bump b = (t.bump b).bump a := by
  cases a <;> cases b <;> rfl

theorem Stats.record_comm (s : Stats) (a b : Action) (ok ok' : Bool) :
    (s.record a ok).record b ok' = (s.record b ok').record a ok := by
  cases ok with
  | true =>
    cases ok' with
    | true => simp [record, Tally.bump_comm]
    | false => rfl
  | false =>
    cases ok' with
    | true => rfl
    | false => simp [record, Tally.bump_comm]

namespace Store

/-- The store with changed counters. -/
def mapStats (s : Store) (f : Stats → Stats) : Store := { s with stats := f s.stats }

/-- The end of a call, with a change to the store it leaves. -/
def after {α : Type} (f : Store → Store) :
    EStateM.Result Fault Store α → EStateM.Result Fault Store α
  | .ok a s => .ok a (f s)
  | .error e s => .error e (f s)

/-- The call neither reads the counters nor changes them. -/
def Blind {α : Type} (c : Call α) : Prop :=
  ∀ s f, c (s.mapStats f) = after (·.mapStats f) (c s)

/-! ### Blind calls -/

section Blind

variable {α β : Type}

theorem blind_pure (a : α) : Blind (pure a : Call α) := fun _ _ => rfl

theorem blind_throw (e : Fault) : Blind (throw e : Call α) := fun _ _ => rfl

theorem Blind.bind {c : Call α} {k : α → Call β} (hc : Blind c) (hk : ∀ a, Blind (k a)) :
    Blind (c >>= k) := by
  intro s f
  show EStateM.bind c k (s.mapStats f) = after _ (EStateM.bind c k s)
  rw [EStateM.bind, EStateM.bind, hc s f]
  cases c s with
  | ok a s' => exact hk a s' f
  | error e s' => rfl

/-- Reading a part of the store that does not depend on the counters. -/
theorem Blind.get {k : Store → Call β} (hk : ∀ s, Blind (k s))
    (h : ∀ s f, k (s.mapStats f) = k s) : Blind (get >>= k) := by
  intro s f
  show k (s.mapStats f) (s.mapStats f) = after _ (k s s)
  rw [h s f, hk s s f]

theorem Blind.ite {p : Prop} [Decidable p] {c d : Call α} (hc : Blind c) (hd : Blind d) :
    Blind (if p then c else d) := by
  split
  · exact hc
  · exact hd

theorem Blind.locked {side : Lock.Side} {body : Call α} (hb : Blind body) :
    Blind (locked side body) := by
  intro s f
  have h : ∀ l, body { s.mapStats f with lock := l } =
      after (·.mapStats f) (body { s with lock := l }) := fun l => hb { s with lock := l } f
  have hlock : (s.mapStats f).lock = s.lock := rfl
  rw [Store.locked, Store.locked, hlock]
  cases s.lock.tryAcquire? side with
  | none => rfl
  | some l =>
    simp only [h]
    cases body { s with lock := l } with
    | ok a s' =>
      have hlock' : (s'.mapStats f).lock = s'.lock := rfl
      simp only [after, hlock']
      cases s'.lock.release? side <;> rfl
    | error e s' =>
      have hlock' : (s'.mapStats f).lock = s'.lock := rfl
      simp only [after, hlock']
      cases s'.lock.release? side <;> rfl

theorem blind_refuse (messages : Messages) (code : Int) (cause : String) :
    Blind (refuse messages code cause : Call α) := fun _ _ => rfl

theorem blind_ofExcept (e : Except Fault α) : Blind (ofExcept e) := by
  cases e with
  | ok a => exact blind_pure a
  | error f => exact blind_throw f

theorem blind_vertex (i : Nat) : Blind (vertex i) := fun _ _ => rfl

theorem blind_resolve (key : String) : Blind (resolve key) := fun _ _ => rfl

theorem blind_snapshot (i : Nat) : Blind (snapshot i) := fun _ _ => rfl

theorem blind_newNode (key : String) (isDir : Bool) (value : Option String) :
    Blind (newNode key isDir value) := fun _ _ => rfl

theorem blind_attach (directory child : Nat) : Blind (attach directory child) := by
  intro s f
  have hgraph : (s.mapStats f).graph = s.graph := rfl
  rw [attach, attach, hgraph]
  cases s.graph.addChild directory child with
  | ok g => rfl
  | error e => rfl

theorem blind_detach (directory : Nat) (name : String) : Blind (detach directory name) :=
  fun _ _ => rfl

theorem blind_setValue (i : Nat) (value : Option String) : Blind (setValue i value) :=
  fun _ _ => rfl

theorem blind_parentOf (v : Vertex) : Blind (parentOf v) := by
  unfold parentOf
  cases v.parent with
  | none => exact blind_throw _
  | some p => exact blind_pure p

/-! ### The bodies -/

variable (messages : Messages) (key : String) (isDir recursive : Bool) (value : Option String)

theorem blind_locate (path : String) (r : Resolution Nat) : Blind (locate messages path r) := by
  cases r with
  | found node parent => exact blind_pure node
  | missing parent names => exact blind_refuse messages _ path
  | blocked leaf parent names =>
    exact (blind_vertex leaf).bind fun v => blind_refuse messages _ v.key

theorem blind_build (path : String) (names : List String) (parent : Nat) :
    Blind (build path isDir value names parent) := by
  induction names generalizing parent with
  | nil =>
    exact (blind_newNode path isDir value).bind fun node =>
      (blind_attach parent node).bind fun _ => blind_pure node
  | cons name rest ih =>
    cases rest with
    | nil =>
      exact (blind_newNode path isDir value).bind fun node =>
        (blind_attach parent node).bind fun _ => blind_pure node
    | cons next more =>
      exact (blind_vertex parent).bind fun v => (blind_newNode _ true none).bind fun directory =>
        (blind_attach parent directory).bind fun _ => ih directory

theorem blind_readNode (sorted : Bool) : Blind (readNode messages key recursive sorted) :=
  (blind_resolve key).bind fun r => (blind_locate messages _ r).bind fun _ =>
    .get (fun _ => blind_pure _) fun _ _ => rfl

theorem blind_createNode : Blind (createNode messages key isDir value) := by
  refine (blind_resolve key).bind fun r => ?_
  cases r with
  | found node parent => exact blind_refuse messages _ _
  | blocked leaf parent names =>
    exact (blind_vertex leaf).bind fun v => blind_refuse messages _ v.key
  | missing parent names =>
    exact (blind_build isDir value _ names parent).bind fun node =>
      (blind_snapshot node).bind fun n => blind_ofExcept _

theorem blind_setNode : Blind (setNode messages key isDir value) := by
  refine (blind_resolve key).bind fun r => .ite (blind_refuse messages _ _) ?_
  cases r with
  | blocked leaf parent names =>
    exact (blind_vertex leaf).bind fun v => blind_refuse messages _ v.key
  | missing parent names =>
    exact (blind_build isDir value _ names parent).bind fun node =>
      (blind_snapshot node).bind fun n => blind_ofExcept _
  | found old parent =>
    exact (blind_snapshot old).bind fun prev => (blind_vertex old).bind fun v =>
      (blind_newNode v.key isDir value).bind fun node => (blind_vertex old).bind fun w =>
        (blind_parentOf w).bind fun d => (blind_attach d node).bind fun _ =>
          (blind_snapshot node).bind fun n => blind_ofExcept _

theorem blind_updateNode : Blind (updateNode messages key value) :=
  (blind_resolve key).bind fun r => (blind_locate messages _ r).bind fun node =>
    (blind_vertex node).bind fun _ => .ite
      ((blind_vertex node).bind fun v => blind_refuse messages _ v.key)
      ((blind_snapshot node).bind fun _ => (blind_setValue node value).bind fun _ =>
        (blind_snapshot node).bind fun _ => blind_ofExcept _)

theorem blind_deleteNode (dir : Bool) : Blind (deleteNode messages key recursive dir) := by
  refine (blind_resolve key).bind fun r => .ite (blind_refuse messages _ _) ?_
  refine (blind_locate messages _ r).bind fun node => (blind_vertex node).bind fun v => ?_
  refine .ite (blind_refuse messages _ _) (.ite (blind_refuse messages _ _) ?_)
  exact (blind_snapshot node).bind fun last => (blind_parentOf v).bind fun d =>
    (blind_detach d v.name).bind fun _ => blind_ofExcept _

/-! ### Whole operations -/

theorem blind_operation (r : Request) : Blind (operation messages r) := by
  cases r with
  | get key recursive sorted =>
    rw [operation]
    exact .get (fun _ => (blind_readNode messages key recursive _).locked.bind fun _ =>
      blind_ofExcept _) fun _ _ => rfl
  | create key isDir value =>
    rw [operation]
    exact (blind_createNode messages key isDir value).locked
  | set key isDir value =>
    rw [operation]
    exact (blind_setNode messages key isDir value).locked
  | update key value =>
    rw [operation]
    exact (blind_updateNode messages key value).locked
  | delete key recursive dir =>
    rw [operation]
    exact (blind_deleteNode messages key recursive dir).locked

theorem blind_exists? : Blind (exists? key) :=
  .locked (.get (fun _ => blind_pure _) fun _ _ => rfl)

theorem blind_size : Blind size := .locked (.get (fun _ => blind_pure _) fun _ _ => rfl)

theorem run_after {c : Call α} {s s' : Store} {f : Store → Store} (h : c s' = after f (c s)) :
    run c s' = ((run c s).1, f (run c s).2) := by
  rw [run, run, h]
  cases c s with
  | ok a t => rfl
  | error e t => rfl

/-- A question after another count. -/
theorem Blind.run_count {c : Call α} (hc : Blind c) (s : Store) (a : Action) (ok : Bool) :
    run c (s.count a ok) = ((run c s).1, (run c s).2.count a ok) :=
  run_after (hc s fun st => st.record a ok)

/-- A whole operation after another count: the same, and the other count stays. -/
theorem run_perform_count (r : Request) (s : Store) (a : Action) (ok : Bool) :
    run (perform messages r) (s.count a ok) =
      ((run (perform messages r) s).1, (run (perform messages r) s).2.count a ok) := by
  refine @run_after _ _ s _ (·.count a ok) ?_
  have h : operation messages r (s.count a ok) = after (·.count a ok) (operation messages r s) :=
    blind_operation messages r s fun st => st.record a ok
  have hcomm (s' : Store) (ok' : Bool) :
      (s'.count a ok).count r.action ok' = (s'.count r.action ok').count a ok := by
    rw [count, count, count, count, Stats.record_comm]
  rw [perform, perform, h]
  cases operation messages r s with
  | ok result s' => simp only [after, hcomm]
  | error f s' =>
    cases f with
    | refused e => simp only [after, hcomm]
    | _ => rfl

end Blind

/-! ### Failures forgotten -/

/-- The store as if no call had failed. -/
def withoutFailures (s : Store) : Store := s.mapStats Stats.withoutFailures

theorem withoutFailures_failure (s : Store) (a : Action) :
    (s.count a false).withoutFailures = s.withoutFailures := rfl

/-- A call that succeeds does so without the failures before it, too. -/
theorem perform_withoutFailures {messages : Messages} {r : Request} {s s' : Store}
    {result : Result} (h : perform messages r s = .ok result s') :
    perform messages r s.withoutFailures = .ok result s'.withoutFailures := by
  have hblind : operation messages r s.withoutFailures =
      after withoutFailures (operation messages r s) :=
    blind_operation messages r s Stats.withoutFailures
  rw [perform] at h ⊢
  rw [hblind]
  cases hop : operation messages r s with
  | ok answer t =>
    rw [hop] at h
    cases h
    rfl
  | error f t =>
    rw [hop] at h
    cases f <;> cases h

end Store

end TreeStore
