import Mathlib.Data.List.Basic
import Mathlib.Logic.Relation
import TreeStore.Log.Handlers

/-!
# The handlers of the store logger over whole runs

The package logger and the store logger both keep account of the handlers that the latter attached.
The two accounts stay in step (`InStep`), whatever is done with the store logger and whatever others
do with handlers of their own in between (`Moves`): a handler is listed, attached and open until it
is disposed of, and after that it is neither.  A new configuration starts from the handlers of
others alone.
-/

namespace TreeStore.Log

namespace Handler

/-- The store logger made it. -/
def isOwn (h : Handler) : Bool := h.sink != .foreign

def shut (h : Handler) : Handler := { h with isOpen := false }

/-- What others leave to a handler of the store logger, whatever they make of its level and of the
form of its lines. -/
def marks (h : Handler) : Sink × Nat × Bool := (h.sink, h.siteFilters, h.isOpen)

/-- A new handler of the store logger. -/
def made (sink : Sink) (level : Level) : Handler where
  sink := sink
  level := level.value
  format := if level = .debug then .withSite else .plain
  siteFilters := 1
  isOpen := true

theorem isOwn_made {sink : Sink} (hsink : sink ≠ .foreign) (level : Level) :
    (made sink level).isOwn = true := bne_iff_ne.mpr hsink

end Handler

namespace State

/-- The handler of this number, if it is one of the store logger. -/
def own? (s : State) (i : Nat) : Option Handler := (s.handler? i).filter Handler.isOwn

def own (s : State) (i : Nat) : Bool := (s.own? i).isSome

/-- The handlers of others that are attached. -/
def foreign (s : State) : List Nat := s.attached.filter fun i => !s.own i

/-- The handler has been detached and closed. -/
def Disposed (s : State) (i : Nat) : Prop :=
  i ∉ s.attached ∧ ∃ h, s.own? i = some h ∧ h.isOpen = false

/-- All that the logging of the process knows of handlers. -/
def registered (s : State) : List Handler × List Nat × List Nat := (s.handlers, s.attached, s.owned)

/-- Nobody has made a handler so far. -/
def Fresh (s : State) : Prop := s.registered = ([], [], [])

/-- What others can do.  They make, attach, detach and close handlers of their own as they like.
The handlers of the store logger stay attached or not as they are, in their order, and none is
closed, opened or given a filter. -/
structure Others (s s' : State) : Prop where
  owned : s'.owned = s.owned
  attached : s'.attached.filter s'.own = s.attached.filter s.own
  marks (i : Nat) : (s'.own? i).map Handler.marks = (s.own? i).map Handler.marks
  known : ∀ i ∈ s'.attached, i < s'.handlers.length

/-- One move: a step of this package, or something that others do. -/
inductive Moves : State → State → Prop where
  | step (s : State) (t : Step) : Moves s (s.step t).2
  | others {s s' : State} (h : Others s s') : Moves s s'

/-- The account of the store logger and that of the package logger agree. -/
structure InStep (s : State) : Prop where
  known : ∀ i ∈ s.attached, i < s.handlers.length
  listed : s.attached.filter s.own = s.owned
  ordered : s.owned.Pairwise (· < ·)
  kept : ∀ i ∈ s.owned, ∃ h, s.own? i = some h ∧ h.isOpen = true ∧ h.siteFilters = 1
  shut : ∀ i h, s.own? i = some h → i ∉ s.owned → h.isOpen = false

/-- The handlers of others are left alone: those that are attached stay so, in their order, and
none is changed.  The store logger does not give its own away either. -/
structure Spares (s s' : State) : Prop where
  foreign : s'.foreign = s.foreign
  handlers : ∀ i h, s.handler? i = some h → h.isOwn = false → s'.handler? i = some h
  own : ∀ i, s.own i = true → s'.own i = true

/-! ### Handlers by number -/

variable {s s' : State}

theorem own?_eq_some {i : Nat} {h : Handler} :
    s.own? i = some h ↔ s.handler? i = some h ∧ h.isOwn = true := Option.filter_eq_some_iff

theorem own_eq_true {i : Nat} : s.own i = true ↔ ∃ h, s.own? i = some h := Option.isSome_iff_exists

theorem lt_of_own {i : Nat} (hi : s.own i = true) : i < s.handlers.length := by
  obtain ⟨h, hi⟩ := own_eq_true.mp hi
  exact (List.getElem?_eq_some_iff.mp (own?_eq_some.mp hi).1).1

theorem InStep.lt_of_mem_owned (h : s.InStep) {i : Nat} (hi : i ∈ s.owned) :
    i < s.handlers.length := by
  obtain ⟨g, hg, -⟩ := h.kept i hi
  exact lt_of_own (own_eq_true.mpr ⟨g, hg⟩)

/-! ### Steps that do not concern handlers -/

theorem registered_emit (s : State) (sink : Sink) (text : String) :
    (s.emit sink text).registered = s.registered := by
  cases sink <;> rfl

theorem registered_deliver (s : State) (r : Record) (site : String) (i : Nat) :
    (s.deliver r site i).registered = s.registered := by
  unfold deliver
  split
  · split
    · exact registered_emit ..
    · rfl
  · rfl

theorem registered_log (s : State) (r : Record) (site : String) :
    (s.log r site).registered = s.registered := by
  have hfold (is : List Nat) :
      (is.foldl (fun s i => s.deliver r site i) s).registered = s.registered := by
    induction is generalizing s with
    | nil => rfl
    | cons i is ih => rw [List.foldl_cons, ih, registered_deliver]
  unfold log
  split
  · split
    · split
      · exact registered_emit ..
      · rfl
    · exact hfold _
  · rfl

theorem registered_getLogger (s : State) (logger : String) :
    (s.getLogger logger).registered = s.registered := by
  unfold getLogger
  dsimp only
  split <;> rfl

/-- What a step does to handlers: nothing, one more of them, an end to those of the store logger, or
a new configuration. -/
theorem step_cases (s : State) (t : Step) :
    (s.step t).2.registered = s.registered ∨
    (∃ sink level, sink ≠ .foreign ∧ (s.step t).2 = s.attach sink level) ∨
    (s.step t).2 = s.disableAll ∨
    ∃ level console file, (s.step t).2 = s.configure level console file := by
  have hlevel (name : String) (f : Level → State) :
      (s.withLevel name f).2 = s ∨ ∃ level, (s.withLevel name f).2 = f level := by
    unfold withLevel
    cases Level.ofName? name with
    | none => exact Or.inl rfl
    | some level => exact Or.inr ⟨level, rfl⟩
  cases t with
  | getLogger name => exact Or.inl (registered_getLogger s (loggerName name))
  | setLevel name =>
    rcases hlevel name s.setLevel with h | ⟨level, h⟩
    · exact Or.inl (congrArg registered h)
    · exact Or.inl ((congrArg registered h).trans rfl)
  | console name =>
    rcases hlevel name (s.attach .console) with h | ⟨level, h⟩
    · exact Or.inl (congrArg registered h)
    · exact Or.inr (Or.inl ⟨.console, level, nofun, h⟩)
  | file name =>
    rcases hlevel name (s.attach .file) with h | ⟨level, h⟩
    · exact Or.inl (congrArg registered h)
    · exact Or.inr (Or.inl ⟨.file, level, nofun, h⟩)
  | disableAll => exact Or.inr (Or.inr (Or.inl rfl))
  | configure name console file =>
    rcases hlevel name (s.configure · console file) with h | ⟨level, h⟩
    · exact Or.inl (congrArg registered h)
    · exact Or.inr (Or.inr (Or.inr ⟨level, console, file, h⟩))
  | setup level => exact Or.inl rfl
  | log record site => exact Or.inl (registered_log ..)

section Registered

variable (h : s'.registered = s.registered)
include h

theorem fields_of_registered :
    s'.handlers = s.handlers ∧ s'.attached = s.attached ∧ s'.owned = s.owned := by
  simpa only [registered, Prod.mk.injEq] using h

theorem handler?_of_registered (i : Nat) : s'.handler? i = s.handler? i :=
  congrArg (·[i]?) (fields_of_registered h).1

theorem own?_of_registered (i : Nat) : s'.own? i = s.own? i := by
  rw [own?, own?, handler?_of_registered h]

theorem own_of_registered : s'.own = s.own := by
  funext i
  rw [own, own, own?_of_registered h]

theorem Spares.of_registered : Spares s s' where
  foreign := by
    rw [State.foreign, State.foreign, own_of_registered h, (fields_of_registered h).2.1]
  handlers i g hi _ := by rw [handler?_of_registered h, hi]
  own i hi := by rw [own_of_registered h, hi]

theorem InStep.of_registered (hs : s.InStep) : s'.InStep := by
  obtain ⟨hhandlers, hattached, howned⟩ := fields_of_registered h
  constructor
  case known =>
    rw [hattached, hhandlers]
    exact hs.known
  case listed =>
    rw [hattached, own_of_registered h, howned]
    exact hs.listed
  case ordered =>
    rw [howned]
    exact hs.ordered
  case kept =>
    simp only [howned, own?_of_registered h]
    exact hs.kept
  case shut =>
    simp only [howned, own?_of_registered h]
    exact hs.shut

end Registered

/-! ### One more handler -/

theorem getElem?_concat (hs : List Handler) (h : Handler) (i : Nat) :
    (hs ++ [h])[i]? = if i = hs.length then some h else hs[i]? := by
  rcases Nat.lt_trichotomy i hs.length with hi | rfl | hi
  · rw [List.getElem?_append_left hi, if_neg (Nat.ne_of_lt hi)]
  · simp
  · rw [if_neg (Nat.ne_of_gt hi), List.getElem?_eq_none (Nat.le_of_lt hi),
      List.getElem?_eq_none (by simpa using Nat.succ_le_of_lt hi)]

theorem lt_of_mem_concat {is : List Nat} {n : Nat} (h : ∀ i ∈ is, i < n) :
    ∀ i ∈ is ++ [n], i < n + 1 :=
  List.forall_mem_append.mpr ⟨fun i hi => Nat.lt_succ_of_lt (h i hi),
    List.forall_mem_singleton.mpr (Nat.lt_succ_self n)⟩

section Attach

variable {sink : Sink} (hsink : sink ≠ .foreign) (level : Level)

theorem handler?_attach (s : State) (sink : Sink) (i : Nat) :
    (s.attach sink level).handler? i =
      if i = s.handlers.length then some (.made sink level) else s.handler? i :=
  getElem?_concat s.handlers (.made sink level) i

include hsink

theorem own?_attach (s : State) (i : Nat) :
    (s.attach sink level).own? i =
      if i = s.handlers.length then some (.made sink level) else s.own? i := by
  rw [own?, handler?_attach]
  split_ifs
  · exact Option.filter_some_pos (Handler.isOwn_made hsink level)
  · rfl

/-- The handlers known so far belong to whom they belonged. -/
theorem own_attach {i : Nat} (hi : i < s.handlers.length) :
    (s.attach sink level).own i = s.own i := by
  rw [own, own?_attach hsink, if_neg (Nat.ne_of_lt hi), own]

theorem own_attach_length (s : State) : (s.attach sink level).own s.handlers.length = true := by
  rw [own, own?_attach hsink, if_pos rfl]
  rfl

variable (h : s.InStep)
include h

theorem InStep.attach : (s.attach sink level).InStep := by
  constructor
  case known =>
    rw [State.attach, List.length_append]
    exact lt_of_mem_concat h.known
  case listed =>
    show (s.attached ++ [s.handlers.length]).filter _ = s.owned ++ [s.handlers.length]
    rw [List.filter_append, List.filter_cons_of_pos (own_attach_length hsink level s),
      List.filter_nil, List.filter_congr fun i hi => own_attach hsink level (h.known i hi),
      h.listed]
  case ordered =>
    exact List.pairwise_append.mpr ⟨h.ordered, List.pairwise_singleton _ _,
      fun i hi => List.forall_mem_singleton.mpr (h.lt_of_mem_owned hi)⟩
  case kept =>
    refine List.forall_mem_append.mpr ⟨fun i hi => ?_, List.forall_mem_singleton.mpr ?_⟩
    · rw [own?_attach hsink, if_neg (Nat.ne_of_lt (h.lt_of_mem_owned hi))]
      exact h.kept i hi
    · exact ⟨_, (own?_attach hsink level s _).trans (if_pos rfl), rfl, rfl⟩
  case shut =>
    intro i g hi hnot
    obtain ⟨hold, hlast⟩ := not_or.mp (mt List.mem_append.mpr hnot)
    rw [own?_attach hsink, if_neg (mt List.mem_singleton.mpr hlast)] at hi
    exact h.shut i g hi hold

theorem InStep.spares_attach : Spares s (s.attach sink level) where
  foreign := by
    show (s.attached ++ [s.handlers.length]).filter _ = _
    rw [List.filter_append, List.filter_cons_of_neg, List.filter_nil, List.append_nil]
    · exact List.filter_congr fun i hi => by rw [own_attach hsink level (h.known i hi)]
    · simp [own_attach_length hsink level s]
  handlers i g hi _ := by
    rw [handler?_attach, if_neg (Nat.ne_of_lt (List.getElem?_eq_some_iff.mp hi).1), hi]
  own i hi := by rw [own_attach hsink level (lt_of_own hi), hi]

end Attach

/-- Others attach handlers of their own. -/
theorem others_attachForeign (hknown : ∀ i ∈ s.attached, i < s.handlers.length) (level : Int) :
    Others s (s.attachForeign level) := by
  have hown? (i : Nat) : (s.attachForeign level).own? i = s.own? i := by
    show Option.filter _ (s.handlers ++ [_])[i]? = _
    rw [getElem?_concat]
    split_ifs with hi
    · rw [own?, handler?, hi, List.getElem?_eq_none (Nat.le_refl _)]
      rfl
    · rfl
  have hown (i : Nat) : (s.attachForeign level).own i = s.own i := by rw [own, own, hown?]
  constructor
  case owned =>
    rfl
  case attached =>
    show (s.attached ++ [s.handlers.length]).filter _ = _
    rw [List.filter_append, List.filter_congr fun i _ => hown i, List.filter_cons_of_neg,
      List.filter_nil, List.append_nil]
    rw [hown]
    exact fun hlast => Nat.lt_irrefl _ (lt_of_own hlast)
  case marks =>
    exact fun i => congrArg (Option.map Handler.marks) (hown? i)
  case known =>
    rw [State.attachForeign, List.length_append]
    exact lt_of_mem_concat hknown

/-! ### An end to the handlers of the store logger -/

theorem attached_foldl_detach (s : State) (is : List Nat) :
    (is.foldl detach s).attached = s.attached.filter (· ∉ is) := by
  induction is generalizing s with
  | nil => exact (List.filter_eq_self.mpr fun i _ => by simp).symm
  | cons i is ih =>
    rw [List.foldl_cons, ih, detach, List.filter_filter]
    exact List.filter_congr fun j _ => by simp [Bool.and_comm]

theorem handler?_detach (s : State) (j i : Nat) :
    (s.detach j).handler? i = (s.handler? i).map fun h => if j = i then h.shut else h := by
  show (s.handlers.modify j Handler.shut)[i]? = _
  rw [List.getElem?_modify]
  rfl

theorem handler?_foldl_detach (s : State) (is : List Nat) (i : Nat) :
    (is.foldl detach s).handler? i =
      (s.handler? i).map fun h => if i ∈ is then h.shut else h := by
  induction is generalizing s with
  | nil => simp
  | cons j is ih =>
    rw [List.foldl_cons, ih, handler?_detach, Option.map_map]
    refine Option.map_congr fun h _ => ?_
    by_cases hj : j = i
    · simp [hj, Handler.shut]
    · simp [hj, Ne.symm hj]

theorem length_foldl_detach (s : State) (is : List Nat) :
    (is.foldl detach s).handlers.length = s.handlers.length := by
  induction is generalizing s with
  | nil => rfl
  | cons i is ih => rw [List.foldl_cons, ih, detach, List.length_modify]

theorem own?_disableAll (s : State) (i : Nat) :
    s.disableAll.own? i = (s.own? i).map fun h => if i ∈ s.owned then h.shut else h := by
  show ((s.owned.foldl detach s).handler? i).filter _ = _
  rw [handler?_foldl_detach, own?]
  cases s.handler? i with
  | none => rfl
  | some h =>
    have hown : (if i ∈ s.owned then h.shut else h).isOwn = h.isOwn := by split <;> rfl
    rw [Option.map_some, Option.filter_some, Option.filter_some, hown]
    split <;> rfl

theorem own_disableAll (s : State) : s.disableAll.own = s.own := by
  funext i
  rw [own, own, own?_disableAll, Option.isSome_map]

section InStep

variable (h : s.InStep)
include h

theorem InStep.mem_owned {i : Nat} : i ∈ s.owned ↔ i ∈ s.attached ∧ s.own i = true := by
  rw [← h.listed, List.mem_filter]

/-- Only the handlers of others are left. -/
theorem InStep.attached_disableAll : s.disableAll.attached = s.foreign := by
  show (s.owned.foldl detach s).attached = _
  rw [attached_foldl_detach]
  refine List.filter_congr fun i hi => ?_
  simp [h.mem_owned, hi]

theorem InStep.disableAll : s.disableAll.InStep where
  known i hi := by
    rw [h.attached_disableAll] at hi
    rw [show s.disableAll.handlers.length = s.handlers.length from length_foldl_detach s s.owned]
    exact h.known i (List.mem_filter.mp hi).1
  listed := by
    rw [h.attached_disableAll, own_disableAll, State.foreign, List.filter_filter]
    exact List.filter_eq_nil_iff.mpr fun i _ => by simp
  ordered := .nil
  kept := nofun
  shut i g hi _ := by
    rw [own?_disableAll] at hi
    obtain ⟨g', hg', rfl⟩ := Option.map_eq_some_iff.mp hi
    split_ifs with howned
    · rfl
    · exact h.shut i g' hg' howned

theorem InStep.spares_disableAll : Spares s s.disableAll where
  foreign := by
    rw [State.foreign, h.attached_disableAll, own_disableAll, State.foreign, List.filter_filter]
    simp
  handlers i g hi hg := by
    show (s.owned.foldl detach s).handler? i = _
    rw [handler?_foldl_detach, hi, Option.map_some, if_neg]
    intro howned
    obtain ⟨g', hg', -⟩ := h.kept i howned
    obtain ⟨hi', hown⟩ := own?_eq_some.mp hg'
    cases hi.symm.trans hi'
    cases hg.symm.trans hown
  own i hi := by rw [own_disableAll, hi]

end InStep

/-! ### A new configuration -/

theorem Spares.trans {s'' : State} (h : Spares s s') (h' : Spares s' s'') : Spares s s'' where
  foreign := h'.foreign.trans h.foreign
  handlers i g hi hg := h'.handlers i g (h.handlers i g hi hg) hg
  own i hi := h'.own i (h.own i hi)

/-- Beside the handlers of others from before, just these of the store logger are there. -/
structure Arranged (s s' : State) (own : List Handler) : Prop where
  inStep : s'.InStep
  spares : Spares s s'
  attached : s'.attached = s.foreign ++ s'.owned
  new : ∀ i ∈ s'.owned, s.own i = false
  own : s'.ownedHandlers = own

theorem InStep.arranged_disableAll (h : s.InStep) : Arranged s s.disableAll [] where
  inStep := h.disableAll
  spares := h.spares_disableAll
  attached := h.attached_disableAll.trans (List.append_nil s.foreign).symm
  new := nofun
  own := rfl

section Arranged

variable {own : List Handler} (h : Arranged s s' own)
include h

theorem Arranged.setLevel (level : Level) : Arranged s (s'.setLevel level) own where
  inStep := .of_registered (s := s') rfl h.inStep
  spares := h.spares.trans (.of_registered rfl)
  attached := h.attached
  new := h.new
  own := h.own

theorem Arranged.attach {sink : Sink} (hsink : sink ≠ .foreign) (level : Level) :
    Arranged s (s'.attach sink level) (own ++ [.made sink level]) where
  inStep := h.inStep.attach hsink level
  spares := h.spares.trans (h.inStep.spares_attach hsink level)
  attached := by
    show s'.attached ++ [s'.handlers.length] = s.foreign ++ (s'.owned ++ [s'.handlers.length])
    rw [h.attached, List.append_assoc]
  new := by
    refine List.forall_mem_append.mpr ⟨h.new, List.forall_mem_singleton.mpr ?_⟩
    rw [← Bool.not_eq_true]
    exact fun hown => Nat.lt_irrefl _ (lt_of_own (h.spares.own _ hown))
  own := by
    show (s'.owned ++ [s'.handlers.length]).filterMap (s'.attach sink level).handler? = _
    rw [List.filterMap_append, ← h.own, ownedHandlers]
    congr 1
    · refine List.filterMap_congr fun i hi => ?_
      rw [handler?_attach, if_neg (Nat.ne_of_lt (h.inStep.lt_of_mem_owned hi))]
    · rw [List.filterMap_cons_some ((handler?_attach level s' sink _).trans (if_pos rfl)),
        List.filterMap_nil]

end Arranged

theorem InStep.arranged_configure (h : s.InStep) (level : Level) (console file : Bool) :
    Arranged s (s.configure level console file)
      ((if console then [.made .console level] else []) ++
        if file then [.made .file level] else []) := by
  have hstart := h.arranged_disableAll.setLevel level
  have hconsole : Sink.console ≠ .foreign := nofun
  have hfile : Sink.file ≠ .foreign := nofun
  cases console <;> cases file
  case false.false => exact hstart
  case false.true => exact hstart.attach hfile level
  case true.false => exact hstart.attach hconsole level
  case true.true => exact (hstart.attach hconsole level).attach hfile level

theorem level_configure (s : State) (level : Level) (console file : Bool) :
    (s.configure level console file).levels.of packageLogger = level.value := by
  have hlevels : (s.configure level console file).levels =
      s.disableAll.levels.set packageLogger level.value := by
    cases console <;> cases file <;> rfl
  rw [hlevels, Levels.of_set, if_pos rfl]

/-! ### Whole runs -/

theorem InStep.of_fresh (h : s.Fresh) : s.InStep := by
  obtain ⟨hhandlers, hattached, howned⟩ := by simpa only [Fresh, registered, Prod.mk.injEq] using h
  constructor
  case known =>
    simp [hattached]
  case listed =>
    simp [hattached, howned]
  case ordered =>
    simp [howned]
  case kept =>
    simp [howned]
  case shut =>
    intro i g hi
    have hlt := lt_of_own (own_eq_true.mpr ⟨g, hi⟩)
    rw [hhandlers] at hlt
    exact absurd hlt (Nat.not_lt_zero i)

section InStep

variable (h : s.InStep)
include h

theorem InStep.step (t : Step) : (s.step t).2.InStep ∧ Spares s (s.step t).2 := by
  rcases step_cases s t with hsame | ⟨sink, level, hsink, heq⟩ | heq | ⟨level, console, file, heq⟩
  · exact ⟨h.of_registered hsame, .of_registered hsame⟩
  · rw [heq]
    exact ⟨h.attach hsink level, h.spares_attach hsink level⟩
  · rw [heq]
    exact ⟨h.disableAll, h.spares_disableAll⟩
  · rw [heq]
    have harranged := h.arranged_configure level console file
    exact ⟨harranged.inStep, harranged.spares⟩

/-- A step puts new handlers at the end of the list, or starts a new list with them. -/
theorem InStep.owned_step (t : Step) :
    ∃ new, (∀ i ∈ new, s.own i = false) ∧
      ((s.step t).2.owned = s.owned ++ new ∨ (s.step t).2.owned = new) := by
  rcases step_cases s t with hsame | ⟨sink, level, -, heq⟩ | heq | ⟨level, console, file, heq⟩
  · refine ⟨[], nofun, Or.inl ?_⟩
    rw [(fields_of_registered hsame).2.2, List.append_nil]
  · refine ⟨[s.handlers.length], List.forall_mem_singleton.mpr ?_, Or.inl (by rw [heq]; rfl)⟩
    rw [← Bool.not_eq_true]
    exact fun hown => Nat.lt_irrefl _ (lt_of_own hown)
  · exact ⟨[], nofun, Or.inr (by rw [heq]; rfl)⟩
  · exact ⟨_, (h.arranged_configure level console file).new, Or.inr (by rw [heq])⟩

theorem InStep.others (hothers : Others s s') : s'.InStep := by
  constructor
  case known =>
    exact hothers.known
  case listed =>
    rw [hothers.attached, hothers.owned, h.listed]
  case ordered =>
    rw [hothers.owned]
    exact h.ordered
  case kept =>
    intro i hi
    rw [hothers.owned] at hi
    obtain ⟨g, hg, hopen, hfilters⟩ := h.kept i hi
    have hmarks := hothers.marks i
    rw [hg] at hmarks
    obtain ⟨g', hg', hsame⟩ := Option.map_eq_some_iff.mp hmarks
    obtain ⟨-, hfilters', hopen'⟩ := by simpa only [Handler.marks, Prod.mk.injEq] using hsame
    exact ⟨g', hg', hopen'.trans hopen, hfilters'.trans hfilters⟩
  case shut =>
    intro i g' hi hnot
    rw [hothers.owned] at hnot
    have hmarks := hothers.marks i
    rw [hi] at hmarks
    obtain ⟨g, hg, hsame⟩ := Option.map_eq_some_iff.mp hmarks.symm
    obtain ⟨-, -, hopen⟩ := by simpa only [Handler.marks, Prod.mk.injEq] using hsame
    exact hopen.symm.trans (h.shut i g hg hnot)

end InStep

/-- A handler of the store logger is one for good. -/
theorem InStep.moves (h : s.InStep) (hmoves : Moves s s') :
    s'.InStep ∧ ∀ i, s.own i = true → s'.own i = true := by
  cases hmoves with
  | step t =>
    obtain ⟨hstep, hspares⟩ := h.step t
    exact ⟨hstep, hspares.own⟩
  | others hothers =>
    refine ⟨h.others hothers, fun i hi => ?_⟩
    rw [own, ← Option.isSome_map, hothers.marks, Option.isSome_map]
    exact hi

theorem InStep.leads (h : s.InStep) (hleads : Relation.ReflTransGen Moves s s') :
    s'.InStep ∧ ∀ i, s.own i = true → s'.own i = true := by
  induction hleads with
  | refl => exact ⟨h, fun _ => id⟩
  | tail _ hmoves ih =>
    obtain ⟨hstep, hown⟩ := ih.1.moves hmoves
    exact ⟨hstep, fun i hi => hown i (ih.2 i hi)⟩

/-- What the store logger does not list is gone. -/
theorem InStep.disposed (h : s.InStep) {i : Nat} (hi : s.own i = true) (hnot : i ∉ s.owned) :
    s.Disposed i := by
  obtain ⟨g, hg⟩ := own_eq_true.mp hi
  exact ⟨fun hattached => hnot (h.mem_owned.mpr ⟨hattached, hi⟩), g, hg, h.shut i g hg hnot⟩

/-- Whatever was done before, by this package and by others: the store logger lists just those of
its handlers that are attached, in the order in which it attached them and none twice; each of them
is open and has one filter for the site; and all others that it ever attached are detached and
closed, at any later time too.  No step takes away a handler of others, and new handlers come last.
A new configuration ends with a handler for the console and one for the file, as asked for, beside
the handlers of others. -/
theorem handlers_in_step {start : State} (hstart : start.Fresh)
    (hrun : Relation.ReflTransGen Moves start s) :
    s.attached.filter s.own = s.owned ∧ s.owned.Pairwise (· < ·) ∧
    (∀ i ∈ s.owned, ∃ h, s.own? i = some h ∧ h.isOpen = true ∧ h.siteFilters = 1) ∧
    (∀ s', Relation.ReflTransGen Moves s s' → ∀ i, s.own i = true → i ∈ s'.owned ∨ s'.Disposed i) ∧
    (∀ t, Spares s (s.step t).2 ∧ ∃ new, (∀ i ∈ new, s.own i = false) ∧
      ((s.step t).2.owned = s.owned ++ new ∨ (s.step t).2.owned = new)) ∧
    ∀ (level : Level) (console file : Bool),
      let s' := (s.step (.configure level.name console file)).2
      let format := if level = .debug then Format.withSite else .plain
      s'.ownedHandlers = (if console then [⟨.console, level.value, format, 1, true⟩] else []) ++
        (if file then [⟨.file, level.value, format, 1, true⟩] else []) ∧
      s'.attached = s.foreign ++ s'.owned ∧ s'.levels.of packageLogger = level.value := by
  have h := ((InStep.of_fresh hstart).leads hrun).1
  refine ⟨h.listed, h.ordered, h.kept, fun s' hlater i hi => ?_,
    fun t => ⟨(h.step t).2, h.owned_step t⟩, fun level console file => ?_⟩
  · obtain ⟨h', hown⟩ := h.leads hlater
    exact or_iff_not_imp_left.mpr (h'.disposed (hown i hi))
  · have hstep : (s.step (.configure level.name console file)).2 =
        s.configure level console file := by
      rw [State.step, withLevel, Level.ofName?_name]
    have harranged := h.arranged_configure level console file
    rw [hstep]
    exact ⟨harranged.own, harranged.attached, level_configure s level console file⟩

/-- Two configurations, with a handler of somebody else before each. -/
theorem handlers_in_step_twice :
    ∃ s : State, Relation.ReflTransGen Moves {} s ∧ s.attached = [0, 1, 2, 3] ∧ s.owned = [1, 2] ∧
      let s' := (s.step (.configure "DEBUG" true false)).2
      s'.attached = [0, 3, 4] ∧ s'.ownedHandlers = [⟨.console, 10, .withSite, 1, true⟩] ∧
      s'.Disposed 1 ∧ s'.Disposed 2 := by
  have hstart : Fresh {} := rfl
  have hfirst : Relation.ReflTransGen Moves {} (attachForeign {} 0) :=
    .single (.others (others_attachForeign (by decide) 0))
  have hrun := (hfirst.tail (.step _ (.configure "INFO" true true))).tail
    (.others (others_attachForeign (by decide) 30))
  obtain ⟨-, -, -, hlater, -, hconfigure⟩ := handlers_in_step hstart hrun
  refine ⟨_, hrun, by decide, by decide, ?_⟩
  have hgone := hlater _ (.single (.step _ (.configure "DEBUG" true false)))
  obtain ⟨hown, hattached, -⟩ := hconfigure .debug true false
  refine ⟨hattached.trans (by decide), hown, ?_, ?_⟩
  · exact (hgone 1 (by decide)).resolve_left (by decide)
  · exact (hgone 2 (by decide)).resolve_left (by decide)

end State

end TreeStore.Log
