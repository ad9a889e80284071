import Mathlib.Data.Option.Defs
import TreeStore.Proofs.Graph.Planted
import TreeStore.Proofs.Session.Settle

/-!
# What handlers reach in memory

Handlers assign to the result that they are handed.  For a request this is a copy of new nodes, made
when its emit starts, so that no step changes a node which was there before it, however deep its
handlers nest (`Behaviour.grows_step`): memory only grows, and whoever has a result finds it as it
was.  In particular the taker of a request, who gets its result after the emit, gets it as it was
before (`read_keep`).

The induction is on the nesting.  What carries it is that an emit spares every graph that what it
hands out lies beyond (`Behaviour.spares_emit`).
-/

namespace TreeStore

open Session
open TreeStore.Graph (Extends)

/-! ### Results in a graph -/

namespace Graph

variable {g g' : Graph} {i : Nat} {t : Node}

/-- The node is the root of a tree of its own, linked to nothing, and the tree is this one. -/
def Stands (g : Graph) (i : Nat) (t : Node) : Prop :=
  ∃ m ≤ g.vertices.length, g.Forest none [t] [(t.name, i)] i m

theorem Stands.extends (h : g.Stands i t) (hext : Extends g g') : g'.Stands i t := by
  obtain ⟨m, hm, hforest⟩ := h
  exact ⟨m, hm.trans hext.length_le, hforest.congr fun j _ hj => hext.get?_eq (by omega)⟩

theorem Stands.view (h : g.Stands i t) : g.view i = t := by
  obtain ⟨m, hm, hforest⟩ := h
  exact List.singleton_inj.mp (hforest.map_unfold ((Nat.sub_le m i).trans hm))

theorem extends_plant (g : Graph) (t : Node) : Extends g (g.plant none t).2 := by
  obtain ⟨g', h, hext, -⟩ := plant_forest t g none
  rwa [h]

theorem stands_plant (g : Graph) (t : Node) : (g.plant none t).2.Stands (g.plant none t).1 t := by
  obtain ⟨g', h, -, hforest⟩ := plant_forest t g none
  rw [h]
  exact ⟨_, Nat.le_refl _, hforest⟩

theorem Stands.clone (h : g.Stands i t) :
    (g.clone i none false).2.Stands (g.clone i none false).1 t := by
  rw [Graph.clone, h.view, Node.clone_whole]
  exact stands_plant g t

end Graph

namespace Held

variable {h : Held} {g g' : Graph} {r : Result}

/-- The nodes that are held are the roots of trees of their own, and these make up the result. -/
structure Shows (h : Held) (g : Graph) (r : Result) : Prop where
  action : h.action = r.action
  node : g.Stands h.node r.node
  prev : Option.Rel g.Stands h.prev r.prev

theorem Shows.extends (hs : h.Shows g r) (hext : Extends g g') : h.Shows g' r := by
  obtain ⟨action, node, prev⟩ := h
  obtain ⟨action', node', prev'⟩ := r
  obtain ⟨haction, hnode, hprev⟩ := hs
  refine ⟨haction, hnode.extends hext, ?_⟩
  cases hprev with
  | none => exact .none
  | some hp => exact .some (hp.extends hext)

theorem Shows.read (hs : h.Shows g r) : h.read g = r := by
  obtain ⟨action, node, prev⟩ := h
  obtain ⟨action', node', prev'⟩ := r
  obtain ⟨rfl, hnode, hprev⟩ := hs
  have hview : g.view node = node' := hnode.view
  rw [Held.read, hview]
  cases hprev with
  | none => rfl
  | some hp => rw [Option.map_some, hp.view]

theorem extends_plant (g : Graph) (r : Result) : Extends g (plant g r).2 := by
  obtain ⟨action, node, prev⟩ := r
  have hnode := Graph.extends_plant g node
  cases prev with
  | none => exact hnode
  | some p => exact hnode.trans (Graph.extends_plant _ p)

theorem shows_plant (g : Graph) (r : Result) : (plant g r).1.Shows (plant g r).2 r := by
  obtain ⟨action, node, prev⟩ := r
  have hnode := Graph.stands_plant g node
  cases prev with
  | none => exact ⟨rfl, hnode, .none⟩
  | some p =>
    exact ⟨rfl, hnode.extends (Graph.extends_plant _ p), .some (Graph.stands_plant _ p)⟩

theorem extends_clone (h : Held) (g : Graph) : Extends g (h.clone g).2 := by
  obtain ⟨action, node, prev⟩ := h
  have hnode : Extends g (g.clone node none false).2 := Graph.extends_plant g _
  cases prev with
  | none => exact hnode
  | some p => exact hnode.trans (Graph.extends_plant _ _)

/-- The copy is of new nodes. -/
theorem length_le_clone (h : Held) (g : Graph) : g.vertices.length ≤ (h.clone g).1.node := by
  have hnode : (h.clone g).1.node = (g.clone h.node none false).1 := by
    rw [clone]
    cases h.prev <;> rfl
  obtain ⟨g', hplant, -⟩ := Graph.plant_forest ((g.view h.node).clone none false) g none
  rw [hnode, Graph.clone, hplant]

/-- The copy shows what the original shows, and so does the original still. -/
theorem Shows.clone (hs : h.Shows g r) : (h.clone g).1.Shows (h.clone g).2 r := by
  obtain ⟨action, node, prev⟩ := h
  obtain ⟨action', node', prev'⟩ := r
  obtain ⟨haction, hnode, hprev⟩ := hs
  have hext : Extends g (g.clone node none false).2 := Graph.extends_plant g _
  cases hprev with
  | none => exact ⟨haction, hnode.clone, .none⟩
  | some hp =>
    exact ⟨haction, hnode.clone.extends (Graph.extends_plant _ _), .some (hp.extends hext).clone⟩

end Held

/-- A copy looks like the original. -/
theorem Result.clone_eq (r : Result) : r.clone = r := ((Held.shows_plant {} r).clone).read

/-! ### What the taker of a call has -/

theorem extends_keep (g : Graph) (own : Except Fault Answer) : Extends g (keep g own).2 := by
  cases own with
  | error f => exact .refl g
  | ok a =>
    cases a with
    | result r => exact Held.extends_plant g r
    | _ => exact .refl g

/-- As long as memory only grows, the taker of a call finds what it was given. -/
theorem read_keep {g g' : Graph} {own : Except Fault Answer} (h : Extends (keep g own).2 g') :
    (keep g own).1.map (·.read g') = own := by
  cases own with
  | error f => rfl
  | ok a =>
    cases a with
    | result r =>
      have hread := ((Held.shows_plant g r).extends h).read
      exact congrArg (Except.ok ∘ Answer.result) hread
    | _ => rfl

/-! ### What is handed out -/

namespace Handout

variable {g : Graph} {handout : Handout}

/-- What is handed out has no node of the graph that could be assigned to. -/
def Beyond (g : Graph) : Handout → Prop
  | result h => g.vertices.length ≤ h.node
  | _ => True

theorem extends_copy (news : Handout) (g : Graph) : Extends g (news.copy g).2 := by
  cases news with
  | result h => exact h.extends_clone g
  | _ => exact .refl g

theorem beyond_copy (news : Handout) (g : Graph) : (news.copy g).1.Beyond g := by
  cases news with
  | result h => exact h.length_le_clone g
  | _ => trivial

end Handout

theorem Session.beyond_lend {news handout : Handout} {s s' : Session}
    (h : settle (lend news) s = (.ok handout, s')) :
    handout.Beyond s.memory ∧ Extends s.memory s'.memory := by
  obtain ⟨g, hcopy, rfl⟩ := copy_of_lend h
  have hbeyond := news.beyond_copy s.memory
  have hext := news.extends_copy s.memory
  rw [hcopy] at hbeyond hext
  exact ⟨hbeyond, hext⟩

/-- Who is handed a copy sees what the original shows. -/
theorem Session.shown_lend {h : Held} {r : Result} {handout : Handout} {s s' : Session}
    (hs : h.Shows s.memory r) (hlend : settle (lend (.result h)) s = (.ok handout, s')) :
    handout.shown s'.memory = .result r := by
  obtain ⟨hcopy, rfl⟩ := Prod.mk.inj ((settle_lend (.result h) s).symm.trans hlend)
  obtain rfl := Except.ok.inj hcopy
  exact congrArg Payload.result hs.clone.read

/-! ### What runs leave alone -/

/-- Whatever is done spares the graph. -/
def Session.Spares {α : Type} (g : Graph) (c : Run α) : Prop :=
  ∀ s, Extends g s.memory → Extends g (settle c s).2.memory

/-- Steps only add nodes. -/
def Session.Grows (take : Step → Run Answer) : Prop :=
  ∀ t s, Extends s.memory (settle (take t) s).2.memory

namespace Behaviour

section

variable {take : Step → Run Answer} (htake : Grows take)
  {g : Graph} {handout : Handout} (hbeyond : handout.Beyond g)
include htake hbeyond

/-- A program assigns to nothing but what it was handed. -/
theorem spares_program (name : String) (p : Program) : Spares g (p.run take name handout) := by
  induction p with
  | finish => exact fun s hs => hs
  | raise f => exact fun s hs => hs
  | log record next ih =>
    intro s hs
    unfold Program.run
    rw [settle_get]
    split_ifs
    · exact ih (s.noted (.logged record)) hs
    · exact ih s hs
  | setValue value next ih =>
    intro s hs
    cases handout with
    | result h =>
      rw [settle_setValue]
      exact ih _ (hs.update hbeyond _)
    | error e => exact hs
    | values args => exact hs
  | step t next ih =>
    intro s hs
    obtain ⟨seen, s₁, htook⟩ : ∃ seen s₁, settle (take t) s = (seen, s₁) := ⟨_, _, rfl⟩
    have hs₁ : Extends g s₁.memory := by
      have hgrow := htake t s
      rw [htook] at hgrow
      exact hs.trans hgrow
    rcases settle_step htook name next handout with ⟨-, h⟩ | ⟨-, h⟩
    · rw [h]
      exact ih seen _ hs₁
    · rw [h]
      exact hs₁

theorem spares_calls (b : Behaviour) (i : Nat) (event : String) (rs : List Registration) :
    Spares g (dispatch (b.invoke take i event handout) rs) := by
  induction rs with
  | nil => exact fun s hs => hs
  | cons r rs ih =>
    intro s hs
    have hcall : Extends g (settle (b.invoke take i event handout r) s).2.memory := by
      rw [settle_invoke]
      refine spares_program htake hbeyond _ _ _ ?_
      cases r <;> exact hs
    rw [dispatch, settle_bind]
    split
    · next heq =>
      rw [heq] at hcall
      exact ih _ hcall
    · next heq =>
      rw [heq] at hcall
      exact hcall

theorem spares_emit (b : Behaviour) (i : Nat) (event : String) :
    Spares g (b.emit take i event handout) := by
  intro s hs
  obtain ⟨ended, s', hended, hemit⟩ := settle_emit b take i event handout s
  have hs' := spares_calls htake hbeyond b i event ((s.emitter i).listeners event)
    (s.noted (.emitted i event (handout.shown s.memory) ((s.emitter i).listeners event))) hs
  rw [hended] at hs'
  rw [hemit]
  exact hs'

end

/-- What the taker of a command has was there before any handler could assign a value. -/
theorem extends_command {b : Behaviour} {depth : Nat} (hsteps : Grows (b.step depth)) (i : Nat)
    (c : Command) (s : Session) :
    Extends (keep s.memory (s.pool.run i c).1).2
      (settle (b.step (depth + 1) (.command i c)) s).2.memory := by
  obtain ⟨s₁, hperform, hcases⟩ := command_sends (b.emit (b.step depth)) i c s
  rw [← (effect_of_perform hperform).1.memory, step]
  rcases hcases with ⟨-, h⟩ | ⟨_, event, news, handout, s₂, sent, s₃, -, -, -, hlend, hsend, h⟩
  · rw [h]
    exact .refl _
  · -- the copy that is sent has no node of the memory before it
    obtain ⟨hbeyond, hext⟩ := beyond_lend hlend
    have hsent := b.spares_emit hsteps hbeyond i event s₂ hext
    rw [hsend] at hsent
    rw [h]
    exact hsent

/-- A step only adds nodes, however deep its handlers nest and whatever they assign. -/
theorem grows_step (b : Behaviour) (depth : Nat) : Grows (b.step depth) := by
  induction depth with
  | zero => exact fun _ s => .refl s.memory
  | succ depth ih =>
    intro t s
    cases t with
    | command i c => exact (extends_keep _ _).trans (extends_command ih i c s)
    | emit i event args =>
      have hbeyond : (Handout.values args).Beyond s.memory := trivial
      have hsent := b.spares_emit ih hbeyond i event s (.refl s.memory)
      rw [step, stepWith, settle_bind]
      split <;> next heq => rwa [heq] at hsent
    | off i event handler => cases handler <;> exact .refl s.memory
    | _ => exact .refl s.memory

end Behaviour

end TreeStore
