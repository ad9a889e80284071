import Mathlib.Data.List.Range
import Mathlib.Logic.Relation
import TreeStore.Proofs.Graph.Wired
import TreeStore.Proofs.Node.Copies

/-!
# Graphs without cycles

Where every way down from a node is shorter than the graph has nodes, its `view` is not cut short:
the view of a directory is made of the views of its children (`Fits.view_eq`).  If no node is below
itself, a way down visits no node twice and all ways are that short (`Wired.fits`), however often a
node is shared.
-/

namespace TreeStore.Graph

/-- No node is below itself. -/
def Acyclic (g : Graph) : Prop := ∀ i, ¬ Relation.TransGen g.Holds i i

/-- Every way down from a node ends before `depth` steps. -/
def Fits (g : Graph) : (depth : Nat) → Nat → Prop
  | 0, _ => False
  | depth + 1, i => ∀ c, g.Holds i c → g.Fits depth c

variable {g : Graph} {i c : Nat} {v : Vertex}

theorem lt_length_of_get? (h : g.get? i = some v) : i < g.vertices.length :=
  (List.getElem?_eq_some_iff.mp h).1

/-- A graph whose directories come before what they hold. -/
theorem acyclic_of_forward
    (h : ∀ d < g.vertices.length, ∀ e ∈ (g.vertex d).children, d < e.2) : g.Acyclic := by
  have hstep (d c : Nat) (hc : g.Holds d c) : d < c := by
    obtain ⟨n, hn⟩ := hc
    obtain ⟨v, hd, -, hlookup⟩ := get?_of_child? hn
    obtain ⟨before, after, hsplit, -⟩ := List.lookup_eq_some_iff.mp hlookup
    have hmem : (n, c) ∈ (g.vertex d).children := by simp [vertex_of_get? hd, hsplit]
    exact h d (lt_length_of_get? hd) _ hmem
  intro i hi
  have hlt : i < i := by
    have hall : Relation.TransGen (· < ·) i i := Relation.TransGen.mono hstep i i hi
    rwa [Relation.transGen_eq_self] at hall
  exact absurd hlt (Nat.lt_irrefl i)

/-! ### Ways that end -/

theorem Fits.mono {depth fuel : Nat} (h : g.Fits depth i) (hfuel : depth ≤ fuel) :
    g.Fits fuel i := by
  induction depth generalizing i fuel with
  | zero => exact h.elim
  | succ depth ih =>
    obtain ⟨fuel, rfl⟩ := Nat.exists_eq_add_of_le' hfuel
    exact fun c hc => ih (h c hc) (Nat.le_add_left ..)

namespace Fits

variable (hheld : ∀ {i v}, g.get? i = some v → ∀ e ∈ v.children, g.Holds i e.2)
include hheld

/-- Depth beyond the longest way down makes no difference. -/
theorem unfold_eq {depth fuel fuel' : Nat} (h : g.Fits depth i) (hfuel : depth ≤ fuel)
    (hfuel' : depth ≤ fuel') : g.unfold fuel i = g.unfold fuel' i := by
  induction depth generalizing i fuel fuel' with
  | zero => exact h.elim
  | succ depth ih =>
    obtain ⟨fuel, rfl⟩ := Nat.exists_eq_add_of_le' hfuel
    obtain ⟨fuel', rfl⟩ := Nat.exists_eq_add_of_le' hfuel'
    rw [← Nat.add_assoc, ← Nat.add_assoc, unfold, unfold]
    cases hi : g.get? i with
    | none => rfl
    | some v =>
      have hchildren : (v.children.map fun c => g.unfold (fuel + depth) c.2) =
          v.children.map fun c => g.unfold (fuel' + depth) c.2 :=
        List.map_congr_left fun e he =>
          ih (h _ (hheld hi e he)) (Nat.le_add_left ..) (Nat.le_add_left ..)
      simp only [hchildren]

theorem view_eq (hfits : g.Fits g.vertices.length i) (h : g.get? i = some v) :
    g.view i = if v.isDir then .dir v.key (v.children.map fun c => g.view c.2)
      else .leaf v.key v.value := by
  have hdeep : g.view i = g.unfold (g.vertices.length + 1) i :=
    hfits.unfold_eq hheld (Nat.le_refl _) (Nat.le_succ _)
  rw [hdeep, unfold, h]
  rfl

end Fits

namespace Wired

variable (hg : Wired g)
include hg

theorem holds_of_mem (hi : g.get? i = some v) {e : String × Nat} (he : e ∈ v.children) :
    g.Holds i e.2 := ⟨e.1, (hg.mem_children_iff hi).mp he⟩

/-- The nodes above a node, in the order in which a way down meets them, leave less and less room:
the bound is what the graph has beyond them. -/
theorem fits_below (ha : g.Acyclic) (above : List Nat) {depth i : Nat}
    (hthere : ∀ a ∈ i :: above, a < g.vertices.length) (hnodup : (i :: above).Nodup)
    (habove : ∀ a ∈ above, Relation.TransGen g.Holds a i)
    (hroom : g.vertices.length ≤ depth + above.length) : g.Fits depth i := by
  induction depth generalizing above i with
  | zero =>
    have hsub : i :: above ⊆ List.range g.vertices.length := fun a h =>
      List.mem_range.mpr (hthere a h)
    have hle := hnodup.length_le_of_subset hsub
    rw [List.length_cons, List.length_range] at hle
    omega
  | succ depth ih =>
    intro c hc
    obtain ⟨w, hw⟩ := hg.get?_of_held hc
    have hway (a : Nat) (h : a ∈ i :: above) : Relation.TransGen g.Holds a c := by
      rcases List.mem_cons.mp h with rfl | h
      · exact .single hc
      · exact (habove a h).tail hc
    refine ih (i :: above) ?_ (List.nodup_cons.mpr ⟨fun h => ha c (hway c h), hnodup⟩)
      hway ?_
    · intro a h
      rcases List.mem_cons.mp h with rfl | h
      · exact lt_length_of_get? hw
      · exact hthere a h
    · rw [List.length_cons]
      omega

theorem fits (ha : g.Acyclic) (h : g.get? i = some v) : g.Fits g.vertices.length i := by
  refine hg.fits_below ha [] ?_ (List.nodup_singleton i) ?_ (Nat.le_refl _)
  · intro a hi
    rw [List.mem_singleton.mp hi]
    exact lt_length_of_get? h
  · intro a hi
    cases hi

/-- From below: a node has a property if all that it holds have it. -/
theorem bottom_up (ha : g.Acyclic) {P : Nat → Prop}
    (step : ∀ i v, g.get? i = some v → (∀ e ∈ v.children, P e.2) → P i)
    (h : g.get? i = some v) : P i := by
  have hfits := hg.fits ha h
  generalize g.vertices.length = depth at hfits
  induction depth generalizing i v with
  | zero => exact hfits.elim
  | succ depth ih =>
    refine step i v h fun e he => ?_
    have hheld := hg.holds_of_mem h he
    obtain ⟨w, hw⟩ := hg.get?_of_held hheld
    exact ih hw (hfits _ hheld)

/-! ### The view of a node -/

theorem view_eq (ha : g.Acyclic) (h : g.get? i = some v) :
    g.view i = if v.isDir then .dir v.key (v.children.map fun c => g.view c.2)
      else .leaf v.key v.value :=
  (hg.fits ha h).view_eq (fun hi _ he => hg.holds_of_mem hi he) h

theorem key_view (ha : g.Acyclic) (h : g.get? i = some v) : (g.view i).key = v.key := by
  rw [hg.view_eq ha h]
  split_ifs <;> rfl

theorem isDir_view (ha : g.Acyclic) (h : g.get? i = some v) : (g.view i).isDir = v.isDir := by
  rw [hg.view_eq ha h]
  cases v.isDir <;> rfl

theorem value_view (ha : g.Acyclic) (h : g.get? i = some v) :
    (g.view i).value = if v.isDir then none else v.value := by
  rw [hg.view_eq ha h]
  split_ifs <;> rfl

theorem children_view (ha : g.Acyclic) (h : g.get? i = some v) :
    (g.view i).children = v.children.map fun c => g.view c.2 := by
  rw [hg.view_eq ha h]
  cases hdir : v.isDir with
  | true => rfl
  | false =>
    rw [hg.childless i v h hdir]
    rfl

/-- A node that is held goes by the name under which it is held. -/
theorem name_view_of_mem (ha : g.Acyclic) (h : g.get? i = some v) {e : String × Nat}
    (he : e ∈ v.children) : (g.view e.2).name = e.1 := by
  have hname := hg.named i e.1 e.2 ((hg.mem_children_iff h).mp he)
  obtain ⟨w, hw, hn⟩ := Option.map_eq_some_iff.mp hname
  rw [Node.name, hg.key_view ha hw]
  exact hn

theorem map_name_children_view (ha : g.Acyclic) (h : g.get? i = some v) :
    (g.view i).children.map Node.name = v.children.map (·.1) := by
  rw [hg.children_view ha h, List.map_map]
  exact List.map_congr_left fun e he => hg.name_view_of_mem ha h he

theorem distinct_view (ha : g.Acyclic) (h : g.get? i = some v) : (g.view i).Distinct := by
  refine hg.bottom_up ha (P := fun i => (g.view i).Distinct) (fun i v hi ih m hm => ?_) h
  rw [Node.subtree_eq] at hm
  rcases List.mem_cons.mp hm with rfl | hm
  · rw [hg.map_name_children_view ha hi]
    exact hg.nodup i v hi
  · obtain ⟨n, hn, hm⟩ := List.mem_flatMap.mp hm
    rw [hg.children_view ha hi] at hn
    obtain ⟨e, he, rfl⟩ := List.mem_map.mp hn
    exact ih e he m hm

end Wired

end TreeStore.Graph
