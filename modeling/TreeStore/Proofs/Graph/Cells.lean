import Mathlib.Data.List.Nodup
import Mathlib.Tactic.SplitIfs
import TreeStore.Association
import TreeStore.Graph

/-!
# The nodes of a graph after each change

What stands at every number after each operation on a graph: `get?_new` for a new node, `Attached`
and `Detached` for a child that is added or removed.  The children of a directory are a list of
names without repetition, so that looking a name up and being a member are the same; `bind` and the
removal of a name are described through both.
-/

namespace TreeStore

/-- What a node says of itself, apart from its neighbours. -/
def Vertex.label (v : Vertex) : String × Bool × Option String := (v.key, v.isDir, v.value)

namespace Graph

/-! ### Children by name -/

section Children

variable {cs : List (String × Nat)} {name : String} {child : Nat}

theorem lookup_bind (name n : String) (child : Nat) (cs : List (String × Nat)) :
    (bind name child cs).lookup n = if n = name then some child else cs.lookup n := by
  induction cs with
  | nil => rw [bind, lookup_entry]
  | cons e es ih =>
    obtain ⟨key, old⟩ := e
    rw [bind]
    by_cases hkey : key = name
    · rw [if_pos hkey, hkey, lookup_entry, lookup_entry]
      split_ifs <;> rfl
    · rw [if_neg hkey, lookup_entry, lookup_entry, ih]
      by_cases hn : n = key
      · rw [if_pos hn, if_neg fun h => hkey (hn.symm.trans h), if_pos hn]
      · rw [if_neg hn, if_neg hn]

theorem names_bind (name : String) (child : Nat) (cs : List (String × Nat)) :
    (bind name child cs).map (·.1) =
      if name ∈ cs.map (·.1) then cs.map (·.1) else cs.map (·.1) ++ [name] := by
  induction cs with
  | nil => rfl
  | cons e es ih =>
    rw [bind]
    by_cases he : e.1 = name
    · simp [he]
    · have hne : name ≠ e.1 := fun h => he h.symm
      rw [if_neg he, List.map_cons, ih]
      simp only [List.map_cons, List.mem_cons, hne, false_or]
      split_ifs <;> rfl

theorem nodup_bind (h : (cs.map (·.1)).Nodup) : ((bind name child cs).map (·.1)).Nodup := by
  rw [names_bind]
  split_ifs with hm
  · exact h
  · rw [List.nodup_append]
    refine ⟨h, by simp, ?_⟩
    rintro a ha b hb rfl
    exact hm (List.mem_singleton.mp hb ▸ ha)

theorem nodup_filter_ne (h : (cs.map (·.1)).Nodup) :
    ((cs.filter (·.1 ≠ name)).map (·.1)).Nodup :=
  h.sublist (List.filter_sublist.map _)

end Children

/-! ### Nodes by number -/

variable {g g' : Graph} {v w : Vertex}

theorem vertex_of_get? {i : Nat} (h : g.get? i = some v) : g.vertex i = v := by
  rw [vertex, h, Option.getD_some]

theorem get?_update (g : Graph) (i : Nat) (f : Vertex → Vertex) (j : Nat) :
    (g.update i f).get? j = if i = j then (g.get? j).map f else g.get? j := by
  unfold update get?
  rw [List.getElem?_modify]
  split_ifs <;> simp

theorem get?_orphan (g : Graph) (i j : Nat) :
    (g.orphan i).get? j =
      if i = j then (g.get? j).map fun v => { v with parent := none } else g.get? j :=
  get?_update g i _ j

theorem get?_length (g : Graph) : g.get? g.vertices.length = none :=
  List.getElem?_eq_none (Nat.le_refl _)

theorem get?_add (g : Graph) (v : Vertex) (j : Nat) :
    (g.add v).2.get? j = if j = g.vertices.length then some v else g.get? j := by
  unfold add get?
  split_ifs with h
  · subst h; simp
  · rcases Nat.lt_or_ge j g.vertices.length with hj | hj
    · simp [List.getElem?_append_left hj]
    · rw [List.getElem?_eq_none (by simp; omega), List.getElem?_eq_none hj]

/-! ### New nodes -/

section New

variable (key : String) (isDir : Bool) (value : Option String)

theorem get?_new (g : Graph) (j : Nat) :
    (g.new key isDir value).2.get? j =
      if j = g.vertices.length then some (Vertex.new key isDir value) else g.get? j :=
  get?_add g _ j

theorem get?_new_self (g : Graph) :
    (g.new key isDir value).2.get? g.vertices.length = some (Vertex.new key isDir value) := by
  rw [get?_new, if_pos rfl]

theorem get?_new_of_some {j : Nat} (h : g.get? j = some v) :
    (g.new key isDir value).2.get? j = some v := by
  rw [get?_new, if_neg, h]
  rintro rfl
  rw [get?_length] at h
  cases h

theorem child?_new (g : Graph) (d : Nat) (n : String) :
    (g.new key isDir value).2.child? d n = g.child? d n := by
  unfold child?
  rw [get?_new]
  split_ifs with h
  · subst h
    rw [get?_length]
    simp [Vertex.new]
  · rfl

theorem get?_rooted (i : Nat) :
    rooted.get? i = if i = rootId then some (Vertex.new "/" true none) else none := by
  rw [rooted, get?_new]
  rfl

end New

/-! ### A value changes -/

section SetValue

variable (g) (i : Nat) (value : Option String)

theorem get?_setValue_map (j : Nat) :
    (g.setValue i value).get? j = (g.get? j).map fun x =>
      { x with value := if j = i then value else x.value } := by
  rw [setValue, get?_update]
  by_cases hj : j = i
  · simp only [hj, if_true]
  · simp only [hj, Ne.symm hj, if_false]
    exact (Option.map_id' ..).symm

theorem child?_setValue (d : Nat) (n : String) :
    (g.setValue i value).child? d n = g.child? d n := by
  rw [child?, child?, get?_setValue_map]
  cases g.get? d <;> rfl

end SetValue

/-! ### Children come and go -/

/-- The graph `g'` is `g` after the directory `d`, which is `v`, took the node `c`, which is `w`:
`c` is linked to `d`, the child of that name that `d` had before loses its link, and all other nodes
stay as they are. -/
def Attached (g g' : Graph) (d c : Nat) (v w : Vertex) : Prop :=
  ∀ j, g'.get? j =
    if j = c then some { w with parent := some d }
    else if j = d then some { v with children := bind w.name c v.children }
    else if v.children.lookup w.name = some j then
      (g.get? j).map fun x => { x with parent := none }
    else g.get? j

/-- The graph `g'` is `g` after the directory `d`, which is `v`, gave up its child `c` of a name:
`d` no longer knows the name, `c` loses its link, and all other nodes stay as they are. -/
def Detached (g g' : Graph) (d c : Nat) (v : Vertex) (name : String) : Prop :=
  ∀ j, g'.get? j =
    if j = c then (g.get? j).map fun x => { x with parent := none }
    else if j = d then some { v with children := v.children.filter (·.1 ≠ name) }
    else g.get? j

theorem addChild_ok {d c : Nat} (hd : g.get? d = some v) (hdir : v.isDir = true)
    (hc : g.get? c = some w) (hcd : c ≠ d) (hold : v.children.lookup w.name ≠ some d) :
    ∃ g', g.addChild d c = .ok g' ∧ Attached g g' d c v w := by
  have hdc : d ≠ c := Ne.symm hcd
  simp only [addChild, hd, hc, if_pos hdir]
  refine ⟨_, rfl, fun j => ?_⟩
  rw [get?_update, get?_update]
  cases hl : v.children.lookup w.name with
  | none =>
    by_cases hjc : j = c
    · subst hjc; simp [hdc, hc]
    · by_cases hjd : j = d
      · subst hjd; simp [hjc, hcd, hd]
      · simp [hjc, hjd, Ne.symm hjc, Ne.symm hjd]
  | some old =>
    have hod : old ≠ d := fun h => hold (h ▸ hl)
    by_cases hjc : j = c
    · subst hjc
      by_cases hoj : old = j
      · simp [hoj, hdc, hc]
      · simp [hoj, hdc, hc, get?_orphan]
    · by_cases hjd : j = d
      · subst hjd
        by_cases hoc : old = c
        · simp [hoc, hjc, hcd, hd]
        · simp [hoc, hjc, hcd, hd, get?_orphan, hod]
      · by_cases hoc : old = c
        · have hoj : c ≠ j := Ne.symm hjc
          simp [hoc, hjc, hjd, Ne.symm hjd, hoj]
        · simp [hoc, hjc, hjd, Ne.symm hjc, Ne.symm hjd, get?_orphan]

theorem removeChild_detached {d c : Nat} {name : String} (hd : g.get? d = some v)
    (hdir : v.isDir = true) (hc : v.children.lookup name = some c) (hcd : c ≠ d) :
    Detached g (g.removeChild d name).2 d c v name := by
  intro j
  have h : ((g.get? d).bind fun v =>
      if v.isDir then v.children.lookup name else none) = some c := by
    simp [hd, hdir, hc]
  simp only [removeChild, h]
  rw [get?_orphan, get?_update]
  by_cases hjc : j = c
  · subst hjc; simp [Ne.symm hcd]
  · by_cases hjd : j = d
    · subst hjd; simp [hjc, hcd, hd]
    · simp [hjc, hjd, Ne.symm hjc, Ne.symm hjd]

/-! ### Labels stay -/

theorem Attached.label {d c : Nat} (hd : g.get? d = some v) (hc : g.get? c = some w)
    (h : Attached g g' d c v w) (j : Nat) :
    (g'.get? j).map Vertex.label = (g.get? j).map Vertex.label := by
  rw [h j]
  split_ifs with h1 h2
  · rw [h1, hc]; rfl
  · rw [h2, hd]; rfl
  · rw [Option.map_map]; rfl
  · rfl

theorem Detached.label {d c : Nat} {name : String} (hd : g.get? d = some v)
    (h : Detached g g' d c v name) (j : Nat) :
    (g'.get? j).map Vertex.label = (g.get? j).map Vertex.label := by
  rw [h j]
  split_ifs with h1 h2
  · rw [Option.map_map]; rfl
  · rw [h2, hd]; rfl
  · rfl

end Graph

end TreeStore
