import Mathlib.Data.List.Infix
import TreeStore.Proofs.Path.Canonical
import TreeStore.Store

/-!
# Path maps

A path map says, for each list of names, what stands there: nothing, a directory, or a leaf with its
value.  It forgets nodes, links and the order of children.  `Request.effect` is what a request that
succeeds does to a path map, and `Request.refusal` the code and the cause with which a request is
refused; both read a path map alone.
-/

namespace TreeStore

/-- What stands at a path. -/
inductive Entry where
  | dir
  | leaf (value : Option String)
deriving DecidableEq, Repr

namespace Entry

/-- The entry of a new node; a directory has no value. -/
def new (isDir : Bool) (value : Option String) : Entry := if isDir then dir else leaf value

def isLeaf : Entry → Bool
  | dir => false
  | leaf _ => true

end Entry

/-- What stands at every path. -/
abbrev PathMap := List String → Option Entry

namespace PathMap

variable (M : PathMap)

/-! ### Changes -/

/-- A new entry at `p`, and directories at the paths above it that were empty. -/
def grow (p : List String) (e : Entry) : PathMap := fun q =>
  if q = p then some e else if q <+: p ∧ M q = none then some .dir else M q

/-- Another entry at `p`, and nothing below it any more. -/
def replace (p : List String) (e : Entry) : PathMap := fun q =>
  if q = p then some e else if p <+: q then none else M q

/-- Another entry at `p`. -/
def write (p : List String) (e : Entry) : PathMap := fun q => if q = p then some e else M q

/-- Nothing at `p` and below it. -/
def erase (p : List String) : PathMap := fun q => if p <+: q then none else M q

/-! ### Obstacles -/

/-- A leaf at `l` stands in the way to `p`. -/
def Blocks (l p : List String) : Prop := l <+: p ∧ l ≠ p ∧ ∃ v, M l = some (.leaf v)

/-- The leaf in the way to `p`, if there is one. -/
def blocker (p : List String) : Option (List String) :=
  p.inits.find? fun l => decide (l ≠ p) && (M l).any Entry.isLeaf

/-- Something stands directly below `p`. -/
def HasChild (p : List String) : Prop := ∃ n, M (p ++ [n]) ≠ none

/-- The refusal of a request that has to pass a leaf. -/
def obstacle (p : List String) : Option (Int × String) :=
  (M.blocker p).map fun l => (ErrorCode.notDir, Path.render l)

/-- The refusal of a request that needs something at `p`. -/
def absence (p : List String) : Option (Int × String) :=
  (M.obstacle p).or (if M p = none then some (ErrorCode.notExists, Path.render p) else none)

/-- The root is a directory, and everything else stands directly below a directory. -/
structure Closed : Prop where
  root : M [] = some .dir
  up : ∀ p n, M (p ++ [n]) ≠ none → M p = some .dir

end PathMap

/-- The codes that a store refuses requests with. -/
def ErrorCode.refusals : List Int :=
  [notFile, notDir, notExists, «exists», dirNotEmpty, rootReadOnly]

namespace Request

/-- The names from the root down to the place of the request. -/
def path (r : Request) : List String := Path.split (Path.normalize r.key)

theorem render_path (r : Request) : Path.render r.path = Path.normalize r.key := by
  rw [path, Path.render_split_normalize]

theorem path_eq_nil_iff {r : Request} : r.path = [] ↔ Path.normalize r.key = "/" := by
  rw [path, Path.normalize_eq_root_iff]

/-- The path map after the request, if it succeeds. -/
def effect (M : PathMap) (r : Request) : PathMap :=
  match r with
  | .get .. => M
  | .create _ isDir value => M.grow r.path (.new isDir value)
  | .set _ isDir value =>
    if M r.path = none then M.grow r.path (.new isDir value)
    else M.replace r.path (.new isDir value)
  | .update _ value => M.write r.path (.leaf value)
  | .delete .. => M.erase r.path

open Classical in
/-- The code and the cause with which the request is refused; `none` if it succeeds.  What is
checked first counts. -/
noncomputable def refusal (M : PathMap) (r : Request) : Option (Int × String) :=
  match r with
  | .get .. => M.absence r.path
  | .create .. =>
    if M r.path ≠ none then some (ErrorCode.exists, Path.render r.path) else M.obstacle r.path
  | .set .. => if r.path = [] then some (ErrorCode.rootReadOnly, "/") else M.obstacle r.path
  | .update .. =>
    (M.absence r.path).or
      (if M r.path = some .dir then some (ErrorCode.notFile, Path.render r.path) else none)
  | .delete _ recursive dir =>
    if r.path = [] then some (ErrorCode.rootReadOnly, "/")
    else (M.absence r.path).or
      (if dir = true ∧ M r.path ≠ some .dir then some (ErrorCode.notDir, Path.render r.path)
      else if M.HasChild r.path ∧ recursive = false then
        some (ErrorCode.dirNotEmpty, Path.render r.path)
      else none)

end Request

/-! ### Laws of path maps -/

theorem not_concat_prefix_self (p : List String) (n : String) : ¬ p ++ [n] <+: p := by
  intro h
  have hle := h.length_le
  rw [List.length_append, List.length_singleton] at hle
  omega

namespace PathMap

variable {M : PathMap}

theorem Closed.of_prefix (hM : M.Closed) {p q : List String} (h : p <+: q) (hne : p ≠ q)
    (hq : M q ≠ none) : M p = some .dir := by
  induction q using List.reverseRecOn with
  | nil => exact absurd (List.prefix_nil.mp h) hne
  | append_singleton q n ih =>
    have hd := hM.up q n hq
    rcases List.prefix_concat_iff.mp h with h | h
    · exact absurd h hne
    · by_cases hpq : p = q
      · rw [hpq, hd]
      · exact ih h hpq (by simp [hd])

theorem Closed.none_of_prefix (hM : M.Closed) {p q : List String} (h : p <+: q)
    (hp : M p = none) : M q = none := by
  by_contra hq
  by_cases hpq : p = q
  · exact hq (hpq ▸ hp)
  · have := hM.of_prefix h hpq hq
    simp [hp] at this

theorem Closed.present_of_prefix (hM : M.Closed) {p q : List String} (h : p <+: q)
    (hq : M q ≠ none) : M p ≠ none := fun hp => hq (hM.none_of_prefix h hp)

/-- Two leaves on one path are the same. -/
theorem Closed.blocks_unique (hM : M.Closed) {l m p : List String} (hl : M.Blocks l p)
    (hm : M.Blocks m p) : l = m := by
  obtain ⟨hlp, -, v, hv⟩ := hl
  obtain ⟨hmp, -, w, hw⟩ := hm
  by_contra hne
  rcases List.prefix_or_prefix_of_prefix hlp hmp with h | h
  · have := hM.of_prefix h hne (by simp [hw])
    simp [hv] at this
  · have := hM.of_prefix h (Ne.symm hne) (by simp [hv])
    simp [hw] at this

theorem blocks_of_blocker {l p : List String} (h : M.blocker p = some l) : M.Blocks l p := by
  have hmem := List.mem_of_find?_eq_some h
  have hp := List.find?_some h
  simp only [Bool.and_eq_true, decide_eq_true_eq] at hp
  refine ⟨(List.mem_inits l p).mp hmem, hp.1, ?_⟩
  cases hl : M l with
  | none => simp [hl] at hp
  | some e =>
    cases e with
    | dir => simp [hl, Entry.isLeaf] at hp
    | leaf v => exact ⟨v, rfl⟩

theorem blocker_eq_none_iff {p : List String} : M.blocker p = none ↔ ∀ l, ¬ M.Blocks l p := by
  constructor
  · rintro h l ⟨hlp, hne, v, hv⟩
    have := List.find?_eq_none.mp h l ((List.mem_inits l p).mpr hlp)
    simp [hne, hv, Entry.isLeaf] at this
  · intro h
    cases hb : M.blocker p with
    | none => rfl
    | some l => exact absurd (blocks_of_blocker hb) (h l)

theorem Closed.blocker_eq_some_iff (hM : M.Closed) {l p : List String} :
    M.blocker p = some l ↔ M.Blocks l p := by
  refine ⟨blocks_of_blocker, fun h => ?_⟩
  cases hb : M.blocker p with
  | none => exact absurd h (blocker_eq_none_iff.mp hb l)
  | some m => rw [hM.blocks_unique (blocks_of_blocker hb) h]

/-- The way to something is free. -/
theorem Closed.blocker_of_present (hM : M.Closed) {p : List String} (h : M p ≠ none) :
    M.blocker p = none := by
  refine blocker_eq_none_iff.mpr ?_
  rintro l ⟨hlp, hne, v, hv⟩
  have := hM.of_prefix hlp hne h
  simp [hv] at this

/-- The way is free as far as there is something, and after that there is nothing. -/
theorem Closed.blocker_of_gap (hM : M.Closed) {q : List String} {n : String}
    (hq : M q = some .dir) (hn : M (q ++ [n]) = none) (rest : List String) :
    M.blocker (q ++ n :: rest) = none := by
  refine blocker_eq_none_iff.mpr ?_
  rintro m ⟨hmp, -, v, hv⟩
  rcases List.prefix_or_prefix_of_prefix hmp (List.prefix_append q (n :: rest)) with h | h
  · by_cases hmq : m = q
    · rw [hmq, hq] at hv
      cases hv
    · rw [hM.of_prefix h hmq (by simp [hq])] at hv
      cases hv
  · obtain ⟨t, rfl⟩ := h
    cases t with
    | nil =>
      rw [List.append_nil, hq] at hv
      cases hv
    | cons a t =>
      obtain ⟨u, hu⟩ := hmp
      simp only [List.append_assoc, List.append_cancel_left_eq, List.cons_append,
        List.cons.injEq] at hu
      have hpre : q ++ [n] <+: q ++ a :: t := ⟨t, by simp [hu.1]⟩
      rw [hM.none_of_prefix hpre hn] at hv
      cases hv

theorem obstacle_of_free {p : List String} (h : M.blocker p = none) : M.obstacle p = none := by
  rw [obstacle, h]
  rfl

theorem obstacle_of_blocker {l p : List String} (h : M.blocker p = some l) :
    M.obstacle p = some (ErrorCode.notDir, Path.render l) := by
  rw [obstacle, h]
  rfl

theorem absence_of_present {p : List String} {e : Entry} (h : M.blocker p = none)
    (hp : M p = some e) : M.absence p = none := by
  rw [absence, obstacle_of_free h, hp]
  rfl

theorem absence_of_absent {p : List String} (h : M.blocker p = none) (hp : M p = none) :
    M.absence p = some (ErrorCode.notExists, Path.render p) := by
  rw [absence, obstacle_of_free h, if_pos hp]
  rfl

theorem absence_of_blocker {l p : List String} (h : M.blocker p = some l) :
    M.absence p = some (ErrorCode.notDir, Path.render l) := by
  rw [absence, obstacle_of_blocker h]
  rfl

theorem Closed.absence_eq_none_iff (hM : M.Closed) {p : List String} :
    M.absence p = none ↔ M p ≠ none := by
  cases hp : M p with
  | none =>
    cases hb : M.blocker p with
    | none => simp [absence_of_absent hb hp]
    | some l => simp [absence_of_blocker hb]
  | some e => simp [absence_of_present (hM.blocker_of_present (by simp [hp])) hp]

/-- Below a directory, a new entry is all that is added. -/
theorem Closed.replace_eq_grow (hM : M.Closed) {q : List String} {n : String} (hq : M q ≠ none)
    (hn : M (q ++ [n]) = none) (e : Entry) : M.replace (q ++ [n]) e = M.grow (q ++ [n]) e := by
  funext r
  unfold replace grow
  by_cases hr : r = q ++ [n]
  · rw [if_pos hr, if_pos hr]
  · rw [if_neg hr, if_neg hr]
    by_cases hpre : q ++ [n] <+: r
    · have hnot : ¬ (r <+: q ++ [n] ∧ M r = none) := fun hh =>
        hr (hh.1.eq_of_length_le hpre.length_le)
      rw [if_pos hpre, if_neg hnot, hM.none_of_prefix hpre hn]
    · have hnot : ¬ (r <+: q ++ [n] ∧ M r = none) := by
        rintro ⟨h, hnone⟩
        rcases List.prefix_concat_iff.mp h with h | h
        · exact hr h
        · exact hM.present_of_prefix h hq hnone
      rw [if_neg hpre, if_neg hnot]

/-- Below something, a new entry is all that is written. -/
theorem Closed.grow_eq_write (hM : M.Closed) {q : List String} {n : String} (hq : M q ≠ none)
    (e : Entry) : M.grow (q ++ [n]) e = M.write (q ++ [n]) e := by
  funext r
  unfold grow write
  by_cases hr : r = q ++ [n]
  · rw [if_pos hr, if_pos hr]
  · have hnot : ¬ (r <+: q ++ [n] ∧ M r = none) := by
      rintro ⟨h, hnone⟩
      rcases List.prefix_concat_iff.mp h with h | h
      · exact hr h
      · exact hM.present_of_prefix h hq hnone
    rw [if_neg hr, if_neg hnot, if_neg hr]

/-- A new entry where nothing was takes nothing away. -/
theorem Closed.replace_ne_none (hM : M.Closed) {p q : List String} {e : Entry} (hp : M p = none)
    (hq : M q ≠ none) : M.replace p e q ≠ none := by
  unfold replace
  split_ifs with hqp hpre
  · simp
  · exact absurd (hM.none_of_prefix hpre hp) hq
  · exact hq

/-- The missing directories of a path may be added one after the other. -/
theorem Closed.grow_replace_dir (hM : M.Closed) {q p : List String} (hq : M q = none)
    (hqp : q <+: p) (hne : q ≠ p) (e : Entry) : (M.replace q .dir).grow p e = M.grow p e := by
  funext r
  unfold replace grow
  by_cases hr : r = p
  · rw [if_pos hr, if_pos hr]
  · rw [if_neg hr, if_neg hr]
    by_cases hrq : r = q
    · subst hrq
      simp [hqp, hq]
    · by_cases hpre : q <+: r
      · simp [hrq, hpre, hM.none_of_prefix hpre hq]
      · simp [hrq, hpre]

end PathMap

/-! ### Codes of refusals -/

namespace Request

theorem code_of_refusal {r : Request} {M : PathMap} {code : Int} {cause : String}
    (h : r.refusal M = some (code, cause)) : code ∈ ErrorCode.refusals := by
  have hgiven {c : Int} {text : String} (hc : c ∈ ErrorCode.refusals)
      (h : some (c, text) = some (code, cause)) : code ∈ ErrorCode.refusals := by
    cases h
    exact hc
  have hobstacle {p : List String} (h : M.obstacle p = some (code, cause)) :
      code ∈ ErrorCode.refusals := by
    obtain ⟨l, -, hl⟩ := Option.map_eq_some_iff.mp h
    exact hgiven (by decide) (congrArg some hl)
  have habsence {p : List String} (h : M.absence p = some (code, cause)) :
      code ∈ ErrorCode.refusals := by
    rcases Option.or_eq_some_iff.mp h with h | ⟨-, h⟩
    · exact hobstacle h
    · split_ifs at h
      exact hgiven (by decide) h
  cases r with
  | get key recursive sorted =>
    rw [refusal] at h
    exact habsence h
  | create key isDir value =>
    rw [refusal] at h
    split_ifs at h
    · exact hgiven (by decide) h
    · exact hobstacle h
  | set key isDir value =>
    rw [refusal] at h
    split_ifs at h
    · exact hgiven (by decide) h
    · exact hobstacle h
  | update key value =>
    rw [refusal] at h
    rcases Option.or_eq_some_iff.mp h with h | ⟨-, h⟩
    · exact habsence h
    · split_ifs at h
      exact hgiven (by decide) h
  | delete key recursive dir =>
    rw [refusal] at h
    by_cases hroot : (delete key recursive dir).path = []
    · rw [if_pos hroot] at h
      exact hgiven (by decide) h
    rw [if_neg hroot] at h
    rcases Option.or_eq_some_iff.mp h with h | ⟨-, h⟩
    · exact habsence h
    · split_ifs at h
      · exact hgiven (by decide) h
      · exact hgiven (by decide) h

end Request

end TreeStore
