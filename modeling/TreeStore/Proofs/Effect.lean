import TreeStore.Proofs.PathMap

/-!
# Where a request takes effect

A request that succeeds changes nothing outside the paths above its own and the paths from its own
down.  Above, directories may come that were missing (`effect_above`); from its own path down, what
comes depends on what was there and on nothing else (`effect_below`); all the rest stays
(`effect_apart`).

So a path comes, goes, or gets a value by few requests only (`brings_of_effect`,
`clears_of_effect`, `leaf_of_effect`), and requests on two paths of which neither leads to the other
do not notice each other: they are refused as before, and their effects commute (`effect_comm`).
-/

namespace TreeStore

/-! ### Paths that part -/

/-- Neither path leads to the other. -/
def Apart (p q : List String) : Prop := ¬ p <+: q ∧ ¬ q <+: p

theorem Apart.symm {p q : List String} (h : Apart p q) : Apart q p := ⟨h.2, h.1⟩

/-- What is below one of two paths that part is apart from the other. -/
theorem Apart.below {p q x : List String} (h : Apart p q) (hx : q <+: x) : Apart p x := by
  refine ⟨fun hp => ?_, fun hp => h.2 (hx.trans hp)⟩
  rcases List.prefix_or_prefix_of_prefix hp hx with hpq | hqp
  · exact h.1 hpq
  · exact h.2 hqp

namespace PathMap

section Grow

variable {M : PathMap} {p x : List String} {e : Entry}

theorem grow_self : M.grow p e p = some e := if_pos rfl

/-- Growing leaves directories all the way to the new entry. -/
theorem grow_above (hx : x <+: p) (hne : x ≠ p) : M.grow p e x = some ((M x).getD .dir) := by
  rw [grow, if_neg hne]
  cases hm : M x with
  | none =>
    rw [if_pos ⟨hx, rfl⟩]
    rfl
  | some e' => exact if_neg fun h => Option.some_ne_none e' h.2

theorem grow_elsewhere (hx : ¬ x <+: p) : M.grow p e x = M x := by
  have hne : x ≠ p := fun hself => hx (hself ▸ List.prefix_rfl)
  rw [grow, if_neg hne, if_neg (hx ·.1)]

/-- Growing brings what leads to the new entry, and nothing else. -/
theorem grow_ne_none_iff : M.grow p e x ≠ none ↔ M x ≠ none ∨ x <+: p := by
  by_cases hup : x <+: p
  · have hthere : M.grow p e x ≠ none := by
      by_cases hself : x = p
      · rw [hself, grow_self]
        exact Option.some_ne_none _
      · rw [grow_above hup hself]
        exact Option.some_ne_none _
    simp [hthere, hup]
  · rw [grow_elsewhere hup, or_iff_left hup]

theorem grow_ne_none (hx : M x ≠ none) : M.grow p e x ≠ none := grow_ne_none_iff.mpr (Or.inl hx)

end Grow

/-- Seen from `p`, `M'` is as `M` was: the same from `p` down, and above `p` nothing but new
directories in empty places. -/
structure Agrees (M' M : PathMap) (p : List String) : Prop where
  below : ∀ x, p <+: x → M' x = M x
  above : ∀ x, x <+: p → M' x = M x ∨ M x = none ∧ M' x = some .dir

theorem Agrees.refl (M : PathMap) (p : List String) : M.Agrees M p :=
  ⟨fun _ _ => rfl, fun _ _ => Or.inl rfl⟩

theorem Agrees.at_path {M' M : PathMap} {p : List String} (h : M'.Agrees M p) : M' p = M p :=
  h.below p List.prefix_rfl

theorem Agrees.leaf_iff {M' M : PathMap} {p x : List String} (h : M'.Agrees M p) (hx : x <+: p)
    (v : Option String) : M' x = some (.leaf v) ↔ M x = some (.leaf v) := by
  rcases h.above x hx with hs | ⟨hn, hd⟩
  · rw [hs]
  · simp [hn, hd]

theorem Agrees.blocks_iff {M' M : PathMap} {p l : List String} (h : M'.Agrees M p) :
    M'.Blocks l p ↔ M.Blocks l p :=
  and_congr_right fun hl => and_congr_right fun _ => exists_congr (h.leaf_iff hl)

theorem Agrees.hasChild_iff {M' M : PathMap} {p : List String} (h : M'.Agrees M p) :
    M'.HasChild p ↔ M.HasChild p :=
  exists_congr fun n => by rw [h.below _ (List.prefix_append p [n])]

theorem Agrees.obstacle_eq {M' M : PathMap} {p : List String} (h : M'.Agrees M p)
    (hM : M.Closed) (hM' : M'.Closed) : M'.obstacle p = M.obstacle p := by
  have hblocker : M'.blocker p = M.blocker p :=
    Option.ext fun l => by rw [hM'.blocker_eq_some_iff, hM.blocker_eq_some_iff, h.blocks_iff]
  rw [obstacle, obstacle, hblocker]

end PathMap

namespace Request

/-- A success may bring what was not at `p`: it makes something there or below. -/
def Brings (r : Request) (p : List String) : Prop :=
  match r with
  | .create .. | .set .. => p <+: r.path
  | _ => False

/-- A success may take away what is at `p`: it removes it or something above, or puts something
else above. -/
def Clears (r : Request) (p : List String) : Prop :=
  match r with
  | .delete .. => r.path <+: p
  | .set .. => r.path <+: p ∧ r.path ≠ p
  | _ => False

/-- The request creates `p` itself. -/
def Creates (r : Request) (p : List String) : Prop :=
  match r with
  | .create .. => r.path = p
  | _ => False

open Classical in
/-- The path map after the request, whatever comes of it. -/
noncomputable def apply (M : PathMap) (r : Request) : PathMap :=
  if r.refusal M = none then r.effect M else M

/-- What a success writes at `p`. -/
def writes (r : Request) (p : List String) : Option Entry :=
  if r.path = p then
    match r with
    | .create _ isDir value | .set _ isDir value => some (.new isDir value)
    | .update _ value => some (.leaf value)
    | .get .. | .delete .. => none
  else none

section Effect

variable {M : PathMap} {r : Request}

/-- Only `create` and `set` succeed where nothing is. -/
theorem present_of_success (hM : M.Closed) (h : r.refusal M = none) (hc : r.action ≠ .create)
    (hs : r.action ≠ .set) : M r.path ≠ none := by
  cases r with
  | get key recursive sorted =>
    rw [refusal] at h
    exact hM.absence_eq_none_iff.mp h
  | create key isDir value => exact absurd rfl hc
  | set key isDir value => exact absurd rfl hs
  | update key value =>
    rw [refusal, Option.or_eq_none_iff] at h
    exact hM.absence_eq_none_iff.mp h.1
  | delete key recursive dir =>
    rw [refusal] at h
    by_cases hnil : (delete key recursive dir).path = []
    · rw [if_pos hnil] at h
      cases h
    · rw [if_neg hnil, Option.or_eq_none_iff] at h
      exact hM.absence_eq_none_iff.mp h.1

theorem refusal_get_eq_none_iff (hM : M.Closed) {key : String} {recursive : Bool}
    {sorted : Option Bool} : (get key recursive sorted).refusal M = none ↔
      M (Path.split (Path.normalize key)) ≠ none := by
  rw [refusal, hM.absence_eq_none_iff]
  rfl

/-! ### Above, apart and below -/

theorem effect_apart {x : List String} (hx : Apart r.path x) : r.effect M x = M x := by
  have hne : x ≠ r.path := fun hself => hx.1 (hself ▸ List.prefix_rfl)
  cases r with
  | get key recursive sorted => rfl
  | create key isDir value => exact PathMap.grow_elsewhere hx.2
  | set key isDir value =>
    rw [effect]
    split_ifs
    · exact PathMap.grow_elsewhere hx.2
    · rw [PathMap.replace, if_neg hne, if_neg hx.1]
  | update key value => rw [effect, PathMap.write, if_neg hne]
  | delete key recursive dir => rw [effect, PathMap.erase, if_neg hx.1]

/-- A success leaves directories all the way to its path. -/
theorem effect_above (hM : M.Closed) (h : r.refusal M = none) {x : List String}
    (hx : x <+: r.path) (hne : x ≠ r.path) : r.effect M x = some ((M x).getD .dir) := by
  have hnot : ¬ r.path <+: x := fun hp => hne (hx.eq_of_length_le hp.length_le)
  have hkept (hp : M r.path ≠ none) : M x = some ((M x).getD .dir) := by
    rw [hM.of_prefix hx hne hp]
    rfl
  cases r with
  | get key recursive sorted => exact hkept (present_of_success hM h nofun nofun)
  | create key isDir value => exact PathMap.grow_above hx hne
  | set key isDir value =>
    rw [effect]
    split_ifs with hp
    · exact PathMap.grow_above hx hne
    · rw [PathMap.replace, if_neg hne, if_neg hnot]
      exact hkept hp
  | update key value =>
    rw [effect, PathMap.write, if_neg hne]
    exact hkept (present_of_success hM h nofun nofun)
  | delete key recursive dir =>
    rw [effect, PathMap.erase, if_neg hnot]
    exact hkept (present_of_success hM h nofun nofun)

/-- From its path down, what a request makes depends only on what was there. -/
theorem effect_below {M' : PathMap} (h : ∀ x, r.path <+: x → M' x = M x) {x : List String}
    (hx : r.path <+: x) : r.effect M' x = r.effect M x := by
  have hgrow (e : Entry) : M'.grow r.path e x = M.grow r.path e x := by
    rw [PathMap.grow, PathMap.grow, h x hx]
  cases r with
  | get key recursive sorted => exact h x hx
  | create key isDir value => exact hgrow _
  | set key isDir value =>
    rw [effect, effect, h _ List.prefix_rfl]
    split_ifs
    · exact hgrow _
    · rw [PathMap.replace, PathMap.replace, if_pos hx, if_pos hx]
  | update key value => rw [effect, effect, PathMap.write, PathMap.write, h x hx]
  | delete key recursive dir => rw [effect, effect, PathMap.erase, PathMap.erase, h x hx]

end Effect

/-! ### A path comes, goes, or gets a value -/

section Path

variable {M : PathMap} {r : Request} {p : List String}

theorem brings_of_effect (hM : M.Closed) (h : r.refusal M = none) (hp : M p = none)
    (hp' : r.effect M p ≠ none) : r.Brings p := by
  have hgrow {e : Entry} (hne : M.grow r.path e p ≠ none) : p <+: r.path := by
    by_contra hup
    rw [PathMap.grow_elsewhere hup] at hne
    exact hne hp
  cases r with
  | get key recursive sorted => exact absurd hp hp'
  | create key isDir value => exact hgrow hp'
  | set key isDir value =>
    rw [effect] at hp'
    split_ifs at hp' with hnone
    · exact hgrow hp'
    · rw [PathMap.replace] at hp'
      split_ifs at hp' with hself hbelow
      · exact absurd (hself ▸ hp) hnone
      · exact absurd rfl hp'
      · exact absurd hp hp'
  | update key value =>
    rw [effect, PathMap.write] at hp'
    split_ifs at hp' with hself
    · exact absurd (hself ▸ hp) (present_of_success hM h nofun nofun)
    · exact absurd hp hp'
  | delete key recursive dir =>
    rw [effect, PathMap.erase, hp, ite_self] at hp'
    exact absurd rfl hp'

theorem clears_of_effect (hp : M p ≠ none) (hp' : r.effect M p = none) : r.Clears p := by
  cases r with
  | get key recursive sorted => exact absurd hp' hp
  | create key isDir value => exact absurd hp' (PathMap.grow_ne_none hp)
  | set key isDir value =>
    rw [effect] at hp'
    split_ifs at hp'
    · exact absurd hp' (PathMap.grow_ne_none hp)
    · rw [PathMap.replace] at hp'
      split_ifs at hp' with hself hbelow
      · exact ⟨hbelow, Ne.symm hself⟩
      · exact absurd hp' hp
  | update key value =>
    rw [effect, PathMap.write] at hp'
    split_ifs at hp'
    exact absurd hp' hp
  | delete key recursive dir =>
    rw [effect, PathMap.erase] at hp'
    split_ifs at hp' with hbelow
    · exact hbelow
    · exact absurd hp' hp

theorem effect_of_writes {e : Entry} (h : r.writes p = some e) : r.effect M p = some e := by
  unfold writes at h
  split_ifs at h with hself
  subst hself
  cases r with
  | get key recursive sorted => cases h
  | create key isDir value => rw [effect, PathMap.grow_self, ← h]
  | set key isDir value =>
    rw [effect, ← h]
    split_ifs
    · exact PathMap.grow_self
    · rw [PathMap.replace, if_pos rfl]
  | update key value => rw [effect, PathMap.write, if_pos rfl, ← h]
  | delete key recursive dir => cases h

/-- What a success writes has nothing below it. -/
theorem effect_bare (hM : M.Closed) (h : r.refusal M = none) {e : Entry}
    (hw : r.writes p = some e) (n : String) : r.effect M (p ++ [n]) = none := by
  have hself : r.path = p := by
    by_contra hne
    rw [writes.eq_def, if_neg hne] at hw
    cases hw
  subst hself
  have hbelow : r.path <+: r.path ++ [n] := List.prefix_append ..
  have hne : r.path ++ [n] ≠ r.path := by simp
  have hgrow (e : Entry) (hp : M r.path = none) : M.grow r.path e (r.path ++ [n]) = none := by
    rw [PathMap.grow_elsewhere fun hup => hne (hup.eq_of_length_le hbelow.length_le)]
    exact hM.none_of_prefix hbelow hp
  cases r with
  | get key recursive sorted => simp [writes] at hw
  | create key isDir value =>
    rw [refusal] at h
    split_ifs at h with hp
    exact hgrow _ (not_not.mp hp)
  | set key isDir value =>
    rw [effect]
    split_ifs with hp
    · exact hgrow _ hp
    · rw [PathMap.replace, if_neg hne, if_pos hbelow]
  | update key value =>
    rw [effect, PathMap.write, if_neg hne]
    by_contra hn
    rw [refusal, if_pos (hM.up _ n hn), Option.or_eq_none_iff] at h
    cases h.2
  | delete key recursive dir => simp [writes] at hw

theorem effect_of_brings (hM : M.Closed) (h : r.refusal M = none) (hb : r.Brings p) :
    r.effect M p ≠ none := by
  by_cases hself : p = r.path
  · have hw : r.writes p ≠ none := by
      rw [writes.eq_def, if_pos hself.symm]
      cases r with
      | create key isDir value => exact Option.some_ne_none _
      | set key isDir value => exact Option.some_ne_none _
      | _ => exact hb.elim
    obtain ⟨e, he⟩ := Option.ne_none_iff_exists'.mp hw
    rw [effect_of_writes he]
    exact Option.some_ne_none _
  · have hp : p <+: r.path := by
      cases r with
      | create key isDir value => exact hb
      | set key isDir value => exact hb
      | _ => exact hb.elim
    rw [effect_above hM h hp hself]
    exact Option.some_ne_none _

/-- In each directory a request brings one name only. -/
theorem Brings.name_unique {m n : String} (hm : r.Brings (p ++ [m])) (hn : r.Brings (p ++ [n])) :
    m = n := by
  have hone (hm : p ++ [m] <+: r.path) (hn : p ++ [n] <+: r.path) : m = n := by
    have hsame := List.prefix_of_prefix_length_le hm hn (by simp)
    simpa using hsame.eq_of_length (by simp)
  cases r with
  | create key isDir value => exact hone hm hn
  | set key isDir value => exact hone hm hn
  | _ => exact hm.elim

/-- A request that brings something takes nothing away. -/
theorem kept_of_brought (hM : M.Closed) (h : r.refusal M = none) (hp : M p = none)
    (hp' : r.effect M p ≠ none) {x : List String} (hx : M x ≠ none) : r.effect M x ≠ none := by
  intro hx'
  have hb := brings_of_effect hM h hp hp'
  have hc := clears_of_effect hx hx'
  cases r with
  | set key isDir value =>
    -- what is replaced is above `x`, so it is there, and so is everything above it
    exact hM.present_of_prefix hb (hM.present_of_prefix hc.1 hx) hp
  | delete key recursive dir => exact hb
  | _ => exact hc

/-- Writing over what is there brings and takes nothing but below it. -/
theorem present_iff_of_overwrite (hM : M.Closed) (h : r.refusal M = none)
    (ha : r.action = .set ∨ r.action = .update) (hr : M r.path ≠ none) {x : List String}
    (hx : ¬ (r.path <+: x ∧ r.path ≠ x)) : r.effect M x ≠ none ↔ M x ≠ none := by
  constructor
  · intro hx' hnone
    have hb := brings_of_effect hM h hnone hx'
    cases r with
    | set key isDir value => exact hM.present_of_prefix hb hr hnone
    | create key isDir value => simp [action] at ha
    | _ => exact hb
  · intro hthere hnone
    have hc := clears_of_effect hthere hnone
    cases r with
    | set key isDir value => exact hx hc
    | delete key recursive dir => simp [action] at ha
    | _ => exact hc

theorem Creates.brings (hc : r.Creates p) : r.Brings p := by
  cases r with
  | create key isDir value => exact hc ▸ List.prefix_rfl
  | _ => exact hc.elim

theorem Creates.refusal (hc : r.Creates p) (hp : M p ≠ none) :
    r.refusal M = some (ErrorCode.exists, Path.render p) := by
  cases r with
  | create key isDir value =>
    obtain rfl := hc
    rw [Request.refusal, if_pos hp]
  | _ => exact hc.elim

/-- A leaf that was not written is the one that was there. -/
theorem leaf_of_effect {v : Option String} (hw : r.writes p = none)
    (h : r.effect M p = some (.leaf v)) : M p = some (.leaf v) := by
  have hgrow {e : Entry} (hne : r.path ≠ p) (h : M.grow r.path e p = some (.leaf v)) :
      M p = some (.leaf v) := by
    by_cases hup : p <+: r.path
    · rw [PathMap.grow_above hup (Ne.symm hne)] at h
      cases hm : M p with
      | none =>
        rw [hm] at h
        cases h
      | some e => rwa [hm] at h
    · rwa [PathMap.grow_elsewhere hup] at h
  cases r with
  | get key recursive sorted => exact h
  | create key isDir value =>
    have hne : (create key isDir value).path ≠ p := fun hself => by simp [writes, hself] at hw
    exact hgrow hne h
  | set key isDir value =>
    have hne : (set key isDir value).path ≠ p := fun hself => by simp [writes, hself] at hw
    rw [effect] at h
    split_ifs at h
    · exact hgrow hne h
    · rw [PathMap.replace, if_neg (Ne.symm hne)] at h
      split_ifs at h
      exact h
  | update key value =>
    have hne : (update key value).path ≠ p := fun hself => by simp [writes, hself] at hw
    rw [effect, PathMap.write, if_neg (Ne.symm hne)] at h
    exact h
  | delete key recursive dir =>
    rw [effect, PathMap.erase] at h
    split_ifs at h
    exact h

end Path

/-! ### Requests that do not notice each other -/

section Pair

variable {M : PathMap} {r r' : Request}

theorem apply_of_success (h : r.refusal M = none) : r.apply M = r.effect M := if_pos h

theorem apply_of_refused (h : r.refusal M ≠ none) : r.apply M = M := if_neg h

/-- After a success, everything is as before for whoever looks from a path apart. -/
theorem agrees_effect (hM : M.Closed) (h : r.refusal M = none) {p : List String}
    (hp : Apart r.path p) : (r.effect M).Agrees M p where
  below x hx := effect_apart (hp.below hx)
  above x hx := by
    by_cases hxr : x <+: r.path
    · have hne : x ≠ r.path := fun hself => hp.1 (hself ▸ hx)
      rw [effect_above hM h hxr hne]
      cases M x with
      | none => exact Or.inr ⟨rfl, rfl⟩
      | some e => exact Or.inl rfl
    · exact Or.inl (effect_apart ⟨fun hrx => hp.1 (hrx.trans hx), hxr⟩)

theorem agrees_apply (hM : M.Closed) {p : List String} (hp : Apart r.path p) :
    (r.apply M).Agrees M p := by
  by_cases h : r.refusal M = none
  · rw [apply_of_success h]
    exact agrees_effect hM h hp
  · rw [apply_of_refused h]
    exact .refl M p

theorem refusal_congr {M' : PathMap} (hM : M.Closed) (hM' : M'.Closed)
    (h : M'.Agrees M r.path) : r.refusal M' = r.refusal M := by
  have habsence : M'.absence r.path = M.absence r.path := by
    rw [PathMap.absence, PathMap.absence, h.obstacle_eq hM hM', h.at_path]
  cases r with
  | get key recursive sorted => rw [refusal, refusal, habsence]
  | create key isDir value => rw [refusal, refusal, h.at_path, h.obstacle_eq hM hM']
  | set key isDir value => rw [refusal, refusal, h.obstacle_eq hM hM']
  | update key value => rw [refusal, refusal, habsence, h.at_path]
  | delete key recursive dir =>
    rw [refusal, refusal, habsence, h.at_path, propext h.hasChild_iff]

/-- Two successes on paths that part come to the same in either order. -/
theorem effect_comm (hM : M.Closed) (hpq : Apart r.path r'.path) (h : r.refusal M = none)
    (h' : r'.refusal M = none) (hE : (r.effect M).Closed) (hE' : (r'.effect M).Closed) :
    r'.effect (r.effect M) = r.effect (r'.effect M) := by
  have hr := (refusal_congr hM hE' (agrees_effect hM h' hpq.symm)).trans h
  have hr' := (refusal_congr hM hE (agrees_effect hM h hpq)).trans h'
  funext x
  by_cases hx : r.path <+: x
  · rw [effect_apart (hpq.symm.below hx),
      effect_below (fun y hy => effect_apart (hpq.symm.below hy)) hx]
  by_cases hx' : r'.path <+: x
  · rw [effect_apart (hpq.below hx'), effect_below (fun y hy => effect_apart (hpq.below hy)) hx']
  have hne : x ≠ r.path := fun hself => hx (hself ▸ List.prefix_rfl)
  have hne' : x ≠ r'.path := fun hself => hx' (hself ▸ List.prefix_rfl)
  -- above both paths, above one of them only, or beside them
  by_cases ha : x <+: r.path
  · by_cases ha' : x <+: r'.path
    · rw [effect_above hE hr' ha' hne', effect_above hM h ha hne, effect_above hE' hr ha hne,
        effect_above hM h' ha' hne']
    · rw [effect_apart ⟨hx', ha'⟩, effect_above hM h ha hne, effect_above hE' hr ha hne,
        effect_apart ⟨hx', ha'⟩]
  · by_cases ha' : x <+: r'.path
    · rw [effect_above hE hr' ha' hne', effect_apart ⟨hx, ha⟩, effect_apart ⟨hx, ha⟩,
        effect_above hM h' ha' hne']
    · rw [effect_apart ⟨hx', ha'⟩, effect_apart ⟨hx, ha⟩, effect_apart ⟨hx, ha⟩,
        effect_apart ⟨hx', ha'⟩]

/-- Requests on paths that part come to the same in either order. -/
theorem apply_comm (hM : M.Closed) (hpq : Apart r.path r'.path) (hE : (r.apply M).Closed)
    (hE' : (r'.apply M).Closed) : r'.apply (r.apply M) = r.apply (r'.apply M) := by
  have hr : r.refusal (r'.apply M) = r.refusal M :=
    refusal_congr hM hE' (agrees_apply hM hpq.symm)
  have hr' : r'.refusal (r.apply M) = r'.refusal M := refusal_congr hM hE (agrees_apply hM hpq)
  by_cases h : r.refusal M = none
  swap
  · rw [apply_of_refused h, apply_of_refused (hr.trans_ne h)]
  by_cases h' : r'.refusal M = none
  swap
  · rw [apply_of_refused h', apply_of_refused (hr'.trans_ne h')]
  rw [apply_of_success h] at hE hr' ⊢
  rw [apply_of_success h'] at hE' hr ⊢
  rw [apply_of_success (hr'.trans h'), apply_of_success (hr.trans h)]
  exact effect_comm hM hpq h h' hE hE'

end Pair

end Request

end TreeStore
