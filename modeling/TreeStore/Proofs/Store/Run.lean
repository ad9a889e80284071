import TreeStore.Proofs.Store.Reachable

/-!
# Runs of one store

A run leads from one store to another by calls in any order.  It is known by the requests that were
served in it, each with its outcome; questions and resets of the counters leave no mark, since they
change nothing that a request reads.  Whose requests they are does not matter: the calls of several
clients, however they are mixed, are one such list.

* `Reachable.exists_run`: the reachable stores are those that a run leads to from a new one;
* `Run.at_request`: a run cut at one of its requests;
* `Sound.serve_cases`: what one request comes to, and what it does to the path map;
* `Run.invariant`: what each request keeps holds of every run.
-/

namespace TreeStore.Store

/-- A request that was served, and what came of it. -/
structure Served where
  request : Request
  outcome : Except Fault Result

/-- A request served by a store, with the messages of the moment. -/
def serve (messages : Messages) (r : Request) (s : Store) : Served × Store :=
  (⟨r, (run (perform messages r) s).1⟩, (run (perform messages r) s).2)

/-- The stores that `s` comes to by calls, with the requests among them. -/
inductive Run (s : Store) : List Served → Store → Prop where
  | start : Run s [] s
  | request {served : List Served} {t : Store} (messages : Messages) (r : Request) :
      Run s served t → Run s (served ++ [(serve messages r t).1]) (serve messages r t).2
  | lookup {served : List Served} {t : Store} (key : String) :
      Run s served t → Run s served (run (exists? key) t).2
  | len {served : List Served} {t : Store} : Run s served t → Run s served (run size t).2
  | reset {served : List Served} {t : Store} :
      Run s served t → Run s served { t with stats := {} }

namespace Served

/-- It succeeded. -/
def Succeeds (d : Served) : Prop := ∃ result, d.outcome = .ok result

end Served

section Runs

variable {s t : Store} {served : List Served}

theorem Reachable.reachable_serve (hs : s.Reachable) (messages : Messages) (r : Request) :
    (serve messages r s).2.Reachable := .request messages r hs

theorem Run.reachable (h : Run s served t) (hs : s.Reachable) : t.Reachable := by
  induction h with
  | start => exact hs
  | request messages r _ ih => exact .request messages r ih
  | lookup key _ ih => exact .lookup key ih
  | len _ ih => exact .len ih
  | reset _ ih => exact .reset ih

theorem Reachable.exists_run (h : s.Reachable) :
    ∃ config served, Run { config := config } served s := by
  induction h with
  | new config => exact ⟨config, [], .start⟩
  | request messages r _ ih =>
    obtain ⟨config, served, h⟩ := ih
    exact ⟨config, _, .request messages r h⟩
  | lookup key _ ih =>
    obtain ⟨config, served, h⟩ := ih
    exact ⟨config, served, .lookup key h⟩
  | len _ ih =>
    obtain ⟨config, served, h⟩ := ih
    exact ⟨config, served, .len h⟩
  | reset _ ih =>
    obtain ⟨config, served, h⟩ := ih
    exact ⟨config, served, .reset h⟩

/-- A run cut at one of its requests. -/
theorem Run.at_request {before after : List Served} {d : Served}
    (h : Run s (before ++ d :: after) t) :
    ∃ u messages, Run s before u ∧ (serve messages d.request u).1 = d ∧
      Run (serve messages d.request u).2 after t := by
  generalize hserved : before ++ d :: after = served at h
  induction h generalizing after with
  | start => simp at hserved
  | @request served t messages r h ih =>
    -- the cut is at the last request, or the last request belongs to what comes after it
    rcases List.eq_nil_or_concat' after with rfl | ⟨after, last, rfl⟩
    · obtain ⟨rfl, hd⟩ := List.append_inj' hserved rfl
      obtain rfl := List.singleton_inj.mp hd
      exact ⟨t, messages, h, rfl, .start⟩
    · rw [← List.cons_append, ← List.append_assoc] at hserved
      obtain ⟨hinit, hlast⟩ := List.append_inj' hserved rfl
      obtain rfl := List.singleton_inj.mp hlast
      obtain ⟨u, messages', hu, hd, hrest⟩ := ih hinit
      exact ⟨u, messages', hu, hd, .request messages r hrest⟩
  | lookup key _ ih =>
    obtain ⟨u, messages, hu, hd, hrest⟩ := ih hserved
    exact ⟨u, messages, hu, hd, .lookup key hrest⟩
  | len _ ih =>
    obtain ⟨u, messages, hu, hd, hrest⟩ := ih hserved
    exact ⟨u, messages, hu, hd, .len hrest⟩
  | reset _ ih =>
    obtain ⟨u, messages, hu, hd, hrest⟩ := ih hserved
    exact ⟨u, messages, hu, hd, .reset hrest⟩

end Runs

/-! ### One call -/

section Calls

variable {s : Store} (hs : s.Sound)
include hs

/-- A request is refused and changes no path, or it succeeds and changes the paths as it says. -/
theorem Sound.serve_cases (messages : Messages) (r : Request) :
    (∃ code cause, r.refusal s.pathMap = some (code, cause) ∧
      (serve messages r s).1 = ⟨r, .error (.refused (messages.error code cause))⟩ ∧
      (serve messages r s).2.pathMap = s.pathMap) ∨
    (∃ result, r.refusal s.pathMap = none ∧ (serve messages r s).1 = ⟨r, .ok result⟩ ∧
      (serve messages r s).2.pathMap = r.effect s.pathMap) := by
  rcases hs.perform_cases messages r with ⟨code, cause, hr, hp⟩ | ⟨result, g, hr, hp, -, hmap, -⟩
  · refine Or.inl ⟨code, cause, hr, ?_⟩
    rw [serve, run, hp]
    exact ⟨rfl, rfl⟩
  · refine Or.inr ⟨result, hr, ?_⟩
    rw [serve, run, hp]
    exact ⟨rfl, hmap⟩

theorem Sound.sound_serve (messages : Messages) (r : Request) : (serve messages r s).2.Sound :=
  hs.run_perform messages r

theorem Sound.keepsOrder_serve (messages : Messages) (r : Request) :
    s.graph.KeepsOrder (serve messages r s).2.graph := by
  rcases hs.perform_cases messages r with ⟨_, _, -, hp⟩ | ⟨_, _, -, hp, -, -, -, ho⟩
  · rw [serve, run, hp]
    exact .refl _
  · rw [serve, run, hp]
    exact ho

theorem Sound.config_serve (messages : Messages) (r : Request) :
    (serve messages r s).2.config = s.config := by
  rcases hs.perform_cases messages r with ⟨_, _, -, hp⟩ | ⟨_, _, -, hp, -⟩
  · rw [serve, run, hp]
    rfl
  · rw [serve, run, hp]
    rfl

theorem Sound.pathMap_lookup (key : String) : (run (exists? key) s).2.pathMap = s.pathMap := by
  rw [run, hs.exists?_ok key]

theorem Sound.pathMap_len : (run size s).2.pathMap = s.pathMap := by
  rw [run, hs.size_ok]

end Calls

/-- What the requests of a run keep of the path map and of what was served so far: nothing but a
success changes the paths, and it does so as it says. -/
theorem Run.invariant {s t : Store} {served : List Served} (h : Run s served t) (hs : s.Reachable)
    {I : List Served → PathMap → Prop} (hstart : I [] s.pathMap)
    (hrefused : ∀ served M r f, I served M → I (served ++ [⟨r, .error f⟩]) M)
    (hdone : ∀ served M r result, M.Closed → r.refusal M = none → I served M →
      I (served ++ [⟨r, .ok result⟩]) (r.effect M)) : I served t.pathMap := by
  induction h with
  | start => exact hstart
  | @request served u messages r h ih =>
    have hsound := (h.reachable hs).sound
    rcases hsound.serve_cases messages r with ⟨_, _, -, hd, hmap⟩ | ⟨result, hr, hd, hmap⟩
    · rw [hd, hmap]
      exact hrefused served u.pathMap r _ ih
    · rw [hd, hmap]
      exact hdone served u.pathMap r result hsound.closed hr ih
  | lookup key h ih =>
    rw [(h.reachable hs).sound.pathMap_lookup]
    exact ih
  | len h ih =>
    rw [(h.reachable hs).sound.pathMap_len]
    exact ih
  | reset _ ih => exact ih

/-- What a served request makes of a path map. -/
def Served.change (M : PathMap) (d : Served) : PathMap :=
  match d.outcome with
  | .ok _ => d.request.effect M
  | .error _ => M

theorem Run.pathMap_eq {s t : Store} {served : List Served} (h : Run s served t)
    (hs : s.Reachable) : t.pathMap = served.foldl Served.change s.pathMap := by
  refine h.invariant hs (I := fun served M => M = served.foldl Served.change s.pathMap) rfl ?_ ?_
  · intro served M r f h
    rw [List.foldl_append, ← h]
    rfl
  · intro served M r result _ _ h
    rw [List.foldl_append, ← h]
    rfl

/-- What has been served decides the paths. -/
theorem Run.pathMap_unique {s t t' : Store} {served : List Served} (h : Run s served t)
    (h' : Run s served t') (hs : s.Reachable) : t.pathMap = t'.pathMap :=
  (h.pathMap_eq hs).trans (h'.pathMap_eq hs).symm

end TreeStore.Store
