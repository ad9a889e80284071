import TreeStore.Pool
import TreeStore.Proofs.Store.Counters
import TreeStore.Proofs.Store.Reachable

/-!
# Pools

Commands keep every store of a pool reachable: `Reachable.runAll`.

A request that is refused leaves the pool as it was, but for one counter of its store:
`run_refused`.  That counter is never read by a later command unless the command asks for the
counters, so all later commands have the outcome that they have without the request:
`run_countFailure`.
-/

namespace TreeStore.Pool

/-! ### Reachable stores -/

/-- Every store is one that a new store comes to. -/
def Reachable (p : Pool) : Prop := ∀ m ∈ p.members, m.store.Reachable

theorem reachable_withShared (shared : List (Int × String)) : (withShared shared).Reachable := by
  intro m hm
  cases hm

theorem Reachable.add {p : Pool} (h : p.Reachable) (config : Config) (choice : RegistryChoice) :
    (p.add config choice).Reachable := by
  have hnew (n : Nat) : ∀ m ∈ p.members ++ [⟨{ config := config }, n⟩], m.store.Reachable := by
    intro m hm
    rcases List.mem_append.mp hm with hm | hm
    · exact h m hm
    · rw [List.mem_singleton.mp hm]
      exact .new config
  cases choice with
  | shared => exact hnew 0
  | own list => exact hnew _
  | configured => exact hnew _

theorem Reachable.run {p : Pool} (h : p.Reachable) (i : Nat) (c : Command) :
    (p.run i c).2.Reachable := by
  unfold Pool.run
  cases hm : p.members[i]? with
  | none => exact h
  | some m =>
    have hs := h m (List.mem_of_getElem? hm)
    have hset {s : Store} (hs' : s.Reachable) : (p.setStore i m s).Reachable := by
      intro n hn
      rcases List.mem_or_eq_of_mem_set hn with hn | rfl
      · exact h n hn
      · exact hs'
    cases c with
    | request r => exact hset (.request _ r hs)
    | «exists» key => exact hset (.lookup key hs)
    | size => exact hset (.len hs)
    | stats => exact h
    | total => exact h
    | reset => exact hset (.reset hs)
    | registry call => exact h

theorem Reachable.runAll {p : Pool} (h : p.Reachable) (commands : List (Nat × Command)) :
    (p.runAll commands).2.Reachable := by
  induction commands generalizing p with
  | nil => exact h
  | cons head rest ih => exact ih (h.run head.1 head.2)

/-! ### One more failure -/

/-- The pool with one more failure counted on a store. -/
def countFailure (p : Pool) (i : Nat) (a : Action) : Pool :=
  { p with members := p.members.modify i fun m => { m with store := m.store.count a false } }

section

variable {p : Pool} {i j : Nat} {a : Action} {m : Member}

theorem members_countFailure_self (h : p.members[i]? = some m) :
    (p.countFailure i a).members[i]? = some { m with store := m.store.count a false } := by
  simp [countFailure, h]

theorem members_countFailure_of_ne (h : i ≠ j) :
    (p.countFailure i a).members[j]? = p.members[j]? := by
  simp [countFailure, h]

/-- A counted failure leaves the tables and the configurations of the members. -/
theorem members_countFailure (p : Pool) (i j : Nat) (a : Action) :
    (p.members[j]? = none ∧ (p.countFailure i a).members[j]? = none) ∨
    ∃ m m', p.members[j]? = some m ∧ (p.countFailure i a).members[j]? = some m' ∧
      m'.registry = m.registry ∧ m'.store.config = m.store.config := by
  cases hm : p.members[j]? with
  | none => exact Or.inl ⟨rfl, by simpa [countFailure] using hm⟩
  | some m =>
    refine Or.inr ⟨m, ?_⟩
    by_cases hij : i = j
    · subst hij
      exact ⟨_, rfl, members_countFailure_self hm, rfl, rfl⟩
    · exact ⟨m, rfl, (members_countFailure_of_ne hij).trans hm, rfl, rfl⟩

theorem countFailure_of_none (h : p.members[i]? = none) : p.countFailure i a = p := by
  rw [countFailure, List.modify_eq_self (List.getElem?_eq_none_iff.mp h)]

theorem countFailure_of_some (h : p.members[i]? = some m) :
    p.countFailure i a = p.setStore i m (m.store.count a false) := by
  unfold countFailure setStore
  congr 1
  refine List.ext_getElem? fun k => ?_
  rw [List.getElem?_modify, List.getElem?_set]
  by_cases hk : i = k
  · subst hk
    rw [h, if_pos rfl, if_pos (List.getElem?_eq_some_iff.mp h).1]
    simp
  · simp [hk]

theorem setStore_countFailure_self (m : Member) (old s : Store) :
    (p.countFailure i a).setStore i { m with store := old } s = p.setStore i m s := by
  unfold countFailure setStore
  congr 1
  refine List.ext_getElem? fun k => ?_
  simp only [List.getElem?_set, List.getElem?_modify, List.length_modify]
  by_cases hk : i = k
  · simp [hk]
  · simp [hk]

theorem setStore_countFailure_of_ne (h : i ≠ j) (m : Member) (s : Store) :
    (p.countFailure i a).setStore j m s = (p.setStore j m s).countFailure i a := by
  unfold countFailure setStore
  congr 1
  refine List.ext_getElem? fun k => ?_
  simp only [List.getElem?_set, List.getElem?_modify, List.length_modify]
  by_cases hk : j = k
  · subst hk
    simp [h]
  · simp [hk]

theorem countFailure_setStore (m : Member) (s : Store) :
    (p.setStore i m s).countFailure i a = p.setStore i m (s.count a false) := by
  unfold countFailure setStore
  congr 1
  refine List.ext_getElem? fun k => ?_
  simp only [List.getElem?_set, List.getElem?_modify]
  by_cases hk : i = k
  · subst hk
    split_ifs <;> simp
  · simp [hk]

/-! ### Later commands -/

/-- A command after another failure was counted: the failure stays counted, unless the command
resets the counters, and the outcome is the same, unless the command asks for the counters. -/
theorem run_countFailure (p : Pool) (i j : Nat) (a : Action) (c : Command) :
    ((p.countFailure i a).run j c).2 =
      (if (j, c) = (i, .reset) then (p.run j c).2 else (p.run j c).2.countFailure i a) ∧
    ((j = i → c ≠ .stats ∧ c ≠ .total) → ((p.countFailure i a).run j c).1 = (p.run j c).1) := by
  have hmessages (n : Nat) : (p.countFailure i a).messages n = p.messages n := rfl
  by_cases hij : i = j
  · subst hij
    cases hm : p.members[i]? with
    | none =>
      have hsame : p.run i c = (.error (.noStore i), p) := by rw [run, hm]
      rw [countFailure_of_none hm, hsame]
      simp [countFailure_of_none hm]
    | some m =>
      have hm' := members_countFailure_self (a := a) hm
      cases c with
      | request r =>
        simp only [run, hm, hm', hmessages, Store.run_perform_count, setStore_countFailure_self]
        simp [countFailure_setStore]
      | «exists» key =>
        simp only [run, hm, hm', (Store.blind_exists? key).run_count, setStore_countFailure_self]
        simp [countFailure_setStore]
      | size =>
        simp only [run, hm, hm', Store.blind_size.run_count, setStore_countFailure_self]
        simp [countFailure_setStore]
      | stats => simp [run, hm, hm']
      | total => simp [run, hm, hm']
      | reset =>
        simp only [run, hm, hm', setStore_countFailure_self]
        simp [Store.count]
      | registry call =>
        simp only [run, hm, hm', hmessages]
        simp [countFailure]
  · have hm := members_countFailure_of_ne (p := p) (a := a) hij
    have hne : (j, c) ≠ (i, .reset) := fun h => hij (Prod.ext_iff.mp h).1.symm
    rw [if_neg hne]
    cases hj : p.members[j]? with
    | none => simp [run, hm, hj]
    | some n =>
      have hset (s : Store) := setStore_countFailure_of_ne (p := p) (a := a) hij n s
      cases c with
      | request r => simp [run, hm, hj, hmessages, hset]
      | «exists» key => simp [run, hm, hj, hset]
      | size => simp [run, hm, hj, hset]
      | stats => simp [run, hm, hj]
      | total => simp [run, hm, hj]
      | reset => simp [run, hm, hj, hset]
      | registry call =>
        simp only [run, hm, hj, hmessages]
        simp [countFailure]

/-- A command that asks for the counters is answered in both pools, or in neither. -/
theorem asked_countFailure (p : Pool) (i : Nat) (a : Action) {c : Command}
    (hc : c = .stats ∨ c = .total) :
    (p.run i c).1 = ((p.countFailure i a).run i c).1 ∨
    ∃ x x', (p.run i c).1 = .ok x ∧ ((p.countFailure i a).run i c).1 = .ok x' := by
  cases hm : p.members[i]? with
  | none => exact Or.inl (by rw [countFailure_of_none hm])
  | some m =>
    have hm' := members_countFailure_self (a := a) hm
    rcases hc with rfl | rfl
    · exact Or.inr ⟨_, _, by rw [run, hm], by rw [run, hm']⟩
    · exact Or.inr ⟨_, _, by rw [run, hm], by rw [run, hm']⟩

theorem runAll_countFailure (p : Pool) (i : Nat) (a : Action) (later : List (Nat × Command)) :
    ((p.countFailure i a).runAll later).2 =
      if (i, .reset) ∈ later then (p.runAll later).2
      else (p.runAll later).2.countFailure i a := by
  induction later generalizing p with
  | nil => simp [runAll]
  | cons head rest ih =>
    obtain ⟨j, c⟩ := head
    have hstep := (run_countFailure p i j a c).1
    simp only [runAll, hstep]
    by_cases h : (j, c) = (i, .reset)
    · rw [if_pos h, if_pos (by simp [h])]
    · rw [if_neg h, ih]
      have hmem : (i, .reset) ∈ (j, c) :: rest ↔ (i, .reset) ∈ rest := by
        simp [Ne.symm h]
      simp only [hmem]

end

/-! ### A refused request -/

theorem run_refused {p p' : Pool} {i : Nat} {m : Member} {r : Request} {e : StoreError}
    (hm : p.members[i]? = some m) (hs : m.store.Reachable)
    (h : p.run i (.request r) = (.error (.refused e), p')) :
    p' = p.setStore i m (m.store.count r.action false) := by
  simp only [run, hm, Prod.mk.injEq] at h
  rw [← h.2]
  rcases hs.sound.perform_cases (p.messages m.registry) r with ⟨code, cause, -, hp⟩ |
    ⟨result, g, -, hp, -⟩
  · rw [Store.run, hp]
  · rw [Store.run, hp] at h
    cases h.1

end TreeStore.Pool
