import TreeStore.Proofs.Session.Lockstep

/-!
# After a refused request

A refused request leaves a pool that differs in one counted failure.  Commands keep such pools in
lockstep: only a command that asks the store for its counters tells them apart.  So nothing that
follows depends on the refused request, neither in a pool nor in a session with handlers.
-/

namespace TreeStore

/-- Pools that differ in one failure counted on a store, or in nothing. -/
theorem Pool.lockstep_countFailure (i : Nat) (a : Action) :
    Lockstep (fun p p' => p' = p ∨ p' = p.countFailure i a)
      fun store c => store = i ∧ (c = .stats ∨ c = .total) where
  pool := by
    rintro p p' (rfl | rfl) store c
    · exact Or.inl rfl
    · rw [(p.run_countFailure i store a c).1]
      split_ifs
      · exact Or.inl rfl
      · exact Or.inr rfl
  outcome := by
    rintro p p' (rfl | rfl) store c
    · exact Or.inl rfl
    · by_cases hasks : store = i ∧ (c = .stats ∨ c = .total)
      · obtain ⟨rfl, hc⟩ := hasks
        exact (p.asked_countFailure store a hc).imp_right fun hx => ⟨⟨rfl, hc⟩, hx⟩
      · refine Or.inl ((p.run_countFailure i store a c).2 fun hi => ?_).symm
        exact ⟨fun hc => hasks ⟨hi, Or.inl hc⟩, fun hc => hasks ⟨hi, Or.inr hc⟩⟩
  request := by
    rintro store r ⟨-, h | h⟩
    · cases h
    · cases h
  config := by
    rintro p p' (rfl | rfl) store
    · rfl
    · rcases p.members_countFailure i store a with ⟨hm, hm'⟩ | ⟨m, m', hm, hm', -, hconfig⟩
      · rw [hm, hm']
      · rw [hm, hm', Option.map_some, Option.map_some, hconfig]
  registry := by
    rintro p p' (rfl | rfl) store
    · rfl
    · rcases p.members_countFailure i store a with ⟨hm, hm'⟩ | ⟨m, m', hm, hm', hreg, -⟩
      · rw [hm, hm']
      · rw [hm, hm', Option.map_some, Option.map_some, hreg]

namespace Session

/-- A request that is refused raises one counter by one and changes nothing else: no node, no link,
no other store and no message.  Whatever commands follow, they leave the same stores, that counter
apart, and each has the outcome that it has without the request unless it asks for the counters.
The same holds of the steps of a session, with any handlers. -/
theorem refused_only_counts {s : Session} {p : Pool} {i : Nat} {m : Member} {r : Request}
    {e : StoreError} (hm : s.pool.members[i]? = some m) (hs : m.store.Reachable)
    (h : s.pool.run i (.request r) = (.error (.refused e), p)) :
    p = { s.pool with members := s.pool.members.set i { m with store := { m.store with stats :=
      { m.store.stats with fail := m.store.stats.fail.bump r.action } } } } ∧
    (∀ later : List (Nat × Command),
      (p.runAll later).2 = (if (i, .reset) ∈ later then (s.pool.runAll later).2
        else (s.pool.runAll later).2.countFailure i r.action) ∧
      ∀ j c, (j = i → c ≠ .stats ∧ c ≠ .total) →
        ((p.runAll later).2.run j c).1 = ((s.pool.runAll later).2.run j c).1) ∧
    ∀ handlers later t, t ≠ .command i .stats → t ≠ .command i .total →
      (take handlers (takeAll handlers { s with pool := p } later) t).1 =
        (take handlers (takeAll handlers s later) t).1 := by
  have hp := Pool.run_refused hm hs h
  have hcount : p = s.pool.countFailure i r.action := by rw [hp, Pool.countFailure_of_some hm]
  refine ⟨hp, fun later => ?_, fun handlers later t hstats htotal => ?_⟩
  · have hlater := s.pool.runAll_countFailure i r.action later
    rw [← hcount] at hlater
    refine ⟨hlater, fun j c hc => ?_⟩
    rw [hlater]
    split_ifs
    · rfl
    · exact (Pool.run_countFailure _ i j r.action c).2 hc
  · have hP := Pool.lockstep_countFailure i r.action
    have hagree : Agree (fun p p' => p' = p ∨ p' = p.countFailure i r.action) s
        { s with pool := p } := ⟨Or.inr hcount, rfl, rfl, rfl, rfl⟩
    refine (hP.take (hP.takeAll hagree handlers later) handlers t).2 ?_
    rintro ⟨_, c, rfl, rfl, rfl | rfl⟩
    · exact hstats rfl
    · exact htotal rfl

/-- A node below a leaf is not created, and neither are the directories above it. -/
theorem refused_create_below_leaf :
    ∃ (s : Session) (p : Pool), s.pool.run 0 (.request (.create "/a/b/c" false none)) =
        (.error (.refused ⟨ErrorCode.notDir, "", "/a"⟩), p) ∧
      (p.run 0 (.request (.get "/" true none))).1 =
        (s.pool.run 0 (.request (.get "/" true none))).1 ∧
      (take [] { s with pool := p } (.command 0 .size)).1 =
        (take [] s (.command 0 .size)).1 := by
  have hp := ((Pool.reachable_withShared []).add {} .shared).run 0
    (.request (.create "/a" false none))
  obtain ⟨q, hq, m, p, hm, hrun⟩ : ∃ q : Pool, q.Reachable ∧ ∃ m p, q.members[0]? = some m ∧
      q.run 0 (.request (.create "/a/b/c" false none)) =
        (.error (.refused ⟨ErrorCode.notDir, "", "/a"⟩), p) := ⟨_, hp, _, _, rfl, rfl⟩
  have hs := hq m (List.mem_of_getElem? hm)
  obtain ⟨-, hlater, hsteps⟩ := @refused_only_counts { pool := q } _ _ _ _ _ hm hs hrun
  exact ⟨{ pool := q }, p, hrun, (hlater []).2 0 _ fun _ => ⟨by decide, by decide⟩,
    hsteps [] [] _ (by simp) (by simp)⟩

end Session

end TreeStore
