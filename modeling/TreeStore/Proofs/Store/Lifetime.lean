import TreeStore.Proofs.Effect
import TreeStore.Proofs.Store.Run

/-!
# The life of a path

In any run a path comes with a `create` or a `set` at it or below it, and goes with a `delete` at it
or above it or a `set` above it.  So `create` is a test-and-set: of all the creates of a path only
one succeeds as long as nothing takes the path away, and those that come after it was there are told
that it exists.
-/

namespace TreeStore.Store

namespace Served

variable (d : Served) (p : List String)

/-- It may have brought what was not at `p`. -/
def Brings : Prop := d.Succeeds ∧ d.request.Brings p

/-- It may have taken away what was at `p`. -/
def Clears : Prop := d.Succeeds ∧ d.request.Clears p

/-- It was a create of `p`. -/
def Creates : Prop := d.request.Creates p

end Served

section Run

variable {s t : Store} {served : List Served} {p : List String}

theorem Run.appears (h : Run s served t) (hs : s.Reachable) (hp : s.pathMap p = none) :
    t.pathMap p ≠ none → ∃ d ∈ served, d.Brings p := by
  refine h.invariant hs (I := fun served M => M p ≠ none → ∃ d ∈ served, d.Brings p)
    (fun hp' => absurd hp hp') (fun served M r f ih hp' => ?_)
    fun served M r result hM hr ih hp' => ?_
  · obtain ⟨d, hd, hb⟩ := ih hp'
    exact ⟨d, List.mem_append_left _ hd, hb⟩
  · by_cases hbefore : M p = none
    · exact ⟨_, List.mem_concat_self, ⟨result, rfl⟩, Request.brings_of_effect hM hr hbefore hp'⟩
    · obtain ⟨d, hd, hb⟩ := ih hbefore
      exact ⟨d, List.mem_append_left _ hd, hb⟩

theorem Run.vanishes (h : Run s served t) (hs : s.Reachable) (hp : s.pathMap p ≠ none) :
    t.pathMap p = none → ∃ d ∈ served, d.Clears p := by
  refine h.invariant hs (I := fun served M => M p = none → ∃ d ∈ served, d.Clears p)
    (fun hp' => absurd hp' hp) (fun served M r f ih hp' => ?_)
    fun served M r result hM hr ih hp' => ?_
  · obtain ⟨d, hd, hc⟩ := ih hp'
    exact ⟨d, List.mem_append_left _ hd, hc⟩
  · by_cases hbefore : M p = none
    · obtain ⟨d, hd, hc⟩ := ih hbefore
      exact ⟨d, List.mem_append_left _ hd, hc⟩
    · exact ⟨_, List.mem_concat_self, ⟨result, rfl⟩, Request.clears_of_effect hbefore hp'⟩

/-- What a success brought is there after it. -/
theorem Sound.present_of_brings {messages : Messages} {r : Request} (hs : s.Sound)
    (h : (serve messages r s).1.Brings p) : (serve messages r s).2.pathMap p ≠ none := by
  obtain ⟨⟨result, hok⟩, hb⟩ := h
  rcases hs.serve_cases messages r with ⟨_, _, -, hd, -⟩ | ⟨_, hr, -, hmap⟩
  · rw [hd] at hok
    cases hok
  · rw [hmap]
    exact Request.effect_of_brings hs.closed hr hb

/-- A create of what is there is refused as such. -/
theorem Sound.create_refused (messages : Messages) {r : Request} (hs : s.Sound)
    (hc : r.Creates p) (hp : s.pathMap p ≠ none) :
    (serve messages r s).1.outcome =
      .error (.refused ⟨ErrorCode.exists, messages.get ErrorCode.exists, Path.render p⟩) := by
  have href := hc.refusal hp
  rcases hs.serve_cases messages r with ⟨code, cause, hr, hd, -⟩ | ⟨_, hr, -⟩
  · obtain ⟨rfl, rfl⟩ := Prod.mk.inj (Option.some.inj (hr.symm.trans href))
    rw [hd]
    rfl
  · rw [hr] at href
    cases href

/-- What was there or was brought is there, unless something took it away. -/
theorem Run.present (h : Run s served t) (hs : s.Reachable)
    (hp : s.pathMap p ≠ none ∨ ∃ d ∈ served, d.Brings p) (hkept : ∀ d ∈ served, ¬ d.Clears p) :
    t.pathMap p ≠ none := by
  intro hnone
  rcases hp with hp | ⟨d, hd, hb⟩
  · obtain ⟨d, hd, hc⟩ := h.vanishes hs hp hnone
    exact hkept d hd hc
  · obtain ⟨before, after, rfl⟩ := List.append_of_mem hd
    obtain ⟨u, messages, hu, hserve, hrest⟩ := h.at_request
    have hsu := hu.reachable hs
    rw [← hserve] at hb
    obtain ⟨d', hd', hc⟩ := hrest.vanishes (hsu.reachable_serve messages d.request)
      (hsu.sound.present_of_brings hb) hnone
    exact hkept d' (List.mem_append_right _ (List.mem_cons_of_mem _ hd')) hc

/-- As long as nothing takes the path away, a create of what is there is refused. -/
theorem Run.create_refused {before after : List Served} {c : Served}
    (h : Run s (before ++ c :: after) t) (hs : s.Reachable) (hc : c.Creates p)
    (hp : s.pathMap p ≠ none ∨ ∃ d ∈ before, d.Brings p)
    (hkept : ∀ d ∈ before, ¬ d.Clears p) :
    ∃ message, c.outcome = .error (.refused ⟨ErrorCode.exists, message, Path.render p⟩) := by
  obtain ⟨u, messages, hu, hserve, -⟩ := h.at_request
  rw [← hserve]
  exact ⟨_, (hu.reachable hs).sound.create_refused messages hc (hu.present hs hp hkept)⟩

/-- Between two successful creates of a path something took it away. -/
theorem Run.cleared_between {before between after : List Served} {c c' : Served}
    (h : Run s (before ++ c :: (between ++ c' :: after)) t) (hs : s.Reachable)
    (hc : c.Creates p) (hok : c.Succeeds) (hc' : c'.Creates p) (hok' : c'.Succeeds) :
    ∃ d ∈ between, d.Clears p := by
  obtain ⟨u, messages, hu, hserve, hrest⟩ := h.at_request
  rw [← hserve] at hok
  have hsu := hu.reachable hs
  have hthere := hsu.sound.present_of_brings ⟨hok, Request.Creates.brings hc⟩
  by_contra hkept
  obtain ⟨message, hout⟩ := hrest.create_refused (hsu.reachable_serve messages c.request) hc'
    (Or.inl hthere) fun d hd hclears => hkept ⟨d, hd, hclears⟩
  obtain ⟨result, hout'⟩ := hok'
  rw [hout] at hout'
  cases hout'

/-- A path comes only with a success that makes it or something below it, and goes only with a
success that removes it or something above it, or replaces something above it.  Between two
successful creates of it there is such a removal; in a run without one at most one create of it
succeeds, and every create of it that comes after it is there is told that it exists. -/
theorem Reachable.path_lifetime (hs : s.Reachable) (h : Run s served t) (p : List String) :
    (s.pathMap p = none → t.pathMap p ≠ none → ∃ d ∈ served, d.Brings p) ∧
    (s.pathMap p ≠ none → t.pathMap p = none → ∃ d ∈ served, d.Clears p) ∧
    (∀ (before between after : List Served) (c c' : Served),
      served = before ++ c :: (between ++ c' :: after) →
      c.Creates p → c.Succeeds → c'.Creates p → c'.Succeeds → ∃ d ∈ between, d.Clears p) ∧
    ((∀ d ∈ served, ¬ d.Clears p) →
      served.Pairwise (fun c c' => ¬ ((c.Creates p ∧ c.Succeeds) ∧ c'.Creates p ∧ c'.Succeeds)) ∧
      ∀ (before after : List Served) (c : Served), served = before ++ c :: after → c.Creates p →
        (s.pathMap p ≠ none ∨ ∃ d ∈ before, d.Brings p) →
        ∃ message, c.outcome = .error (.refused ⟨ErrorCode.exists, message, Path.render p⟩)) := by
  refine ⟨h.appears hs, h.vanishes hs, ?_, fun hkept => ⟨?_, ?_⟩⟩
  · rintro before between after c c' rfl hc hok hc' hok'
    exact h.cleared_between hs hc hok hc' hok'
  · -- two of the creates, one before the other, cut the run in three
    refine List.pairwise_iff_forall_sublist.mpr fun {c c'} hsub => ?_
    rintro ⟨⟨hc, hok⟩, hc', hok'⟩
    obtain ⟨left, right, rfl, hleft, hright⟩ := List.cons_sublist_iff.mp hsub
    obtain ⟨before, mid, rfl⟩ := List.append_of_mem hleft
    obtain ⟨mid', after, rfl⟩ := List.append_of_mem (List.singleton_sublist.mp hright)
    have hcut : before ++ c :: mid ++ (mid' ++ c' :: after) =
        before ++ c :: ((mid ++ mid') ++ c' :: after) := by simp
    rw [hcut] at h hkept
    obtain ⟨d, hd, hclears⟩ := h.cleared_between hs hc hok hc' hok'
    have hmem := List.mem_append_right before
      (List.mem_cons_of_mem c (List.mem_append_left (c' :: after) hd))
    exact hkept d hmem hclears
  · rintro before after c rfl hc hp
    exact h.create_refused hs hc hp fun d hd => hkept d (List.mem_append_left _ hd)

end Run

/-- Of two clients that create the same lock, the second is told that it exists. -/
theorem path_lifetime_lock :
    ∃ (t : Store) (c c' : Served), Run {} [c, c'] t ∧ c.Creates ["lock"] ∧ c.Succeeds ∧
      c'.Creates ["lock"] ∧
      ∃ message, c'.outcome = .error (.refused ⟨ErrorCode.exists, message, "/lock"⟩) := by
  obtain ⟨t, c, c', hrun, hfirst, hc, hc'⟩ : ∃ t c c', Run {} [c, c'] t ∧ c.Succeeds ∧
      c.request = .create "/lock" false (some "1") ∧
      c'.request = .create "x/../lock" false (some "2") :=
    ⟨_, _, _, (Run.start.request Messages.empty _).request Messages.empty _, ⟨_, rfl⟩, rfl, rfl⟩
  have hcreates : c.Creates ["lock"] := by
    rw [Served.Creates, hc]
    rfl
  have hcreates' : c'.Creates ["lock"] := by
    rw [Served.Creates, hc']
    rfl
  have hkept : ∀ d ∈ [c, c'], ¬ d.Clears ["lock"] := by
    simp [Served.Clears, Request.Clears, hc, hc']
  obtain ⟨-, -, -, hlock⟩ := (Reachable.new {}).path_lifetime hrun ["lock"]
  have hthere : ∃ d ∈ [c], d.Brings ["lock"] :=
    ⟨c, List.mem_singleton_self c, hfirst, hcreates.brings⟩
  obtain ⟨message, hout⟩ := (hlock hkept).2 [c] [] c' rfl hcreates' (Or.inr hthere)
  exact ⟨t, c, c', hrun, hcreates, hfirst, hcreates', message, hout⟩

end TreeStore.Store
