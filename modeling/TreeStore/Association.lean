/-!
# Lists of keys and values

What a look-up finds in a list of pairs, where the first pair of a key counts: after a pair is put
in front, after the pairs of a key are taken out, and where no key occurs twice.
-/

namespace TreeStore

variable {α β : Type} [DecidableEq α] {a : α} {v : β} {es : List (α × β)}

theorem lookup_entry (a b : α) (v : β) (es : List (α × β)) :
    ((b, v) :: es).lookup a = if a = b then some v else es.lookup a := by
  by_cases h : a = b
  · simp [h]
  · rw [List.lookup_cons, beq_false_of_ne h, if_neg h]

theorem lookup_filter_ne (b a : α) (es : List (α × β)) :
    (es.filter (·.1 ≠ b)).lookup a = if a = b then none else es.lookup a := by
  induction es with
  | nil => simp
  | cons e es ih =>
    obtain ⟨c, v⟩ := e
    rw [lookup_entry]
    by_cases hc : c = b
    · rw [List.filter_cons_of_neg (by simpa using hc), ih, hc]
      split <;> rfl
    · rw [List.filter_cons_of_pos (by simpa using hc), lookup_entry, ih]
      by_cases ha : a = c
      · rw [if_pos ha, if_neg fun h => hc (ha.symm.trans h), if_pos ha]
      · rw [if_neg ha, if_neg ha]

/-- Where no key occurs twice, a pair is found under its key. -/
theorem mem_iff_lookup (h : (es.map (·.1)).Nodup) : (a, v) ∈ es ↔ es.lookup a = some v := by
  induction es with
  | nil => simp
  | cons e es ih =>
    obtain ⟨b, w⟩ := e
    rw [List.map_cons, List.nodup_cons] at h
    rw [List.mem_cons, lookup_entry, Prod.mk.injEq, ih h.2]
    by_cases hab : a = b
    · have hnone : es.lookup a ≠ some v := fun hv =>
        h.1 (hab ▸ List.mem_map.mpr ⟨(a, v), (ih h.2).mpr hv, rfl⟩)
      simp [hab, hab ▸ hnone, eq_comm]
    · simp [hab]

end TreeStore
