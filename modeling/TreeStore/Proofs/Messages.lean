import Mathlib.Data.List.Basic
import Mathlib.Data.List.Induction
import Mathlib.Data.List.Nodup
import Mathlib.Data.List.Perm.Basic
import TreeStore.Messages

/-!
# Message tables as finite maps

A table is known from what it answers for each code (`Messages.ext`), and a list of messages changes
the answer for a code to the last one that it has for it (`get?_insertAll`).  So two lists after
each other change a table as one table of both does (`insertAll_insertAll`).
-/

namespace TreeStore.Messages

theorem nodup_codes (m : Messages) : (m.entries.map (·.1)).Nodup :=
  m.ascending.imp fun h => Int.ne_of_lt h

theorem get?_eq_some_iff {m : Messages} {code : Int} {text : String} :
    m.get? code = some text ↔ (code, text) ∈ m.entries := (mem_iff_lookup m.nodup_codes).symm

theorem contains_iff {m : Messages} {code : Int} :
    m.contains code = true ↔ ∃ text, (code, text) ∈ m.entries := by
  rw [contains, Option.isSome_iff_exists]
  exact exists_congr fun text => get?_eq_some_iff

/-- Two tables with the same message for every code are equal. -/
theorem ext {m m' : Messages} (h : ∀ code, m.get? code = m'.get? code) : m = m' := by
  have hmem (e : Int × String) : e ∈ m.entries ↔ e ∈ m'.entries := by
    rw [← get?_eq_some_iff (m := m), ← get?_eq_some_iff (m := m'), h]
  have hpairwise (m : Messages) : m.entries.Pairwise fun e e' => e.1 < e'.1 :=
    List.pairwise_map.mp m.ascending
  have hperm : m.entries.Perm m'.entries :=
    (List.perm_ext_iff_of_nodup (List.Nodup.of_map _ m.nodup_codes)
      (List.Nodup.of_map _ m'.nodup_codes)).mpr hmem
  have hentries : m.entries = m'.entries :=
    hperm.eq_of_pairwise (fun e e' _ _ hlt hgt => absurd hlt (Int.lt_asymm hgt)) (hpairwise m)
      (hpairwise m')
  cases m
  cases m'
  cases hentries
  rfl

theorem insertAll_concat (m : Messages) (list : List (Int × String)) (e : Int × String) :
    m.insertAll (list ++ [e]) = (m.insertAll list).insert e.1 e.2 := by
  rw [insertAll, List.foldl_append]
  rfl

/-- A list of messages changes the answer for a code to the last one it has for the code. -/
theorem get?_insertAll (m : Messages) (list : List (Int × String)) (code : Int) :
    (m.insertAll list).get? code = (list.reverse.lookup code).or (m.get? code) := by
  induction list using List.reverseRecOn with
  | nil => rfl
  | append_singleton list e ih =>
    rw [insertAll_concat, get?_insert, ih, List.reverse_concat]
    obtain ⟨code', text⟩ := e
    rw [List.lookup_cons]
    by_cases h : code = code'
    · subst h
      simp
    · have hb : (code == code') = false := beq_false_of_ne h
      rw [if_neg h, hb]

theorem contains_insertAll {m : Messages} {list : List (Int × String)} {code : Int} :
    (m.insertAll list).contains code = true ↔
      (∃ e ∈ list, e.1 = code) ∨ m.contains code = true := by
  have hlookup : (list.reverse.lookup code).isSome = true ↔ ∃ e ∈ list, e.1 = code := by
    rw [List.lookup_isSome_iff]
    simp
  rw [contains, get?_insertAll, Option.isSome_or, Bool.or_eq_true, hlookup]
  rfl

theorem get?_ofList (list : List (Int × String)) (code : Int) :
    (ofList list).get? code = list.reverse.lookup code := by
  rw [ofList, get?_insertAll, get?_empty, Option.or_none]

/-- The messages of one table put into another one. -/
theorem get?_insertAll_entries (m m' : Messages) (code : Int) :
    (m.insertAll m'.entries).get? code = (m'.get? code).or (m.get? code) := by
  have hreverse : m'.entries.reverse.lookup code = m'.get? code := by
    have hnodup : (m'.entries.reverse.map (·.1)).Nodup := by
      rw [List.map_reverse, List.nodup_reverse]
      exact m'.nodup_codes
    refine Option.ext fun text => ?_
    rw [← mem_iff_lookup hnodup, List.mem_reverse, get?_eq_some_iff]
  rw [get?_insertAll, hreverse]

/-- Two lists after each other do what the table of both does. -/
theorem insertAll_insertAll (m : Messages) (a b : List (Int × String)) :
    (m.insertAll a).insertAll b = m.insertAll ((ofList a).insertAll b).entries := by
  refine ext fun code => ?_
  rw [get?_insertAll, get?_insertAll, get?_insertAll_entries, get?_insertAll, get?_ofList,
    Option.or_assoc]

end TreeStore.Messages
