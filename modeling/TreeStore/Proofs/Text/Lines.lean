import Mathlib.Data.List.Basic
import TreeStore.Text.Lines

/-!
# Cutting texts into lines, and putting lines together

A line that was cut out of a text has no line boundary in it.  Lines without boundaries, each ended
by a line feed, are cut into the same lines again: `splitLines_joinLines`, `splitFeeds_joinLines`.
-/

namespace TreeStore.Text

/-- The text of lines that end with line feeds. -/
def joinLines (lines : List String) : String :=
  String.ofList (lines.flatMap fun l => l.toList ++ ['\n'])

/-- The text has no line boundary in it. -/
def IsLine (l : String) : Prop := ∀ c ∈ l.toList, isBoundary c = false

/-! ### Cutting -/

theorem mem_cutLines {ends : Char → Bool} {cs l : List Char} (hl : l ∈ cutLines ends cs) :
    ∀ c ∈ l, ends c = false := by
  induction cs generalizing l with
  | nil => cases hl
  | cons d cs ih =>
    rw [cutLines] at hl
    split_ifs at hl with hd
    · rcases List.mem_cons.mp hl with rfl | hl
      · nofun
      · exact ih hl
    · -- the character goes to the front of the first line, which may be a new one
      have hd : ends d = false := by simpa using hd
      cases hcut : cutLines ends cs with
      | nil =>
        rw [hcut] at hl
        rw [List.mem_singleton.mp hl]
        simpa using hd
      | cons first others =>
        rw [hcut] at hl ih
        rcases List.mem_cons.mp hl with rfl | hl
        · intro c hc
          rcases List.mem_cons.mp hc with rfl | hc
          · exact hd
          · exact ih List.mem_cons_self c hc
        · exact ih (List.mem_cons_of_mem first hl)

theorem cutLines_line {ends : Char → Bool} {e : Char} (he : ends e = true) {l : List Char}
    (hl : ∀ c ∈ l, ends c = false) (rest : List Char) :
    cutLines ends (l ++ e :: rest) = l :: cutLines ends rest := by
  induction l with
  | nil => rw [List.nil_append, cutLines, if_pos he]
  | cons c l ih =>
    have hc : ends c = false := hl c List.mem_cons_self
    rw [List.cons_append, cutLines, if_neg (by simp [hc]),
      ih fun x hx => hl x (List.mem_cons_of_mem c hx), consLine]

theorem cutLines_flatMap {ends : Char → Bool} {e : Char} (he : ends e = true)
    {lines : List (List Char)} (h : ∀ l ∈ lines, ∀ c ∈ l, ends c = false) :
    cutLines ends (lines.flatMap (· ++ [e])) = lines := by
  induction lines with
  | nil => rfl
  | cons l lines ih =>
    rw [List.flatMap_cons, List.append_assoc, List.singleton_append,
      cutLines_line he (h l List.mem_cons_self),
      ih fun x hx => h x (List.mem_cons_of_mem l hx)]

/-! ### Carriage returns -/

theorem joinPairs_eq_self {cs : List Char} (h : '\r' ∉ cs) : splitLines.joinPairs cs = cs := by
  induction cs with
  | nil => rfl
  | cons c cs ih =>
    obtain ⟨hc, hcs⟩ := List.ne_and_not_mem_of_not_mem_cons h
    rw [splitLines.joinPairs, ih hcs]
    rintro _ rfl
    exact absurd rfl hc

theorem unifyFeeds_eq_self {cs : List Char} (h : '\r' ∉ cs) : unifyFeeds cs = cs := by
  induction cs with
  | nil => rfl
  | cons c cs ih =>
    obtain ⟨hc, hcs⟩ := List.ne_and_not_mem_of_not_mem_cons h
    rw [unifyFeeds, ih hcs]
    · rintro _ rfl
      exact absurd rfl hc
    · rintro rfl
      exact absurd rfl hc

/-! ### Lines -/

theorem isLine_of_mem_splitLines {s l : String} (h : l ∈ splitLines s) : IsLine l := by
  obtain ⟨cs, hcs, rfl⟩ := List.mem_map.mp h
  intro c hc
  rw [String.toList_ofList] at hc
  exact mem_cutLines hcs c hc

theorem not_mem_joinLines {lines : List String} (h : ∀ l ∈ lines, IsLine l) :
    '\r' ∉ (joinLines lines).toList := by
  rw [joinLines, String.toList_ofList]
  intro hmem
  obtain ⟨l, hl, hc⟩ := List.mem_flatMap.mp hmem
  rcases List.mem_append.mp hc with hc | hc
  · exact absurd (h l hl '\r' hc) (by decide)
  · exact absurd hc (by decide)

theorem unifyNewlines_joinLines {lines : List String} (h : ∀ l ∈ lines, IsLine l) :
    unifyNewlines (joinLines lines) = joinLines lines := by
  rw [unifyNewlines, unifyFeeds_eq_self (not_mem_joinLines h), String.ofList_toList]

theorem cutLines_joinLines {ends : Char → Bool} (he : ends '\n' = true) {lines : List String}
    (h : ∀ l ∈ lines, ∀ c ∈ l.toList, ends c = false) :
    (cutLines ends (joinLines lines).toList).map String.ofList = lines := by
  have hmap : (joinLines lines).toList = (lines.map String.toList).flatMap (· ++ ['\n']) := by
    rw [joinLines, String.toList_ofList, List.flatMap_map]
  rw [hmap, cutLines_flatMap he, List.map_map]
  · simp
  · intro cs hcs
    obtain ⟨l, hl, rfl⟩ := List.mem_map.mp hcs
    exact h l hl

theorem splitLines_joinLines {lines : List String} (h : ∀ l ∈ lines, IsLine l) :
    splitLines (unifyNewlines (joinLines lines)) = lines := by
  rw [unifyNewlines_joinLines h, splitLines, joinPairs_eq_self (not_mem_joinLines h)]
  exact cutLines_joinLines (by decide) h

/-- Lines without boundaries are also found by a cut at line feeds only. -/
theorem splitFeeds_joinLines {lines : List String} (h : ∀ l ∈ lines, IsLine l) :
    splitFeeds (unifyNewlines (joinLines lines)) = lines := by
  rw [unifyNewlines_joinLines h, splitFeeds]
  refine cutLines_joinLines (by decide) fun l hl c hc => ?_
  rw [beq_eq_false_iff_ne]
  rintro rfl
  exact absurd (h l hl '\n' hc) (by decide)

end TreeStore.Text
