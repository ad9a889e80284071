import Mathlib.Data.Set.Card
import TreeStore.Answer
import TreeStore.Proofs.Messages

/-!
# The history of a table

A table is known from the calls that wrote to it.  The making of a table counts as its first
replacement, so that every history starts from no messages at all.  The text of a code is the one
that the latest call with the code gives it, unless the table was replaced since (`Leaves`), and
this is what a table answers (`tells_after`).  Merges that have no code in common may come in any
order, and none of their messages is lost (`leaves_merges`).
-/

namespace TreeStore

namespace RegistryCall

/-- The call changes the table. -/
def writes : RegistryCall → Bool
  | merge _ | replace _ => true
  | _ => false

/-- The call makes the table forget what it had. -/
def clears : RegistryCall → Bool
  | replace _ => true
  | _ => false

/-- The text that the call gives a code: the last one that it has for it. -/
def text? : RegistryCall → Int → Option String
  | merge list, code | replace list, code => list.reverse.lookup code
  | _, _ => none

theorem get?_next (m : Messages) (c : RegistryCall) (code : Int) :
    (c.next m).get? code = (c.text? code).or (if c.clears then none else m.get? code) := by
  cases c with
  | merge list => exact m.get?_insertAll list code
  | replace list => exact (Messages.get?_ofList list code).trans Option.or_none.symm
  | _ => rfl

theorem next_of_not_writes {c : RegistryCall} (h : c.writes = false) (m : Messages) :
    c.next m = m := by
  cases c with
  | merge list => cases h
  | replace list => cases h
  | _ => rfl

end RegistryCall

/-- The calls leave a text for a code: one of them gives it, and no later one gives the code a text
or clears the table. -/
def Leaves (history : List RegistryCall) (code : Int) (text : String) : Prop :=
  ∃ before c after, history = before ++ c :: after ∧ c.text? code = some text ∧
    ∀ later ∈ after, later.text? code = none ∧ later.clears = false

/-- What the calls say of a code: the text they leave for it, the empty one if they leave none. -/
def Says (history : List RegistryCall) (code : Int) (text : String) : Prop :=
  Leaves history code text ∨ text = "" ∧ ∀ other, ¬ Leaves history code other

theorem leaves_concat {history : List RegistryCall} {c : RegistryCall} {code : Int}
    {text : String} :
    Leaves (history ++ [c]) code text ↔ c.text? code = some text ∨
      c.text? code = none ∧ c.clears = false ∧ Leaves history code text := by
  constructor
  · rintro ⟨before, c', after, hsplit, htext, hafter⟩
    -- the call that gives the text is the last one, or it comes before the last one
    induction after using List.reverseRecOn with
    | nil =>
      obtain ⟨-, hlast⟩ := List.append_inj' hsplit rfl
      cases hlast
      exact Or.inl htext
    | append_singleton after last _ =>
      rw [← List.cons_append, ← List.append_assoc] at hsplit
      obtain ⟨rfl, hlast⟩ := List.append_inj' hsplit rfl
      cases hlast
      obtain ⟨hnone, hclears⟩ := hafter c (List.mem_append_right _ List.mem_cons_self)
      exact Or.inr ⟨hnone, hclears, before, c', after, rfl, htext,
        fun later hlater => hafter later (List.mem_append_left _ hlater)⟩
  · rintro (htext | ⟨hnone, hclears, before, c', after, rfl, htext, hafter⟩)
    · exact ⟨history, c, [], rfl, htext, nofun⟩
    · refine ⟨before, c', after ++ [c], by simp, htext, fun later hlater => ?_⟩
      rcases List.mem_append.mp hlater with hlater | hlater
      · exact hafter later hlater
      · rw [List.mem_singleton.mp hlater]
        exact ⟨hnone, hclears⟩

namespace Messages

theorem ofList_entries (m : Messages) : ofList m.entries = m := by
  refine ext fun code => ?_
  rw [ofList, get?_insertAll_entries, get?_empty, Option.or_none]

/-- The table that calls lead to. -/
def after (history : List RegistryCall) : Messages := history.foldl (fun m c => c.next m) empty

theorem after_concat (history : List RegistryCall) (c : RegistryCall) :
    after (history ++ [c]) = c.next (after history) := by
  rw [after, List.foldl_append]
  rfl

theorem get?_after {history : List RegistryCall} {code : Int} {text : String} :
    (after history).get? code = some text ↔ Leaves history code text := by
  induction history using List.reverseRecOn with
  | nil =>
    constructor
    · nofun
    · rintro ⟨before, c, after, hsplit, -⟩
      simp at hsplit
  | append_singleton history c ih =>
    rw [after_concat, RegistryCall.get?_next, leaves_concat, ← ih, Option.or_eq_some_iff]
    cases c.clears <;> simp

/-- A table answers as a history says: a code has the text that the history leaves for it, and the
codes of the table are those that it leaves a text for. -/
structure Tells (m : Messages) (history : List RegistryCall) : Prop where
  get (code : Int) (text : String) :
    RegistryCall.answer m (.get code) = .text text ↔ Says history code text
  snapshot : ∃ m', RegistryCall.answer m .snapshot = .messages m' ∧
    ∀ code text, (code, text) ∈ m'.entries ↔ Leaves history code text
  size : ∃ n, RegistryCall.answer m .size = .count n ∧
    {code | ∃ text, Leaves history code text}.encard = n
  contains (code : Int) : ∃ flag, RegistryCall.answer m (.contains code) = .flag flag ∧
    (flag = true ↔ ∃ text, Leaves history code text)
  newError (code : Int) (cause : String) : ∃ e, RegistryCall.answer m (.newError code cause) =
    .error e ∧ e.code = code ∧ Says history code e.message ∧ e.cause = cause

section Tells

variable {m : Messages} {history : List RegistryCall}
  (h : ∀ code text, m.get? code = some text ↔ Leaves history code text)
include h

theorem get_eq_iff {code : Int} {text : String} : m.get code = text ↔ Says history code text := by
  rw [get, Says, ← h]
  simp only [← h]
  cases m.get? code with
  | none => simp [eq_comm]
  | some t => simp

theorem exists_leaves_iff {code : Int} :
    (∃ text, Leaves history code text) ↔ code ∈ m.entries.map (·.1) := by
  simp only [← h, get?_eq_some_iff, List.mem_map, Prod.exists, exists_and_right, exists_eq_right]

theorem encard_codes : {code | ∃ text, Leaves history code text}.encard = m.entries.length := by
  have hcodes : {code | ∃ text, Leaves history code text} = ↑(m.entries.map (·.1)).toFinset := by
    ext code
    rw [List.coe_toFinset]
    exact exists_leaves_iff h
  rw [hcodes, Set.encard_coe_eq_coe_finsetCard, List.toFinset_card_of_nodup m.nodup_codes,
    List.length_map]

theorem tells_of_leaves : m.Tells history where
  get code text := by
    rw [RegistryCall.answer, Answer.text.injEq]
    exact get_eq_iff h
  snapshot := ⟨m, rfl, fun code text => get?_eq_some_iff.symm.trans (h code text)⟩
  size := ⟨m.size, rfl, encard_codes h⟩
  contains code := ⟨m.contains code, rfl, by simp only [contains, Option.isSome_iff_exists, h]⟩
  newError code cause := ⟨m.error code cause, rfl, rfl, (get_eq_iff h).mp rfl, rfl⟩

end Tells

/-- A table answers as the calls say that led to it. -/
theorem tells_after (history : List RegistryCall) : (after history).Tells history :=
  tells_of_leaves fun _ _ => get?_after

end Messages

/-! ### Merges in any order -/

/-- The lists have messages for different codes. -/
def CodesApart (a b : List (Int × String)) : Prop := ∀ e ∈ a, ∀ e' ∈ b, e.1 ≠ e'.1

section Merges

variable {history : List RegistryCall} {lists lists' : List (List (Int × String))} {code : Int}
  {text : String}

theorem mem_of_lookup {list : List (Int × String)} (h : list.reverse.lookup code = some text) :
    (code, text) ∈ list := by
  obtain ⟨before, after, hsplit, -⟩ := List.lookup_eq_some_iff.mp h
  rw [← List.mem_reverse, hsplit]
  exact List.mem_append_right before List.mem_cons_self

/-- After merges that have no code in common, the messages of each of them are there, and beside
them those of other codes that were there before. -/
theorem leaves_merges (hapart : lists.Pairwise CodesApart) :
    Leaves (history ++ lists.map .merge) code text ↔
      (∃ list ∈ lists, list.reverse.lookup code = some text) ∨
        (∀ list ∈ lists, list.reverse.lookup code = none) ∧ Leaves history code text := by
  induction lists using List.reverseRecOn with
  | nil => simp
  | append_singleton lists last ih =>
    obtain ⟨hlists, -, hlast⟩ := List.pairwise_append.mp hapart
    rw [List.map_append, List.map_singleton, ← List.append_assoc, leaves_concat, ih hlists]
    cases hcode : last.reverse.lookup code with
    | none =>
      have hmore : (∃ list ∈ lists ++ [last], list.reverse.lookup code = some text) ↔
          ∃ list ∈ lists, list.reverse.lookup code = some text := by
        simp only [List.mem_append, List.mem_singleton, or_and_right, exists_or, exists_eq_left,
          hcode, reduceCtorEq, or_false]
      simp only [RegistryCall.text?, RegistryCall.clears, hcode, hmore, List.forall_mem_append,
        List.forall_mem_singleton, reduceCtorEq, true_and, and_true, false_or]
    | some t =>
      -- the last merge has the code, so no merge before it does
      have hother : ∀ list ∈ lists, list.reverse.lookup code ≠ some text := fun list hlist htext =>
        hlast list hlist last List.mem_cons_self _ (mem_of_lookup htext) _ (mem_of_lookup hcode) rfl
      constructor
      · rintro (htext | ⟨hnone, -⟩)
        · exact Or.inl ⟨last, List.mem_append_right _ List.mem_cons_self, htext⟩
        · cases hcode.symm.trans hnone
      · rintro (⟨list, hlist, htext⟩ | ⟨hnone, -⟩)
        · rcases List.mem_append.mp hlist with hlist | hlist
          · exact absurd htext (hother list hlist)
          · rw [List.mem_singleton.mp hlist] at htext
            exact Or.inl htext
        · cases hcode.symm.trans (hnone last (List.mem_append_right _ List.mem_cons_self))

/-- Merges that have no code in common lead to the same table in any order. -/
theorem after_merges_perm (hapart : lists.Pairwise CodesApart) (hperm : lists'.Perm lists) :
    Messages.after (history ++ lists'.map .merge) =
      Messages.after (history ++ lists.map .merge) := by
  have hsymm {a b : List (Int × String)} (h : CodesApart a b) : CodesApart b a :=
    fun e he e' he' hcode => h e' he' e he hcode.symm
  have hapart' : lists'.Pairwise CodesApart := hperm.symm.pairwise hapart hsymm
  refine Messages.ext fun code => Option.ext fun text => ?_
  rw [Messages.get?_after, Messages.get?_after, leaves_merges hapart, leaves_merges hapart']
  simp only [hperm.mem_iff]

end Merges

end TreeStore
