import Mathlib.Data.List.Basic
import TreeStore.Error
import TreeStore.Result

/-!
# JSON texts are one line of ASCII

Every character of a written result or error lies between the blank and the tilde, whatever
characters its keys, values and messages have; so the text takes one line and can be sent anywhere.
-/

namespace TreeStore

namespace Text

/-- An ASCII character that is no control character. -/
def IsVisible (c : Char) : Prop := 0x20 ≤ c.toNat ∧ c.toNat ≤ 0x7e

instance (c : Char) : Decidable (IsVisible c) := inferInstanceAs (Decidable (_ ∧ _))

theorem isVisible_of_all {cs : List Char} (h : cs.all (fun c => decide (IsVisible c)) = true) :
    ∀ c ∈ cs, IsVisible c := by simpa using h

theorem isVisible_hexDigit {n : Nat} (h : n < 16) : IsVisible (hexDigit n) := by
  have hall : ∀ m : Fin 16, IsVisible (hexDigit m) := by decide
  exact hall ⟨n, h⟩

theorem isVisible_of_mem_hex {w n : Nat} {c : Char} (h : c ∈ hex w n) : IsVisible c := by
  induction w generalizing n with
  | zero => cases h
  | succ w ih =>
    rcases List.mem_append.mp h with h | h
    · exact ih h
    · rw [List.mem_singleton.mp h]
      exact isVisible_hexDigit (Nat.mod_lt n (by decide))

theorem isVisible_of_mem_nat {n : Nat} {c : Char} (h : c ∈ (Nat.repr n).toList) :
    IsVisible c := by
  have hdigit : c.isDigit = true := by
    refine Nat.isDigit_of_mem_toDigits (b := 10) (n := n) (by decide) (by decide) ?_
    simpa [Nat.repr] using h
  obtain ⟨hlow, hhigh⟩ : 48 ≤ c.toNat ∧ c.toNat ≤ 57 := by
    simpa [Char.isDigit, UInt32.le_iff_toNat_le] using hdigit
  exact ⟨by omega, by omega⟩

theorem isVisible_of_mem_int {n : Int} {c : Char} (h : c ∈ (toString n).toList) :
    IsVisible c := by
  cases n with
  | ofNat n => exact isVisible_of_mem_nat h
  | negSucc n =>
    have hsign : (toString (Int.negSucc n)).toList = '-' :: (Nat.repr (n + 1)).toList := by
      show ("-" ++ Nat.repr (n + 1)).toList = _
      simp
    rw [hsign] at h
    rcases List.mem_cons.mp h with rfl | h
    · decide
    · exact isVisible_of_mem_nat h

end Text

namespace Json

open Text (IsVisible)

/-! ### Writing -/

/-- The text of the value is visible ASCII, with the separators that are given. -/
def Visible (sep : Separators) (v : Json) : Prop := ∀ c ∈ v.write sep, IsVisible c

/-- The separators are visible themselves. -/
structure Separators.Visible (sep : Separators) : Prop where
  item : ∀ c ∈ sep.item, IsVisible c
  field : ∀ c ∈ sep.field, IsVisible c

theorem visible_spaced : Separators.spaced.Visible :=
  ⟨Text.isVisible_of_all (by decide), Text.isVisible_of_all (by decide)⟩

theorem visible_compact : Separators.compact.Visible :=
  ⟨Text.isVisible_of_all (by decide), Text.isVisible_of_all (by decide)⟩

theorem isVisible_of_mem_escapeChar {c x : Char} (h : x ∈ escapeChar c) : IsVisible x := by
  unfold escapeChar at h
  split at h
  case h_8 c =>
    split_ifs at h with hc
    · rw [List.mem_singleton.mp h]
      exact hc
    · obtain ⟨u, -, hx⟩ := List.mem_flatMap.mp h
      rcases List.mem_cons.mp hx with rfl | hx
      · decide
      rcases List.mem_cons.mp hx with rfl | hx
      · decide
      · exact Text.isVisible_of_mem_hex hx
  -- the short escapes
  all_goals
    rcases List.mem_cons.mp h with rfl | h
    · decide
    · rw [List.mem_singleton.mp h]
      decide

theorem isVisible_of_mem_writeString {s : String} {c : Char} (h : c ∈ writeString s) :
    IsVisible c := by
  rw [writeString, List.cons_append, List.mem_cons, List.mem_append, List.mem_flatMap] at h
  rcases h with rfl | ⟨d, -, h⟩ | h
  · decide
  · exact isVisible_of_mem_escapeChar h
  · rw [List.mem_singleton.mp h]
    decide

theorem isVisible_of_mem_separate {sep : List Char} (hsep : ∀ c ∈ sep, IsVisible c)
    {texts : List (List Char)} (h : ∀ t ∈ texts, ∀ c ∈ t, IsVisible c) :
    ∀ c ∈ separate sep texts, IsVisible c := by
  induction texts with
  | nil => nofun
  | cons t texts ih =>
    have hfirst := h t List.mem_cons_self
    have hothers := ih fun t' ht' => h t' (List.mem_cons_of_mem t ht')
    cases texts with
    | nil => exact hfirst
    | cons t' texts =>
      intro c hc
      rw [separate, List.mem_append, List.mem_append] at hc
      · rcases hc with (hc | hc) | hc
        · exact hfirst c hc
        · exact hsep c hc
        · exact hothers c hc
      · simp

section Visible

variable {sep : Separators}

theorem visible_null : Visible sep null := by
  show ∀ c ∈ "null".toList, IsVisible c
  exact Text.isVisible_of_all (by decide)

theorem visible_bool (b : Bool) : Visible sep (bool b) := by
  show ∀ c ∈ (if b then "true" else "false").toList, IsVisible c
  cases b <;> exact Text.isVisible_of_all (by decide)

theorem visible_int (n : Int) : Visible sep (int n) := fun _ hc => Text.isVisible_of_mem_int hc

theorem visible_str (s : String) : Visible sep (str s) := fun _ hc =>
  isVisible_of_mem_writeString hc

theorem visible_ofOption (v : Option String) : Visible sep (ofOption v) := by
  cases v with
  | none => exact visible_null
  | some s => exact visible_str s

variable (hsep : sep.Visible)
include hsep

theorem visible_arr {xs : List Json} (h : ∀ x ∈ xs, Visible sep x) : Visible sep (arr xs) := by
  have hitems : ∀ t ∈ writeItems sep xs, ∀ c ∈ t, IsVisible c := by
    induction xs with
    | nil => nofun
    | cons x xs ih =>
      intro t ht
      rcases List.mem_cons.mp ht with rfl | ht
      · exact h x List.mem_cons_self
      · exact ih (fun y hy => h y (List.mem_cons_of_mem x hy)) t ht
  intro c hc
  rw [write, List.cons_append, List.mem_cons, List.mem_append] at hc
  rcases hc with rfl | hc | hc
  · decide
  · exact isVisible_of_mem_separate hsep.item hitems c hc
  · rw [List.mem_singleton.mp hc]
    decide

theorem visible_obj {fs : List (String × Json)} (h : ∀ f ∈ fs, Visible sep f.2) :
    Visible sep (obj fs) := by
  have hfields : ∀ t ∈ writeFields sep fs, ∀ c ∈ t, IsVisible c := by
    induction fs with
    | nil => nofun
    | cons f fs ih =>
      obtain ⟨name, x⟩ := f
      intro t ht
      rcases List.mem_cons.mp ht with rfl | ht
      · intro c hc
        rw [List.mem_append, List.mem_append] at hc
        rcases hc with (hc | hc) | hc
        · exact isVisible_of_mem_writeString hc
        · exact hsep.field c hc
        · exact h (name, x) List.mem_cons_self c hc
      · exact ih (fun g hg => h g (List.mem_cons_of_mem _ hg)) t ht
  intro c hc
  rw [write, List.cons_append, List.mem_cons, List.mem_append] at hc
  rcases hc with rfl | hc | hc
  · decide
  · exact isVisible_of_mem_separate hsep.item hfields c hc
  · rw [List.mem_singleton.mp hc]
    decide

end Visible

end Json

/-! ### Results and errors -/

section Results

open Json

variable {sep : Separators}

mutual
theorem Node.visible_toJson (hsep : sep.Visible) : ∀ n : Node, n.toJson.Visible sep
  | .leaf k v => by
    rw [Node.toJson]
    exact visible_obj hsep (by simp [visible_str, visible_bool, visible_ofOption])
  | .dir k [] => by
    rw [Node.toJson]
    exact visible_obj hsep (by simp [visible_str, visible_bool])
  | .dir k (c :: cs) => by
    have hitems : ∀ x ∈ c.toJson :: Node.toJsonAll cs, x.Visible sep := by
      intro x hx
      rcases List.mem_cons.mp hx with rfl | hx
      · exact Node.visible_toJson hsep c
      · exact Node.visible_toJsonAll hsep cs x hx
    rw [Node.toJson]
    exact visible_obj hsep (by simp [visible_str, visible_bool, visible_arr hsep hitems])

theorem Node.visible_toJsonAll (hsep : sep.Visible) :
    ∀ cs : List Node, ∀ x ∈ Node.toJsonAll cs, x.Visible sep
  | [], _, hx => by cases hx
  | c :: cs, x, hx => by
    rcases List.mem_cons.mp hx with rfl | hx
    · exact Node.visible_toJson hsep c
    · exact Node.visible_toJsonAll hsep cs x hx
end

theorem Result.visible_toJson (hsep : sep.Visible) (r : Result) : r.toJson.Visible sep := by
  refine visible_obj hsep fun f hf => ?_
  rcases List.mem_append.mp hf with hf | hf
  · rcases List.mem_cons.mp hf with rfl | hf
    · exact visible_str r.action.name
    · rw [List.mem_singleton.mp hf]
      exact Node.visible_toJson hsep r.node
  · cases hprev : r.prev with
    | none =>
      rw [hprev] at hf
      cases hf
    | some p =>
      rw [hprev] at hf
      rw [List.mem_singleton.mp hf]
      exact Node.visible_toJson hsep p

theorem StoreError.visible_toJson (hsep : sep.Visible) (e : StoreError) : e.toJson.Visible sep :=
  visible_obj hsep (by simp [visible_str, visible_int])

end Results

end TreeStore
