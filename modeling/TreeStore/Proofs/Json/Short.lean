import Mathlib.Data.List.TakeDrop
import Mathlib.Data.List.TakeWhile
import TreeStore.Json.Display
import TreeStore.Json.Reader
import TreeStore.Proofs.Text.Decimal

/-!
# Integers in values

A value is `Short` if no integer in it, at any depth, has more digits than integers may have.  Every
value that is read from a text is short (`short_of_read`), and just the short values have a text in
a message (`display_eq_none_iff`).
-/

namespace TreeStore.Json

/-- No integer in the value has too many digits. -/
inductive Short : Json → Prop where
  | null : Short null
  | bool (b : Bool) : Short (bool b)
  | int {n : Int} (h : Text.digitCount n ≤ Text.maxDigits) : Short (int n)
  | double (x : Double) : Short (double x)
  | str (s : String) : Short (str s)
  | arr {xs : List Json} (h : ∀ x ∈ xs, Short x) : Short (arr xs)
  | obj {fs : List (String × Json)} (h : ∀ f ∈ fs, Short f.2) : Short (obj fs)

theorem Short.of_mem {fs : List (String × Json)} (h : Short (Json.obj fs)) {f : String × Json}
    (hf : f ∈ fs) : Short f.2 := by
  cases h with
  | obj h => exact h f hf

/-! ### In messages -/

mutual
theorem short_of_display : ∀ {v : Json} {text : String}, v.display = some text → Short v
  | .null, _, _ => .null
  | .bool b, _, _ => .bool b
  | .int n, _, h => by
    rw [display, Text.writeInteger?] at h
    split_ifs at h with hn
    exact .int hn
  | .double x, _, _ => .double x
  | .str s, _, _ => .str s
  | .arr xs, _, h => by
    obtain ⟨texts, htexts, -⟩ := Option.map_eq_some_iff.mp h
    exact .arr (short_of_displayItems htexts)
  | .obj fs, _, h => by
    obtain ⟨texts, htexts, -⟩ := Option.map_eq_some_iff.mp h
    exact .obj (short_of_displayFields htexts)

theorem short_of_displayItems : ∀ {xs : List Json} {texts : List String},
    displayItems xs = some texts → ∀ x ∈ xs, Short x
  | [], _, _ => nofun
  | x :: xs, _, h => by
    obtain ⟨text, htext, h⟩ := Option.bind_eq_some_iff.mp h
    obtain ⟨texts, htexts, -⟩ := Option.bind_eq_some_iff.mp h
    exact List.forall_mem_cons.mpr ⟨short_of_display htext, short_of_displayItems htexts⟩

theorem short_of_displayFields : ∀ {fs : List (String × Json)} {texts : List String},
    displayFields fs = some texts → ∀ f ∈ fs, Short f.2
  | [], _, _ => nofun
  | (_, x) :: fs, _, h => by
    obtain ⟨text, htext, h⟩ := Option.bind_eq_some_iff.mp h
    obtain ⟨texts, htexts, -⟩ := Option.bind_eq_some_iff.mp h
    exact List.forall_mem_cons.mpr ⟨short_of_display htext, short_of_displayFields htexts⟩
end

theorem exists_displayItems {xs : List Json} (h : ∀ x ∈ xs, ∃ text, x.display = some text) :
    ∃ texts, displayItems xs = some texts := by
  induction xs with
  | nil => exact ⟨[], rfl⟩
  | cons x xs ih =>
    obtain ⟨⟨text, htext⟩, hrest⟩ := List.forall_mem_cons.mp h
    obtain ⟨texts, htexts⟩ := ih hrest
    exact ⟨text :: texts, by rw [displayItems, htext, htexts]; rfl⟩

theorem exists_displayFields {fs : List (String × Json)}
    (h : ∀ f ∈ fs, ∃ text, f.2.display = some text) : ∃ texts, displayFields fs = some texts := by
  induction fs with
  | nil => exact ⟨[], rfl⟩
  | cons f fs ih =>
    obtain ⟨⟨text, htext⟩, hrest⟩ := List.forall_mem_cons.mp h
    obtain ⟨texts, htexts⟩ := ih hrest
    exact ⟨(Text.quoted f.1 ++ ": " ++ text) :: texts, by rw [displayFields, htext, htexts]; rfl⟩

theorem Short.exists_display {v : Json} (h : Short v) : ∃ text, v.display = some text := by
  induction h with
  | null => exact ⟨_, rfl⟩
  | bool b => exact ⟨_, rfl⟩
  | int hn => exact ⟨_, by rw [display, Text.writeInteger?, if_pos hn]⟩
  | double x => exact ⟨_, rfl⟩
  | str s => exact ⟨_, rfl⟩
  | arr _ ih =>
    obtain ⟨texts, htexts⟩ := exists_displayItems ih
    exact ⟨_, by rw [display, htexts]; rfl⟩
  | obj _ ih =>
    obtain ⟨texts, htexts⟩ := exists_displayFields ih
    exact ⟨_, by rw [display, htexts]; rfl⟩

theorem display_eq_none_iff {v : Json} : v.display = none ↔ ¬ Short v := by
  constructor
  · intro hnone hshort
    obtain ⟨text, htext⟩ := hshort.exists_display
    exact absurd (hnone.symm.trans htext) nofun
  · intro hlong
    rw [Option.eq_none_iff_forall_ne_some]
    exact fun text htext => hlong (short_of_display htext)

theorem asMessage_eq_none_iff {v : Json} : v.asMessage = none ↔ ¬ Short v := by
  cases v with
  | str s => exact ⟨nofun, fun h => absurd (.str s) h⟩
  | _ => exact display_eq_none_iff

/-! ### In texts that are read -/

theorem isDigit_of_readWhole? {cs whole rest : List Char}
    (h : readWhole? cs = some (whole, rest)) : ∀ c ∈ whole, isDigit c = true := by
  rw [readWhole?.eq_def] at h
  split at h
  · cases h
    exact List.forall_mem_singleton.mpr rfl
  · next c cs _ =>
    split_ifs at h
    rw [spanDigits, List.span_eq_takeWhile_dropWhile] at h
    cases h
    exact fun _ hc => List.mem_takeWhile_imp hc
  · cases h

theorem length_toDigits_ofDigits_le {cs : List Char} {k : Nat} (h : ∀ c ∈ cs, isDigit c = true)
    (hk : 0 < k) (hlength : cs.length ≤ k) : (Nat.toDigits 10 (ofDigits cs)).length ≤ k := by
  have hdigits : ∀ d ∈ cs.map fun c => c.toNat - 48, d < 10 := by
    intro d hd
    obtain ⟨c, hc, rfl⟩ := List.mem_map.mp hd
    have hrange := Text.isDigit_iff.mp (h c hc)
    omega
  have hlt := Text.foldl_digits_lt hdigits
  rw [List.foldl_map, List.length_map] at hlt
  have hpow : Nat.pow 10 cs.length ≤ Nat.pow 10 k := Nat.pow_le_pow_right (by decide) hlength
  exact (Nat.length_toDigits_le_iff (by decide) hk).mpr (Nat.lt_of_lt_of_le hlt hpow)

theorem short_of_readMagnitude {negative : Bool} {cs rest : List Char} {v : Json}
    (h : readMagnitude (some Text.maxDigits) negative cs = .ok (v, rest)) : Short v := by
  rw [readMagnitude] at h
  split at h
  · cases h
  · next whole rest hwhole =>
    dsimp only at h
    split at h
    · split at h
      · cases h
      · next hlimit =>
        rw [Option.filter_eq_none_iff] at hlimit
        have hlength : whole.length ≤ Text.maxDigits := by simpa using hlimit _ rfl
        have hcount : (Nat.toDigits 10 (ofDigits whole)).length ≤ Text.maxDigits :=
          length_toDigits_ofDigits_le (isDigit_of_readWhole? hwhole) (by decide) hlength
        cases h
        refine .int ?_
        cases negative with
        | false => exact hcount
        | true =>
          rw [if_pos rfl, Text.digitCount, Int.natAbs_neg]
          exact hcount
    · cases h
      exact .double _

theorem short_of_readNumber {cs rest : List Char} {v : Json}
    (h : readNumber (some Text.maxDigits) cs = .ok (v, rest)) : Short v := by
  rw [readNumber.eq_def] at h
  split at h
  · cases h
    exact .double _
  · cases h
    exact .double _
  · cases h
    exact .double _
  · exact short_of_readMagnitude h
  · exact short_of_readMagnitude h

theorem short_setField (name : String) {v : Json} {fs : List (String × Json)} (hv : Short v)
    (h : ∀ f ∈ fs, Short f.2) : ∀ f ∈ setField name v fs, Short f.2 := by
  induction fs with
  | nil => exact List.forall_mem_singleton.mpr hv
  | cons f fs ih =>
    obtain ⟨hf, hfs⟩ := List.forall_mem_cons.mp h
    rw [setField]
    split_ifs
    · exact List.forall_mem_cons.mpr ⟨hv, hfs⟩
    · exact List.forall_mem_cons.mpr ⟨hf, ih hfs⟩

/-- Whatever is read with this fuel is short, if what has been read of a list or an object is. -/
structure ReadsShort (fuel : Nat) : Prop where
  value {cs rest : List Char} {v : Json} :
    readValue (some Text.maxDigits) fuel cs = .ok (v, rest) → Short v
  fields {acc : List (String × Json)} {cs rest : List Char} {v : Json} :
    (∀ f ∈ acc, Short f.2) → readFields (some Text.maxDigits) fuel acc cs = .ok (v, rest) → Short v
  items {acc : List Json} {cs rest : List Char} {v : Json} :
    (∀ x ∈ acc, Short x) → readItems (some Text.maxDigits) fuel acc cs = .ok (v, rest) → Short v

namespace ReadsShort

variable {fuel : Nat} (ih : ReadsShort fuel) {cs rest : List Char} {v : Json}
include ih

theorem value_succ (h : readValue (some Text.maxDigits) (fuel + 1) cs = .ok (v, rest)) :
    Short v := by
  rw [readValue.eq_def] at h
  dsimp only at h
  split at h
  · next _ rest' =>
    cases hread : readQuoted rest' with
    | error stop => rw [hread] at h; cases h
    | ok found => rw [hread] at h; cases h; exact .str _
  · split at h
    · cases h
      exact .obj (List.forall_mem_nil _)
    · exact ih.fields (List.forall_mem_nil _) h
  · split at h
    · cases h
      exact .arr (List.forall_mem_nil _)
    · exact ih.items (List.forall_mem_nil _) h
  · cases h
    exact .null
  · cases h
    exact .bool true
  · cases h
    exact .bool false
  · exact short_of_readNumber h

theorem fields_succ {acc : List (String × Json)} (hacc : ∀ f ∈ acc, Short f.2)
    (h : readFields (some Text.maxDigits) (fuel + 1) acc cs = .ok (v, rest)) : Short v := by
  rw [readFields.eq_def] at h
  dsimp only at h
  split at h
  · split at h
    · cases h
    · next name rest' _ =>
      split at h
      · split at h
        · cases h
        · next v' rest' hv =>
          have hset := short_setField name (ih.value hv) hacc
          split at h
          · cases h
            exact .obj hset
          · exact ih.fields hset h
          · cases h
      · cases h
  · cases h

theorem items_succ {acc : List Json} (hacc : ∀ x ∈ acc, Short x)
    (h : readItems (some Text.maxDigits) (fuel + 1) acc cs = .ok (v, rest)) : Short v := by
  rw [readItems.eq_def] at h
  dsimp only at h
  split at h
  · cases h
  · next v' rest' hv =>
    have hcons := List.forall_mem_cons.mpr ⟨ih.value hv, hacc⟩
    split at h
    · cases h
      exact .arr fun x hx => hcons x (List.mem_reverse.mp hx)
    · exact ih.items hcons h
    · cases h

end ReadsShort

theorem readsShort (fuel : Nat) : ReadsShort fuel := by
  induction fuel with
  | zero => exact ⟨nofun, nofun, nofun⟩
  | succ fuel ih => exact ⟨ih.value_succ, ih.fields_succ, ih.items_succ⟩

/-- Integers that are read have not too many digits, however deep they stand. -/
theorem short_of_read {source : String} {v : Json} (h : read source = .ok v) : Short v := by
  rw [read, readWithin] at h
  split at h
  · next v' hread =>
    cases h
    rw [readChars.eq_def] at hread
    split at hread
    · cases hread
    · split at hread
      · cases hread
      · next v' rest hvalue =>
        split at hread
        · cases hread
          exact (readsShort _).value hvalue
        · cases hread
  · cases h

end TreeStore.Json
