import Mathlib.Data.List.Nodup
import Mathlib.Data.List.TakeDrop
import TreeStore.Proofs.Json.Strings
import TreeStore.Proofs.Text.Decimal

/-!
# Values through JSON

A text keeps a value that holds no doubles, no integer with more digits than the reader takes, and
no object with one name twice: these are the `Plain` values.  Whatever separators the text was
written with, the reader finds such a value again, and leaves what follows it
(`Plain.readsBack`), so no two of them have one text (`Plain.eq_of_write_eq`).

The induction is on the value.  It is said of a value inside a text: what follows it may only be the
end of the text or of the list or object that holds it, since a digit behind a number would belong
to the number.
-/

namespace TreeStore.Json

/-- A value that a text keeps. -/
inductive Plain (limit : Option Nat) : Json → Prop where
  | null : Plain limit null
  | bool (b : Bool) : Plain limit (bool b)
  | int {n : Int} (h : ∀ most ∈ limit, Text.digitCount n ≤ most) : Plain limit (int n)
  | str (s : String) : Plain limit (str s)
  | arr {xs : List Json} (h : ∀ x ∈ xs, Plain limit x) : Plain limit (arr xs)
  | obj {fs : List (String × Json)} (hnames : (fs.map (·.1)).Nodup)
      (h : ∀ f ∈ fs, Plain limit f.2) : Plain limit (obj fs)

attribute [simp] Plain.null Plain.bool Plain.str

@[simp] theorem plain_int_iff {limit : Option Nat} {n : Int} :
    Plain limit (int n) ↔ ∀ most ∈ limit, Text.digitCount n ≤ most := by
  refine ⟨fun h => ?_, .int⟩
  cases h with
  | int h => exact h

@[simp] theorem plain_arr_iff {limit : Option Nat} {xs : List Json} :
    Plain limit (arr xs) ↔ ∀ x ∈ xs, Plain limit x := by
  refine ⟨fun h => ?_, .arr⟩
  cases h with
  | arr h => exact h

@[simp] theorem plain_obj_iff {limit : Option Nat} {fs : List (String × Json)} :
    Plain limit (obj fs) ↔ (fs.map (·.1)).Nodup ∧ ∀ f ∈ fs, Plain limit f.2 := by
  refine ⟨fun h => ?_, fun h => .obj h.1 h.2⟩
  cases h with
  | obj hnames h => exact ⟨hnames, h⟩

@[simp] theorem plain_ofOption {limit : Option Nat} (v : Option String) :
    Plain limit (ofOption v) := by
  cases v with
  | none => exact .null
  | some s => exact .str s

/-- Separators that a reader knows: a comma or a colon with nothing but gaps behind it. -/
structure Separators.Standard (sep : Separators) : Prop where
  item : ∃ gap, sep.item = ',' :: gap ∧ ∀ c ∈ gap, isGap c = true
  field : ∃ gap, sep.field = ':' :: gap ∧ ∀ c ∈ gap, isGap c = true

theorem standard_spaced : Separators.spaced.Standard :=
  ⟨⟨[' '], rfl, by simp [isGap]⟩, ⟨[' '], rfl, by simp [isGap]⟩⟩

theorem standard_compact : Separators.compact.Standard :=
  ⟨⟨[], rfl, nofun⟩, ⟨[], rfl, nofun⟩⟩

/-- What may follow a value: nothing, or the next character of what holds it. -/
def Ends (rest : List Char) : Prop :=
  rest = [] ∨ ∃ c cs, rest = c :: cs ∧ (c = ',' ∨ c = ']' ∨ c = '\x7d')

theorem Ends.nil : Ends [] := Or.inl rfl

theorem ends_comma (cs : List Char) : Ends (',' :: cs) := Or.inr ⟨_, _, rfl, Or.inl rfl⟩

theorem ends_bracket (cs : List Char) : Ends (']' :: cs) := Or.inr ⟨_, _, rfl, Or.inr (Or.inl rfl)⟩

theorem ends_brace (cs : List Char) : Ends ('\x7d' :: cs) :=
  Or.inr ⟨_, _, rfl, Or.inr (Or.inr rfl)⟩

/-- A text that starts with neither a gap nor the end of a list or an object. -/
def Starts (text : List Char) : Prop :=
  ∃ c cs, text = c :: cs ∧ isGap c = false ∧ c ≠ ']' ∧ c ≠ '\x7d' ∧ c ≠ '\ufeff'

theorem starts_append {text : List Char} (h : Starts text) (more : List Char) :
    Starts (text ++ more) := by
  obtain ⟨c, cs, rfl, hc⟩ := h
  exact ⟨c, cs ++ more, rfl, hc⟩

theorem skipGap_append {gap text : List Char} (hgap : ∀ c ∈ gap, isGap c = true)
    (htext : Starts text) : skipGap (gap ++ text) = text := by
  obtain ⟨c, cs, rfl, hc, -⟩ := htext
  rw [skipGap, List.dropWhile_append_of_pos hgap, List.dropWhile_cons_of_neg (by simp [hc])]

theorem skipGap_of_starts {text : List Char} (h : Starts text) : skipGap text = text := by
  have hnone : ∀ c ∈ ([] : List Char), isGap c = true := nofun
  exact skipGap_append hnone h

/-! ### Integers -/

theorem spanDigits_append {ds rest : List Char} (hds : ∀ c ∈ ds, c.isDigit = true)
    (hrest : Ends rest) : spanDigits (ds ++ rest) = (ds, rest) := by
  have hds : ∀ c ∈ ds, isDigit c = true := hds
  have hstop : rest.takeWhile isDigit = [] ∧ rest.dropWhile isDigit = rest := by
    rcases hrest with rfl | ⟨c, cs, rfl, rfl | rfl | rfl⟩ <;> exact ⟨rfl, rfl⟩
  rw [spanDigits, List.span_eq_takeWhile_dropWhile, List.takeWhile_append_of_pos hds,
    List.dropWhile_append_of_pos hds, hstop.1, hstop.2, List.append_nil]

theorem toDigits_eq_cons {n : Nat} (h : 0 < n) :
    ∃ c cs, Nat.toDigits 10 n = c :: cs ∧ c ≠ '0' := by
  induction n using Nat.strongRecOn with
  | ind n ih =>
    rw [Nat.toDigits_eq_if (by decide)]
    split_ifs with hn
    · refine ⟨n.digitChar, [], rfl, fun hzero => ?_⟩
      exact absurd (Nat.digitChar_eq_zero.mp hzero) (by omega)
    · obtain ⟨c, cs, hcs, hc⟩ := ih (n / 10) (by omega) (by omega)
      exact ⟨c, cs ++ [(n % 10).digitChar], by rw [hcs]; rfl, hc⟩

theorem readWhole?_toDigits (n : Nat) {rest : List Char} (hrest : Ends rest) :
    readWhole? (Nat.toDigits 10 n ++ rest) = some (Nat.toDigits 10 n, rest) := by
  rcases Nat.eq_zero_or_pos n with rfl | hn
  · rw [Nat.toDigits_zero]
    rfl
  · have hdigits : ∀ c ∈ Nat.toDigits 10 n, c.isDigit = true := fun c => Text.isDigit_of_mem
    have hspan := spanDigits_append hdigits hrest
    obtain ⟨c, cs, hcs, hc⟩ := toDigits_eq_cons hn
    rw [hcs] at hspan hdigits ⊢
    rw [List.cons_append] at hspan ⊢
    have hdigit : isDigit c = true := hdigits c List.mem_cons_self
    rw [readWhole?, if_pos hdigit, hspan]
    exact hc

theorem readMagnitude_toDigits {limit : Option Nat} {n : Nat} {rest : List Char}
    (hlimit : ∀ most ∈ limit, (Nat.toDigits 10 n).length ≤ most) (hrest : Ends rest)
    (negative : Bool) : readMagnitude limit negative (Nat.toDigits 10 n ++ rest) =
      .ok (int (if negative then -(n : Int) else n), rest) := by
  have hfraction : readFraction rest = ([], rest) := by
    rcases hrest with rfl | ⟨c, cs, rfl, rfl | rfl | rfl⟩ <;> rfl
  have hexponent : readExponent rest = (none, rest) := by
    rcases hrest with rfl | ⟨c, cs, rfl, rfl | rfl | rfl⟩ <;> rfl
  have hvalue : ofDigits (Nat.toDigits 10 n) = n :=
    List.foldl_map.symm.trans ((Text.foldl_digits _ 0).trans Nat.ofDigitChars_ten_toDigits)
  have hshort : limit.filter (· < (Nat.toDigits 10 n).length) = none := by
    rw [Option.filter_eq_none_iff]
    intro most hmost
    simpa using hlimit most hmost
  rw [readMagnitude, readWhole?_toDigits n hrest]
  simp only [hfraction, hexponent, hshort, hvalue]
  rfl

/-! ### What is read back -/

/-- The text of the value starts it, and is read as it wherever a value may end. -/
structure ReadsBack (limit : Option Nat) (sep : Separators) (v : Json) : Prop where
  starts : Starts (v.write sep)
  reads : ∀ fuel rest, (v.write sep).length ≤ fuel → Ends rest →
    readValue limit fuel (v.write sep ++ rest) = .ok (v, rest)

section ReadsBack

variable {limit : Option Nat} {sep : Separators}

/-- A text that starts has a character, and reading it takes a step. -/
theorem ReadsBack.of_step {v : Json} (hstarts : Starts (v.write sep))
    (h : ∀ fuel rest, (v.write sep).length ≤ fuel + 1 → Ends rest →
      readValue limit (fuel + 1) (v.write sep ++ rest) = .ok (v, rest)) :
    ReadsBack limit sep v where
  starts := hstarts
  reads fuel rest hfuel hrest := by
    obtain ⟨c, cs, htext, -⟩ := hstarts
    have hpos : fuel ≠ 0 := by
      rw [htext, List.length_cons] at hfuel
      omega
    obtain ⟨fuel, rfl⟩ := Nat.exists_eq_add_one_of_ne_zero hpos
    exact h fuel rest hfuel hrest

theorem readsBack_null : ReadsBack limit sep null :=
  .of_step ⟨'n', ['u', 'l', 'l'], rfl, by decide⟩ fun _ _ _ _ => rfl

theorem readsBack_bool (b : Bool) : ReadsBack limit sep (bool b) := by
  cases b with
  | false => exact .of_step ⟨'f', ['a', 'l', 's', 'e'], rfl, by decide⟩ fun _ _ _ _ => rfl
  | true => exact .of_step ⟨'t', ['r', 'u', 'e'], rfl, by decide⟩ fun _ _ _ _ => rfl

theorem writeString_append (s : String) (rest : List Char) :
    writeString s ++ rest = '"' :: (s.toList.flatMap escapeChar ++ '"' :: rest) := by
  rw [writeString, List.append_assoc, List.cons_append, List.singleton_append]

theorem readsBack_str (s : String) : ReadsBack limit sep (str s) := by
  refine .of_step ⟨'"', _, rfl, by decide⟩ fun fuel rest _ _ => ?_
  show readValue limit (fuel + 1) (writeString s ++ rest) = _
  rw [writeString_append, readValue, readQuoted_escaped]
  rfl

theorem ne_of_isDigit {c d : Char} (hc : c.isDigit = true) (hd : d.isDigit = false) : c ≠ d := by
  rintro rfl
  exact Bool.eq_false_iff.mp hd hc

theorem readValue_number {c : Char} (hc : c = '-' ∨ c.isDigit = true) (fuel : Nat)
    (cs : List Char) : readValue limit (fuel + 1) (c :: cs) = readNumber limit (c :: cs) := by
  have hother {d : Char} (hd : d ≠ '-' ∧ d.isDigit = false) : c ≠ d := by
    rcases hc with rfl | hc
    · exact hd.1.symm
    · exact ne_of_isDigit hc hd.2
  rw [readValue] <;> exact fun _ h => hother (by decide) (List.cons.inj h).1

theorem readNumber_digit {c : Char} (hc : c.isDigit = true) (cs : List Char) :
    readNumber limit (c :: cs) = readMagnitude limit false (c :: cs) := by
  rw [readNumber] <;> exact fun _ h => ne_of_isDigit hc (by decide) (List.cons.inj h).1

theorem readNumber_minus {c : Char} (hc : c.isDigit = true) (cs : List Char) :
    readNumber limit ('-' :: c :: cs) = readMagnitude limit true (c :: cs) := by
  rw [readNumber]
  exact fun _ h => ne_of_isDigit hc (by decide) (List.cons.inj h).1

theorem starts_number {c : Char} (hc : c = '-' ∨ c.isDigit = true) (cs : List Char) :
    Starts (c :: cs) := by
  rcases hc with rfl | hc
  · exact ⟨'-', cs, rfl, by decide⟩
  · have hne : c ≠ ' ' ∧ c ≠ '\t' ∧ c ≠ '\n' ∧ c ≠ '\r' := by
      refine ⟨?_, ?_, ?_, ?_⟩ <;> exact ne_of_isDigit hc (by decide)
    exact ⟨c, cs, rfl, by simp [isGap, hne], ne_of_isDigit hc (by decide),
      ne_of_isDigit hc (by decide), ne_of_isDigit hc (by decide)⟩

/-- An integer starts with its sign or a digit, and is read up to its last digit. -/
theorem readNumber_toString {n : Int} (h : ∀ most ∈ limit, Text.digitCount n ≤ most) :
    ∃ c cs, (toString n).toList = c :: cs ∧ (c = '-' ∨ c.isDigit = true) ∧
      ∀ rest, Ends rest → readNumber limit (c :: (cs ++ rest)) = .ok (int n, rest) := by
  have hread (negative : Bool) {rest : List Char} (hrest : Ends rest) :=
    readMagnitude_toDigits h hrest negative
  have hdigits : ∀ c ∈ Nat.toDigits 10 n.natAbs, c.isDigit = true := fun c => Text.isDigit_of_mem
  have htext := Text.toList_toString n
  obtain ⟨d, ds, hds⟩ : ∃ d ds, Nat.toDigits 10 n.natAbs = d :: ds :=
    List.exists_cons_of_ne_nil Nat.toDigits_ne_nil
  rw [hds] at hread htext hdigits
  have hd := hdigits d List.mem_cons_self
  by_cases hneg : n < 0
  · have hvalue : (if (true : Bool) then -(n.natAbs : Int) else n.natAbs) = n := by
      rw [if_pos rfl]
      omega
    rw [if_pos hneg] at htext
    refine ⟨'-', d :: ds, htext, Or.inl rfl, fun rest hrest => ?_⟩
    rw [List.cons_append, readNumber_minus hd, ← List.cons_append, hread true hrest, hvalue]
  · have hvalue : (if (false : Bool) then -(n.natAbs : Int) else n.natAbs) = n := by
      rw [if_neg Bool.false_ne_true]
      omega
    rw [if_neg hneg, List.nil_append] at htext
    refine ⟨d, ds, htext, Or.inr hd, fun rest hrest => ?_⟩
    rw [readNumber_digit hd, ← List.cons_append, hread false hrest, hvalue]

theorem readsBack_int {n : Int} (h : ∀ most ∈ limit, Text.digitCount n ≤ most) :
    ReadsBack limit sep (int n) := by
  obtain ⟨c, cs, htext, hc, hread⟩ := readNumber_toString h
  have hwrite : (int n).write sep = c :: cs := htext
  refine .of_step (hwrite ▸ starts_number hc cs) fun fuel rest _ hrest => ?_
  rw [hwrite, List.cons_append, readValue_number hc, hread rest hrest]

/-! ### Lists and objects -/

section Steps

variable {fuel : Nat} {cs more rest : List Char} {name : String} {v : Json}

theorem readItems_last (h : readValue limit fuel cs = .ok (v, ']' :: rest)) (acc : List Json) :
    readItems limit (fuel + 1) acc cs = .ok (arr (acc.reverse ++ [v]), rest) := by
  rw [readItems, h, ← List.reverse_cons]
  rfl

theorem readItems_next (h : readValue limit fuel cs = .ok (v, ',' :: more)) (acc : List Json) :
    readItems limit (fuel + 1) acc cs = readItems limit fuel (v :: acc) (skipGap more) := by
  rw [readItems, h]
  rfl

theorem readFields_last (hname : readQuoted cs = .ok (name, ':' :: more))
    (h : readValue limit fuel (skipGap more) = .ok (v, '\x7d' :: rest))
    (acc : List (String × Json)) :
    readFields limit (fuel + 1) acc ('"' :: cs) = .ok (obj (setField name v acc), rest) := by
  have hcolon : skipGap (':' :: more) = ':' :: more := rfl
  have hbrace : skipGap ('\x7d' :: rest) = '\x7d' :: rest := rfl
  rw [readFields, hname]
  simp only [hcolon, h, hbrace]

theorem readFields_next (hname : readQuoted cs = .ok (name, ':' :: more))
    (h : readValue limit fuel (skipGap more) = .ok (v, ',' :: rest))
    (acc : List (String × Json)) :
    readFields limit (fuel + 1) acc ('"' :: cs) =
      readFields limit fuel (setField name v acc) (skipGap rest) := by
  have hcolon : skipGap (':' :: more) = ':' :: more := rfl
  have hcomma : skipGap (',' :: rest) = ',' :: rest := rfl
  rw [readFields, hname]
  simp only [hcolon, h, hcomma]

theorem readValue_bracket (h : Starts cs) :
    readValue limit (fuel + 1) ('[' :: cs) = readItems limit fuel [] cs := by
  have hskip := skipGap_of_starts h
  obtain ⟨c, cs, rfl, -, hc, -⟩ := h
  rw [readValue, hskip]
  split
  · next heq => exact absurd (List.cons.inj heq).1 hc
  · rfl

theorem readValue_brace (h : Starts cs) :
    readValue limit (fuel + 1) ('\x7b' :: cs) = readFields limit fuel [] cs := by
  have hskip := skipGap_of_starts h
  obtain ⟨c, cs, rfl, -, -, hc, -⟩ := h
  rw [readValue, hskip]
  split
  · next heq => exact absurd (List.cons.inj heq).1 hc
  · rfl

end Steps

theorem separate_cons {between gap : List Char} (hbetween : between = ',' :: gap) (t : List Char)
    {ts : List (List Char)} (h : ts ≠ []) :
    separate between (t :: ts) = t ++ ',' :: (gap ++ separate between ts) := by
  rw [separate, List.append_assoc, hbetween, List.cons_append]
  exact h

theorem starts_separate {between t : List Char} (h : Starts t) (ts : List (List Char)) :
    Starts (separate between (t :: ts)) := by
  cases ts with
  | nil => exact h
  | cons t' ts =>
    rw [separate, List.append_assoc]
    · exact starts_append h _
    · exact List.cons_ne_nil t' ts

theorem setField_of_not_mem {name : String} (v : Json) {fs : List (String × Json)}
    (h : name ∉ fs.map (·.1)) : setField name v fs = fs ++ [(name, v)] := by
  induction fs with
  | nil => rfl
  | cons f fs ih =>
    rw [List.map_cons, List.mem_cons, not_or] at h
    rw [setField, if_neg (Ne.symm h.1), ih h.2, List.cons_append]

theorem setField_of_nodup {f : String × Json} {fs acc : List (String × Json)}
    (h : ((acc ++ f :: fs).map (·.1)).Nodup) : setField f.1 f.2 acc = acc ++ [f] := by
  refine setField_of_not_mem f.2 fun hmem => ?_
  rw [List.map_append, List.map_cons] at h
  exact List.disjoint_of_nodup_append h hmem List.mem_cons_self

/-- The characters of a field. -/
def writeField (sep : Separators) (f : String × Json) : List Char :=
  writeString f.1 ++ sep.field ++ f.2.write sep

theorem starts_field (f : String × Json) : Starts (writeField sep f) :=
  starts_append (starts_append ⟨'"', _, rfl, by decide⟩ _) _

theorem length_field (f : String × Json) :
    (f.2.write sep).length < (writeField sep f).length := by
  rw [writeField, List.length_append, List.length_append, writeString, List.cons_append,
    List.length_cons]
  omega

section Nested

variable (hsep : sep.Standard)
include hsep

theorem readItems_separate {x : Json} {xs : List Json}
    (h : ∀ y ∈ x :: xs, ReadsBack limit sep y) {fuel : Nat}
    (hfuel : (separate sep.item (writeItems sep (x :: xs))).length < fuel) (acc : List Json)
    (rest : List Char) :
    readItems limit fuel acc (separate sep.item (writeItems sep (x :: xs)) ++ ']' :: rest) =
      .ok (arr (acc.reverse ++ x :: xs), rest) := by
  obtain ⟨gap, hitem, hgap⟩ := hsep.item
  induction xs generalizing x fuel acc with
  | nil =>
    have hx := h x List.mem_cons_self
    obtain ⟨fuel, rfl⟩ := Nat.exists_eq_add_one_of_ne_zero (Nat.ne_zero_of_lt hfuel)
    have hread := hx.reads fuel (']' :: rest) (Nat.le_of_lt_succ hfuel) (ends_bracket rest)
    exact readItems_last hread acc
  | cons y ys ih =>
    have hx := h x List.mem_cons_self
    have hy := h y (List.mem_cons_of_mem x List.mem_cons_self)
    have htext : separate sep.item (writeItems sep (x :: y :: ys)) =
        x.write sep ++ ',' :: (gap ++ separate sep.item (writeItems sep (y :: ys))) :=
      separate_cons hitem _ (List.cons_ne_nil _ _)
    have hmore : Starts (separate sep.item (writeItems sep (y :: ys)) ++ ']' :: rest) :=
      starts_append (starts_separate hy.starts _) _
    obtain ⟨fuel, rfl⟩ := Nat.exists_eq_add_one_of_ne_zero (Nat.ne_zero_of_lt hfuel)
    rw [htext] at hfuel ⊢
    rw [List.length_append, List.length_cons, List.length_append] at hfuel
    have hread := hx.reads fuel (',' :: (gap ++ (separate sep.item (writeItems sep (y :: ys)) ++
      ']' :: rest))) (by omega) (ends_comma _)
    have hfuel : (separate sep.item (writeItems sep (y :: ys))).length < fuel := by omega
    have ih := ih (fun z hz => h z (List.mem_cons_of_mem x hz)) hfuel (x :: acc)
    rw [List.append_assoc, List.cons_append, List.append_assoc, readItems_next hread,
      skipGap_append hgap hmore, ih, List.reverse_cons, List.append_assoc, List.singleton_append]

theorem readsBack_arr {xs : List Json} (h : ∀ x ∈ xs, ReadsBack limit sep x) :
    ReadsBack limit sep (arr xs) := by
  refine .of_step ⟨'[', _, rfl, by decide⟩ fun fuel rest hfuel _ => ?_
  cases xs with
  | nil => rfl
  | cons x xs =>
    have htext : (arr (x :: xs)).write sep ++ rest =
        '[' :: (separate sep.item (writeItems sep (x :: xs)) ++ ']' :: rest) := by
      rw [write, List.append_assoc]
      rfl
    have hlen : (separate sep.item (writeItems sep (x :: xs))).length < fuel := by
      rw [write, List.length_append, List.length_cons, List.length_singleton] at hfuel
      omega
    have hstarts : Starts (separate sep.item (writeItems sep (x :: xs)) ++ ']' :: rest) :=
      starts_append (starts_separate (h x List.mem_cons_self).starts _) _
    rw [htext, readValue_bracket hstarts, readItems_separate hsep h hlen [] rest]
    rfl

/-- The name and the colon are read, and the value is what comes next. -/
theorem readField {f : String × Json} (h : ReadsBack limit sep f.2) (rest : List Char) :
    ∃ cs more, writeField sep f ++ rest = '"' :: cs ∧
      readQuoted cs = .ok (f.1, ':' :: more) ∧ skipGap more = f.2.write sep ++ rest := by
  obtain ⟨gap, hfield, hgap⟩ := hsep.field
  refine ⟨_, gap ++ (f.2.write sep ++ rest), ?_, readQuoted_escaped f.1 _, ?_⟩
  · rw [writeField, List.append_assoc, List.append_assoc, writeString_append, hfield,
      List.cons_append]
  · exact skipGap_append hgap (starts_append h.starts rest)

theorem readFields_separate {f : String × Json} {fs acc : List (String × Json)}
    (h : ∀ g ∈ f :: fs, ReadsBack limit sep g.2) (hnames : ((acc ++ f :: fs).map (·.1)).Nodup)
    {fuel : Nat} (hfuel : (separate sep.item (writeFields sep (f :: fs))).length < fuel)
    (rest : List Char) :
    readFields limit fuel acc (separate sep.item (writeFields sep (f :: fs)) ++ '\x7d' :: rest) =
      .ok (obj (acc ++ f :: fs), rest) := by
  obtain ⟨gap, hitem, hgap⟩ := hsep.item
  induction fs generalizing f fuel acc with
  | nil =>
    have hf := h f List.mem_cons_self
    have hset := setField_of_nodup hnames
    have hlen : (writeField sep f).length < fuel := hfuel
    have hvalue : (f.2.write sep).length < (writeField sep f).length := length_field f
    obtain ⟨fuel, rfl⟩ := Nat.exists_eq_add_one_of_ne_zero (Nat.ne_zero_of_lt hfuel)
    obtain ⟨cs, more, htext, hname, hskip⟩ := readField hsep hf ('\x7d' :: rest)
    have hread := hf.reads fuel ('\x7d' :: rest) (by omega) (ends_brace rest)
    rw [← hskip] at hread
    show readFields limit (fuel + 1) acc (writeField sep f ++ '\x7d' :: rest) = _
    rw [htext, readFields_last hname hread, hset]
  | cons g gs ih =>
    have hf := h f List.mem_cons_self
    have hset := setField_of_nodup hnames
    have hvalue : (f.2.write sep).length < (writeField sep f).length := length_field f
    have htext : separate sep.item (writeFields sep (f :: g :: gs)) =
        writeField sep f ++ ',' :: (gap ++ separate sep.item (writeFields sep (g :: gs))) :=
      separate_cons hitem _ (List.cons_ne_nil _ _)
    have hmore : Starts (separate sep.item (writeFields sep (g :: gs)) ++ '\x7d' :: rest) :=
      starts_append (starts_separate (starts_field g) _) _
    obtain ⟨fuel, rfl⟩ := Nat.exists_eq_add_one_of_ne_zero (Nat.ne_zero_of_lt hfuel)
    rw [htext] at hfuel ⊢
    rw [List.length_append, List.length_cons, List.length_append] at hfuel
    obtain ⟨cs, more, hfield, hname, hskip⟩ := readField hsep hf
      (',' :: (gap ++ (separate sep.item (writeFields sep (g :: gs)) ++ '\x7d' :: rest)))
    have hread := hf.reads fuel (',' :: (gap ++ (separate sep.item (writeFields sep (g :: gs)) ++
      '\x7d' :: rest))) (by omega) (ends_comma _)
    rw [← hskip] at hread
    have hnames : ((acc ++ [f] ++ g :: gs).map (·.1)).Nodup := by
      rwa [List.append_assoc, List.singleton_append]
    have hfuel : (separate sep.item (writeFields sep (g :: gs))).length < fuel := by omega
    have ih := ih (fun e he => h e (List.mem_cons_of_mem f he)) hnames hfuel
    rw [List.append_assoc, List.cons_append, List.append_assoc, hfield,
      readFields_next hname hread, hset, skipGap_append hgap hmore, ih, List.append_assoc,
      List.singleton_append]

theorem readsBack_obj {fs : List (String × Json)} (hnames : (fs.map (·.1)).Nodup)
    (h : ∀ f ∈ fs, ReadsBack limit sep f.2) : ReadsBack limit sep (obj fs) := by
  refine .of_step ⟨'\x7b', _, rfl, by decide⟩ fun fuel rest hfuel _ => ?_
  cases fs with
  | nil => rfl
  | cons f fs =>
    have htext : (obj (f :: fs)).write sep ++ rest =
        '\x7b' :: (separate sep.item (writeFields sep (f :: fs)) ++ '\x7d' :: rest) := by
      rw [write, List.append_assoc]
      rfl
    have hlen : (separate sep.item (writeFields sep (f :: fs))).length < fuel := by
      rw [write, List.length_append, List.length_cons, List.length_singleton] at hfuel
      omega
    have hstarts : Starts (separate sep.item (writeFields sep (f :: fs)) ++ '\x7d' :: rest) :=
      starts_append (starts_separate (starts_field f) _) _
    rw [htext, readValue_brace hstarts, readFields_separate hsep h hnames hlen rest]
    rfl

end Nested

end ReadsBack

/-! ### Whole texts -/

theorem Plain.readsBack {limit : Option Nat} {sep : Separators} (hsep : sep.Standard) {v : Json}
    (h : Plain limit v) : ReadsBack limit sep v := by
  induction h with
  | null => exact readsBack_null
  | bool b => exact readsBack_bool b
  | int h => exact readsBack_int h
  | str s => exact readsBack_str s
  | arr _ ih => exact readsBack_arr hsep ih
  | obj hnames _ ih => exact readsBack_obj hsep hnames ih

/-- A reader of whole texts finds a plain value again. -/
theorem Plain.readChars_write {limit : Option Nat} {sep : Separators} (hsep : sep.Standard)
    {v : Json} (h : Plain limit v) : readChars limit (v.write sep) = .ok v := by
  have hback := h.readsBack hsep
  have hread := hback.reads ((v.write sep).length + 1) [] (Nat.le_succ _) Ends.nil
  rw [List.append_nil] at hread
  have hskip := skipGap_of_starts hback.starts
  obtain ⟨c, cs, hcs, -, -, -, hmark⟩ := hback.starts
  rw [hcs] at hread hskip ⊢
  rw [readChars, hskip, hread]
  · rfl
  · rintro _ h
    exact hmark (List.cons.inj h).1

theorem Plain.readWithin_write {limit : Option Nat} {sep : Separators} (hsep : sep.Standard)
    {v : Json} (h : Plain limit v) :
    readWithin limit (String.ofList (v.write sep)) = .ok v := by
  rw [readWithin, String.toList_ofList, h.readChars_write hsep]

/-- Two plain values with one text are one value. -/
theorem Plain.eq_of_write_eq {limit : Option Nat} {sep : Separators} (hsep : sep.Standard)
    {v w : Json} (hv : Plain limit v) (hw : Plain limit w) (h : v.write sep = w.write sep) :
    v = w := by
  have hread := hv.readChars_write hsep
  rw [h, hw.readChars_write hsep] at hread
  exact (Except.ok.inj hread).symm

end TreeStore.Json
