import Mathlib.Data.List.Basic
import TreeStore.Shell.Words

/-!
# Lines that spell words

Any words can be written into a line, whatever characters they have: between single quotes, with
each single quote of a word between double quotes (`quote`), or bare if none of their characters has
a meaning of its own.  `Writes` says which lines spell a list of words so, with blanks around the
words and a comment at the end; such a line is split into these words: `words_of_writes`.  A line
that has no words is blank or a comment: `words_eq_nil_iff`.
-/

namespace TreeStore.Shell

/-! ### Spelling -/

/-- What stands for a character between single quotes. -/
def quoteChar (c : Char) : List Char := if c = '\'' then ['\'', '"', '\'', '"', '\''] else [c]

/-- A word between single quotes. -/
def quote (w : String) : List Char := '\'' :: w.toList.flatMap quoteChar ++ ['\'']

/-- The character stands for itself wherever it is. -/
def isPlain (c : Char) : Bool :=
  !isSeparator c && c != '#' && c != '\\' && c != '\'' && c != '"'

/-- The characters spell the word. -/
inductive Spells (w : String) : List Char → Prop where
  | quoted : Spells w (quote w)
  | bare (hne : w ≠ "") (h : ∀ c ∈ w.toList, isPlain c = true) : Spells w w.toList

/-- A word is over here: the line ends, or a blank or a comment follows. -/
def Ends (cs : List Char) : Prop := ∀ c ∈ cs.head?, isSeparator c = true ∨ c = '#'

theorem ends_cons {c : Char} (h : isSeparator c = true ∨ c = '#') (cs : List Char) :
    Ends (c :: cs) := by
  intro x hx
  rwa [← Option.some.inj hx]

/-- The line consists of these words in this order, with blanks in front of each, and of blanks and
possibly a comment after the last. -/
inductive Writes : List String → List Char → Prop where
  | blanks {bs : List Char} (hbs : ∀ c ∈ bs, isSeparator c = true) : Writes [] bs
  | comment {bs cs : List Char} (hbs : ∀ c ∈ bs, isSeparator c = true) (hcs : '\n' ∉ cs) :
      Writes [] (bs ++ '#' :: cs)
  | word {w : String} {ws : List String} {bs spelled rest : List Char}
      (hbs : ∀ c ∈ bs, isSeparator c = true) (hw : Spells w spelled) (hends : Ends rest)
      (hrest : Writes ws rest) : Writes (w :: ws) (bs ++ spelled ++ rest)

/-! ### One character -/

section Steps

variable (token : List Char) (hasQuotes : Bool) (c : Char) (cs : List Char)

theorem scan_blank_cons : scan .blank token hasQuotes (c :: cs) =
    if isSeparator c then scan .blank [] false cs
    else if c = '#' then scan .comment [] false cs
    else if c = '\\' then scan .escape [] false cs
    else if c = '\'' then scan .single [] false cs
    else if c = '"' then scan .double [] false cs
    else scan .word [c] false cs := rfl

theorem scan_comment_cons : scan .comment token hasQuotes (c :: cs) =
    if c = '\n' then scan .blank [] false cs else scan .comment [] false cs := rfl

theorem scan_word_cons : scan .word token hasQuotes (c :: cs) =
    if isSeparator c then (scan .blank [] false cs).map (emitWord token hasQuotes)
    else if c = '#' then (scan .comment [] false cs).map (emitWord token hasQuotes)
    else if c = '\\' then scan .escape token hasQuotes cs
    else if c = '\'' then scan .single token hasQuotes cs
    else if c = '"' then scan .double token hasQuotes cs
    else scan .word (c :: token) hasQuotes cs := rfl

theorem scan_single_cons : scan .single token hasQuotes (c :: cs) =
    if c = '\'' then scan .word token true cs else scan .single (c :: token) true cs := rfl

theorem scan_double_cons : scan .double token hasQuotes (c :: cs) =
    if c = '"' then scan .word token true cs
    else if c = '\\' then scan .doubleEscape token true cs
    else scan .double (c :: token) true cs := rfl

theorem scan_doubleEscape_cons : scan .doubleEscape token hasQuotes (c :: cs) =
    if c = '"' ∨ c = '\\' then scan .double (c :: token) true cs
    else scan .double (c :: '\\' :: token) true cs := rfl

end Steps

/-! ### Reading -/

theorem scan_blanks {bs : List Char} (h : ∀ c ∈ bs, isSeparator c = true) (rest : List Char) :
    scan .blank [] false (bs ++ rest) = scan .blank [] false rest := by
  induction bs with
  | nil => rfl
  | cons c bs ih =>
    have hc := h c List.mem_cons_self
    rw [List.cons_append, scan_blank_cons, if_pos hc]
    exact ih fun x hx => h x (List.mem_cons_of_mem c hx)

theorem scan_comment {cs : List Char} (h : '\n' ∉ cs) : scan .comment [] false cs = .ok [] := by
  induction cs with
  | nil => rfl
  | cons c cs ih =>
    obtain ⟨hc, hcs⟩ := List.ne_and_not_mem_of_not_mem_cons h
    rw [scan_comment_cons, if_neg (Ne.symm hc)]
    exact ih hcs

/-- The characters between single quotes are read as they are. -/
theorem scan_quoted (w token : List Char) (hasQuotes : Bool) (rest : List Char) :
    scan .single token hasQuotes (w.flatMap quoteChar ++ '\'' :: rest) =
      scan .word (w.reverse ++ token) true rest := by
  induction w generalizing token hasQuotes with
  | nil => rfl
  | cons c w ih =>
    have hread (more : List Char) : scan .single token hasQuotes (quoteChar c ++ more) =
        scan .single (c :: token) true more := by
      unfold quoteChar
      split_ifs with hc
      · -- the quotes are closed, opened around the one quote, and opened again
        subst hc
        rfl
      · rw [List.singleton_append, scan_single_cons, if_neg hc]
    rw [List.flatMap_cons, List.append_assoc, hread, ih, List.reverse_cons, List.append_assoc,
      List.singleton_append]

section Plain

variable {c : Char} (h : isPlain c = true)
include h

theorem scan_word_plain (token cs : List Char) :
    scan .word token false (c :: cs) = scan .word (c :: token) false cs := by
  simp only [isPlain, Bool.and_eq_true, Bool.not_eq_true', bne_iff_ne] at h
  obtain ⟨⟨⟨⟨hblank, hhash⟩, hslash⟩, hsingle⟩, hdouble⟩ := h
  rw [scan_word_cons, if_neg (by simp [hblank]), if_neg hhash, if_neg hslash, if_neg hsingle,
    if_neg hdouble]

theorem scan_blank_plain (cs : List Char) :
    scan .blank [] false (c :: cs) = scan .word [] false (c :: cs) := by
  rw [scan_word_plain h]
  simp only [isPlain, Bool.and_eq_true, Bool.not_eq_true', bne_iff_ne] at h
  obtain ⟨⟨⟨⟨hblank, hhash⟩, hslash⟩, hsingle⟩, hdouble⟩ := h
  rw [scan_blank_cons, if_neg (by simp [hblank]), if_neg hhash, if_neg hslash, if_neg hsingle,
    if_neg hdouble]

end Plain

theorem scan_plain {w : List Char} (h : ∀ c ∈ w, isPlain c = true) (token : List Char)
    (rest : List Char) :
    scan .word token false (w ++ rest) = scan .word (w.reverse ++ token) false rest := by
  induction w generalizing token with
  | nil => rfl
  | cons c w ih =>
    rw [List.cons_append, scan_word_plain (h c List.mem_cons_self),
      ih fun x hx => h x (List.mem_cons_of_mem c hx), List.reverse_cons, List.append_assoc,
      List.singleton_append]

/-- At its end a word is put before the words that follow. -/
theorem scan_end {rest : List Char} (h : Ends rest) (token : List Char) (hasQuotes : Bool) :
    scan .word token hasQuotes rest =
      (scan .blank [] false rest).map (emitWord token hasQuotes) := by
  cases rest with
  | nil => rfl
  | cons c rest =>
    rw [scan_word_cons, scan_blank_cons]
    rcases h c rfl with hc | rfl
    · rw [if_pos hc, if_pos hc]
    · rfl

theorem scan_spelled {w : String} {spelled : List Char} (hw : Spells w spelled)
    {rest : List Char} (h : Ends rest) :
    scan .blank [] false (spelled ++ rest) =
      (scan .blank [] false rest).map (w.toList :: ·) := by
  cases hw with
  | quoted =>
    have hopen : scan .blank [] false (quote w ++ rest) =
        scan .single [] false (w.toList.flatMap quoteChar ++ '\'' :: rest) := by
      rw [quote, List.append_assoc]
      rfl
    have hword : emitWord (w.toList.reverse ++ []) true = (w.toList :: ·) := by
      funext words
      simp [emitWord]
    rw [hopen, scan_quoted, scan_end h, hword]
  | bare hne hplain =>
    obtain ⟨c, cs, hcs⟩ := List.exists_cons_of_ne_nil (mt String.toList_eq_nil_iff.mp hne)
    have hopen : scan .blank [] false (w.toList ++ rest) =
        scan .word [] false (w.toList ++ rest) := by
      rw [hcs]
      exact scan_blank_plain (hplain c (hcs ▸ List.mem_cons_self)) (cs ++ rest)
    have hword : emitWord (w.toList.reverse ++ []) false = (w.toList :: ·) := by
      funext words
      simp [emitWord, hne]
    rw [hopen, scan_plain hplain, scan_end h, hword]

theorem scan_of_writes {ws : List String} {line : List Char} (h : Writes ws line) :
    scan .blank [] false line = .ok (ws.map String.toList) := by
  induction h with
  | @blanks bs hbs =>
    have hread := scan_blanks hbs []
    rwa [List.append_nil] at hread
  | comment hbs hcs =>
    rw [scan_blanks hbs]
    exact scan_comment hcs
  | word hbs hw hends _ ih =>
    rw [List.append_assoc, scan_blanks hbs, scan_spelled hw hends, ih]
    rfl

/-- A line that spells words is split into them. -/
theorem words_of_writes {ws : List String} {line : String} (h : Writes ws line.toList) :
    words line = .ok ws := by
  have hmap : (ws.map String.toList).map String.ofList = ws := by simp
  rw [words, scan_of_writes h]
  exact congrArg Except.ok hmap

/-! ### Lines without words -/

/-- The reading stands inside a word. -/
def Started : Mode → List Char → Bool → Prop
  | .blank, _, _ | .comment, _, _ => False
  | .word, token, hasQuotes => token ≠ [] ∨ hasQuotes = true
  | .single, _, _ | .double, _, _ | .escape, _, _ | .doubleEscape, _, _ => True

theorem emitWord_ne_nil {token : List Char} {hasQuotes : Bool}
    (h : token ≠ [] ∨ hasQuotes = true) (rest : List (List Char)) :
    emitWord token hasQuotes rest ≠ [] := by
  rcases h with h | h <;> simp [emitWord, h]

theorem map_emitWord_ne_nil {token : List Char} {hasQuotes : Bool}
    (h : token ≠ [] ∨ hasQuotes = true) (rest : Except WordFlaw (List (List Char))) :
    rest.map (emitWord token hasQuotes) ≠ .ok [] := by
  cases rest with
  | error flaw => nofun
  | ok words => exact fun heq => emitWord_ne_nil h words (Except.ok.inj heq)

/-- A reading that has come into a word ends with words or with a flaw. -/
theorem scan_ne_nil {mode : Mode} {token : List Char} {hasQuotes : Bool}
    (h : Started mode token hasQuotes) (cs : List Char) :
    scan mode token hasQuotes cs ≠ .ok [] := by
  induction cs generalizing mode token hasQuotes with
  | nil =>
    cases mode with
    | blank | comment => cases h
    | word => exact fun heq => emitWord_ne_nil h [] (Except.ok.inj heq)
    | single | double | escape | doubleEscape => nofun
  | cons c cs ih =>
    have hword (q : Bool) : scan .word (c :: token) q cs ≠ .ok [] :=
      @ih .word _ q (Or.inl (List.cons_ne_nil c token))
    cases mode with
    | blank | comment => cases h
    | word =>
      rw [scan_word_cons]
      split_ifs
      · exact map_emitWord_ne_nil h _
      · exact map_emitWord_ne_nil h _
      · exact @ih .escape _ _ trivial
      · exact @ih .single _ _ trivial
      · exact @ih .double _ _ trivial
      · exact hword hasQuotes
    | single =>
      rw [scan_single_cons]
      split_ifs
      · exact @ih .word _ _ (Or.inr rfl)
      · exact @ih .single _ _ trivial
    | double =>
      rw [scan_double_cons]
      split_ifs
      · exact @ih .word _ _ (Or.inr rfl)
      · exact @ih .doubleEscape _ _ trivial
      · exact @ih .double _ _ trivial
    | escape => exact hword hasQuotes
    | doubleEscape =>
      rw [scan_doubleEscape_cons]
      split_ifs <;> exact @ih .double _ _ trivial

theorem Writes.cons_blank {c : Char} (hc : isSeparator c = true) {cs : List Char}
    (h : Writes [] cs) : Writes [] (c :: cs) := by
  have hall {bs : List Char} (hbs : ∀ b ∈ bs, isSeparator b = true) :
      ∀ b ∈ c :: bs, isSeparator b = true := by simpa [hc] using hbs
  cases h with
  | blanks hbs => exact .blanks (hall hbs)
  | comment hbs hcs => exact @Writes.comment (c :: _) _ (hall hbs) hcs

theorem writes_of_scan {cs : List Char} (hcs : '\n' ∉ cs)
    (h : scan .blank [] false cs = .ok []) : Writes [] cs := by
  induction cs with
  | nil => exact .blanks nofun
  | cons c cs ih =>
    have hrest : '\n' ∉ cs := (List.ne_and_not_mem_of_not_mem_cons hcs).2
    rw [scan_blank_cons] at h
    split_ifs at h with hblank hhash
    · exact (ih hrest h).cons_blank hblank
    · subst hhash
      exact @Writes.comment [] cs nofun hrest
    · exact absurd h (@scan_ne_nil .escape [] false trivial cs)
    · exact absurd h (@scan_ne_nil .single [] false trivial cs)
    · exact absurd h (@scan_ne_nil .double [] false trivial cs)
    · exact absurd h (@scan_ne_nil .word [c] false (Or.inl (List.cons_ne_nil c [])) cs)

/-- A line without words is blank or a comment. -/
theorem words_eq_nil_iff {line : String} (h : '\n' ∉ line.toList) :
    words line = .ok [] ↔ Writes [] line.toList := by
  refine ⟨fun hwords => writes_of_scan h ?_, words_of_writes⟩
  rw [words] at hwords
  cases hscan : scan .blank [] false line.toList with
  | error flaw =>
    rw [hscan] at hwords
    cases hwords
  | ok ws =>
    rw [hscan] at hwords
    rw [List.map_eq_nil_iff.mp (Except.ok.inj hwords)]

end TreeStore.Shell
