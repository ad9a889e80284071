import Mathlib.Data.List.Basic
import TreeStore.Json.Reader
import TreeStore.Json.Writer

/-!
# Strings through JSON

One step of the reader takes back the escape of one character, whatever comes after it
(`readString_escapeChar`): half a surrogate pair is never a character of its own, so an escape by
number does not join with the one behind it.  By induction the reader finds the string that was
written, and what follows its closing quote (`readQuoted_escaped`).
-/

namespace TreeStore

namespace Text

theorem readHex?_concat (cs : List Char) (c : Char) : readHex? (cs ++ [c]) =
    (readHex? cs).bind fun n => (hexValue? c).map (n * 16 + ·) := by
  have hlast : readHex? (cs ++ [c]) = do return (← readHex? cs) * 16 + (← hexValue? c) :=
    List.foldl_append
  rw [hlast]
  cases readHex? cs with
  | none => rfl
  | some n => cases hexValue? c <;> rfl

theorem readHex?_hex {w n : Nat} (h : n < Nat.pow 16 w) : readHex? (hex w n) = some n := by
  induction w generalizing n with
  | zero =>
    obtain rfl : n = 0 := Nat.lt_one_iff.mp h
    rfl
  | succ w ih =>
    have hrest : n / 16 < Nat.pow 16 w := Nat.div_lt_of_lt_mul (Nat.mul_comm .. ▸ h)
    have hdigit := hexValue?_hexDigit (Nat.mod_lt n (by decide : 0 < 16))
    rw [hex, readHex?_concat, ih hrest, Option.bind_some, hdigit, Option.map_some]
    exact congrArg some (by omega)

end Text

namespace Json

/-! ### Escapes by number -/

theorem charOf_toNat (c : Char) : charOf c.toNat = c := by
  have hvalid : c.toNat.isValidChar := c.valid
  rw [charOf, if_pos hvalid, Char.ofNat_toNat]

/-- The code point of a character is no half of a surrogate pair. -/
theorem toNat_cases (c : Char) : c.toNat < 0xd800 ∨ 0xdfff < c.toNat ∧ c.toNat < 0x110000 :=
  c.valid

theorem readUnit?_hex {n : Nat} (h : n < 0x10000) (c : Char) (cs : List Char) :
    readUnit? (Text.hex 4 n ++ c :: cs) = some (n, c :: cs) := by
  show (Text.readHex? (Text.hex 4 n)).map (fun n => (n, c :: cs)) = _
  rw [Text.readHex?_hex h]
  rfl

theorem readUnicode?_unit {n : Nat} (h : n < 0xd800 ∨ 0xdfff < n) (hn : n < 0x10000) (c : Char)
    (cs : List Char) : readUnicode? (Text.hex 4 n ++ c :: cs) = .ok (charOf n, c :: cs) := by
  rw [readUnicode?, readUnit?_hex hn]
  simp only
  split
  · rw [if_neg (by omega)]
  · rfl

theorem readUnicode?_pair {high low : Nat} (hhigh : 0xd800 ≤ high ∧ high < 0xdc00)
    (hlow : 0xdc00 ≤ low ∧ low < 0xe000) (c : Char) (cs : List Char) :
    readUnicode? (Text.hex 4 high ++ '\\' :: 'u' :: (Text.hex 4 low ++ c :: cs)) =
      .ok (charOf (0x10000 + (high - 0xd800) * 0x400 + (low - 0xdc00)), c :: cs) := by
  have hlong : 4 < (Text.hex 4 low ++ c :: cs).length := by
    rw [List.length_append, Text.length_hex, List.length_cons]
    omega
  rw [readUnicode?, readUnit?_hex (by omega)]
  simp only
  rw [if_pos ⟨hhigh.1, hhigh.2, hlong⟩, readUnit?_hex (by omega)]
  simp only
  rw [if_pos hlow]

/-! ### Characters -/

section Steps

variable (opened fuel : Nat) (acc : List Char)

theorem readString_plain {c : Char} (hquote : c ≠ '"') (hslash : c ≠ '\\') (hc : 0x20 ≤ c.toNat)
    (cs : List Char) : readString opened (fuel + 1) acc (c :: cs) =
      readString opened fuel (c :: acc) cs := by
  rw [readString, if_neg (by omega)]
  · exact hquote
  · exact fun h _ => hslash h
  · exact fun _ h => absurd h hslash
  · exact fun _ _ h => absurd h hslash

theorem readString_unicode (c : Char) {cs cs' : List Char} (h : readUnicode? cs = .ok (c, cs')) :
    readString opened (fuel + 1) acc ('\\' :: 'u' :: cs) =
      readString opened fuel (c :: acc) cs' := by
  rw [readString, h]

/-- The units of a character are read as this character. -/
theorem readString_utf16 (c e : Char) (cs : List Char) :
    readString opened (fuel + 1) acc
        ((utf16 c).flatMap (fun u => '\\' :: 'u' :: Text.hex 4 u) ++ e :: cs) =
      readString opened fuel (c :: acc) (e :: cs) := by
  have hvalid := toNat_cases c
  by_cases hone : c.toNat < 0x10000
  · have hunits : utf16 c = [c.toNat] := if_pos hone
    have hread := readUnicode?_unit (by omega) hone e cs
    rw [charOf_toNat] at hread
    rw [hunits, List.flatMap_singleton]
    exact readString_unicode opened fuel acc c hread
  · have hunits : utf16 c = [0xd800 + (c.toNat - 0x10000) / 0x400,
        0xdc00 + (c.toNat - 0x10000) % 0x400] := if_neg hone
    have hsum : 0x10000 + (0xd800 + (c.toNat - 0x10000) / 0x400 - 0xd800) * 0x400 +
        (0xdc00 + (c.toNat - 0x10000) % 0x400 - 0xdc00) = c.toNat := by omega
    have hhigh : 0xd800 ≤ 0xd800 + (c.toNat - 0x10000) / 0x400 ∧
        0xd800 + (c.toNat - 0x10000) / 0x400 < 0xdc00 := by omega
    have hlow : 0xdc00 ≤ 0xdc00 + (c.toNat - 0x10000) % 0x400 ∧
        0xdc00 + (c.toNat - 0x10000) % 0x400 < 0xe000 := by omega
    have hread := readUnicode?_pair hhigh hlow e cs
    rw [hsum, charOf_toNat] at hread
    rw [hunits, List.flatMap_cons, List.flatMap_singleton, List.append_assoc]
    exact readString_unicode opened fuel acc c hread

/-- A character is read in one step, whatever follows it. -/
theorem readString_escapeChar (c e : Char) (cs : List Char) :
    readString opened (fuel + 1) acc (escapeChar c ++ e :: cs) =
      readString opened fuel (c :: acc) (e :: cs) := by
  unfold escapeChar
  split
  case h_8 hquote hslash _ _ _ _ _ =>
    split_ifs with hc
    · exact readString_plain opened fuel acc hquote hslash hc.1 _
    · exact readString_utf16 opened fuel acc _ e cs
  -- the short escapes
  all_goals rfl

end Steps

/-! ### Whole strings -/

theorem escapeChar_ne_nil (c : Char) : escapeChar c ≠ [] := by
  have hunits : utf16 c ≠ [] := by
    rw [utf16]
    split_ifs <;> exact List.cons_ne_nil _ _
  unfold escapeChar
  split
  case h_8 =>
    split_ifs
    · exact List.cons_ne_nil _ _
    · obtain ⟨u, us, hus⟩ := List.exists_cons_of_ne_nil hunits
      rw [hus]
      exact List.cons_ne_nil _ _
  all_goals exact List.cons_ne_nil _ _

theorem length_le_length_flatMap (cs : List Char) :
    cs.length ≤ (cs.flatMap escapeChar).length := by
  induction cs with
  | nil => exact Nat.le_refl 0
  | cons c cs ih =>
    have hc := List.length_pos_of_ne_nil (escapeChar_ne_nil c)
    rw [List.flatMap_cons, List.length_append, List.length_cons]
    omega

theorem readString_escaped {opened fuel : Nat} {cs : List Char} (acc rest : List Char)
    (h : cs.length < fuel) :
    readString opened fuel acc (cs.flatMap escapeChar ++ '"' :: rest) =
      .ok (String.ofList (acc.reverse ++ cs), rest) := by
  induction cs generalizing fuel acc with
  | nil =>
    obtain ⟨fuel, rfl⟩ := Nat.exists_eq_add_one_of_ne_zero (Nat.ne_zero_of_lt h)
    rw [List.append_nil]
    rfl
  | cons c cs ih =>
    obtain ⟨fuel, rfl⟩ := Nat.exists_eq_add_one_of_ne_zero (Nat.ne_zero_of_lt h)
    have hrest : cs.flatMap escapeChar ++ '"' :: rest ≠ [] := by simp
    obtain ⟨e, tail, htail⟩ := List.exists_cons_of_ne_nil hrest
    have ih := ih (c :: acc) (Nat.lt_of_succ_lt_succ h)
    rw [htail] at ih
    rw [List.flatMap_cons, List.append_assoc, htail, readString_escapeChar, ih,
      List.reverse_cons, List.append_assoc, List.singleton_append]

/-- A written string is read up to its closing quote. -/
theorem readQuoted_escaped (s : String) (rest : List Char) :
    readQuoted (s.toList.flatMap escapeChar ++ '"' :: rest) = .ok (s, rest) := by
  have hlen := length_le_length_flatMap s.toList
  have hfuel : s.toList.length < (s.toList.flatMap escapeChar ++ '"' :: rest).length + 1 := by
    rw [List.length_append]
    omega
  rw [readQuoted, readString_escaped [] rest hfuel, List.reverse_nil, List.nil_append,
    String.ofList_toList]

end Json

end TreeStore
