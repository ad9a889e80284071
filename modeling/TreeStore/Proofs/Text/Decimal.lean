import Mathlib.Data.List.Basic
import Mathlib.Data.List.Induction
import TreeStore.Text.Integer

/-!
# Integers in decimal

The decimal text of an integer has neither blanks nor underscores nor zeros in front.

* `readInteger?_toString`: a reader of integers written by people finds the integer again, unless it
  has more digits than such a reader takes;
* `digitCount_of_readInteger?`: an integer that such a reader has found has no more digits than
  that, in whatever script and with whatever zeros in front it was written.
-/

namespace TreeStore.Text

theorem lt_digitCount_pow {k : Nat} (h : 0 < k) : k < digitCount (Int.ofNat (Nat.pow 10 k)) := by
  rw [← Nat.not_le]
  exact fun hlen => Nat.lt_irrefl _ ((Nat.length_toDigits_le_iff (by decide) h).mp hlen)

theorem toList_toString (n : Int) :
    (toString n).toList = (if n < 0 then ['-'] else []) ++ Nat.toDigits 10 n.natAbs := by
  cases n with
  | ofNat n =>
    have htext : (toString (Int.ofNat n)).toList = Nat.toDigits 10 n := Nat.toList_repr
    rw [htext, if_neg (by simp)]
    rfl
  | negSucc n =>
    have htext : (toString (Int.negSucc n)).toList = '-' :: (Nat.repr (n + 1)).toList := by
      show ("-" ++ Nat.repr (n + 1)).toList = _
      simp
    rw [htext, Nat.toList_repr, if_pos (Int.negSucc_lt_zero n)]
    rfl

/-! ### Digits -/

theorem isDigit_iff {c : Char} : c.isDigit = true ↔ 48 ≤ c.toNat ∧ c.toNat ≤ 57 := by
  simp [Char.isDigit, UInt32.le_iff_toNat_le]

theorem isDigit_of_mem {n : Nat} {c : Char} (h : c ∈ Nat.toDigits 10 n) : c.isDigit = true :=
  Nat.isDigit_of_mem_toDigits (by decide) (by decide) h

theorem digitValue?_of_isDigit {c : Char} (h : c.isDigit = true) :
    digitValue? c = some (c.toNat - 48) := by
  obtain ⟨hlow, hhigh⟩ := isDigit_iff.mp h
  have hzero : (zeros.find? fun z => z ≤ c.toNat && c.toNat < z + 10) = some 0x30 :=
    List.find?_cons_of_pos (by simp only [Bool.and_eq_true, decide_eq_true_eq]; omega)
  rw [digitValue?, hzero]
  rfl

theorem digitValue?_lt {c : Char} {d : Nat} (h : digitValue? c = some d) : d < 10 := by
  obtain ⟨z, hz, rfl⟩ := Option.map_eq_some_iff.mp h
  have hrange := List.find?_some hz
  simp only [Bool.and_eq_true, decide_eq_true_eq] at hrange
  omega

theorem isMargin_of_isDigit {c : Char} (h : c.isDigit = true) : isMargin c = false := by
  obtain ⟨hlow, hhigh⟩ := isDigit_iff.mp h
  have hblank : isBlank c = false := by
    rw [Bool.eq_false_iff]
    intro hblank
    simp only [isBlank, within_iff, blanks, List.mem_cons, List.not_mem_nil, or_false] at hblank
    obtain ⟨r, hr, hrange⟩ := hblank
    rcases hr with rfl | rfl | rfl | rfl | rfl | rfl | rfl | rfl | rfl | rfl <;> omega
  rw [isMargin, hblank]
  rfl

/-- The number whose digits are listed, the first one first. -/
theorem foldl_digits (cs : List Char) (n : Nat) :
    (cs.map fun c => c.toNat - 48).foldl (fun n d => n * 10 + d) n = Nat.ofDigitChars 10 cs n := by
  rw [List.foldl_map, Nat.ofDigitChars_eq_foldl]
  refine List.foldl_ext _ _ _ fun n c _ => ?_
  rw [Nat.mul_comm]
  rfl

theorem foldl_digits_lt {ds : List Nat} (h : ∀ d ∈ ds, d < 10) :
    ds.foldl (fun n d => n * 10 + d) 0 < Nat.pow 10 ds.length := by
  induction ds using List.reverseRecOn with
  | nil => decide
  | append_singleton ds d ih =>
    have hbefore := ih fun d hd => h d (List.mem_append_left _ hd)
    have hlast := h d (by simp)
    rw [List.foldl_append, List.length_append, List.length_singleton, Nat.pow_eq, Nat.pow_succ]
    simp only [List.foldl_cons, List.foldl_nil]
    rw [Nat.pow_eq] at hbefore
    omega

/-! ### Reading decimals -/

theorem readDigits_of_isDigit {cs : List Char} (h : ∀ c ∈ cs, c.isDigit = true) :
    readDigits cs = some (cs.map fun c => c.toNat - 48) := by
  induction cs with
  | nil => rfl
  | cons c cs ih =>
    have hc := h c List.mem_cons_self
    have hne : c ≠ '_' := by
      rintro rfl
      revert hc
      decide
    have hrest := ih fun c hc => h c (List.mem_cons_of_mem _ hc)
    rw [readDigits, digitValue?_of_isDigit hc, hrest]
    · rfl
    · rintro _ _ rfl
      exact absurd rfl hne

theorem readNumber?_cons {c : Char} {cs : List Char} {d : Nat} {ds : List Nat}
    (hd : digitValue? c = some d) (hds : readDigits cs = some ds) :
    readNumber? (c :: cs) =
      if (d :: ds).length ≤ maxDigits then some ((d :: ds).foldl (fun n d => n * 10 + d) 0)
      else none := by
  rw [readNumber?, hd, hds]
  show ((guard ((d :: ds).length ≤ maxDigits) : Option Unit).bind fun _ => _) = _
  by_cases hlen : (d :: ds).length ≤ maxDigits
  · rw [guard, if_pos hlen, if_pos hlen]
    rfl
  · rw [guard, if_neg hlen, if_neg hlen]
    rfl

theorem readNumber?_toDigits (n : Nat) : readNumber? (Nat.toDigits 10 n) =
    if (Nat.toDigits 10 n).length ≤ maxDigits then some n else none := by
  have hvalue : ((Nat.toDigits 10 n).map fun c => c.toNat - 48).foldl (fun n d => n * 10 + d) 0 =
      n := (foldl_digits _ 0).trans Nat.ofDigitChars_ten_toDigits
  have hdigits : ∀ c ∈ Nat.toDigits 10 n, c.isDigit = true := fun c => isDigit_of_mem
  cases hcs : Nat.toDigits 10 n with
  | nil => exact absurd hcs Nat.toDigits_ne_nil
  | cons c cs =>
    rw [hcs] at hdigits hvalue
    rw [List.map_cons] at hvalue
    rw [readNumber?_cons (digitValue?_of_isDigit (hdigits c List.mem_cons_self))
      (readDigits_of_isDigit fun c hc => hdigits c (List.mem_cons_of_mem _ hc)), hvalue,
      List.length_cons, List.length_cons, List.length_map]

theorem trim_eq_self {p : Char → Bool} {cs : List Char} (h : ∀ c ∈ cs, p c = false) :
    trim p cs = cs := by
  have hkeep (l : List Char) (hl : ∀ c ∈ l, c ∈ cs) : l.dropWhile p = l := by
    cases l with
    | nil => rfl
    | cons c l => exact List.dropWhile_cons_of_neg (by simp [h c (hl c List.mem_cons_self)])
  rw [trim, hkeep cs fun _ hc => hc, hkeep cs.reverse fun _ hc => List.mem_reverse.mp hc,
    List.reverse_reverse]

theorem isMargin_of_mem_toString {n : Int} {c : Char} (h : c ∈ (toString n).toList) :
    isMargin c = false := by
  rw [toList_toString, List.mem_append] at h
  rcases h with h | h
  · split_ifs at h
    · rw [List.mem_singleton.mp h]
      decide
    · cases h
  · exact isMargin_of_isDigit (isDigit_of_mem h)

/-- An integer in decimal reads as itself if it does not have too many digits, else not at all. -/
theorem readInteger?_toString (n : Int) :
    readInteger? (toString n) = if digitCount n ≤ maxDigits then some n else none := by
  have htrim := trim_eq_self fun c hc => isMargin_of_mem_toString (n := n) hc
  rw [readInteger?, htrim, toList_toString]
  have hnumber := readNumber?_toDigits n.natAbs
  by_cases hneg : n < 0
  · rw [if_pos hneg]
    show (readNumber? (Nat.toDigits 10 n.natAbs)).map (- Int.ofNat ·) = _
    rw [hnumber, digitCount]
    split_ifs
    · exact congrArg some (by show -(n.natAbs : Int) = n; omega)
    · rfl
  · rw [if_neg hneg, List.nil_append]
    have hmap : (readNumber? (Nat.toDigits 10 n.natAbs)).map Int.ofNat =
        if digitCount n ≤ maxDigits then some n else none := by
      rw [hnumber, digitCount]
      split_ifs
      · exact congrArg some (by show (n.natAbs : Int) = n; omega)
      · rfl
    have hdigits : ∀ c ∈ Nat.toDigits 10 n.natAbs, c.isDigit = true := fun c => isDigit_of_mem
    -- the first character is a digit, hence no sign
    split
    · next cs h =>
      rw [h] at hdigits
      exact absurd (hdigits '+' List.mem_cons_self) (by decide)
    · next cs h =>
      rw [h] at hdigits
      exact absurd (hdigits '-' List.mem_cons_self) (by decide)
    · exact hmap

/-! ### What has been read -/

theorem lt_of_mem_readDigits {cs : List Char} {ds : List Nat} (h : readDigits cs = some ds) :
    ∀ d ∈ ds, d < 10 := by
  fun_induction readDigits cs generalizing ds with
  | case1 =>
    cases h
    nofun
  | case2 c cs ih =>
    simp only [Option.bind_eq_bind, Option.bind_eq_some_iff] at h
    obtain ⟨d, hd, ds', hds, h⟩ := h
    cases h
    intro d' hd'
    rcases List.mem_cons.mp hd' with rfl | hd'
    · exact digitValue?_lt hd
    · exact ih hds d' hd'
  | case3 c cs _ ih =>
    simp only [Option.bind_eq_bind, Option.bind_eq_some_iff] at h
    obtain ⟨d, hd, ds', hds, h⟩ := h
    cases h
    intro d' hd'
    rcases List.mem_cons.mp hd' with rfl | hd'
    · exact digitValue?_lt hd
    · exact ih hds d' hd'

theorem length_toDigits_of_readNumber? {cs : List Char} {n : Nat} (h : readNumber? cs = some n) :
    (Nat.toDigits 10 n).length ≤ maxDigits := by
  cases cs with
  | nil => cases h
  | cons c cs =>
    obtain ⟨d, hd, hrest⟩ := Option.bind_eq_some_iff.mp h
    obtain ⟨ds, hds, -⟩ := Option.bind_eq_some_iff.mp hrest
    rw [readNumber?_cons hd hds] at h
    split_ifs at h with hlen
    have hdigits : ∀ d' ∈ d :: ds, d' < 10 := by
      intro d' hd'
      rcases List.mem_cons.mp hd' with rfl | hd'
      · exact digitValue?_lt hd
      · exact lt_of_mem_readDigits hds d' hd'
    have hn : n < Nat.pow 10 (d :: ds).length := Option.some.inj h ▸ foldl_digits_lt hdigits
    exact Nat.le_trans ((Nat.length_toDigits_le_iff (by decide) (by simp)).mpr hn) hlen

theorem digitCount_of_readInteger? {s : String} {n : Int} (h : readInteger? s = some n) :
    digitCount n ≤ maxDigits := by
  rw [readInteger?] at h
  split at h
  · obtain ⟨m, hm, rfl⟩ := Option.map_eq_some_iff.mp h
    exact length_toDigits_of_readNumber? hm
  · obtain ⟨m, hm, rfl⟩ := Option.map_eq_some_iff.mp h
    rw [digitCount, Int.natAbs_neg]
    exact length_toDigits_of_readNumber? hm
  · obtain ⟨m, hm, rfl⟩ := Option.map_eq_some_iff.mp h
    exact length_toDigits_of_readNumber? hm

end TreeStore.Text
