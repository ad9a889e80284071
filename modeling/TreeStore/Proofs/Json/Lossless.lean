import TreeStore.Proofs.Json.Ascii
import TreeStore.Proofs.Json.RoundTrip
import TreeStore.Proofs.Node.Copies

/-!
# Texts of errors and results

Errors and results are plain values, so their JSON texts lose nothing.

* `StoreError.handText_lossless`: the text of an error that is put together by hand is the one that
  the writer gives, and the error can be read off it;
* `Result.jsonText_lossless`: a result can be read off its text, and two results have one text only
  if they are equal, down to the last node of their trees.
-/

namespace TreeStore

open Json (Plain)

/-! ### Errors -/

namespace StoreError

theorem handChar_eq_escapeChar (c : Char) : handChar c = Json.escapeChar c := by
  unfold Json.escapeChar
  split
  case h_8 h1 h2 h3 h4 h5 h6 h7 =>
    have hplain : shortEscapes.lookup c = none := by
      rw [List.lookup_eq_none_iff]
      simp only [shortEscapes, List.mem_cons, List.not_mem_nil, or_false]
      rintro _ (rfl | rfl | rfl | rfl | rfl | rfl | rfl) <;> simpa
    rw [handChar, hplain]
    simp only
    by_cases hvisible : 0x20 ≤ c.toNat ∧ c.toNat ≤ 0x7e
    · rw [if_neg (by omega), if_pos hvisible]
    · rw [if_pos (by omega), if_neg hvisible]
      by_cases hpair : 0xffff < c.toNat
      · have hunits : Json.utf16 c = [0xd800 + (c.toNat - 0x10000) / 0x400,
            0xdc00 + (c.toNat - 0x10000) % 0x400] := if_neg (by omega)
        rw [if_pos hpair, hunits, List.flatMap_cons, List.flatMap_singleton]
      · have hunits : Json.utf16 c = [c.toNat] := if_pos (by omega)
        rw [if_neg hpair, hunits, List.flatMap_singleton]
  -- the short escapes
  all_goals rfl

theorem toList_handQuote (s : String) : (handQuote s).toList = Json.writeString s := by
  have hchar : handChar = Json.escapeChar := funext handChar_eq_escapeChar
  have htext : (handQuote s).toList = '"' :: s.toList.flatMap handChar ++ ['"'] :=
    String.toList_ofList
  rw [htext, hchar]
  rfl

/-- By hand the same characters come out as from the writer. -/
theorem handText_eq_jsonText (e : StoreError) : e.handText = e.jsonText := by
  have hcode : "\x7b\"ErrorCode\":".toList = '\x7b' :: (Json.writeString "ErrorCode" ++ [':']) := by
    decide
  have hmessage : ",\"Message\":".toList = ',' :: (Json.writeString "Message" ++ [':']) := by decide
  have hcause : ",\"Cause\":".toList = ',' :: (Json.writeString "Cause" ++ [':']) := by decide
  have hend : "\x7d".toList = ['\x7d'] := by decide
  -- said of any four texts, as the literals above are slow to take apart
  have hparts (a b c d : String) :
      (a ++ toString e.code ++ b ++ handQuote e.message ++ c ++ handQuote e.cause ++ d).toList =
        a.toList ++ (toString e.code).toList ++ b.toList ++ Json.writeString e.message ++
          c.toList ++ Json.writeString e.cause ++ d.toList := by
    simp only [String.toList_append, toList_handQuote]
  have hhand : e.handText.toList = _ := hparts _ _ _ _
  have hwrite : e.toJson.write .compact =
      '\x7b' :: (Json.writeString "ErrorCode" ++ [':']) ++ (toString e.code).toList ++
        ',' :: (Json.writeString "Message" ++ [':']) ++ Json.writeString e.message ++
        ',' :: (Json.writeString "Cause" ++ [':']) ++ Json.writeString e.cause ++ ['\x7d'] := by
    simp only [toJson, Json.write, Json.writeFields, Json.separate, Json.Separators.compact,
      List.append_assoc, List.cons_append, List.nil_append]
  rw [hcode, hmessage, hcause, hend, ← hwrite] at hhand
  rw [← String.toList_inj, hhand, jsonText, Json.renderCompact, String.toList_ofList]

theorem plain_toJson {limit : Option Nat} {e : StoreError}
    (h : ∀ most ∈ limit, Text.digitCount e.code ≤ most) : Plain limit e.toJson := by
  simpa [toJson] using h

theorem toJson_injective {e e' : StoreError} (h : e.toJson = e'.toJson) : e = e' := by
  simp only [toJson, Json.obj.injEq, List.cons.injEq, Prod.mk.injEq, Json.int.injEq,
    Json.str.injEq, true_and, and_true] at h
  obtain ⟨code, message, cause⟩ := e
  obtain ⟨code', message', cause'⟩ := e'
  obtain ⟨rfl, rfl, rfl⟩ := h
  rfl

theorem jsonText_injective {e e' : StoreError} (h : e.jsonText = e'.jsonText) : e = e' := by
  have hplain (e : StoreError) : Plain none e.toJson := plain_toJson nofun
  have hwrite : e.toJson.write .compact = e'.toJson.write .compact := String.ofList_injective h
  exact toJson_injective ((hplain e).eq_of_write_eq Json.standard_compact (hplain e') hwrite)

/-- The text that stands in for the writer's is the writer's, character by character, and visible
ASCII.  A reader finds code, message and cause in it, if it takes integers as long as the code; so
no two errors have one text. -/
theorem handText_lossless (e : StoreError) :
    e.jsonTextBy (fun _ => none) = e.handText ∧ e.handText = e.toJson.renderCompact ∧
    (∀ c ∈ e.handText.toList, 0x20 ≤ c.toNat ∧ c.toNat ≤ 0x7e) ∧
    Json.readWithin none e.handText = .ok (.obj
      [("ErrorCode", .int e.code), ("Message", .str e.message), ("Cause", .str e.cause)]) ∧
    (∀ limit, (∀ most ∈ limit, Text.digitCount e.code ≤ most) →
      Json.readWithin limit e.handText = .ok (.obj
        [("ErrorCode", .int e.code), ("Message", .str e.message), ("Cause", .str e.cause)])) ∧
    ∀ e' : StoreError, e'.handText = e.handText ↔ e' = e := by
  have hread {limit : Option Nat} (h : ∀ most ∈ limit, Text.digitCount e.code ≤ most) :
      Json.readWithin limit e.handText = .ok e.toJson := by
    rw [handText_eq_jsonText]
    exact (plain_toJson h).readWithin_write Json.standard_compact
  refine ⟨rfl, handText_eq_jsonText e, ?_, hread nofun, fun limit h => hread h, fun e' => ?_⟩
  · rw [handText_eq_jsonText, jsonText, Json.renderCompact, String.toList_ofList]
    exact visible_toJson Json.visible_compact e
  · rw [handText_eq_jsonText, handText_eq_jsonText]
    exact ⟨jsonText_injective, congrArg jsonText⟩

end StoreError

/-! ### Results -/

theorem Node.plain_toJson (limit : Option Nat) (n : Node) : Plain limit n.toJson := by
  induction n using bottom_up with
  | leaf k v => simp [toJson]
  | dir k cs ih =>
    cases cs with
    | nil => simp [toJson]
    | cons c cs => simpa [toJson, toJsonAll_eq_map] using ih

theorem Json.ofOption_injective {v w : Option String} (h : ofOption v = ofOption w) : v = w := by
  cases v with
  | none =>
    cases w with
    | none => rfl
    | some t => cases h
  | some s =>
    cases w with
    | none => cases h
    | some t => exact congrArg some (Json.str.inj h)

/-- Lists are equal if their images are and what is in the first one is known from its image. -/
theorem eq_of_map_eq {α β : Type} {f : α → β} {as bs : List α}
    (hf : ∀ a ∈ as, ∀ b, f a = f b → a = b) (h : as.map f = bs.map f) : as = bs := by
  induction as generalizing bs with
  | nil => exact (List.map_eq_nil_iff.mp h.symm).symm
  | cons a as ih =>
    obtain ⟨b, bs, rfl, hb, hbs⟩ := List.map_eq_cons_iff.mp h.symm
    rw [hf a List.mem_cons_self b hb.symm,
      ih (fun a' ha' => hf a' (List.mem_cons_of_mem a ha')) hbs.symm]

/-- A node is known from what is written of it: key, kind, value and children. -/
theorem Node.toJson_injective {n m : Node} (h : n.toJson = m.toJson) : n = m := by
  induction n using bottom_up generalizing m with
  | leaf k v =>
    cases m with
    | leaf k' v' =>
      simp only [toJson, Json.obj.injEq, List.cons.injEq, Prod.mk.injEq, Json.str.injEq, true_and,
        and_true] at h
      rw [h.1, Json.ofOption_injective h.2]
    | dir k' cs' => cases cs' <;> simp [toJson] at h
  | dir k cs ih =>
    cases m with
    | leaf k' v' => cases cs <;> simp [toJson] at h
    | dir k' cs' =>
      have hparts : k = k' ∧ cs.map toJson = cs'.map toJson := by
        cases cs with
        | nil =>
          cases cs' with
          | nil => simpa [toJson] using h
          | cons c' cs' => simp [toJson] at h
        | cons c cs =>
          cases cs' with
          | nil => simp [toJson] at h
          | cons c' cs' => simpa [toJson, toJsonAll_eq_map] using h
      rw [hparts.1, eq_of_map_eq (fun c hc m => ih c hc) hparts.2]

namespace Result

theorem plain_toJson (limit : Option Nat) (r : Result) : Plain limit r.toJson := by
  have hnode := r.node.plain_toJson limit
  cases hprev : r.prev with
  | none => simp [toJson, hprev, hnode]
  | some p => simp [toJson, hprev, hnode, p.plain_toJson limit]

theorem toJson_injective {r r' : Result} (h : r.toJson = r'.toJson) : r = r' := by
  obtain ⟨action, node, prev⟩ := r
  obtain ⟨action', node', prev'⟩ := r'
  have hparts : action.name = action'.name ∧ node.toJson = node'.toJson ∧
      prev.map Node.toJson = prev'.map Node.toJson := by
    cases prev with
    | none =>
      cases prev' with
      | none => simpa [toJson] using h
      | some p' => simp [toJson] at h
    | some p =>
      cases prev' with
      | none => simp [toJson] at h
      | some p' => simpa [toJson] using h
  obtain ⟨haction, hnode, hprev⟩ := hparts
  have haction : action = action' := by
    have hname := action.ofName?_name
    rw [haction, action'.ofName?_name] at hname
    exact (Option.some.inj hname).symm
  have hprev : prev = prev' := Option.map_injective (fun _ _ => Node.toJson_injective) hprev
  rw [haction, Node.toJson_injective hnode, hprev]

/-- A reader finds in the text of a result what the result shows of itself, whatever its limit for
integers is; and two results have one text exactly if they are of one action, both have a state
before or neither has, and their trees are equal. -/
theorem jsonText_lossless (r r' : Result) :
    Json.read r.jsonText = .ok r.toJson ∧
    (∀ limit, Json.readWithin limit r.jsonText = .ok r.toJson) ∧
    (r.jsonText = r'.jsonText ↔
      r.action = r'.action ∧ r.prev.isSome = r'.prev.isSome ∧ r.node = r'.node ∧
        r.prev = r'.prev) := by
  have hread (limit : Option Nat) : Json.readWithin limit r.jsonText = .ok r.toJson :=
    (r.plain_toJson limit).readWithin_write Json.standard_spaced
  refine ⟨hread _, hread, fun h => ?_, fun ⟨haction, _, hnode, hprev⟩ => ?_⟩
  · have hwrite : r.toJson.write .spaced = r'.toJson.write .spaced := String.ofList_injective h
    obtain rfl := toJson_injective
      ((r.plain_toJson none).eq_of_write_eq Json.standard_spaced (r'.plain_toJson none) hwrite)
    exact ⟨rfl, rfl, rfl, rfl⟩
  · obtain ⟨action, node, prev⟩ := r
    obtain rfl : action = r'.action := haction
    obtain rfl : node = r'.node := hnode
    obtain rfl : prev = r'.prev := hprev
    rfl

end Result

end TreeStore
