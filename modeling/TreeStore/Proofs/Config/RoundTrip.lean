import TreeStore.Proofs.Config.Verdict
import TreeStore.Proofs.Text.Decimal

/-!
# Configurations written and read back

Reading puts the messages of a configuration over the default ones, so a configuration is read back
as itself if it has a message for each of their codes (`Complete`).  In a JSON value the codes stand
in decimal and must be read again, so there none may have too many digits (`Short`).  Both hold of
what was itself read from a value (`complete_of_ofJson`, `short_of_ofJson`), and more messages keep
the first and cost the second only where a code of theirs is too long (`round_trip`).
-/

namespace TreeStore.Config

/-- Every code with a default message has a message. -/
def Complete (c : Config) : Prop :=
  ∀ code, Messages.default.contains code = true → c.messages.contains code = true

/-- No code with a message has more digits than are read. -/
def Short (c : Config) : Prop :=
  ∀ code, c.messages.contains code = true → Text.digitCount code ≤ Text.maxDigits

/-! ### Settings and back -/

theorem readLevel_name (level : Option Log.Level) :
    readLevel (.ofOption (level.map (·.name))) = .ok level := by
  cases level with
  | none => rfl
  | some l =>
    show readLevel (.str l.name) = .ok (some l)
    rw [readLevel, Log.Level.ofText?_name]

theorem ofSettings_toSettings (c : Config) : ofSettings c.toSettings =
    .ok { c with messages := Messages.default.insertAll c.messages.entries } := by
  rw [ofSettings, build, toSettings, Option.getD_some, readLevel_name]
  rfl

theorem insertAll_entries_eq_iff {m m' : Messages} :
    m.insertAll m'.entries = m' ↔ ∀ code, m.contains code = true → m'.contains code = true := by
  constructor
  · intro h code hcode
    rw [← h, Messages.contains_insertAll]
    exact Or.inr hcode
  · intro h
    refine Messages.ext fun code => ?_
    rw [Messages.get?_insertAll_entries]
    cases hget : m'.get? code with
    | some text => rfl
    | none =>
      have hcode : m.contains code ≠ true := fun hcode => by
        have := h code hcode
        simp [Messages.contains, hget] at this
      rwa [Option.none_or, ← Option.not_isSome_iff_eq_none]

theorem ofSettings_toSettings_iff {c : Config} : ofSettings c.toSettings = .ok c ↔ c.Complete := by
  have hc : { c with messages := Messages.default.insertAll c.messages.entries } = c ↔
      Messages.default.insertAll c.messages.entries = c.messages :=
    ⟨congrArg messages, fun h => by rw [h]⟩
  rw [ofSettings_toSettings, Except.ok.injEq, hc, insertAll_entries_eq_iff]
  rfl

/-! ### JSON and back -/

/-- Codes in decimal are read again, if they are short. -/
theorem readMessages_toString {list : List (Int × String)}
    (h : ∀ e ∈ list, Text.digitCount e.1 ≤ Text.maxDigits) :
    readMessages (list.map fun e => (toString e.1, .str e.2)) = .ok list := by
  induction list with
  | nil => rfl
  | cons e list ih =>
    obtain ⟨hcode, hlist⟩ := List.forall_mem_cons.mp h
    rw [List.map_cons, readMessages, Text.readInteger?_toString, if_pos hcode, ih hlist]
    rfl

theorem ofJson_toJson_of_short {c : Config} (h : c.Short) :
    ofJson c.toJson = ofSettings c.toSettings := by
  have hentries : readMessages (c.messages.entries.map fun e => (toString e.1, .str e.2)) =
      .ok c.messages.entries :=
    readMessages_toString fun e he => h e.1 (Messages.contains_iff.mpr ⟨e.2, he⟩)
  rw [toJson, ofJson_of_tabled (by simp [Known, fieldNames]) (tabled_cons _ _), tableOf_cons,
    hentries, ofSettings_toSettings]
  show (readLevel (.ofOption (c.logLevel.map (·.name)))).map _ = _
  rw [readLevel_name]
  rfl

/-- What was read is short. -/
theorem short_of_ofJson {v : Json} {c : Config} (h : ofJson v = .ok c) : c.Short := by
  obtain ⟨fields, -, -, hdescribes⟩ := describes_of_ofJson h
  intro code hcode
  rw [Messages.contains, hdescribes.messages, Option.isSome_or, Bool.or_eq_true] at hcode
  rcases hcode with hgiven | hdefault
  · obtain ⟨text, htext⟩ := Option.isSome_iff_exists.mp hgiven
    obtain ⟨v, hlast, -⟩ := Option.bind_eq_some_iff.mp htext
    obtain ⟨g, hg, -⟩ := Option.map_eq_some_iff.mp hlast
    have hname := of_decide_eq_true (List.mem_filter.mp (List.mem_of_getLast? hg)).2
    exact Text.digitCount_of_readInteger? hname
  · obtain ⟨text, htext⟩ := Messages.contains_iff.mp hdefault
    have hall : ∀ e ∈ Messages.default.entries, Text.digitCount e.1 ≤ Text.maxDigits := by decide
    exact hall _ htext

/-- What was read has all default messages or others for their codes. -/
theorem complete_of_ofJson {v : Json} {c : Config} (h : ofJson v = .ok c) : c.Complete := by
  obtain ⟨fields, -, -, hdescribes⟩ := describes_of_ofJson h
  intro code hcode
  rw [Messages.contains, hdescribes.messages, Option.isSome_or, Bool.or_eq_true]
  exact Or.inr hcode

theorem ofJson_toJson_iff {c : Config} : ofJson c.toJson = .ok c ↔ c.Complete ∧ c.Short := by
  constructor
  · exact fun h => ⟨complete_of_ofJson h, short_of_ofJson h⟩
  · rintro ⟨hcomplete, hshort⟩
    rw [ofJson_toJson_of_short hshort, ofSettings_toSettings_iff.mpr hcomplete]

/-! ### More messages -/

theorem complete_withMessages {c : Config} (h : c.Complete) (overlay : List (Int × String)) :
    (c.withMessages overlay).Complete :=
  fun code hcode => Messages.contains_insertAll.mpr (Or.inr (h code hcode))

theorem short_withMessages_iff {c : Config} {overlay : List (Int × String)} :
    (c.withMessages overlay).Short ↔
      (∀ e ∈ overlay, Text.digitCount e.1 ≤ Text.maxDigits) ∧ c.Short := by
  have hcontains (code : Int) : (c.withMessages overlay).messages.contains code = true ↔
      (∃ e ∈ overlay, e.1 = code) ∨ c.messages.contains code = true :=
    Messages.contains_insertAll
  simp only [Short, hcontains, or_imp, forall_and, forall_exists_index, and_imp,
    forall_apply_eq_imp_iff₂]

theorem not_short_withMessages {c : Config} {code : Int} {text : String}
    (h : Text.maxDigits < Text.digitCount code) : ¬ (c.withMessages [(code, text)]).Short :=
  fun hshort =>
    Nat.not_le.mpr h ((short_withMessages_iff.mp hshort).1 (code, text) List.mem_cons_self)

theorem complete_foldl_withMessages {c : Config} (h : c.Complete)
    (overlays : List (List (Int × String))) : (overlays.foldl withMessages c).Complete := by
  induction overlays generalizing c with
  | nil => exact h
  | cons overlay overlays ih => exact ih (complete_withMessages h overlay)

theorem short_foldl_withMessages_iff {c : Config} {overlays : List (List (Int × String))} :
    (overlays.foldl withMessages c).Short ↔
      (∀ overlay ∈ overlays, ∀ e ∈ overlay, Text.digitCount e.1 ≤ Text.maxDigits) ∧ c.Short := by
  induction overlays generalizing c with
  | nil => simp
  | cons overlay overlays ih =>
    rw [List.foldl_cons, ih, short_withMessages_iff, List.forall_mem_cons, and_assoc,
      and_left_comm]

/-- A configuration is given back by its settings exactly if it is complete, and by its JSON form
exactly if moreover its codes are short enough to be read.  What was read from a value and given
more messages is complete, and short unless one of those messages has a code that is not.  More
messages twice are the messages of both at once. -/
theorem round_trip (c : Config) :
    (ofSettings c.toSettings = .ok c ↔ c.Complete) ∧
    (ofJson c.toJson = .ok c ↔ c.Complete ∧ c.Short) ∧
    (∀ v c₀ (overlays : List (List (Int × String))), ofJson v = .ok c₀ →
      c = overlays.foldl withMessages c₀ →
      ofSettings c.toSettings = .ok c ∧
      (ofJson c.toJson = .ok c ↔
        ∀ overlay ∈ overlays, ∀ e ∈ overlay, Text.digitCount e.1 ≤ Text.maxDigits)) ∧
    ∀ a b, (c.withMessages a).withMessages b =
      c.withMessages ((Messages.ofList a).insertAll b).entries := by
  refine ⟨ofSettings_toSettings_iff, ofJson_toJson_iff, ?_, fun a b => ?_⟩
  · rintro v c₀ overlays hv rfl
    have hcomplete := complete_foldl_withMessages (complete_of_ofJson hv) overlays
    refine ⟨ofSettings_toSettings_iff.mpr hcomplete, ?_⟩
    rw [ofJson_toJson_iff, short_foldl_withMessages_iff, and_iff_right hcomplete,
      and_iff_left (short_of_ofJson hv)]
  · rw [withMessages, withMessages, withMessages, Messages.insertAll_insertAll]

/-- What was read with a message for one code, and was given one for another. -/
theorem round_trip_one_more :
    let v : Json := .obj [("error_messages", .obj [("7", .str "a")]), ("log_level", .str "info")]
    let c₀ : Config := { messages := Messages.default.insertAll [(7, "a")], logLevel := some .info }
    ofJson v = .ok c₀ ∧
    ofSettings (c₀.withMessages [(-8, "b")]).toSettings = .ok (c₀.withMessages [(-8, "b")]) ∧
    ofJson (c₀.withMessages [(-8, "b")]).toJson = .ok (c₀.withMessages [(-8, "b")]) := by
  intro v c₀
  have hknown : Known [("error_messages", .obj [("7", .str "a")]), ("log_level", .str "info")] := by
    simp [Known, fieldNames]
  have hv : ofJson v = .ok c₀ := ofJson_of_tabled hknown (tabled_cons _ _)
  obtain ⟨hsettings, hjson⟩ :=
    (round_trip (c₀.withMessages [(-8, "b")])).2.2.1 v c₀ [[(-8, "b")]] hv rfl
  exact ⟨hv, hsettings, hjson.mpr (by decide)⟩

/-- A complete configuration is not given back by its JSON form if one of its codes has a digit too
many: the least such code. -/
theorem json_of_long_code :
    let c : Config := ({} : Config).withMessages [(Int.ofNat (Nat.pow 10 Text.maxDigits), "x")]
    c.Complete ∧ ofJson c.toJson ≠ .ok c := by
  exact ⟨complete_withMessages (fun _ h => h) _,
    fun h => not_short_withMessages (Text.lt_digitCount_pow (by decide)) (short_of_ofJson h)⟩

end TreeStore.Config
