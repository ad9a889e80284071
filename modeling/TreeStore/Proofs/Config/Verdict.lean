import Mathlib.Data.String.Basic
import TreeStore.Config
import TreeStore.Proofs.Json.Short
import TreeStore.Proofs.Messages

/-!
# What configurations are accepted

A JSON value is refused for its first fault, in the order of the constructors of `Fault`, or it is
`Valid` and then accepted, and what it says of a configuration is `Describes`.  None of the three
mentions the functions that look for faults.  Every value has a fault or is valid
(`exists_fault_or_valid`), each fault is the one reported (`Fault.reported`), and there is one
configuration that a valid value describes (`Valid.exists_ofJson`, `Describes.unique`); so
`Decides`.

A field of the table of messages is bad if its name is not read as an integer.  That is all for the
values of JSON texts.  A value that was put together otherwise may hold an integer with more digits
than are read or written; such a message has no text, and its name is reported although it is read.
Hence the bad fields are a parameter, and `ofJson_decides` says both.
-/

namespace TreeStore

theorem Log.Level.ofText?_eq_some_iff {s : String} {l : Level} :
    ofText? s = some l ↔ Text.upper s = l.name := by
  rw [ofText?, ofName?]
  constructor
  · intro h
    have hname := List.find?_some h
    exact (beq_iff_eq.mp hname).symm
  · intro h
    rw [h]
    exact ofName?_name l

namespace Config

/-! ### Faults, and what the fields say -/

/-- The table of messages among the fields, empty if there is none. -/
def tableOf (fields : List (String × Json)) : List (String × Json) :=
  match fields.lookup "error_messages" with
  | some (.obj table) => table
  | _ => []

/-- The name of the field is not read as an integer. -/
def Unread (f : String × Json) : Prop := Text.readInteger? f.1 = none

/-- The field gives no message for a code: its name is not read as an integer, or its value holds an
integer with too many digits. -/
def Unusable (f : String × Json) : Prop := Unread f ∨ ¬ f.2.Short

/-- The first name in a table whose field is bad. -/
def FirstBad (Bad : String × Json → Prop) (table : List (String × Json)) (name : String) : Prop :=
  ∃ before v after, table = before ++ (name, v) :: after ∧ Bad (name, v) ∧ ∀ f ∈ before, ¬ Bad f

/-- The value of the last field in a table whose name is read as the code. -/
def lastFor (table : List (String × Json)) (code : Int) : Option Json :=
  ((table.filter fun f => Text.readInteger? f.1 = some code).getLast?).map (·.2)

/-- Every field is one that a configuration has. -/
def Known (fields : List (String × Json)) : Prop := ∀ f ∈ fields, f.1 ∈ fieldNames

/-- The table of messages is an object, if it is given. -/
def Tabled (fields : List (String × Json)) : Prop :=
  ∀ v, fields.lookup "error_messages" = some v → ∃ table, v = .obj table

@[simp] theorem tableOf_cons (table fields : List (String × Json)) :
    tableOf (("error_messages", .obj table) :: fields) = table := by
  rw [tableOf, List.lookup_cons_self]

@[simp] theorem tabled_cons (table fields : List (String × Json)) :
    Tabled (("error_messages", .obj table) :: fields) := by
  intro v hv
  rw [List.lookup_cons_self, Option.some_inj] at hv
  exact ⟨table, hv.symm⟩

/-- The value stands for a log level, by its name in any case, or for none. -/
def IsLevel (v : Json) : Prop :=
  v = .null ∨ ∃ s, v = .str s ∧ ∃ l : Log.Level, Text.upper s = l.name

/-- The first fault of a value, with the words in which it is reported.  A fault counts only where
there is none of those before it. -/
inductive Fault (Bad : String × Json → Prop) : Json → Flaw → String → Prop where
  | notObject {v : Json} (h : ∀ fields, v ≠ .obj fields) :
      Fault Bad v (.notObject v.kindName) ("Config must be a mapping, got " ++ v.kindName)
  | unknownKeys {fields : List (String × Json)} {names : List String} (hne : names ≠ [])
      (hsorted : names.Pairwise (· ≤ ·))
      (hnames : names.Perm ((fields.map (·.1)).filter (· ∉ fieldNames))) :
      Fault Bad (.obj fields) (.unknownKeys names)
        ("Unknown config keys: " ++ ", ".intercalate names)
  | messagesNotObject {fields : List (String × Json)} (hknown : Known fields)
      (h : ¬ Tabled fields) :
      Fault Bad (.obj fields) .messagesNotObject
        "error_messages must be a mapping of code to message"
  | badCode {fields : List (String × Json)} {name : String} (hknown : Known fields)
      (htable : Tabled fields) (h : FirstBad Bad (tableOf fields) name) :
      Fault Bad (.obj fields) (.badCode name) ("Invalid error code: " ++ Text.quoted name)
  | badLevel {fields : List (String × Json)} {v : Json} {text : String} (hknown : Known fields)
      (htable : Tabled fields) (hcodes : ∀ f ∈ tableOf fields, ¬ Bad f)
      (hv : fields.lookup "log_level" = some v) (h : ¬ IsLevel v) (htext : v.display = some text) :
      Fault Bad (.obj fields) (.badLevel text) ("Invalid log_level: " ++ text)
  /-- The level is no level and cannot be written either. -/
  | longLevel {fields : List (String × Json)} {v : Json} (hknown : Known fields)
      (htable : Tabled fields) (hcodes : ∀ f ∈ tableOf fields, ¬ Bad f)
      (hv : fields.lookup "log_level" = some v) (hlong : ¬ v.Short) :
      Fault Bad (.obj fields) .longInteger ("Exceeds the limit (4300 digits) for integer string " ++
        "conversion; use sys.set_int_max_str_digits() to increase the limit")

/-- Fields without a fault. -/
structure Valid (Bad : String × Json → Prop) (fields : List (String × Json)) : Prop where
  known : Known fields
  tabled : Tabled fields
  codes : ∀ f ∈ tableOf fields, ¬ Bad f
  level : ∀ v, fields.lookup "log_level" = some v → IsLevel v

/-- What fields say of a configuration: the last message for a code counts, a code without one has
its default message if there is one, and a field that is not given has its default value. -/
structure Describes (fields : List (String × Json)) (c : Config) : Prop where
  messages : ∀ code, c.messages.get? code =
    ((lastFor (tableOf fields) code).bind Json.asMessage).or (Messages.default.get? code)
  sorted : c.sortedListing = (fields.lookup "sorted_listing").getD (.bool false)
  emits : c.emitEvents = (fields.lookup "emit_events").getD (.bool true)
  level : ∀ l, c.logLevel = some l ↔
    ∃ s, fields.lookup "log_level" = some (.str s) ∧ Text.upper s = l.name

/-- The value is refused exactly for its first fault, in the words of that fault; it is accepted
exactly if it has none, and the configuration is the one that its fields describe. -/
structure Decides (Bad : String × Json → Prop) (v : Json) : Prop where
  refused : ∀ flaw text, ofJson v = .error flaw ∧ flaw.message = text ↔ Fault Bad v flaw text
  accepted : (∃ c, ofJson v = .ok c) ↔ ∃ fields, v = .obj fields ∧ Valid Bad fields
  described : ∀ c, ofJson v = .ok c ↔ ∃ fields, v = .obj fields ∧ Valid Bad fields ∧
    Describes fields c

theorem Describes.unique {fields : List (String × Json)} {c c' : Config} (h : Describes fields c)
    (h' : Describes fields c') : c = c' := by
  have hmessages : c.messages = c'.messages :=
    Messages.ext fun code => (h.messages code).trans (h'.messages code).symm
  have hlevel : c.logLevel = c'.logLevel :=
    Option.ext fun l => (h.level l).trans (h'.level l).symm
  have hsorted := h.sorted.trans h'.sorted.symm
  have hemits := h.emits.trans h'.emits.symm
  cases c
  cases c'
  congr

/-! ### Names of fields -/

theorem unknownNames_perm (fields : List (String × Json)) :
    (unknownNames fields).Perm ((fields.map (·.1)).filter (· ∉ fieldNames)) :=
  List.mergeSort_perm _ _

theorem pairwise_unknownNames (fields : List (String × Json)) :
    (unknownNames fields).Pairwise (· ≤ ·) := by
  have hpairwise : (unknownNames fields).Pairwise fun a b => decide (a ≤ b) = true :=
    List.pairwise_mergeSort
      (fun a b c hab hbc => by
        rw [decide_eq_true_eq] at hab hbc ⊢
        exact le_trans hab hbc)
      (fun a b => by
        rw [Bool.or_eq_true, decide_eq_true_eq, decide_eq_true_eq]
        exact le_total a b) _
  exact hpairwise.imp of_decide_eq_true

/-- Sorting leaves no choice. -/
theorem eq_unknownNames {fields : List (String × Json)} {names : List String}
    (hsorted : names.Pairwise (· ≤ ·))
    (hnames : names.Perm ((fields.map (·.1)).filter (· ∉ fieldNames))) :
    names = unknownNames fields :=
  (hnames.trans (unknownNames_perm fields).symm).eq_of_pairwise
    (fun _ _ _ _ => le_antisymm) hsorted (pairwise_unknownNames fields)

theorem unknownNames_eq_nil_iff {fields : List (String × Json)} :
    unknownNames fields = [] ↔ Known fields := by
  have hnil : unknownNames fields = [] ↔ (fields.map (·.1)).filter (· ∉ fieldNames) = [] :=
    ⟨fun h => (h ▸ unknownNames_perm fields).symm.eq_nil,
      fun h => (h ▸ unknownNames_perm fields).eq_nil⟩
  rw [hnil, List.filter_eq_nil_iff, List.forall_mem_map]
  simp only [decide_eq_true_eq, not_not]
  rfl

/-! ### Tables of messages -/

theorem firstBad_or_none (Bad : String × Json → Prop) (table : List (String × Json)) :
    (∃ name, FirstBad Bad table name) ∨ ∀ f ∈ table, ¬ Bad f := by
  induction table with
  | nil => exact Or.inr (List.forall_mem_nil _)
  | cons f table ih =>
    by_cases hf : Bad f
    · exact Or.inl ⟨f.1, [], f.2, table, rfl, hf, List.forall_mem_nil _⟩
    · rcases ih with ⟨name, before, v, after, rfl, hbad, hbefore⟩ | hnone
      · exact Or.inl ⟨name, f :: before, v, after, rfl, hbad,
          List.forall_mem_cons.mpr ⟨hf, hbefore⟩⟩
      · exact Or.inr (List.forall_mem_cons.mpr ⟨hf, hnone⟩)

theorem FirstBad.congr {Bad Bad' : String × Json → Prop} {table : List (String × Json)}
    {name : String} (h : FirstBad Bad table name) (hiff : ∀ f ∈ table, Bad f ↔ Bad' f) :
    FirstBad Bad' table name := by
  obtain ⟨before, v, after, rfl, hbad, hbefore⟩ := h
  obtain ⟨hiffs, hiff⟩ := List.forall_mem_append.mp hiff
  exact ⟨before, v, after, rfl, (hiff _ List.mem_cons_self).mp hbad,
    fun f hf => (hiffs f hf).not.mp (hbefore f hf)⟩

theorem lastFor_cons (f : String × Json) (table : List (String × Json)) (code : Int) :
    lastFor (f :: table) code =
      (lastFor table code).or (if Text.readInteger? f.1 = some code then some f.2 else none) := by
  rw [lastFor, List.filter_cons]
  by_cases h : Text.readInteger? f.1 = some code
  · rw [if_pos h, if_pos (decide_eq_true h), List.getLast?_cons, lastFor]
    cases (table.filter fun f => Text.readInteger? f.1 = some code).getLast? <;> rfl
  · rw [if_neg h, if_neg (by rwa [decide_eq_true_eq]), Option.or_none]
    rfl

theorem readMessages_of_unusable {f : String × Json} (h : Unusable f)
    (table : List (String × Json)) : readMessages (f :: table) = .error (.badCode f.1) := by
  obtain ⟨name, v⟩ := f
  rw [readMessages]
  rcases h with hname | hlong
  · rw [hname]
  · rw [Json.asMessage_eq_none_iff.mpr hlong]
    cases Text.readInteger? name <;> rfl

theorem exists_of_not_unusable {f : String × Json} (h : ¬ Unusable f) :
    ∃ code text, Text.readInteger? f.1 = some code ∧ f.2.asMessage = some text := by
  obtain ⟨hname, hshort⟩ := not_or.mp h
  rw [not_not] at hshort
  obtain ⟨code, hcode⟩ := Option.ne_none_iff_exists'.mp hname
  obtain ⟨text, htext⟩ := Option.ne_none_iff_exists'.mp
    (Json.asMessage_eq_none_iff.not.mpr (not_not.mpr hshort))
  exact ⟨code, text, hcode, htext⟩

theorem readMessages_cons {f : String × Json} {code : Int} {text : String}
    (hcode : Text.readInteger? f.1 = some code) (htext : f.2.asMessage = some text)
    (table : List (String × Json)) :
    readMessages (f :: table) = (readMessages table).map fun list => (code, text) :: list := by
  obtain ⟨name, v⟩ := f
  rw [readMessages, hcode, htext]
  cases readMessages table <;> rfl

theorem exists_of_lastFor {table : List (String × Json)} {code : Int} {v : Json}
    (h : lastFor table code = some v) : ∃ f ∈ table, f.2 = v := by
  obtain ⟨f, hf, rfl⟩ := Option.map_eq_some_iff.mp h
  exact ⟨f, (List.mem_filter.mp (List.mem_of_getLast? hf)).1, rfl⟩

/-- A table is read up to its first unusable field. -/
theorem readMessages_of_bad {table : List (String × Json)} {name : String}
    (h : FirstBad Unusable table name) : readMessages table = .error (.badCode name) := by
  obtain ⟨before, v, after, rfl, hbad, hbefore⟩ := h
  induction before with
  | nil => exact readMessages_of_unusable hbad after
  | cons f before ih =>
    obtain ⟨hf, hbefore⟩ := List.forall_mem_cons.mp hbefore
    obtain ⟨code, text, hcode, htext⟩ := exists_of_not_unusable hf
    rw [List.cons_append, readMessages_cons hcode htext, ih hbefore]
    rfl

/-- A table of usable fields is read, and the last message for a code is the one found first from
the end. -/
theorem exists_readMessages {table : List (String × Json)} (h : ∀ f ∈ table, ¬ Unusable f) :
    ∃ list, readMessages table = .ok list ∧
      ∀ code, list.reverse.lookup code = (lastFor table code).bind Json.asMessage := by
  induction table with
  | nil => exact ⟨[], rfl, fun _ => rfl⟩
  | cons f table ih =>
    obtain ⟨hf, htable⟩ := List.forall_mem_cons.mp h
    obtain ⟨code', text, hcode', htext⟩ := exists_of_not_unusable hf
    obtain ⟨list, hlist, hlookup⟩ := ih htable
    refine ⟨(code', text) :: list, by rw [readMessages_cons hcode' htext, hlist]; rfl,
      fun code => ?_⟩
    rw [List.reverse_cons, List.lookup_append, hlookup, lastFor_cons]
    cases hlast : lastFor table code with
    | some v =>
      obtain ⟨g, hg, rfl⟩ := exists_of_lastFor hlast
      obtain ⟨-, text', -, htext'⟩ := exists_of_not_unusable (htable g hg)
      rw [Option.some_or, Option.bind_some, htext', Option.some_or]
    | none =>
      -- the first message of the table is the last one that a look-up from the end comes to
      rw [Option.none_or, Option.bind_none, Option.none_or, hcode', List.lookup_cons]
      by_cases hcode : code = code'
      · rw [if_pos (by rw [hcode]), hcode, beq_self_eq_true, Option.bind_some, htext]
      · rw [if_neg (by rwa [Option.some_inj, eq_comm]), beq_false_of_ne hcode]
        rfl

/-- Two spellings of one code fall together. -/
example : (readMessages [("7", .str "a"), (" +0_7", .str "b")]).map
    (fun list => (Messages.ofList list).get? 7) = .ok (some "b") := by rfl

theorem messagesField_of_not_tabled {fields : List (String × Json)} (h : ¬ Tabled fields) :
    messagesField fields = .error .messagesNotObject := by
  rw [Tabled, not_forall] at h
  obtain ⟨v, hv⟩ := h
  rw [Classical.not_imp] at hv
  obtain ⟨hv, hobj⟩ := hv
  rw [messagesField, hv]
  cases v with
  | obj table => exact absurd ⟨table, rfl⟩ hobj
  | _ => rfl

/-! ### Levels -/

theorem readLevel_of_not_isLevel {v : Json} (h : ¬ IsLevel v) :
    readLevel v = .error (refuseLevel v) := by
  cases v with
  | null => exact absurd (Or.inl rfl) h
  | str s =>
    cases hs : Log.Level.ofText? s with
    | none => rw [readLevel, hs]
    | some l =>
      exact absurd (Or.inr ⟨s, rfl, l, Log.Level.ofText?_eq_some_iff.mp hs⟩) h
  | _ => rfl

theorem IsLevel.short {v : Json} (h : IsLevel v) : v.Short := by
  rcases h with rfl | ⟨s, rfl, -⟩
  · exact .null
  · exact .str s

theorem exists_readLevel {v : Json} (h : IsLevel v) :
    ∃ level, readLevel v = .ok level ∧
      ∀ l, level = some l ↔ ∃ s, v = .str s ∧ Text.upper s = l.name := by
  rcases h with rfl | ⟨s, rfl, l, hl⟩
  · exact ⟨none, rfl, by simp⟩
  · have hs := Log.Level.ofText?_eq_some_iff.mpr hl
    refine ⟨some l, by rw [readLevel, hs], fun l' => ?_⟩
    rw [← hs, Log.Level.ofText?_eq_some_iff]
    simp

/-! ### Values -/

theorem settings_of_known {fields : List (String × Json)} (h : Known fields) :
    Settings.ofJson (.obj fields) =
      (messagesField fields).map fun messages =>
        { messages := messages
          sortedListing := fields.lookup "sorted_listing"
          emitEvents := fields.lookup "emit_events"
          logLevel := fields.lookup "log_level" } := by
  rw [Settings.ofJson, unknownNames_eq_nil_iff.mpr h]
  cases messagesField fields <;> rfl

/-- Of fields without one of the first faults the messages are read and then the level. -/
theorem ofJson_of_tabled {fields : List (String × Json)} (hknown : Known fields)
    (htable : Tabled fields) :
    ofJson (.obj fields) = (readMessages (tableOf fields)).bind fun list =>
      (readLevel ((fields.lookup "log_level").getD .null)).map fun level =>
        { messages := Messages.default.insertAll list
          sortedListing := (fields.lookup "sorted_listing").getD (.bool false)
          emitEvents := (fields.lookup "emit_events").getD (.bool true)
          logLevel := level } := by
  rw [ofJson, settings_of_known hknown]
  cases hv : fields.lookup "error_messages" with
  | none =>
    rw [messagesField, tableOf, hv]
    show ofSettings _ = _
    rw [ofSettings, build]
    cases readLevel ((fields.lookup "log_level").getD .null) <;> rfl
  | some v =>
    obtain ⟨table, rfl⟩ := htable v hv
    rw [messagesField, tableOf, hv]
    dsimp only
    cases readMessages table with
    | error flaw => rfl
    | ok list =>
      show ofSettings _ = _
      rw [ofSettings, build]
      cases readLevel ((fields.lookup "log_level").getD .null) <;> rfl

/-- Fields whose table is read are refused for their level. -/
theorem ofJson_of_not_isLevel {fields : List (String × Json)} {v : Json} (hknown : Known fields)
    (htable : Tabled fields) (hcodes : ∀ f ∈ tableOf fields, ¬ Unusable f)
    (hv : fields.lookup "log_level" = some v) (h : ¬ IsLevel v) :
    ofJson (.obj fields) = .error (refuseLevel v) := by
  obtain ⟨list, hlist, -⟩ := exists_readMessages hcodes
  rw [ofJson_of_tabled hknown htable, hlist, hv, Option.getD_some, readLevel_of_not_isLevel h]
  rfl

theorem Fault.reported {v : Json} {flaw : Flaw} {text : String} (h : Fault Unusable v flaw text) :
    ofJson v = .error flaw ∧ flaw.message = text := by
  cases h with
  | notObject h =>
    refine ⟨?_, rfl⟩
    cases v with
    | obj fields => exact absurd rfl (h fields)
    | _ => rfl
  | unknownKeys hne hsorted hnames =>
    refine ⟨?_, rfl⟩
    rw [eq_unknownNames hsorted hnames] at hne ⊢
    rw [ofJson, Settings.ofJson]
    cases hnames : unknownNames _ with
    | nil => exact absurd hnames hne
    | cons => rfl
  | messagesNotObject hknown h =>
    refine ⟨?_, rfl⟩
    rw [ofJson, settings_of_known hknown, messagesField_of_not_tabled h]
    rfl
  | badCode hknown htable h =>
    refine ⟨?_, rfl⟩
    rw [ofJson_of_tabled hknown htable, readMessages_of_bad h]
    rfl
  | badLevel hknown htable hcodes hv h htext =>
    refine ⟨?_, rfl⟩
    rw [ofJson_of_not_isLevel hknown htable hcodes hv h, refuseLevel, htext]
  | longLevel hknown htable hcodes hv hlong =>
    refine ⟨?_, rfl⟩
    rw [ofJson_of_not_isLevel hknown htable hcodes hv fun h => hlong h.short, refuseLevel,
      Json.display_eq_none_iff.mpr hlong]

theorem Valid.exists_ofJson {fields : List (String × Json)} (h : Valid Unusable fields) :
    ∃ c, ofJson (.obj fields) = .ok c ∧ Describes fields c := by
  obtain ⟨list, hlist, hlookup⟩ := exists_readMessages h.codes
  have hlevel : IsLevel ((fields.lookup "log_level").getD .null) := by
    cases hv : fields.lookup "log_level" with
    | none => exact Or.inl rfl
    | some v => exact h.level v hv
  obtain ⟨level, hread, hsome⟩ := exists_readLevel hlevel
  refine ⟨_, by rw [ofJson_of_tabled h.known h.tabled, hlist, hread]; rfl, fun code => ?_, rfl, rfl,
    fun l => ?_⟩
  · rw [Messages.get?_insertAll, hlookup]
  · rw [hsome]
    cases fields.lookup "log_level" <;> simp

/-- A value has a fault or none. -/
theorem exists_fault_or_valid (Bad : String × Json → Prop) (v : Json) :
    (∃ flaw text, Fault Bad v flaw text) ∨ ∃ fields, v = .obj fields ∧ Valid Bad fields := by
  by_cases hobj : ∃ fields, v = .obj fields
  · obtain ⟨fields, rfl⟩ := hobj
    by_cases hknown : Known fields
    · by_cases htable : Tabled fields
      · rcases firstBad_or_none Bad (tableOf fields) with ⟨name, hname⟩ | hcodes
        · exact Or.inl ⟨_, _, .badCode hknown htable hname⟩
        · by_cases hlevel : ∀ v, fields.lookup "log_level" = some v → IsLevel v
          · exact Or.inr ⟨fields, rfl, hknown, htable, hcodes, hlevel⟩
          · rw [not_forall] at hlevel
            obtain ⟨v, hv⟩ := hlevel
            rw [Classical.not_imp] at hv
            cases htext : v.display with
            | some text => exact Or.inl ⟨_, _, .badLevel hknown htable hcodes hv.1 hv.2 htext⟩
            | none =>
              exact Or.inl ⟨_, _, .longLevel hknown htable hcodes hv.1
                (Json.display_eq_none_iff.mp htext)⟩
      · exact Or.inl ⟨_, _, .messagesNotObject hknown htable⟩
    · exact Or.inl ⟨_, _, .unknownKeys (unknownNames_eq_nil_iff.not.mpr hknown)
        (pairwise_unknownNames fields) (unknownNames_perm fields)⟩
  · exact Or.inl ⟨_, _, .notObject (not_exists.mp hobj)⟩

/-- The configuration read from a value is the one that its fields describe. -/
theorem describes_of_ofJson {v : Json} {c : Config} (h : ofJson v = .ok c) :
    ∃ fields, v = .obj fields ∧ Valid Unusable fields ∧ Describes fields c := by
  rcases exists_fault_or_valid Unusable v with ⟨flaw, text, hfault⟩ | ⟨fields, rfl, hvalid⟩
  · exact absurd (h.symm.trans hfault.reported.1) nofun
  · obtain ⟨c', hc', hdescribes⟩ := hvalid.exists_ofJson
    obtain rfl : c = c' := Except.ok.inj (h.symm.trans hc')
    exact ⟨fields, rfl, hvalid, hdescribes⟩

theorem decides_unusable (v : Json) : Decides Unusable v := by
  refine ⟨fun flaw text => ⟨?_, Fault.reported⟩, ⟨?_, ?_⟩, fun c => ⟨describes_of_ofJson, ?_⟩⟩
  · rintro ⟨herror, rfl⟩
    rcases exists_fault_or_valid Unusable v with ⟨flaw', text', hfault⟩ | ⟨fields, rfl, hvalid⟩
    · obtain ⟨herror', hmessage⟩ := hfault.reported
      obtain rfl : flaw = flaw' := Except.error.inj (herror.symm.trans herror')
      rwa [hmessage]
    · obtain ⟨c, hc, -⟩ := hvalid.exists_ofJson
      exact absurd (herror.symm.trans hc) nofun
  · rintro ⟨c, hc⟩
    obtain ⟨fields, hv, hvalid, -⟩ := describes_of_ofJson hc
    exact ⟨fields, hv, hvalid⟩
  · rintro ⟨fields, rfl, hvalid⟩
    obtain ⟨c, hc, -⟩ := hvalid.exists_ofJson
    exact ⟨c, hc⟩
  · rintro ⟨fields, rfl, hvalid, hdescribes⟩
    obtain ⟨c', hc', hdescribes'⟩ := hvalid.exists_ofJson
    rw [hc', hdescribes.unique hdescribes']

/-! ### Other bad fields -/

section Congr

variable {Bad Bad' : String × Json → Prop} {v : Json}

theorem Fault.congr {flaw : Flaw} {text : String} (h : Fault Bad v flaw text)
    (hiff : ∀ fields, v = .obj fields → ∀ f ∈ tableOf fields, Bad f ↔ Bad' f) :
    Fault Bad' v flaw text := by
  cases h with
  | notObject h => exact .notObject h
  | unknownKeys hne hsorted hnames => exact .unknownKeys hne hsorted hnames
  | messagesNotObject hknown h => exact .messagesNotObject hknown h
  | badCode hknown htable h => exact .badCode hknown htable (h.congr (hiff _ rfl))
  | badLevel hknown htable hcodes hv h htext =>
    exact .badLevel hknown htable (fun f hf => (hiff _ rfl f hf).not.mp (hcodes f hf)) hv h htext
  | longLevel hknown htable hcodes hv hlong =>
    exact .longLevel hknown htable (fun f hf => (hiff _ rfl f hf).not.mp (hcodes f hf)) hv hlong

theorem valid_congr {fields : List (String × Json)}
    (hiff : ∀ f ∈ tableOf fields, Bad f ↔ Bad' f) : Valid Bad fields ↔ Valid Bad' fields :=
  ⟨fun h => ⟨h.known, h.tabled, fun f hf => (hiff f hf).not.mp (h.codes f hf), h.level⟩,
    fun h => ⟨h.known, h.tabled, fun f hf => (hiff f hf).not.mpr (h.codes f hf), h.level⟩⟩

/-- Only the fields of the value's own table count. -/
theorem Decides.congr (h : Decides Bad v)
    (hiff : ∀ fields, v = .obj fields → ∀ f ∈ tableOf fields, Bad f ↔ Bad' f) :
    Decides Bad' v where
  refused flaw text := (h.refused flaw text).trans
    ⟨fun hfault => hfault.congr hiff,
      fun hfault => hfault.congr fun fields hv f hf => (hiff fields hv f hf).symm⟩
  accepted := h.accepted.trans <| exists_congr fun fields =>
    and_congr_right fun hv => valid_congr (hiff fields hv)
  described c := (h.described c).trans <| exists_congr fun fields =>
    and_congr_right fun hv => and_congr_left' (valid_congr (hiff fields hv))

end Congr

/-- In a short value, just the fields whose names are not read are unusable. -/
theorem unusable_iff_unread {fields : List (String × Json)} (h : (Json.obj fields).Short)
    {f : String × Json} (hf : f ∈ tableOf fields) : Unusable f ↔ Unread f := by
  refine or_iff_left (not_not.mpr ?_)
  rw [tableOf] at hf
  split at hf
  · next table htable =>
    obtain ⟨before, after, rfl, -⟩ := List.lookup_eq_some_iff.mp htable
    exact (h.of_mem (List.mem_append_right before List.mem_cons_self)).of_mem hf
  · exact absurd hf List.not_mem_nil

/-- From a JSON text, and any other value whose integers are short, a configuration is read unless
there is a fault, where the bad fields are those whose names are not read as integers.  Whatever the
value, the bad fields are the unusable ones. -/
theorem ofJson_decides (v : Json) :
    (v.Short → Decides Unread v) ∧ (∀ source, Json.read source = .ok v → v.Short) ∧
      Decides Unusable v := by
  refine ⟨fun hshort => (decides_unusable v).congr ?_, fun _ => Json.short_of_read,
    decides_unusable v⟩
  rintro fields rfl f hf
  exact unusable_iff_unread hshort hf

end Config

end TreeStore
