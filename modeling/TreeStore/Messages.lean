import TreeStore.Association
import TreeStore.Error

/-!
# Message tables

The messages registered for error codes, in ascending order of the codes, so that two tables with
the same message for every code are equal.  A code without a message reads as the empty text.
-/

namespace TreeStore

/-- A table of messages by error code. -/
structure Messages where
  entries : List (Int × String)
  ascending : (entries.map (·.1)).Pairwise (· < ·)
deriving DecidableEq

namespace Messages

instance : Repr Messages := ⟨fun m => reprPrec m.entries⟩

/-- No messages. -/
def empty : Messages := ⟨[], by simp⟩

instance : Inhabited Messages := ⟨empty⟩

/-- The entries with one more message, in its place among ascending codes. -/
def put (code : Int) (text : String) : List (Int × String) → List (Int × String)
  | [] => [(code, text)]
  | e :: es =>
    if code < e.1 then (code, text) :: e :: es
    else if code = e.1 then (code, text) :: es
    else e :: put code text es

theorem mem_put {code c : Int} {text : String} {es : List (Int × String)}
    (h : c ∈ (put code text es).map (·.1)) : c = code ∨ c ∈ es.map (·.1) := by
  induction es with
  | nil => simp [put] at h; exact Or.inl h
  | cons e es ih =>
    rw [put] at h
    split at h
    · simpa using h
    · split at h
      · simp only [List.map_cons, List.mem_cons] at h ⊢
        rcases h with h | h
        · exact Or.inl h
        · exact Or.inr (Or.inr h)
      · simp only [List.map_cons, List.mem_cons] at h ⊢
        rcases h with h | h
        · exact Or.inr (Or.inl h)
        · rcases ih h with h | h
          · exact Or.inl h
          · exact Or.inr (Or.inr h)

theorem ascending_put {code : Int} {text : String} {es : List (Int × String)}
    (h : (es.map (·.1)).Pairwise (· < ·)) : ((put code text es).map (·.1)).Pairwise (· < ·) := by
  induction es with
  | nil => simp [put]
  | cons e es ih =>
    simp only [List.map_cons, List.pairwise_cons] at h
    rw [put]
    split
    · rename_i hlt
      simp only [List.map_cons, List.pairwise_cons, List.mem_cons]
      refine ⟨?_, h⟩
      rintro c (rfl | hc)
      · exact hlt
      · exact Int.lt_trans hlt (h.1 c hc)
    · split
      · rename_i heq
        simp only [List.map_cons, List.pairwise_cons]
        exact ⟨fun c hc => heq ▸ h.1 c hc, h.2⟩
      · rename_i h1 h2
        simp only [List.map_cons, List.pairwise_cons]
        refine ⟨fun c hc => ?_, ih h.2⟩
        rcases mem_put hc with rfl | hc
        · omega
        · exact h.1 c hc

/-- The table with a message for a code, in place of the one it had. -/
def insert (m : Messages) (code : Int) (text : String) : Messages :=
  ⟨put code text m.entries, ascending_put m.ascending⟩

/-- The table with every message of a list; the last one for a code counts. -/
def insertAll (m : Messages) (list : List (Int × String)) : Messages :=
  list.foldl (fun m e => m.insert e.1 e.2) m

/-- The table of a list of messages; the last one for a code counts. -/
def ofList (list : List (Int × String)) : Messages := empty.insertAll list

/-- The message of a code. -/
def get? (m : Messages) (code : Int) : Option String := m.entries.lookup code

/-- The message of a code, the empty text if it has none. -/
def get (m : Messages) (code : Int) : String := (m.get? code).getD ""

/-- The code has a message. -/
def contains (m : Messages) (code : Int) : Bool := (m.get? code).isSome

/-- The number of codes with a message. -/
def size (m : Messages) : Nat := m.entries.length

/-- The error with the message that the table has for its code now. -/
def error (m : Messages) (code : Int) (cause : String) : StoreError :=
  ⟨code, m.get code, cause⟩

/-- The messages of the codes that the store itself uses. -/
def default : Messages :=
  ofList
    [(ErrorCode.unknown, "Unknown Error"),
     (ErrorCode.notFile, "Target is Not File"),
     (ErrorCode.notDir, "Target is Not Dir"),
     (ErrorCode.notExists, "Target is not exists"),
     (ErrorCode.exists, "Target is exists"),
     (ErrorCode.dirNotEmpty, "Directory is not empty"),
     (ErrorCode.rootReadOnly, "Root is read only")]

/-! ### Look-up laws -/

@[simp] theorem get?_empty (code : Int) : empty.get? code = none := rfl

theorem lookup_put (code c : Int) (text : String) (es : List (Int × String)) :
    (put code text es).lookup c = if c = code then some text else es.lookup c := by
  induction es with
  | nil => rw [put, lookup_entry]
  | cons e es ih =>
    obtain ⟨key, old⟩ := e
    rw [put]
    split
    · rw [lookup_entry]
    · split
      next heq =>
        subst heq
        rw [lookup_entry, lookup_entry]
        split <;> rfl
      next hne =>
        rw [lookup_entry, lookup_entry, ih]
        by_cases h : c = key
        · rw [if_pos h, if_neg fun hc => hne (hc.symm.trans h), if_pos h]
        · rw [if_neg h, if_neg h]

theorem get?_insert (m : Messages) (code c : Int) (text : String) :
    (m.insert code text).get? c = if c = code then some text else m.get? c :=
  lookup_put code c text m.entries

end Messages

end TreeStore
