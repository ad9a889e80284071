import TreeStore.Proofs.Shell.Words
import TreeStore.Shell.Command

/-!
# What lines ask the store for

The command language is an exact image of the requests: `Asks` says which command and arguments ask
for which request, and a line that spells them (`Writes`) does to the store what the request does
and comes to the same outcome, for keys and values of any characters: `execute_of_writes`.

All other commands, but for the one that shows the counters, are refused and leave the store alone.
So a key that looks like a flag is none only where flags are not looked for.
-/

namespace TreeStore.Shell

/-! ### The language -/

/-- The command with these arguments is meant for the request. -/
inductive Asks : String → List String → Request → Prop where
  | set (key value : String) : Asks "set" [key, value] (.set key false (some value))
  | create (key value : String) : Asks "create" [key, value] (.create key false (some value))
  | update (key value : String) : Asks "update" [key, value] (.update key (some value))
  | mkdir (key : String) : Asks "mkdir" [key] (.create key true none)
  | ls (key : String) : Asks "ls" [key] (.get key false (some true))
  | lsRoot : Asks "ls" [] (.get "/" false (some true))
  | tree (key : String) : Asks "tree" [key] (.get key true (some true))
  | treeRoot : Asks "tree" [] (.get "/" true (some true))
  /-- Flags stand anywhere around the key, in any order and number. -/
  | get {key : String} {before after : List String}
      (hkey : key.toList.head? ≠ some '-' ∨ key = "-")
      (hflags : ∀ f ∈ before ++ after, f ∈ ["-r", "-s"]) :
      Asks "get" (before ++ key :: after)
        (.get key ("-r" ∈ before ++ after) (some ("-s" ∈ before ++ after)))
  | rm {key : String} {before after : List String}
      (hkey : key.toList.head? ≠ some '-' ∨ key = "-")
      (hflags : ∀ f ∈ before ++ after, f ∈ ["-r", "-d"]) :
      Asks "rm" (before ++ key :: after)
        (.delete key ("-r" ∈ before ++ after) ("-d" ∈ before ++ after))

/-! ### Flags -/

theorem isFlag_eq_false_iff {arg : String} :
    isFlag arg = false ↔ arg.toList.head? ≠ some '-' ∨ arg = "-" := by
  have hdash : arg = "-" ↔ arg.toList = ['-'] := by
    rw [← String.toList_inj]
    rfl
  rw [hdash, isFlag]
  cases arg.toList with
  | nil => simp
  | cons c cs =>
    by_cases hc : c = '-'
    · subst hc
      cases cs <;> simp
    · simp [hc]

/-- The first flag that is not allowed, or else the arguments apart from the flags. -/
theorem splitFlags_eq (allowed args : List String) :
    splitFlags allowed args =
      match args.find? fun a => isFlag a && !decide (a ∈ allowed) with
      | some f => .error (.unknownFlag f)
      | none => .ok (args.filter (!isFlag ·), args.filter isFlag) := by
  induction args with
  | nil => rfl
  | cons arg args ih =>
    rw [splitFlags, ih]
    cases hflag : isFlag arg with
    | false => cases hfind : args.find? fun a => isFlag a && !decide (a ∈ allowed) <;>
        simp [hflag, hfind, Except.map]
    | true =>
      by_cases hmem : arg ∈ allowed
      · cases hfind : args.find? fun a => isFlag a && !decide (a ∈ allowed) <;>
          simp [hflag, hmem, hfind, Except.map]
      · simp [hflag, hmem]

/-- One argument is no flag, and all others are flags that are allowed. -/
theorem splitFlags_oneKey_iff {allowed args flags : List String} {key : String}
    (hallowed : ∀ f ∈ allowed, isFlag f = true) :
    splitFlags allowed args = .ok ([key], flags) ↔
      ∃ before after, args = before ++ key :: after ∧ flags = before ++ after ∧
        isFlag key = false ∧ ∀ f ∈ before ++ after, f ∈ allowed := by
  rw [splitFlags_eq]
  constructor
  · intro h
    cases hfind : args.find? fun a => isFlag a && !decide (a ∈ allowed) with
    | some f =>
      rw [hfind] at h
      cases h
    | none =>
      rw [hfind] at h
      obtain ⟨hplain, rfl⟩ := Prod.mk.inj (Except.ok.inj h)
      obtain ⟨before, after, rfl, hbefore, hkey, hafter⟩ := List.filter_eq_cons_iff.mp hplain
      have hkey : isFlag key = false := by simpa using hkey
      have hflags : ∀ f ∈ before ++ after, isFlag f = true := by
        intro f hf
        rcases List.mem_append.mp hf with hf | hf
        · simpa using hbefore f hf
        · simpa using List.filter_eq_nil_iff.mp hafter f hf
      refine ⟨before, after, rfl, ?_, hkey, fun f hf => ?_⟩
      · rw [List.filter_append, List.filter_cons_of_neg (by simp [hkey]), ← List.filter_append]
        exact List.filter_eq_self.mpr hflags
      · have hin : f ∈ before ++ key :: after := by
          rcases List.mem_append.mp hf with hf | hf
          · exact List.mem_append_left _ hf
          · exact List.mem_append_right _ (List.mem_cons_of_mem key hf)
        simpa [hflags f hf] using List.find?_eq_none.mp hfind f hin
  · rintro ⟨before, after, rfl, rfl, hkey, hflags⟩
    have hflag : ∀ f ∈ before ++ after, isFlag f = true := fun f hf => hallowed f (hflags f hf)
    have hbefore : ∀ f ∈ before, isFlag f = true := fun f hf => hflag f (List.mem_append_left _ hf)
    have hafter : ∀ f ∈ after, isFlag f = true := fun f hf => hflag f (List.mem_append_right _ hf)
    have hfind : (before ++ key :: after).find? (fun a => isFlag a && !decide (a ∈ allowed)) =
        none := by
      refine List.find?_eq_none.mpr fun f hf => ?_
      by_cases hfk : f = key
      · simp [hfk, hkey]
      · have hin : f ∈ before ++ after := by
          rcases List.mem_append.mp hf with hf | hf
          · exact List.mem_append_left _ hf
          · exact List.mem_append_right _ (List.mem_of_ne_of_mem hfk hf)
        simp [hflags f hin]
    have hplain : (before ++ key :: after).filter (!isFlag ·) = [key] := by
      rw [List.filter_append, List.filter_cons_of_pos (by simp [hkey]),
        List.filter_eq_nil_iff.mpr (by simpa using hbefore),
        List.filter_eq_nil_iff.mpr (by simpa using hafter), List.nil_append]
    have hflags' : (before ++ key :: after).filter isFlag = before ++ after := by
      rw [List.filter_append, List.filter_cons_of_neg (by simp [hkey]),
        List.filter_eq_self.mpr hbefore, List.filter_eq_self.mpr hafter]
    rw [hfind, hplain, hflags']

/-! ### Parsing -/

theorem parse_of_asks {name : String} {args : List String} {r : Request} (h : Asks name args r) :
    Command.parse name args = .ok (.request r) := by
  cases h with
  | @get key before after hkey hflags =>
    have hsplit : splitFlags ["-r", "-s"] (before ++ key :: after) = .ok ([key], before ++ after) :=
      (splitFlags_oneKey_iff (by decide)).mpr
        ⟨before, after, rfl, rfl, isFlag_eq_false_iff.mpr hkey, hflags⟩
    unfold Command.parse
    rw [hsplit]
    rfl
  | @rm key before after hkey hflags =>
    have hsplit : splitFlags ["-r", "-d"] (before ++ key :: after) = .ok ([key], before ++ after) :=
      (splitFlags_oneKey_iff (by decide)).mpr
        ⟨before, after, rfl, rfl, isFlag_eq_false_iff.mpr hkey, hflags⟩
    unfold Command.parse
    rw [hsplit]
    rfl
  | _ => rfl

theorem oneKey_ok_iff {command key : String} {args : List String} :
    oneKey command args = .ok key ↔ args = [key] := by
  constructor
  · intro h
    match args, h with
    | [key'], h => rw [Except.ok.inj h]
  · rintro rfl
    rfl

theorem keyAndValue_ok_iff {command key value : String} {args : List String} :
    keyAndValue command args = .ok (key, value) ↔ args = [key, value] := by
  constructor
  · intro h
    match args, h with
    | [key', value'], h =>
      obtain ⟨rfl, rfl⟩ := Prod.mk.inj (Except.ok.inj h)
      rfl
  · rintro rfl
    rfl

theorem ok_of_bind {ε α β : Type} {x : Except ε α} {f : α → Except ε β} {b : β}
    (h : x >>= f = .ok b) : ∃ a, x = .ok a ∧ f a = .ok b := by
  cases x with
  | error e => cases h
  | ok a => exact ⟨a, rfl, h⟩

/-- A command with a key among flags. -/
theorem flagged_ok {name : String} {allowed args : List String}
    {f : String → List String → Command} {c : Command} (hallowed : ∀ g ∈ allowed, isFlag g = true)
    (h : (do
      let split ← splitFlags allowed args
      let key ← oneKey name split.1
      return f key split.2) = Except.ok c) :
    ∃ before key after, args = before ++ key :: after ∧ isFlag key = false ∧
      (∀ g ∈ before ++ after, g ∈ allowed) ∧ c = f key (before ++ after) := by
  obtain ⟨⟨plain, flags⟩, hsplit, h⟩ := ok_of_bind h
  obtain ⟨key, hkey, h⟩ := ok_of_bind h
  obtain rfl := oneKey_ok_iff.mp hkey
  obtain ⟨before, after, hargs, rfl, hplain, hflags⟩ := (splitFlags_oneKey_iff hallowed).mp hsplit
  exact ⟨before, key, after, hargs, hplain, hflags, (Except.ok.inj h).symm⟩

/-- What is parsed asks for a request, or for the counters. -/
theorem asks_of_parse {name : String} {args : List String} {c : Command}
    (h : Command.parse name args = .ok c) :
    (∃ r, c = .request r ∧ Asks name args r) ∨ name = "stats" ∧ args = [] := by
  -- the root stands for the argument that is not there
  have hroot {key : String} {c : String} (h : oneKey c (orRoot args) = .ok key) :
      args = [] ∧ key = "/" ∨ args = [key] := by
    cases args with
    | nil =>
      cases h
      exact Or.inl ⟨rfl, rfl⟩
    | cons arg args => exact Or.inr (oneKey_ok_iff.mp h)
  unfold Command.parse at h
  split at h
  · -- get
    obtain ⟨before, key, after, rfl, hkey, hflags, rfl⟩ :=
      @flagged_ok "get" ["-r", "-s"] args
        (fun key flags => .request (.get key ("-r" ∈ flags) (some ("-s" ∈ flags)))) c (by decide) h
    exact Or.inl ⟨_, rfl, .get (isFlag_eq_false_iff.mp hkey) hflags⟩
  · -- ls
    obtain ⟨key, hkey, h⟩ := ok_of_bind h
    cases h
    rcases hroot hkey with ⟨rfl, rfl⟩ | rfl
    · exact Or.inl ⟨_, rfl, .lsRoot⟩
    · exact Or.inl ⟨_, rfl, .ls key⟩
  · -- tree
    obtain ⟨key, hkey, h⟩ := ok_of_bind h
    cases h
    rcases hroot hkey with ⟨rfl, rfl⟩ | rfl
    · exact Or.inl ⟨_, rfl, .treeRoot⟩
    · exact Or.inl ⟨_, rfl, .tree key⟩
  · -- set
    obtain ⟨⟨key, value⟩, hargs, h⟩ := ok_of_bind h
    cases h
    obtain rfl := keyAndValue_ok_iff.mp hargs
    exact Or.inl ⟨_, rfl, .set key value⟩
  · -- mkdir
    obtain ⟨key, hkey, h⟩ := ok_of_bind h
    cases h
    obtain rfl := oneKey_ok_iff.mp hkey
    exact Or.inl ⟨_, rfl, .mkdir key⟩
  · -- create
    obtain ⟨⟨key, value⟩, hargs, h⟩ := ok_of_bind h
    cases h
    obtain rfl := keyAndValue_ok_iff.mp hargs
    exact Or.inl ⟨_, rfl, .create key value⟩
  · -- update
    obtain ⟨⟨key, value⟩, hargs, h⟩ := ok_of_bind h
    cases h
    obtain rfl := keyAndValue_ok_iff.mp hargs
    exact Or.inl ⟨_, rfl, .update key value⟩
  · -- rm
    obtain ⟨before, key, after, rfl, hkey, hflags, rfl⟩ :=
      @flagged_ok "rm" ["-r", "-d"] args
        (fun key flags => .request (.delete key ("-r" ∈ flags) ("-d" ∈ flags))) c (by decide) h
    exact Or.inl ⟨_, rfl, .rm (isFlag_eq_false_iff.mp hkey) hflags⟩
  · -- stats
    split_ifs at h with hargs
    exact Or.inr ⟨rfl, List.isEmpty_iff.mp hargs⟩
  · cases h

/-! ### Execution -/

/-- What a line shows that comes to the outcome of one request. -/
def shown (name : String) : Except Fault Result → Except LineFault (Option (String × Output))
  | .ok result => .ok (some (name, .result result))
  | .error f => .error (.fault f)

/-- A line that asks for a request does what the request does. -/
theorem execute_of_request {messages : Messages} {line name : String} {r : Request}
    (hline : parseLine line = .ok (some (name, .request r))) (s : Store) :
    execute messages line s = (shown name (Store.run (Store.perform messages r) s).1,
      (Store.run (Store.perform messages r) s).2) := by
  have hrun : (Command.request r).run messages s =
      EStateM.bind (Store.perform messages r) (fun result => pure (.result result)) s := rfl
  rw [execute, hline]
  simp only [hrun, EStateM.bind, Store.run]
  cases Store.perform messages r s <;> rfl

theorem parseLine_of_words {line name : String} {args : List String}
    (h : words line = .ok (name :: args)) :
    parseLine line = (Command.parse name args).map fun c => some (name, c) := by
  rw [parseLine, h]

theorem execute_of_parse {messages : Messages} {line name : String} {args : List String}
    {r : Request} (hwords : words line = .ok (name :: args))
    (hparse : Command.parse name args = .ok (.request r)) (s : Store) :
    execute messages line s = (shown name (Store.run (Store.perform messages r) s).1,
      (Store.run (Store.perform messages r) s).2) :=
  execute_of_request (by rw [parseLine_of_words hwords, hparse]; rfl) s

theorem execute_of_flaw {messages : Messages} {line name : String} {args : List String}
    {flaw : Flaw} (hwords : words line = .ok (name :: args))
    (hparse : Command.parse name args = .error flaw) (s : Store) :
    execute messages line s = (.error (.flaw flaw), s) := by
  have hline : parseLine line = .error flaw := by
    rw [parseLine_of_words hwords, hparse]
    rfl
  rw [execute, hline]

/-- A line that spells a command and its arguments does to the store what the request does that
they ask for, and comes to the same outcome; if they ask for none, the line is refused and the store
stays as it is, unless it asks for the counters. -/
theorem execute_of_writes (messages : Messages) (s : Store) {name : String} {args : List String}
    {line : String} (hline : Writes (name :: args) line.toList) :
    (∀ r, Asks name args r →
      execute messages line s = (shown name (Store.run (Store.perform messages r) s).1,
        (Store.run (Store.perform messages r) s).2)) ∧
    ((∀ r, ¬Asks name args r) → name :: args ≠ ["stats"] →
      ∃ flaw, execute messages line s = (.error (.flaw flaw), s)) := by
  have hwords := words_of_writes hline
  refine ⟨fun r hasks => execute_of_parse hwords (parse_of_asks hasks) s, fun hnone hstats => ?_⟩
  cases hparse : Command.parse name args with
  | error flaw => exact ⟨flaw, execute_of_flaw hwords hparse s⟩
  | ok c =>
    rcases asks_of_parse hparse with ⟨r, -, hasks⟩ | ⟨rfl, rfl⟩
    · exact absurd hasks (hnone r)
    · exact absurd rfl hstats

/-- A key with blanks, a quote and the sign of a comment, between flags of which one stands
twice. -/
theorem execute_of_writes_quoted :
    Writes ["rm", "-r", "a'b #c", "-d", "-r"] "rm -r\t'a'\"'\"'b #c' -d -r # gone".toList ∧
    execute Messages.empty "rm -r\t'a'\"'\"'b #c' -d -r # gone"
      (Store.run (Store.perform Messages.empty (.create "a'b #c/d" true none)) {}).2 =
      (shown "rm" (Store.run (Store.perform Messages.empty (.delete "a'b #c" true true))
        (Store.run (Store.perform Messages.empty (.create "a'b #c/d" true none)) {}).2).1,
      (Store.run (Store.perform Messages.empty (.delete "a'b #c" true true))
        (Store.run (Store.perform Messages.empty (.create "a'b #c/d" true none)) {}).2).2) := by
  have hblank : ∀ c ∈ [' '], isSeparator c = true := List.all_eq_true.mp (by decide)
  have htab : ∀ c ∈ ['\t'], isSeparator c = true := List.all_eq_true.mp (by decide)
  have hbare {w : String} (hne : w ≠ "") (h : w.toList.all isPlain = true) : Spells w w.toList :=
    .bare hne (List.all_eq_true.mp h)
  have hflag : Spells "-r" "-r".toList := hbare (by decide) (by decide)
  have hcomment : Writes [] " # gone".toList :=
    @Writes.comment [' '] " gone".toList hblank (by decide)
  have hends (cs : List Char) : Ends (' ' :: cs) := ends_cons (Or.inl rfl) cs
  have hafter : Writes ["-d", "-r"] " -d -r # gone".toList :=
    @Writes.word "-d" _ [' '] _ " -r # gone".toList hblank (hbare (by decide) (by decide))
      (hends _) (@Writes.word "-r" _ [' '] _ " # gone".toList hblank hflag (hends _) hcomment)
  have hkey : Writes ["a'b #c", "-d", "-r"] "\t'a'\"'\"'b #c' -d -r # gone".toList :=
    @Writes.word "a'b #c" _ ['\t'] _ " -d -r # gone".toList htab .quoted (hends _) hafter
  have hline : Writes ["rm", "-r", "a'b #c", "-d", "-r"]
      "rm -r\t'a'\"'\"'b #c' -d -r # gone".toList :=
    @Writes.word "rm" _ [] _ " -r\t'a'\"'\"'b #c' -d -r # gone".toList nofun
      (hbare (by decide) (by decide)) (hends _)
      (@Writes.word "-r" _ [' '] _ "\t'a'\"'\"'b #c' -d -r # gone".toList hblank hflag
        (ends_cons (Or.inl rfl) _) hkey)
  have hasks : Asks "rm" (["-r"] ++ "a'b #c" :: ["-d", "-r"]) (.delete "a'b #c" true true) :=
    .rm (Or.inl (by decide)) (by decide)
  exact ⟨hline, (execute_of_writes Messages.empty _ hline).1 _ hasks⟩

end TreeStore.Shell
