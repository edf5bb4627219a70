import RemoteDebugger.Proofs.Prompt.Numbers
import RemoteDebugger.Proofs.Prompt.Spelling

/-!
# The grammar of commands

The words that spell a command, without a reader.  A command word and the word behind `info` stand
for themselves or are abbreviated; `Reads` says which arguments a full command word takes, and what
they spell.  `ofWords_eq_ok_iff` shows that exactly the words that spell a command are read as it, and
`Command.line` is a line for each command.
-/

namespace RemoteDebugger.Prompt

open RemoteDebugger.Numeral RemoteDebugger.Text

/-! ## Words -/

/-- The abbreviations of command words. -/
def abbreviations : List (String × String) :=
  [("b", "break"), ("h", "halt"), ("s", "step"), ("c", "continue"), ("cont", "continue"),
    ("r", "reset"), ("i", "info"), ("x", "examine"), ("l", "list"), ("q", "quit")]

/-- The abbreviations of the words behind `info`. -/
def infoAbbreviations : List (String × String) :=
  [("r", "registers"), ("reg", "registers"), ("p", "peripherals"), ("peri", "peripherals"),
    ("sym", "symbol")]

/-- A word is a full word or one of its abbreviations. -/
def StandsFor (table : List (String × String)) (word full : String) : Prop :=
  word = full ∨ (word, full) ∈ table

/-- The commands that are a full word alone. -/
def bareCommands : List (String × Command) :=
  [("help", .help), ("halt", .halt), ("step", .step), ("continue", .resume), ("reset", .reset),
    ("quit", .quit), ("list", .list none)]

/-- The commands that are `info` and one full word. -/
def infoCommands : List (String × Command) :=
  [("registers", .registers), ("peripherals", .peripherals)]

/-! ## Spellings -/

/-- The command that a full command word and its arguments spell. -/
inductive Reads : String → List String → Command → Prop
  | bare {full : String} {command : Command} (hfull : (full, command) ∈ bareCommands) :
      Reads full [] command
  | breakpoint {arguments : List String} : Reads "break" arguments .breakpoint
  | list {target : String} : Reads "list" [target] (.list (some target))
  | info {what full : String} {command : Command} (hwhat : StandsFor infoAbbreviations what full)
      (hfull : (full, command) ∈ infoCommands) : Reads "info" [what] command
  | symbol {what name : String} (hwhat : StandsFor infoAbbreviations what "symbol") :
      Reads "info" [what, name] (.symbol name)
  | set {place content : String} {address : UInt16} {value : UInt8}
      (haddress : IsNumber place.toList address.toNat)
      (hvalue : IsNumber content.toList value.toNat) :
      Reads "set" [place, content] (.set address value)
  | examine {start : String} {address : UInt16} (haddress : IsAddress start.toList address.toNat) :
      Reads "examine" [start] (.examine address 1)
  | examineMany {start count : String} {address length : UInt16}
      (haddress : IsAddress start.toList address.toNat)
      (hlength : IsNumeral 10 count.toList length.toNat) :
      Reads "examine" [start, count] (.examine address length)
  | slash {start count : String} {address length : UInt16}
      (haddress : IsAddress start.toList address.toNat)
      (hlength : IsNumeral 10 count.toList length.toNat) :
      Reads ("x/" ++ count) [start] (.examine address length)

/-- The words of a line spell a command. -/
def Spells (spelling : List String) (command : Command) : Prop :=
  ∃ word full arguments, spelling = word :: arguments ∧ StandsFor abbreviations word full ∧
    Reads full arguments command

/-! ## Abbreviations -/

/-- A function gives the full word for every abbreviation of a table, and leaves other words as they
are. -/
structure IsExpansion (table : List (String × String)) (f : String → String) : Prop where
  standsFor : ∀ word, StandsFor table word (f word)
  eq_of_mem : ∀ word full, (word, full) ∈ table → f word = full

theorem isExpansion_expand : IsExpansion abbreviations expand where
  standsFor word := by
    unfold expand
    split
    all_goals simp [StandsFor, abbreviations]
  eq_of_mem word full h := by
    have all : ∀ entry ∈ abbreviations, expand entry.1 = entry.2 := by decide
    exact all _ h

theorem isExpansion_expandInfo : IsExpansion infoAbbreviations expandInfo where
  standsFor word := by
    unfold expandInfo
    split
    all_goals simp [StandsFor, infoAbbreviations]
  eq_of_mem word full h := by
    have all : ∀ entry ∈ infoAbbreviations, expandInfo entry.1 = entry.2 := by decide
    exact all _ h

/-- The words for which a full word stands are those that it is given for. -/
theorem IsExpansion.eq_iff {table : List (String × String)} {f : String → String}
    (h : IsExpansion table f) {word full : String} (hfull : full ∉ table.map Prod.fst) :
    f word = full ↔ StandsFor table word full := by
  constructor
  · intro hword
    rw [← hword]
    exact h.standsFor word
  · intro hword
    rcases hword with hself | htable
    · rw [hself]
      rcases h.standsFor full with hfixed | habbreviated
      · exact hfixed.symm
      · exact absurd (List.mem_map_of_mem habbreviated) hfull
    · exact h.eq_of_mem word full htable

/-! ## Reading -/

theorem readCommand_of_reads {full : String} {arguments : List String} {command : Command}
    (h : Reads full arguments command) : readCommand full arguments = .ok command := by
  cases h with
  | bare hfull =>
      have all : ∀ entry ∈ bareCommands, readCommand entry.1 [] = .ok entry.2 := by decide
      exact all _ hfull
  | breakpoint => rfl
  | list => rfl
  | @info what full command hwhat hfull =>
      have all : ∀ entry ∈ infoCommands, entry.1 ∉ infoAbbreviations.map Prod.fst := by decide
      have hexpanded := (isExpansion_expandInfo.eq_iff (all _ hfull)).mpr hwhat
      simp only [infoCommands, List.mem_cons, List.not_mem_nil, or_false, Prod.mk.injEq] at hfull
      rcases hfull with ⟨rfl, rfl⟩ | ⟨rfl, rfl⟩
      · simp [readCommand, hexpanded]
      · simp [readCommand, hexpanded]
  | symbol hwhat =>
      have hexpanded := (isExpansion_expandInfo.eq_iff (by decide)).mpr hwhat
      simp [readCommand, hexpanded]
  | set haddress hvalue =>
      apply readCommand_set_eq_ok_iff.mpr
      refine ⟨_, _, ⟨haddress, UInt16.toNat_lt _⟩, ⟨hvalue, UInt8.toNat_lt _⟩, ?_⟩
      rw [UInt16.ofNat_toNat, UInt8.ofNat_toNat]
  | examine haddress =>
      have hread := readAddress_eq_ok_iff.mpr haddress
      simp [readCommand, hread, bind, Except.bind, pure, Except.pure]
  | examineMany haddress hlength =>
      apply readExamine_eq_ok_iff.mpr
      exact ⟨_, _, readAddress_eq_ok_iff.mpr haddress, readLength_eq_ok_iff.mpr hlength, rfl⟩
  | slash haddress hlength =>
      rw [readCommand_slash]
      apply readExamine_eq_ok_iff.mpr
      exact ⟨_, _, readAddress_eq_ok_iff.mpr haddress, readLength_eq_ok_iff.mpr hlength, rfl⟩

/-- Behind `info` there is one word for registers or peripherals, and there are two for a symbol. -/
theorem reads_of_readCommand_info {what : String} {arguments : List String} {command : Command}
    (h : readCommand "info" (what :: arguments) = .ok command) :
    Reads "info" (what :: arguments) command := by
  have hwhat := isExpansion_expandInfo.standsFor what
  simp only [readCommand] at h
  split at h
  · next hexpanded =>
      rw [hexpanded] at hwhat
      obtain rfl := Except.ok.inj h
      exact .info hwhat (by simp [infoCommands])
  · next hexpanded =>
      rw [hexpanded] at hwhat
      obtain rfl := Except.ok.inj h
      exact .info hwhat (by simp [infoCommands])
  · next hexpanded =>
      rw [hexpanded] at hwhat
      obtain rfl := Except.ok.inj h
      exact .symbol hwhat
  · simp at h

theorem reads_of_readExamine {full start count : String} {arguments : List String}
    {command : Command} (h : readExamine start count = .ok command)
    (hreads : ∀ address length, IsAddress start.toList (UInt16.toNat address) →
      IsNumeral 10 count.toList (UInt16.toNat length) →
        Reads full arguments (.examine address length)) : Reads full arguments command := by
  obtain ⟨address, length, haddress, hlength, rfl⟩ := readExamine_eq_ok_iff.mp h
  apply hreads
  · exact readAddress_eq_ok_iff.mp haddress
  · exact readLength_eq_ok_iff.mp hlength

theorem reads_of_readCommand {full : String} {arguments : List String} {command : Command}
    (h : readCommand full arguments = .ok command) : Reads full arguments command := by
  have hcommand := h
  unfold readCommand at h
  split at h
  case h_2 =>
    obtain rfl := Except.ok.inj h
    exact .breakpoint
  case h_8 place content =>
    obtain ⟨address, value, ⟨haddress, hword⟩, ⟨hvalue, hbyte⟩, rfl⟩ :=
      readCommand_set_eq_ok_iff.mp hcommand
    rw [← UInt16.toNat_ofNat_of_lt' hword] at haddress
    rw [← UInt8.toNat_ofNat_of_lt' hbyte] at hvalue
    exact .set haddress hvalue
  case h_10 what arguments => exact reads_of_readCommand_info hcommand
  case h_11 start =>
    obtain ⟨address, haddress, hexamine⟩ := bind_eq_ok_iff.mp h
    obtain rfl := Except.ok.inj hexamine
    exact .examine (readAddress_eq_ok_iff.mp haddress)
  case h_12 start count =>
    apply reads_of_readExamine h
    intro address length haddress hlength
    exact .examineMany haddress hlength
  case h_14 target =>
    obtain rfl := Except.ok.inj h
    exact .list
  case h_15 start _ _ _ _ =>
    split at h
    · next count hword =>
        have hfull : full = "x/" ++ String.ofList count := by
          apply String.ext
          rw [hword]
          simp
        rw [hfull]
        apply reads_of_readExamine h
        intro address length haddress hlength
        exact .slash haddress hlength
    · simp at h
  case h_9 => simp at h
  case h_16 => simp at h
  all_goals
    obtain rfl := Except.ok.inj h
    exact .bare (by simp [bareCommands])

theorem Reads.not_mem_abbreviations {full : String} {arguments : List String} {command : Command}
    (h : Reads full arguments command) : full ∉ abbreviations.map Prod.fst := by
  cases h with
  | bare hfull =>
      have all : ∀ entry ∈ bareCommands, entry.1 ∉ abbreviations.map Prod.fst := by decide
      exact all _ hfull
  | @slash start count =>
      have all : ∀ entry ∈ abbreviations, entry.1.toList.take 2 ≠ ['x', '/'] := by decide
      intro hmem
      obtain ⟨entry, hentry, hword⟩ := List.mem_map.mp hmem
      exact slash_ne count (all entry hentry) hword.symm
  | _ => decide

/-- Exactly the words that spell a command are read as it. -/
theorem ofWords_eq_ok_iff {spelling : List String} {command : Command} :
    Command.ofWords spelling = .ok (some command) ↔ Spells spelling command := by
  constructor
  · intro h
    obtain ⟨word, arguments, hspelling, hread⟩ := exists_readCommand_of_ofWords h
    exact ⟨word, expand word, arguments, hspelling, isExpansion_expand.standsFor word,
      reads_of_readCommand hread⟩
  · intro h
    obtain ⟨word, full, arguments, hspelling, hword, hreads⟩ := h
    have hexpanded := (isExpansion_expand.eq_iff hreads.not_mem_abbreviations).mpr hword
    rw [hspelling, Command.ofWords, hexpanded, readCommand_of_reads hreads]
    rfl

theorem ofWords_eq_none_iff {spelling : List String} :
    Command.ofWords spelling = .ok none ↔ spelling = [] := by
  rcases spelling with _ | ⟨word, arguments⟩
  · simp [Command.ofWords]
  · simp [Command.ofWords, map_eq_ok_iff]

/-- The spellings of the command to examine memory are those that ask for memory. -/
theorem examines_iff_spells {spelling : List String} {address length : UInt16} :
    Examines address length spelling ↔ Spells spelling (.examine address length) := by
  simp only [Examines, readAddress_eq_ok_iff, readLength_eq_ok_iff]
  constructor
  · intro h
    obtain ⟨start, haddress, ⟨hspelling, hone⟩ | ⟨count, hlength, hspelling⟩⟩ := h
    · rw [hone]
      simp only [List.mem_cons, List.not_mem_nil, or_false] at hspelling
      rcases hspelling with hshort | hlong
      · exact ⟨"x", "examine", _, hshort, .inr (by decide), .examine haddress⟩
      · exact ⟨"examine", "examine", _, hlong, .inl rfl, .examine haddress⟩
    · simp only [examineSpellings, List.mem_cons, List.not_mem_nil, or_false] at hspelling
      rcases hspelling with hslash | hshort | hlong
      · exact ⟨_, _, _, hslash, .inl rfl, .slash haddress hlength⟩
      · exact ⟨"x", "examine", _, hshort, .inr (by decide), .examineMany haddress hlength⟩
      · exact ⟨"examine", "examine", _, hlong, .inl rfl, .examineMany haddress hlength⟩
  · intro h
    obtain ⟨word, full, arguments, hspelling, hword, hreads⟩ := h
    rw [hspelling]
    cases hreads with
    | bare hfull => simp [bareCommands] at hfull
    | info hwhat hfull => simp [infoCommands] at hfull
    | @examine start address haddress =>
        have hshort : word = "examine" ∨ word = "x" := by
          simpa [StandsFor, abbreviations] using hword
        refine ⟨start, haddress, .inl ⟨?_, rfl⟩⟩
        rcases hshort with rfl | rfl <;> simp
    | @examineMany start count address length haddress hlength =>
        have hshort : word = "examine" ∨ word = "x" := by
          simpa [StandsFor, abbreviations] using hword
        refine ⟨start, haddress, .inr ⟨count, hlength, ?_⟩⟩
        rcases hshort with rfl | rfl <;> simp [examineSpellings]
    | @slash start count address length haddress hlength =>
        -- no full word in the table begins like this one, so that it stands for itself
        have all : ∀ entry ∈ abbreviations, entry.2.toList.take 2 ≠ ['x', '/'] := by decide
        have hself : word = "x/" ++ count :=
          hword.resolve_right fun htable => slash_ne count (all _ htable) rfl
        refine ⟨start, haddress, .inr ⟨count, hlength, ?_⟩⟩
        simp [examineSpellings, hself]

/-- The words of a line are read as the command to examine memory exactly where they ask for it. -/
theorem ofWords_eq_examine_iff {spelling : List String} {address length : UInt16} :
    Command.ofWords spelling = .ok (some (.examine address length)) ↔
      Examines address length spelling :=
  ofWords_eq_ok_iff.trans examines_iff_spells.symm

/-! ## A line for each command -/

/-- The words of a command, with addresses and values in hexadecimal and lengths in decimal. -/
def Command.words : Command → List String
  | .help => ["help"]
  | .breakpoint => ["break"]
  | .halt => ["halt"]
  | .step => ["step"]
  | .resume => ["continue"]
  | .set address value =>
      ["set", String.ofList (['0', 'x'] ++ print .upper 16 address.toNat),
        String.ofList (['0', 'x'] ++ print .upper 16 value.toNat)]
  | .reset => ["reset"]
  | .registers => ["info", "registers"]
  | .peripherals => ["info", "peripherals"]
  | .symbol name => ["info", "symbol", name]
  | .examine address length =>
      ["examine", String.ofList (print .upper 16 address.toNat),
        String.ofList (print .upper 10 length.toNat)]
  | .list none => ["list"]
  | .list (some target) => ["list", target]
  | .quit => ["quit"]

/-- The words of a command with a space between them. -/
def Command.line (command : Command) : String :=
  String.intercalate " " command.words

/-- The name that a command holds, of a symbol or of a place to list. -/
def Command.name? : Command → Option String
  | .symbol name => some name
  | .list target => target
  | .help | .breakpoint | .halt | .step | .resume | .set _ _ | .reset | .registers | .peripherals
  | .examine _ _ | .quit => none

/-- A text is a word: it is not empty, and there is no blank in it. -/
def IsWord (text : List Char) : Prop :=
  text ≠ [] ∧ ∀ c ∈ text, isBlank c = false

instance (text : List Char) : Decidable (IsWord text) :=
  @instDecidableAnd _ _ _ (List.decidableBAll (fun c => isBlank c = false) text)

theorem isWord_print (letters : Hex.LetterCase) {radix : Nat} (hradix : 1 < radix)
    (hsixteen : radix ≤ 16) (number : Nat) : IsWord (print letters radix number) :=
  ⟨print_ne_nil letters number, (denotes_print letters hradix hsixteen number).not_blank⟩

theorem isWord_signed (letters : Hex.LetterCase) (number : Nat) :
    IsWord (['0', 'x'] ++ print letters 16 number) := by
  obtain ⟨-, hdigits⟩ := isWord_print letters (show 1 < 16 by decide) (Nat.le_refl 16) number
  have hsign : IsWord ['0', 'x'] := by decide
  exact ⟨by simp, List.forall_mem_append.mpr ⟨hsign.2, hdigits⟩⟩

theorem Reads.spells {full : String} {arguments : List String} {command : Command}
    (h : Reads full arguments command) : Spells (full :: arguments) command :=
  ⟨full, full, arguments, rfl, .inl rfl, h⟩

theorem spells_words (command : Command) : Spells command.words command := by
  have hbare : ∀ entry ∈ bareCommands, Spells [entry.1] entry.2 := by
    intro entry hentry
    exact (Reads.bare hentry).spells
  have hinfo : ∀ entry ∈ infoCommands, Spells ["info", entry.1] entry.2 := by
    intro entry hentry
    exact (Reads.info (.inl rfl) hentry).spells
  cases command with
  | help => exact hbare ("help", .help) (by decide)
  | breakpoint => exact Reads.breakpoint.spells
  | halt => exact hbare ("halt", .halt) (by decide)
  | step => exact hbare ("step", .step) (by decide)
  | resume => exact hbare ("continue", .resume) (by decide)
  | set address value =>
      apply Reads.spells
      apply Reads.set
      · rw [String.toList_ofList]
        exact isNumber_print (by decide) .upper _
      · rw [String.toList_ofList]
        exact isNumber_print (by decide) .upper _
  | reset => exact hbare ("reset", .reset) (by decide)
  | registers => exact hinfo ("registers", .registers) (by decide)
  | peripherals => exact hinfo ("peripherals", .peripherals) (by decide)
  | symbol name => exact (Reads.symbol (.inl rfl)).spells
  | examine address length =>
      apply Reads.spells
      apply Reads.examineMany
      · rw [String.toList_ofList]
        exact ⟨_, .inl rfl, isNumeral_print .upper (by decide) (by decide) _⟩
      · rw [String.toList_ofList]
        exact isNumeral_print .upper (by decide) (by decide) _
  | list target =>
      rcases target with _ | target
      · exact hbare ("list", .list none) (by decide)
      · exact Reads.list.spells
  | quit => exact hbare ("quit", .quit) (by decide)

theorem isWord_of_mem_words {command : Command} (h : ∀ name ∈ command.name?, IsWord name.toList) :
    ∀ word ∈ command.words, IsWord word.toList := by
  cases command with
  | set address value =>
      simp only [Command.words, List.forall_mem_cons, String.toList_ofList]
      exact ⟨by decide, isWord_signed .upper _, isWord_signed .upper _, by simp⟩
  | symbol name =>
      simp only [Command.words, List.forall_mem_cons]
      exact ⟨by decide, by decide, h name rfl, by simp⟩
  | examine address length =>
      simp only [Command.words, List.forall_mem_cons, String.toList_ofList]
      exact ⟨by decide, isWord_print .upper (by decide) (by decide) _,
        isWord_print .upper (by decide) (by decide) _, by simp⟩
  | list target =>
      rcases target with _ | target
      · decide
      · simp only [Command.words, List.forall_mem_cons]
        exact ⟨by decide, h target rfl, by simp⟩
  | _ => decide

theorem lineWords_line {command : Command} (h : ∀ name ∈ command.name?, IsWord name.toList) :
    lineWords command.line = command.words := by
  have hspace : " ".toList = [' '] := rfl
  have hwords : ∀ word ∈ command.words.map String.toList, IsWord word := by
    intro word hword
    obtain ⟨spelled, hmem, hsame⟩ := List.mem_map.mp hword
    rw [← hsame]
    exact isWord_of_mem_words h spelled hmem
  rw [lineWords, Command.line, String.toList_intercalate, hspace, words_intercalate rfl hwords,
    List.map_map]
  simp

/-! ## All lines -/

/-- A line is no command exactly if it has no words, and a command exactly if its words spell it; any
other line is an error.  Every command is read from its line, if the name that it holds is a word. -/
theorem parse_accepts_exactly :
    (∀ line, Command.parse line = .ok none ↔ lineWords line = []) ∧
    (∀ line command, Command.parse line = .ok (some command) ↔ Spells (lineWords line) command) ∧
    (∀ line, (∃ error, Command.parse line = .error error) ↔
      lineWords line ≠ [] ∧ ∀ command, ¬ Spells (lineWords line) command) ∧
    ∀ command : Command, (∀ name ∈ command.name?, IsWord name.toList) →
      Command.parse command.line = .ok (some command) := by
  have hparse : ∀ line, Command.parse line = Command.ofWords (lineWords line) := fun _ => rfl
  refine ⟨?_, ?_, ?_, ?_⟩
  · intro line
    rw [hparse, ofWords_eq_none_iff]
  · intro line command
    rw [hparse, ofWords_eq_ok_iff]
  · intro line
    simp only [hparse, ne_eq, ← ofWords_eq_none_iff, ← ofWords_eq_ok_iff]
    rcases Command.ofWords (lineWords line) with error | (_ | command)
    · simp
    · simp
    · simp
  · intro command hname
    rw [hparse, lineWords_line hname, ofWords_eq_ok_iff]
    exact spells_words command

/-- A symbol with the name of a command word is read from its line. -/
theorem accepts_symbol_named_info :
    (∀ name ∈ (Command.symbol "info").name?, IsWord name.toList) ∧
      (Command.symbol "info").line = "info symbol info" ∧
      Command.parse "info symbol info" = .ok (some (.symbol "info")) := by
  have hname : ∀ name ∈ (Command.symbol "info").name?, IsWord name.toList := by
    intro name hname
    obtain rfl := Option.some.inj hname
    decide
  have hline : (Command.symbol "info").line = "info symbol info" := by decide
  obtain ⟨-, -, -, hparse⟩ := parse_accepts_exactly
  refine ⟨hname, hline, ?_⟩
  rw [← hline]
  exact hparse (.symbol "info") hname

end RemoteDebugger.Prompt
