import Mathlib.Data.List.Forall2
import Mathlib.Logic.Relation
import RemoteDebugger.Proofs.Prompt.Grammar
import RemoteDebugger.Prompt.Program

/-!
# Lines that are spelled in another way

A line consists of words with blanks around them, and of these words only (`consistsOf_iff`).  Two
lines are equivalent if their words differ by abbreviations and by the place of the length in the
command to examine memory.  They are read as the same command or rejected with the same error, and a
run that is given the one instead of the other does not differ.
-/

namespace RemoteDebugger.Prompt

open RemoteDebugger.Text

/-! ## Words and blanks -/

def AreBlanks (text : List Char) : Prop :=
  ∀ c ∈ text, isBlank c = true

/-- A word that comes before the text ends there. -/
def EndsWord (text : List Char) : Prop :=
  ∀ c, text.head? = some c → isBlank c = true

/-- A text consists of words with blanks before, between and behind them. -/
inductive ConsistsOf : List Char → List (List Char) → Prop
  | blanks {blanks : List Char} (hblanks : AreBlanks blanks) : ConsistsOf blanks []
  | word {before word rest : List Char} {later : List (List Char)} (hbefore : AreBlanks before)
      (hword : IsWord word) (hrest : EndsWord rest) (hlater : ConsistsOf rest later) :
      ConsistsOf (before ++ word ++ rest) (word :: later)

theorem words_of_isWord {word : List Char} (h : IsWord word) : words word = [word] := by
  rw [words_of_not_blank h.2, if_neg h.1]

theorem words_blanks_append {blanks : List Char} (h : AreBlanks blanks) (text : List Char) :
    words (blanks ++ text) = words text := by
  induction blanks with
  | nil => rfl
  | cons c blanks ih =>
      obtain ⟨hc, hblanks⟩ := List.forall_mem_cons.mp h
      rw [List.cons_append, words_blank_cons hc, ih hblanks]

theorem words_first {before word rest : List Char} (hbefore : AreBlanks before)
    (hword : IsWord word) (hrest : EndsWord rest) :
    words (before ++ word ++ rest) = word :: words rest := by
  rw [List.append_assoc, words_blanks_append hbefore]
  cases rest with
  | nil =>
      rw [List.append_nil, words_of_isWord hword]
      rfl
  | cons c rest =>
      have hc : isBlank c = true := hrest c rfl
      rw [words_append_blank hc, words_of_isWord hword, words_blank_cons hc]
      rfl

theorem ConsistsOf.words_eq {text : List Char} {parts : List (List Char)}
    (h : ConsistsOf text parts) : words text = parts := by
  induction h with
  | @blanks blanks hblanks =>
      have hwords := words_blanks_append hblanks []
      rwa [List.append_nil] at hwords
  | word hbefore hword hrest _ ih => rw [words_first hbefore hword hrest, ih]

theorem ConsistsOf.cons_blank {c : Char} {text : List Char} {parts : List (List Char)}
    (h : ConsistsOf text parts) (hc : isBlank c = true) : ConsistsOf (c :: text) parts := by
  cases h with
  | blanks hblanks => exact .blanks (List.forall_mem_cons.mpr ⟨hc, hblanks⟩)
  | word hbefore hword hrest hlater =>
      exact .word (List.forall_mem_cons.mpr ⟨hc, hbefore⟩) hword hrest hlater

theorem ConsistsOf.exists_cons {c : Char} {text : List Char} {parts : List (List Char)}
    (h : ConsistsOf text parts) (hc : isBlank c = false) :
    ∃ longer, ConsistsOf (c :: text) longer := by
  have hnone : AreBlanks [] := List.forall_mem_nil _
  have hone : IsWord [c] := ⟨List.cons_ne_nil c [], List.forall_mem_singleton.mpr hc⟩
  cases h with
  | blanks hblanks =>
      have hends : EndsWord text := fun first hfirst => hblanks first (List.mem_of_head? hfirst)
      exact ⟨_, .word hnone hone hends (.blanks hblanks)⟩
  | @word before word rest later hbefore hword hrest hlater =>
      cases before with
      | nil =>
          have hlonger : IsWord (c :: word) :=
            ⟨List.cons_ne_nil c word, List.forall_mem_cons.mpr ⟨hc, hword.2⟩⟩
          exact ⟨_, .word hnone hlonger hrest hlater⟩
      | cons blank before =>
          have hends : EndsWord (blank :: before ++ word ++ rest) := by
            intro first hfirst
            obtain rfl := Option.some.inj hfirst
            exact hbefore _ List.mem_cons_self
          exact ⟨_, .word hnone hone hends (.word hbefore hword hrest hlater)⟩

theorem exists_consistsOf (text : List Char) : ∃ parts, ConsistsOf text parts := by
  induction text with
  | nil => exact ⟨[], .blanks (List.forall_mem_nil _)⟩
  | cons c text ih =>
      obtain ⟨parts, hparts⟩ := ih
      cases hc : isBlank c with
      | true => exact ⟨parts, hparts.cons_blank hc⟩
      | false => exact hparts.exists_cons hc

/-- Every text consists of its words and of no others. -/
theorem consistsOf_iff {text : List Char} {parts : List (List Char)} :
    ConsistsOf text parts ↔ words text = parts := by
  constructor
  · exact ConsistsOf.words_eq
  · rintro rfl
    obtain ⟨parts, hparts⟩ := exists_consistsOf text
    rwa [hparts.words_eq]

/-! ## The words of a line -/

theorem parse_eq (line : String) : Command.parse line = Command.ofWords (lineWords line) := rfl

theorem lineWords_eq_iff {line : String} {spelling : List String} :
    lineWords line = spelling ↔ ConsistsOf line.toList (spelling.map String.toList) := by
  rw [consistsOf_iff, lineWords]
  constructor
  · rintro rfl
    simp
  · intro h
    simp [h]

theorem lineWords_first {before word behind : String} (hbefore : AreBlanks before.toList)
    (hword : IsWord word.toList) (hbehind : EndsWord behind.toList) :
    lineWords (before ++ word ++ behind) = word :: lineWords behind := by
  rw [lineWords, String.toList_append, String.toList_append, words_first hbefore hword hbehind]
  simp [lineWords]

theorem lineWords_of_isWord {word : String} (h : IsWord word.toList) : lineWords word = [word] := by
  simp [lineWords, words_of_isWord h]

theorem lineWords_append_space (before after : String) :
    lineWords (before ++ " " ++ after) = lineWords before ++ lineWords after := by
  have hspace : " ".toList = [' '] := rfl
  rw [lineWords, String.toList_append, String.toList_append, hspace, List.append_assoc,
    List.singleton_append, words_append_blank rfl, List.map_append]
  rfl

/-! ## Equivalent lines -/

/-- Words that are spelled in another way: with an abbreviation for the command word or for the word
behind `info`, or as another of the spellings that ask for the same memory. -/
inductive Respells : List String → List String → Prop
  | command {short full : String} (arguments : List String) (h : (short, full) ∈ abbreviations) :
      Respells (short :: arguments) (full :: arguments)
  | info {word short full : String} (arguments : List String)
      (hword : StandsFor abbreviations word "info") (h : (short, full) ∈ infoAbbreviations) :
      Respells (word :: short :: arguments) (word :: full :: arguments)
  | examine {address length : String} {spelling other : List String}
      (h : spelling ∈ examineSpellings address length)
      (hother : other ∈ examineSpellings address length) : Respells spelling other

/-- Lines that differ by blanks and by any number of other spellings. -/
def Equivalent (line other : String) : Prop :=
  Relation.EqvGen Respells (lineWords line) (lineWords other)

theorem ofWords_of_respells {spelling other : List String} (h : Respells spelling other) :
    Command.ofWords spelling = Command.ofWords other := by
  cases h with
  | @command short full arguments h =>
      have all : ∀ entry ∈ abbreviations, expand entry.1 = expand entry.2 := by decide
      have hexpanded : expand short = expand full := all _ h
      rw [Command.ofWords, Command.ofWords, hexpanded]
  | @info word short full arguments hword h =>
      have all : ∀ entry ∈ infoAbbreviations, expandInfo entry.1 = expandInfo entry.2 := by decide
      have hinfo : expand word = "info" := (isExpansion_expand.eq_iff (by decide)).mpr hword
      have hexpanded : expandInfo short = expandInfo full := all _ h
      simp only [Command.ofWords, hinfo, readCommand, hexpanded]
  | examine h hother =>
      rw [ofWords_of_mem_examineSpellings h, ofWords_of_mem_examineSpellings hother]

theorem parse_of_equivalent {line other : String} (h : Equivalent line other) :
    Command.parse line = Command.parse other := by
  have hwords : ∀ {spelling other : List String}, Relation.EqvGen Respells spelling other →
      Command.ofWords spelling = Command.ofWords other := by
    intro spelling other h
    induction h with
    | rel spelling other h => exact ofWords_of_respells h
    | refl => rfl
    | symm _ _ _ ih => exact ih.symm
    | trans _ _ _ _ _ ih ih' => exact ih.trans ih'
  rw [parse_eq, parse_eq, hwords h]

/-- Lines with the same words are equivalent. -/
theorem equivalent_of_lineWords_eq {line other : String} (h : lineWords line = lineWords other) :
    Equivalent line other := by
  rw [Equivalent, h]
  exact .refl _

theorem lineWords_trim (line : String) :
    lineWords (String.ofList (trim line.toList)) = lineWords line := by
  rw [lineWords, String.toList_ofList, words_trim, lineWords]

/-! ## Lines with abbreviations -/

theorem isWord_of_mem_abbreviations {short full : String} (h : (short, full) ∈ abbreviations) :
    IsWord short.toList ∧ IsWord full.toList := by
  have all : ∀ entry ∈ abbreviations, IsWord entry.1.toList ∧ IsWord entry.2.toList := by decide
  exact all _ h

theorem isWord_of_mem_infoAbbreviations {short full : String}
    (h : (short, full) ∈ infoAbbreviations) : IsWord short.toList ∧ IsWord full.toList := by
  have all : ∀ entry ∈ infoAbbreviations, IsWord entry.1.toList ∧ IsWord entry.2.toList := by
    decide
  exact all _ h

section Lines

variable {before behind : String}

theorem parse_abbreviated (hbefore : AreBlanks before.toList) (hbehind : EndsWord behind.toList)
    {short full : String} (h : (short, full) ∈ abbreviations) :
    Command.parse (before ++ short ++ behind) = Command.parse (before ++ full ++ behind) := by
  obtain ⟨hshort, hfull⟩ := isWord_of_mem_abbreviations h
  rw [parse_eq, parse_eq, lineWords_first hbefore hshort hbehind,
    lineWords_first hbefore hfull hbehind]
  exact ofWords_of_respells (.command _ h)

theorem parse_abbreviated_info (hbefore : AreBlanks before.toList)
    (hbehind : EndsWord behind.toList) {word between short full : String}
    (hword : StandsFor abbreviations word "info") (hne : between ≠ "")
    (hbetween : AreBlanks between.toList) (h : (short, full) ∈ infoAbbreviations) :
    Command.parse (before ++ word ++ (between ++ short ++ behind)) =
      Command.parse (before ++ word ++ (between ++ full ++ behind)) := by
  obtain ⟨hshort, hfull⟩ := isWord_of_mem_infoAbbreviations h
  have hinfo : IsWord word.toList := by
    rcases hword with rfl | hmem
    · decide
    · exact (isWord_of_mem_abbreviations hmem).1
  have hends : ∀ rest : String, EndsWord (between ++ rest ++ behind).toList := by
    intro rest c hc
    obtain ⟨blank, later, hblank⟩ :=
      List.exists_cons_of_ne_nil (mt String.toList_eq_nil_iff.mp hne)
    rw [String.toList_append, String.toList_append, hblank] at hc
    obtain rfl := Option.some.inj hc
    exact hbetween _ (hblank ▸ List.mem_cons_self)
  have hwords : ∀ rest : String, IsWord rest.toList →
      lineWords (before ++ word ++ (between ++ rest ++ behind)) =
        word :: rest :: lineWords behind := by
    intro rest hrest
    rw [lineWords_first hbefore hinfo (hends rest), lineWords_first hbetween hrest hbehind]
  rw [parse_eq, parse_eq, hwords short hshort, hwords full hfull]
  exact ofWords_of_respells (.info _ hword h)

end Lines

/-- The line with the length in its first word asks for the same memory as one with the length
behind the address. -/
theorem parse_slash {word address length : String} (hword : word ∈ ["x", "examine"])
    (haddress : IsWord address.toList) (hlength : IsWord length.toList) :
    Command.parse ("x/" ++ length ++ " " ++ address) =
      Command.parse (word ++ " " ++ address ++ " " ++ length) := by
  have all : ∀ word ∈ ["x", "examine"], IsWord word.toList := by decide
  have hslash : IsWord "x/".toList := by decide
  have hfirst : IsWord ("x/" ++ length).toList := by
    rw [String.toList_append]
    exact ⟨List.append_ne_nil_of_left_ne_nil hslash.1 _,
      List.forall_mem_append.mpr ⟨hslash.2, hlength.2⟩⟩
  rw [parse_eq, parse_eq, lineWords_append_space, lineWords_append_space, lineWords_append_space,
    lineWords_of_isWord hfirst, lineWords_of_isWord (all word hword),
    lineWords_of_isWord haddress, lineWords_of_isWord hlength]
  have hlast : [word, address, length] ∈ examineSpellings address length := by
    simpa [examineSpellings] using hword
  exact ofWords_of_respells (.examine List.mem_cons_self hlast)

/-! ## Runs on equivalent lines -/

theorem answer_of_equivalent {line other : String} (h : Equivalent line other)
    (debugger : Debugger) : debugger.answer line = debugger.answer other := by
  have hread : Debugger.readLine line = Debugger.readLine other := by
    rw [readLine_eq, readLine_eq, ← parse_eq, ← parse_eq, parse_of_equivalent h]
  rcases hother : Debugger.readLine other with reason | _ | command
  · rw [debugger.answer_of_error hother, debugger.answer_of_error (hread.trans hother)]
  · rw [debugger.answer_of_blank hother, debugger.answer_of_blank (hread.trans hother)]
  · rw [debugger.answer_of_command hother, debugger.answer_of_command (hread.trans hother)]

theorem rounds_of_equivalent {lines others : List String}
    (h : List.Forall₂ Equivalent lines others) (debugger : Debugger) :
    rounds debugger lines = rounds debugger others := by
  induction h generalizing debugger with
  | nil => rfl
  | cons hline _ ih => rw [rounds_cons, rounds_cons, answer_of_equivalent hline, ih]

theorem debug_of_equivalent {lines others : List String}
    (h : List.Forall₂ Equivalent lines others) (listing : Option Listing.Document)
    (stream : Wire.Stream) : debug listing stream lines = debug listing stream others := by
  simp only [debug, rounds_of_equivalent h]

/-! ## All spellings -/

/-- Equivalent lines behave identically.  A line with an abbreviation as its first word is read as
the line with the full word, whatever stands behind it, and so is one with an abbreviation behind
`info`; it makes no difference whether the length of memory to examine comes first or last, not even
for the error if something is wrong with it or with the address.  A line is read by its words alone,
whatever blanks are around them and whether or not it is trimmed before; and a run does not change
if its lines are replaced by equivalent ones. -/
theorem equivalent_lines_behave_identically :
    (∀ address length : String, IsWord address.toList → IsWord length.toList →
      Command.parse ("x/" ++ length ++ " " ++ address) =
          Command.parse ("x" ++ " " ++ address ++ " " ++ length) ∧
        Command.parse ("x/" ++ length ++ " " ++ address) =
          Command.parse ("examine" ++ " " ++ address ++ " " ++ length)) ∧
    (∀ before behind : String, AreBlanks before.toList → EndsWord behind.toList →
      (∀ short full, (short, full) ∈ abbreviations →
        Command.parse (before ++ short ++ behind) = Command.parse (before ++ full ++ behind)) ∧
      ∀ word between short full, StandsFor abbreviations word "info" → between ≠ "" →
        AreBlanks between.toList → (short, full) ∈ infoAbbreviations →
          Command.parse (before ++ word ++ (between ++ short ++ behind)) =
            Command.parse (before ++ word ++ (between ++ full ++ behind))) ∧
    (∀ line spelling, lineWords line = spelling ↔
      ConsistsOf line.toList (spelling.map String.toList)) ∧
    (∀ line other, lineWords line = lineWords other → Command.parse line = Command.parse other) ∧
    (∀ line, Command.parse (String.ofList (trim line.toList)) = Command.parse line) ∧
    (∀ line other, Equivalent line other → Command.parse line = Command.parse other ∧
      ∀ debugger : Debugger, debugger.answer line = debugger.answer other) ∧
    ∀ lines others, List.Forall₂ Equivalent lines others →
      ∀ listing stream, debug listing stream lines = debug listing stream others := by
  refine ⟨?_, ?_, fun _ _ => lineWords_eq_iff, ?_, ?_, ?_, fun _ _ => debug_of_equivalent⟩
  · intro address length haddress hlength
    exact ⟨parse_slash (by simp) haddress hlength, parse_slash (by simp) haddress hlength⟩
  · intro before behind hbefore hbehind
    refine ⟨fun _ _ => parse_abbreviated hbefore hbehind, ?_⟩
    intro word between short full hword hne hbetween
    exact parse_abbreviated_info hbefore hbehind hword hne hbetween
  · intro line other h
    exact parse_of_equivalent (equivalent_of_lineWords_eq h)
  · intro line
    exact parse_of_equivalent (equivalent_of_lineWords_eq (lineWords_trim line))
  · intro line other h
    exact ⟨parse_of_equivalent h, answer_of_equivalent h⟩

/-- Of a length and an address that are both wrong, every line reports the address.  The blanks of
the other lines are wider than a space. -/
theorem equivalent_lines_report_address :
    (Command.parse "x/1x gg" = Command.parse "examine gg 1x" ∧
        Command.parse "x/1x gg" = .error (.invalidAddress "gg" .invalidDigit)) ∧
      (Command.parse "\u2003i\u00A0reg" = Command.parse "\u2003info\u00A0reg" ∧
        Command.parse "\u2003i\u00A0reg" = Command.parse "\u2003i\u00A0registers" ∧
        Command.parse "\u2003i\u00A0reg" = Command.parse "i reg") ∧
      (∀ debugger : Debugger, debugger.answer "\u2003s" = debugger.answer "step") ∧
      ∀ stream, debug none stream ["\u2003s", "q"] = debug none stream ["step", "quit"] := by
  obtain ⟨hexamine, habbreviated, -, hwords, -, hlines, hruns⟩ :=
    equivalent_lines_behave_identically
  have hblank : isBlank '\u2003' = true ∧ isBlank '\u00A0' = true := by decide
  have hbefore : AreBlanks "\u2003".toList := List.forall_mem_singleton.mpr hblank.1
  have hbetween : AreBlanks "\u00A0".toList := List.forall_mem_singleton.mpr hblank.2
  have hbehind : EndsWord "\u00A0reg".toList := by
    intro c hc
    obtain rfl := Option.some.inj hc
    exact hblank.2
  have hend : EndsWord "".toList := fun _ hc => nomatch hc
  have hstep : Equivalent "\u2003s" "step" := .rel _ _ (.command [] (by decide))
  have hquit : Equivalent "q" "quit" := .rel _ _ (.command [] (by decide))
  refine ⟨⟨(hexamine "gg" "1x" (by decide) (by decide)).2, by decide⟩, ⟨?_, ?_, ?_⟩,
    (hlines _ _ hstep).2, ?_⟩
  · exact (habbreviated _ _ hbefore hbehind).1 "i" "info" (by decide)
  · exact (habbreviated _ _ hbefore hend).2 "i" "\u00A0" "reg" "registers" (.inr (by decide))
      (by decide) hbetween (by decide)
  · exact hwords _ _ (by decide)
  · exact hruns _ _ (.cons hstep (.cons hquit .nil)) none

end RemoteDebugger.Prompt
