import RemoteDebugger.Proofs.Prompt.Execution
import RemoteDebugger.Proofs.Text.Trimming

/-!
# Spellings of commands

A line is read by its words alone.  The command to examine memory can be spelled with its length as
the last word, with its length in the first word, or without one; all of these are read as one
command.
-/

namespace RemoteDebugger.Prompt

open RemoteDebugger.Text

/-- The words of a line. -/
def lineWords (line : String) : List String :=
  (words line.toList).map String.ofList

theorem readLine_eq (line : String) :
    Debugger.readLine line = Command.ofWords (lineWords line) := by
  rw [Debugger.readLine, Command.parse, String.toList_ofList, words_trim]
  rfl

/-- The words that ask for so many bytes of memory at an address. -/
def examineSpellings (address length : String) : List (List String) :=
  [["x/" ++ length, address], ["x", address, length], ["examine", address, length]]

theorem slash_ne {word : String} (length : String) (h : word.toList.take 2 ≠ ['x', '/']) :
    "x/" ++ length ≠ word := by
  rintro rfl
  simp at h

theorem expand_slash (length : String) : expand ("x/" ++ length) = "x/" ++ length := by
  unfold expand
  split
  all_goals first
    | rfl
    | next hword => exact absurd hword (slash_ne length (by decide))

theorem readCommand_slash (address length : String) :
    readCommand ("x/" ++ length) [address] = readExamine address length := by
  unfold readCommand
  split
  case h_15 harguments _ _ _ _ =>
    obtain rfl := List.singleton_inj.mp harguments
    simp
  case h_16 hone _ _ _ _ _ _ _ _ _ _ _ _ _ => exact (hone address rfl).elim
  all_goals first
    | next hword => exact absurd hword (slash_ne length (by decide))
    | next hword _ => exact absurd hword (slash_ne length (by decide))

/-- All spellings are read as one command. -/
theorem ofWords_of_mem_examineSpellings {address length : String} {spelling : List String}
    (h : spelling ∈ examineSpellings address length) :
    Command.ofWords spelling = some <$> readExamine address length := by
  simp only [examineSpellings, List.mem_cons, List.not_mem_nil, or_false] at h
  rcases h with rfl | rfl | rfl
  · rw [Command.ofWords, expand_slash, readCommand_slash]
  · rfl
  · rfl

/-! ## All spellings of one command -/

/-- The words of a line ask for so many bytes of memory at an address.  Where no length is given, it
is one. -/
def Examines (address length : UInt16) (spelling : List String) : Prop :=
  ∃ start, readAddress start = .ok address ∧
    (spelling ∈ [["x", start], ["examine", start]] ∧ length = 1 ∨
      ∃ count, readLength count = .ok length ∧ spelling ∈ examineSpellings start count)

theorem readExamine_eq_ok_iff {start count : String} {command : Command} :
    readExamine start count = .ok command ↔
      ∃ address length, readAddress start = .ok address ∧ readLength count = .ok length ∧
        command = .examine address length := by
  unfold readExamine
  cases haddress : readAddress start with
  | error fault => simp [bind, Except.bind]
  | ok address =>
      cases hlength : readLength count with
      | error fault => simp [bind, Except.bind]
      | ok length => simp [bind, Except.bind, pure, Except.pure, eq_comm]

theorem exists_readCommand_of_ofWords {spelling : List String} {command : Command}
    (h : Command.ofWords spelling = .ok (some command)) :
    ∃ word arguments, spelling = word :: arguments ∧
      readCommand (expand word) arguments = .ok command := by
  cases spelling with
  | nil => cases h
  | cons word arguments =>
      refine ⟨word, arguments, rfl, ?_⟩
      cases hread : readCommand (expand word) arguments with
      | error reason => simp [Command.ofWords, hread] at h
      | ok read => simpa [Command.ofWords, hread] using h

end RemoteDebugger.Prompt
