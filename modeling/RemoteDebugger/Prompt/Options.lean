import RemoteDebugger.Number.Numeral

/-!
# Command line options

The words behind the name of the program.  A value follows its option in the next word, behind an
equals sign, or, for an option of one letter, directly.  A value in a word of its own is only
checked once the next option or the end of the line is reached, so that an unknown word is
reported first.  A word that starts with a hyphen is never a value.
-/

namespace RemoteDebugger.Prompt

/-- Why a command line is not carried out. -/
inductive UsageError where
  /-- A value is none that the option can take. -/
  | valueValidation
  /-- An option lacks its value. -/
  | invalidValue
  /-- A word is no option and no value. -/
  | unknownArgument
  /-- An option is given its value twice. -/
  | argumentConflict
  /-- An option that takes no value is given one. -/
  | tooManyValues
  /-- The summary of the options is asked for. -/
  | displayHelp
  /-- The version is asked for. -/
  | displayVersion
  deriving DecidableEq, Repr

/-- What the command line asks for. -/
structure Options where
  address : String := "::1"
  port : UInt16 := 6502
  listing : Option String := none
  verbosity : Nat := 0
  deriving DecidableEq, Repr

/-- The options that take a value. -/
inductive Setting where
  | address
  | port
  | listing
  deriving DecidableEq, Repr

/-- The options that take none. -/
inductive Flag where
  | verbose
  | help
  | version
  deriving DecidableEq, Repr

/-- An option by its long name. -/
def optionOfName? : String → Option (Setting ⊕ Flag)
  | "address" => some (.inl .address)
  | "port" => some (.inl .port)
  | "listing" => some (.inl .listing)
  | "verbose" => some (.inr .verbose)
  | "help" => some (.inr .help)
  | "version" => some (.inr .version)
  | _ => none

/-- An option by its letter. -/
def optionOfLetter? : Char → Option (Setting ⊕ Flag)
  | 'a' => some (.inl .address)
  | 'p' => some (.inl .port)
  | 'l' => some (.inl .listing)
  | 'v' => some (.inr .verbose)
  | 'h' => some (.inr .help)
  | 'V' => some (.inr .version)
  | _ => none

/-- A port number, which may have a sign. -/
def readPort : List Char → Except UsageError UInt16
  | '-' :: digits =>
    if !digits.isEmpty && digits.all (· == '0') then .ok 0 else .error .valueValidation
  | text => (Numeral.readWord 10 text).mapError fun _ => .valueValidation

/-! ## Options read so far -/

/-- The values given so far, and an option that awaits its value or the check of it. -/
structure Given where
  address : Option String := none
  port : Option UInt16 := none
  listing : Option String := none
  verbosity : Nat := 0
  awaiting : Option (Setting × Option String) := none
  deriving DecidableEq, Repr

namespace Given

/-- Give an option its value.  No option is given twice. -/
def set (given : Given) (setting : Setting) (value : String) : Except UsageError Given :=
  match setting with
  | .address =>
    if given.address.isSome then .error .argumentConflict
    else .ok { given with address := some value }
  | .port =>
    if given.port.isSome then .error .argumentConflict
    else do
      let port ← readPort value.toList
      return { given with port := some port }
  | .listing =>
    if given.listing.isSome then .error .argumentConflict
    else if value.isEmpty then .error .invalidValue
    else .ok { given with listing := some value }

/-- Give the awaiting option its value, which must have come by now. -/
def settle (given : Given) : Except UsageError Given :=
  match given.awaiting with
  | none => .ok given
  | some (_, none) => .error .invalidValue
  | some (setting, some value) => { given with awaiting := none }.set setting value

/-- Meet an option that takes a value, which may be attached to it. -/
def meetSetting (given : Given) (setting : Setting) (attached : Option String) :
    Except UsageError Given := do
  let given ← given.settle
  match attached with
  | some value => given.set setting value
  | none => return { given with awaiting := some (setting, none) }

/-- Meet an option that takes no value. -/
def meetFlag (given : Given) (flag : Flag) : Except UsageError Given := do
  let given ← given.settle
  match flag with
  | .verbose => return { given with verbosity := given.verbosity + 1 }
  | .help => throw .displayHelp
  | .version => throw .displayVersion

/-- Meet a long name with the value behind its equals sign. -/
def meetLong (given : Given) (name : String) (attached : Option String) :
    Except UsageError Given :=
  match optionOfName? name, attached with
  | some (.inl setting), attached => given.meetSetting setting attached
  | some (.inr flag), none => given.meetFlag flag
  | some (.inr _), some _ => .error .tooManyValues
  | none, _ => .error .unknownArgument

/-- Meet a word of letters.  What follows the letter of an option that takes a value is that
value. -/
def meetLetters (given : Given) : List Char → Except UsageError Given
  | [] => .ok given
  | letter :: rest =>
    match optionOfLetter? letter with
    | some (.inl setting) =>
      let attached := match rest with
        | [] => none
        | '=' :: value => some (String.ofList value)
        | value => some (String.ofList value)
      given.meetSetting setting attached
    | some (.inr flag) => do
      let given ← given.meetFlag flag
      given.meetLetters rest
    | none => .error .unknownArgument

/-- Meet a word that is no option, which must be the value of the awaiting one. -/
def meetValue (given : Given) (word : String) : Except UsageError Given :=
  match given.awaiting with
  | some (setting, none) => .ok { given with awaiting := some (setting, some word) }
  | _ => .error .unknownArgument

/-- Meet the words of a command line.  Nothing may follow the word of two hyphens. -/
def meetAll (given : Given) : List String → Except UsageError Given
  | [] => given.settle
  | word :: rest =>
    match word.toList with
    | ['-', '-'] => if rest.isEmpty then given.settle else .error .unknownArgument
    | '-' :: '-' :: long => do
      let name := long.takeWhile (· ≠ '=')
      let attached := (long.drop name.length).tail?.map String.ofList
      let given ← given.meetLong (String.ofList name) attached
      given.meetAll rest
    | '-' :: letter :: letters => do
      let given ← given.meetLetters (letter :: letters)
      given.meetAll rest
    | _ => do
      let given ← given.meetValue word
      given.meetAll rest

end Given

/-! ## Options -/

/-- Read a command line. -/
def Options.parse (arguments : List String) : Except UsageError Options := do
  let given ← ({} : Given).meetAll arguments
  let standard : Options := {}
  return {
    address := given.address.getD standard.address
    port := given.port.getD standard.port
    listing := given.listing
    verbosity := given.verbosity }

/-- The filter for log messages, which lets through more the higher the verbosity. -/
def Options.logFilter (options : Options) : String :=
  let level := match options.verbosity with
    | 0 => "warn"
    | 1 => "info"
    | 2 => "debug"
    | _ => "trace"
  "gdb_6502=" ++ level ++ ",error"

end RemoteDebugger.Prompt
