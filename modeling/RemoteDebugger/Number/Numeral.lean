import RemoteDebugger.Number.Hex

/-!
# Bounded unsigned numerals

A numeral is an optional plus sign and one or more digits of a radix up to sixteen.  It is read
from left to right against an exclusive limit, and the first position at which something is wrong
decides the fault: there, a character that is no digit comes before a value that is too large.
-/

namespace RemoteDebugger.Numeral

/-- Why a text is no numeral below the limit. -/
inductive Fault where
  | empty
  | invalidDigit
  | tooLarge
  deriving DecidableEq, Repr

/-- The wording of a fault. -/
def Fault.message : Fault → String
  | .empty => "cannot parse integer from empty string"
  | .invalidDigit => "invalid digit found in string"
  | .tooLarge => "number too large to fit in target type"

/-- The value of a digit of the radix, in either letter case. -/
def digitValue? (radix : Nat) (c : Char) : Option Nat :=
  (Hex.digitValue? c).filter (· < radix)

/-- Read the remaining digits behind those with the given value. -/
def readDigits (radix limit : Nat) : (value : Nat) → List Char → Except Fault Nat
  | value, [] => .ok value
  | value, c :: rest =>
    match digitValue? radix c with
    | none => .error .invalidDigit
    | some d =>
      if value * radix + d < limit then readDigits radix limit (value * radix + d) rest
      else .error .tooLarge

/-- The value of a numeral below `limit`.  A plus sign counts as a sign only if something follows
it. -/
def read (radix limit : Nat) : List Char → Except Fault Nat
  | [] => .error .empty
  | '+' :: c :: rest => readDigits radix limit 0 (c :: rest)
  | text => readDigits radix limit 0 text

/-- The value of a numeral that fits sixteen bits. -/
def readWord (radix : Nat) (text : List Char) : Except Fault UInt16 :=
  (read radix 65536 text).map UInt16.ofNat

end RemoteDebugger.Numeral
