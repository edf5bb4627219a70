import Mathlib.Data.List.ReduceOption
import RemoteDebugger.Proofs.Number.Numerals
import RemoteDebugger.Proofs.Target.Decoding
import RemoteDebugger.Proofs.Text.Separators
import RemoteDebugger.Proofs.Text.Utf8

/-!
# Lists of peripherals

A payload lists peripherals exactly if it is text and each of its records, the parts between
semicolons that are not empty, has a name and two addresses with colons between them.  The first
record that does not is quoted in the error.  What is printed in this form is read back, however
many semicolons there are between the records, before them and behind them.
-/

namespace RemoteDebugger.Target

open RemoteDebugger.Numeral RemoteDebugger.Text

/-! ## Separated parts -/

/-- The parts of a text between all occurrences of a separator. -/
structure IsSplit (separator : Char) (parts : List (List Char)) (text : List Char) : Prop where
  ne_nil : parts ≠ []
  not_mem : ∀ part ∈ parts, separator ∉ part
  intercalate_eq : [separator].intercalate parts = text

theorem isSplit_iff {separator : Char} {parts : List (List Char)} {text : List Char} :
    IsSplit separator parts text ↔ text.splitOn separator = parts := by
  constructor
  · rintro ⟨hne, hnot, rfl⟩
    exact List.splitOn_intercalate separator hnot hne
  · rintro rfl
    exact ⟨List.splitOn_ne_nil _ _, fun _ => not_mem_of_mem_splitOn,
      List.intercalate_splitOn separator⟩

/-! ## Records -/

/-- A record that describes a peripheral: its name, verbatim, and numerals of its addresses, with
colons between them. -/
def IsRecord (record : List Char) (peripheral : Peripheral) : Prop :=
  ∃ first last, IsSplit ':' [peripheral.name.toList, first, last] record ∧
    IsNumeral 16 first peripheral.first.toNat ∧ IsNumeral 16 last peripheral.last.toNat

theorem ofRecord?_eq_some_iff {record : List Char} {peripheral : Peripheral} :
    Peripheral.ofRecord? record = some peripheral ↔ IsRecord record peripheral := by
  obtain ⟨name, start, stop⟩ := peripheral
  simp only [IsRecord, isSplit_iff, ← toOption_readWord_eq_some_iff, Peripheral.ofRecord?]
  -- only three fields make a record
  rcases record.splitOn ':' with _ | ⟨text, _ | ⟨first, _ | ⟨last, _ | ⟨extra, more⟩⟩⟩⟩
  · simp
  · simp
  · simp
  · simp only [bind, Option.bind_eq_some_iff, pure, Option.some.injEq, Peripheral.mk.injEq,
      List.cons.injEq, and_true]
    constructor
    · rintro ⟨_, hfirst, _, hlast, rfl, rfl, rfl⟩
      exact ⟨first, last, ⟨String.toList_ofList.symm, rfl, rfl⟩, hfirst, hlast⟩
    · rintro ⟨_, _, ⟨rfl, rfl, rfl⟩, hfirst, hlast⟩
      exact ⟨start, hfirst, stop, hlast, String.ofList_toList, rfl, rfl⟩
  · simp

/-- What is decoded from one record. -/
def readRecord (record : List Char) : Except Error Peripheral :=
  match Peripheral.ofRecord? record with
  | some peripheral => .ok peripheral
  | none => .error (.protocol (.malformedPeripheral (String.ofList record)))

theorem readRecord_eq_ok_iff {record : List Char} {peripheral : Peripheral} :
    readRecord record = .ok peripheral ↔ IsRecord record peripheral := by
  rw [← ofRecord?_eq_some_iff, readRecord]
  cases Peripheral.ofRecord? record <;> simp

theorem readRecord_eq_error_iff {record : List Char} {error : Error} :
    readRecord record = .error error ↔
      (¬ ∃ peripheral, IsRecord record peripheral) ∧
        error = .protocol (.malformedPeripheral (String.ofList record)) := by
  simp only [← ofRecord?_eq_some_iff, readRecord]
  cases Peripheral.ofRecord? record with
  | none => simp [eq_comm]
  | some peripheral => simp

/-! ## Payloads -/

/-- The records of a payload that is text: its parts between semicolons, without the empty ones. -/
def HasRecords (payload : Bytes) (records : List (List Char)) : Prop :=
  ∃ text parts, payload = encodeUtf8 (String.ofList text) ∧ IsSplit ';' parts text ∧
    records = parts.filter (!·.isEmpty)

theorem payloadText_eq_ok_iff {payload : Bytes} {text : String} :
    payloadText payload = .ok text ↔ payload = encodeUtf8 text := by
  rw [← decodeUtf8?_eq_some_iff, payloadText]
  cases decodeUtf8? payload <;> simp

theorem payloadText_eq_error_iff {payload : Bytes} {error : Error} :
    payloadText payload = .error error ↔
      (∀ text, payload ≠ encodeUtf8 text) ∧ error = .protocol (.notText payload) := by
  simp only [ne_eq, ← decodeUtf8?_eq_some_iff]
  rw [payloadText]
  cases decodeUtf8? payload with
  | none => simp [eq_comm]
  | some text => simp

theorem hasRecords_iff {payload : Bytes} {records : List (List Char)} :
    HasRecords payload records ↔
      ∃ text, payloadText payload = .ok text ∧ peripheralRecords text.toList = records := by
  constructor
  · rintro ⟨text, parts, hpayload, hsplit, rfl⟩
    refine ⟨String.ofList text, payloadText_eq_ok_iff.mpr hpayload, ?_⟩
    rw [String.toList_ofList, peripheralRecords, isSplit_iff.mp hsplit]
  · rintro ⟨text, htext, rfl⟩
    refine ⟨text.toList, text.toList.splitOn ';', ?_, isSplit_iff.mpr rfl, rfl⟩
    rw [String.ofList_toList]
    exact payloadText_eq_ok_iff.mp htext

theorem hasRecords_iff_of_text {payload : Bytes} {text : String} {records : List (List Char)}
    (h : payloadText payload = .ok text) :
    HasRecords payload records ↔ peripheralRecords text.toList = records := by
  simp [hasRecords_iff, h]

theorem existsUnique_hasRecords (text : String) :
    ∃! records, HasRecords (encodeUtf8 text) records := by
  have htext : payloadText (encodeUtf8 text) = .ok text := payloadText_eq_ok_iff.mpr rfl
  simp only [hasRecords_iff_of_text htext]
  exact existsUnique_eq'

theorem not_hasRecords_of_not_text {payload : Bytes} {error : Error}
    (h : payloadText payload = .error error) (records : List (List Char)) :
    ¬ HasRecords payload records := by
  simp [hasRecords_iff, h]

/-! ## Decoding -/

theorem decodePeripherals_of_text {payload : Bytes} {text : String}
    (h : payloadText payload = .ok text) :
    decodePeripherals payload = (peripheralRecords text.toList).mapM readRecord := by
  rw [decodePeripherals, h]
  rfl

theorem decodePeripherals_of_not_text {payload : Bytes} {error : Error}
    (h : payloadText payload = .error error) : decodePeripherals payload = .error error := by
  rw [decodePeripherals, h]
  rfl

/-- A payload lists peripherals if each of its records describes one. -/
theorem decodePeripherals_eq_ok_iff {payload : Bytes} {peripherals : List Peripheral} :
    decodePeripherals payload = .ok peripherals ↔
      ∃ records, HasRecords payload records ∧ List.Forall₂ IsRecord records peripherals := by
  cases htext : payloadText payload with
  | error reason => simp [decodePeripherals_of_not_text htext, not_hasRecords_of_not_text htext]
  | ok text =>
      simp only [decodePeripherals_of_text htext, hasRecords_iff_of_text htext, mapM_eq_ok_iff,
        readRecord_eq_ok_iff, exists_eq_left']

/-- The error of a payload that is text is that of the first record that describes no peripheral. -/
theorem decodePeripherals_eq_error_iff {payload : Bytes} {error : Error} :
    decodePeripherals payload = .error error ↔
      ((∀ text, payload ≠ encodeUtf8 text) ∧ error = .protocol (.notText payload)) ∨
        ∃ before record after, HasRecords payload (before ++ record :: after) ∧
          (∀ earlier ∈ before, ∃ peripheral, IsRecord earlier peripheral) ∧
          (¬ ∃ peripheral, IsRecord record peripheral) ∧
          error = .protocol (.malformedPeripheral (String.ofList record)) := by
  rw [← payloadText_eq_error_iff]
  cases htext : payloadText payload with
  | error reason => simp [decodePeripherals_of_not_text htext, not_hasRecords_of_not_text htext]
  | ok text =>
      simp only [decodePeripherals_of_text htext, hasRecords_iff_of_text htext, mapM_eq_error_iff,
        readRecord_eq_ok_iff, readRecord_eq_error_iff, reduceCtorEq, false_or]

/-! ## Printing -/

/-- A peripheral as a record, its addresses as the given numerals. -/
def printRecord (numeral : UInt16 → List Char) (peripheral : Peripheral) : List Char :=
  [':'].intercalate
    [peripheral.name.toList, numeral peripheral.first, numeral peripheral.last]

/-- Records with semicolons between them, where `none` is a record without text. -/
def printRecords (numeral : UInt16 → List Char) (items : List (Option Peripheral)) : List Char :=
  [';'].intercalate (items.map fun item => (item.map (printRecord numeral)).getD [])

section Printed

variable {numeral : UInt16 → List Char} (hnumeral : ∀ word, IsNumeral 16 (numeral word) word.toNat)

include hnumeral

theorem isRecord_printRecord {peripheral : Peripheral} (hname : ':' ∉ peripheral.name.toList) :
    IsRecord (printRecord numeral peripheral) peripheral := by
  refine ⟨numeral peripheral.first, numeral peripheral.last, ⟨by simp, ?_, rfl⟩, hnumeral _,
    hnumeral _⟩
  simp only [List.forall_mem_cons]
  exact ⟨hname, (hnumeral _).not_mem ':' (by decide) (by decide),
    (hnumeral _).not_mem ':' (by decide) (by decide), by simp⟩

theorem semicolon_not_mem_printRecord {peripheral : Peripheral}
    (hname : ';' ∉ peripheral.name.toList) : ';' ∉ printRecord numeral peripheral := by
  have hfirst := (hnumeral peripheral.first).not_mem ';' (by decide) (by decide)
  have hlast := (hnumeral peripheral.last).not_mem ';' (by decide) (by decide)
  simp [printRecord, List.intercalate, hname, hfirst, hlast]

end Printed

theorem printRecord_ne_nil (numeral : UInt16 → List Char) (peripheral : Peripheral) :
    printRecord numeral peripheral ≠ [] := by
  simp [printRecord, List.intercalate]

/-- The records that are not empty are those of the peripherals. -/
theorem filter_printed (numeral : UInt16 → List Char) (items : List (Option Peripheral)) :
    (items.map fun item => (item.map (printRecord numeral)).getD []).filter (!·.isEmpty) =
      items.reduceOption.map (printRecord numeral) := by
  induction items with
  | nil => rfl
  | cons item items ih =>
      cases item with
      | none => simpa using ih
      | some peripheral => simpa [printRecord_ne_nil] using ih

theorem peripheralRecords_printRecords {numeral : UInt16 → List Char}
    (hnumeral : ∀ word, IsNumeral 16 (numeral word) word.toNat) {items : List (Option Peripheral)}
    (hnames : ∀ peripheral ∈ items.reduceOption, ';' ∉ peripheral.name.toList) :
    peripheralRecords (printRecords numeral items) = items.reduceOption.map (printRecord numeral) := by
  have hparts : ∀ part ∈ items.map fun item => (item.map (printRecord numeral)).getD [],
      ';' ∉ part := by
    intro part hpart
    obtain ⟨item, hitem, rfl⟩ := List.mem_map.mp hpart
    cases item with
    | none => simp
    | some peripheral =>
        have hname := hnames peripheral (List.reduceOption_mem_iff.mpr hitem)
        exact semicolon_not_mem_printRecord hnumeral hname
  cases items with
  | nil => rfl
  | cons item items =>
      rw [peripheralRecords, printRecords, List.splitOn_intercalate ';' hparts (by simp),
        filter_printed]

/-- Peripherals that are printed with any numerals and any number of extra semicolons are read
back. -/
theorem decodePeripherals_printRecords {numeral : UInt16 → List Char}
    (hnumeral : ∀ word, IsNumeral 16 (numeral word) word.toNat) {items : List (Option Peripheral)}
    (hnames : ∀ peripheral ∈ items.reduceOption,
      ';' ∉ peripheral.name.toList ∧ ':' ∉ peripheral.name.toList) :
    decodePeripherals (encodeUtf8 (String.ofList (printRecords numeral items))) =
      .ok items.reduceOption := by
  have htext := payloadText_eq_ok_iff.mpr
    (rfl : encodeUtf8 (String.ofList (printRecords numeral items)) = _)
  rw [decodePeripherals_of_text htext, String.toList_ofList,
    peripheralRecords_printRecords hnumeral fun p hp => (hnames p hp).1, mapM_eq_ok_iff,
    List.forall₂_map_left_iff, List.forall₂_same]
  intro peripheral hmem
  exact readRecord_eq_ok_iff.mpr (isRecord_printRecord hnumeral (hnames peripheral hmem).2)

/-- Exactly the texts in which every record describes a peripheral are decoded, to those peripherals
in order; otherwise the error quotes the payload that is not text, or the first record that describes
none; and what was printed is read back. -/
theorem peripheral_lists_decoded :
    (∀ text, ∃! records, HasRecords (encodeUtf8 text) records) ∧
    (∀ payload peripherals, decodePeripherals payload = .ok peripherals ↔
      ∃ records, HasRecords payload records ∧ List.Forall₂ IsRecord records peripherals) ∧
    (∀ payload error, decodePeripherals payload = .error error ↔
      ((∀ text, payload ≠ encodeUtf8 text) ∧ error = .protocol (.notText payload)) ∨
        ∃ before record after, HasRecords payload (before ++ record :: after) ∧
          (∀ earlier ∈ before, ∃ peripheral, IsRecord earlier peripheral) ∧
          (¬ ∃ peripheral, IsRecord record peripheral) ∧
          error = .protocol (.malformedPeripheral (String.ofList record))) ∧
    (∀ payload, (Error.protocol (.notText payload)).message =
      "protocol error: reply is not text: " ++ String.ofList (quote '"' (decodeLossy payload))) ∧
    (∀ record, (Error.protocol (.malformedPeripheral (String.ofList record))).message =
      "protocol error: malformed peripheral record: " ++ String.ofList (quote '"' record)) ∧
    ∀ numeral : UInt16 → List Char, (∀ word, IsNumeral 16 (numeral word) word.toNat) →
      ∀ items : List (Option Peripheral), (∀ peripheral ∈ items.reduceOption,
        ';' ∉ peripheral.name.toList ∧ ':' ∉ peripheral.name.toList) →
          decodePeripherals (encodeUtf8 (String.ofList (printRecords numeral items))) =
            .ok items.reduceOption := by
  refine ⟨existsUnique_hasRecords, fun _ _ => decodePeripherals_eq_ok_iff,
    fun _ _ => decodePeripherals_eq_error_iff, ?_, ?_, ?_⟩
  · intro payload
    exact String.append_assoc.symm
  · intro record
    have hmessage : (Error.protocol (.malformedPeripheral (String.ofList record))).message =
        "protocol error: " ++ ("malformed peripheral record: " ++
          String.ofList (quote '"' (String.ofList record).toList)) := rfl
    rw [String.toList_ofList] at hmessage
    exact hmessage.trans String.append_assoc.symm
  · intro numeral hnumeral items hnames
    exact decodePeripherals_printRecords hnumeral hnames

/-- Two peripherals with an empty record between them and one behind them. -/
theorem peripheral_lists_of_empty_records :
    (∀ word : UInt16, IsNumeral 16 (Hex.fixed .upper 4 word.toNat) word.toNat) ∧
      (∀ peripheral ∈ [(⟨"UART", 0x8000, 0x80FF⟩ : Peripheral), ⟨"TIMER", 0x9000, 0x9003⟩],
        ';' ∉ peripheral.name.toList ∧ ':' ∉ peripheral.name.toList) ∧
      decodePeripherals (encodeUtf8 (String.ofList "UART:8000:80FF;;TIMER:9000:9003;".toList)) =
        .ok [⟨"UART", 0x8000, 0x80FF⟩, ⟨"TIMER", 0x9000, 0x9003⟩] := by
  have hnumeral : ∀ word : UInt16, IsNumeral 16 (Hex.fixed .upper 4 word.toNat) word.toNat :=
    fun word => readWord_eq_ok_iff.mp (readWord_fixed .upper word)
  have hnames : ∀ peripheral ∈ [(⟨"UART", 0x8000, 0x80FF⟩ : Peripheral),
      ⟨"TIMER", 0x9000, 0x9003⟩], ';' ∉ peripheral.name.toList ∧ ':' ∉ peripheral.name.toList := by
    decide
  have hprinted : printRecords (fun word => Hex.fixed .upper 4 word.toNat)
      [some ⟨"UART", 0x8000, 0x80FF⟩, none, some ⟨"TIMER", 0x9000, 0x9003⟩, none] =
        "UART:8000:80FF;;TIMER:9000:9003;".toList := by
    decide
  obtain ⟨-, -, -, -, -, hread⟩ := peripheral_lists_decoded
  have hdecode := hread _ hnumeral
    [some ⟨"UART", 0x8000, 0x80FF⟩, none, some ⟨"TIMER", 0x9000, 0x9003⟩, none] hnames
  rw [hprinted] at hdecode
  exact ⟨hnumeral, hnames, hdecode⟩

end RemoteDebugger.Target
