import Mathlib.Data.List.Basic
import RemoteDebugger.Listing.Parser
import RemoteDebugger.Proofs.Number.Numerals

/-!
# What a line says

The grammar of the lines of a listing, without a reader.  `Item.Says` is the entry that a line of a
block stands for, and `Item.says_iff` shows that exactly these lines are read.  A line with an address
has any number of words between the address and the next colon.  Only the first and the last of them
are looked at, so that words between those two leave no trace in the entry.
-/

namespace RemoteDebugger.Listing

open RemoteDebugger.Numeral RemoteDebugger.Text

/-- A line of a block, without the blanks at its end. -/
structure Item where
  block : Block
  line : List Char
  deriving DecidableEq, Repr

/-! ## Lines with an address -/

/-- The parts of a line with an address: the section code and the address with a colon between them,
as far as the first blank; then fields as far as the next colon, and the source text. -/
structure IsCoded (line sectionCode address fields text : List Char) : Prop where
  exists_blank : ∃ blank, isBlank blank = true ∧
    line = sectionCode ++ ':' :: address ++ blank :: (fields ++ ':' :: text)
  location_not_blank : ∀ c ∈ sectionCode ++ ':' :: address, isBlank c = false
  code_has_no_colon : ':' ∉ sectionCode
  fields_have_no_colon : ':' ∉ fields

/-- The machine code and the label that the words between an address and the source text give.  A
single word is code if it spells bytes, and otherwise a label.  Of several words, the first is code
and the last a label; those `between` them count for nothing. -/
inductive Labels : List (List Char) → Bytes → Option String → Prop
  | none : Labels [] [] none
  | code {word : List Char} {bytes : Bytes} (hcode : Hex.Spells word bytes) :
      Labels [word] bytes none
  | label {word : List Char} (hlabel : ∀ bytes, ¬ Hex.Spells word bytes) :
      Labels [word] [] (some (String.ofList word))
  | both {code label : List Char} (between : List (List Char)) {bytes : Bytes}
      (hcode : Hex.Spells code bytes) :
      Labels (code :: (between ++ [label])) bytes (some (String.ofList label))

/-! ## Lines of every kind -/

/-- The entry that a line of a block stands for. -/
inductive Item.Says : Item → Entry → Prop
  | sectionName {code name : List Char} (hcode : ':' ∉ code) :
      Says ⟨.sections, code ++ ':' :: name⟩
        (.sectionName (String.ofList (trim code)) (String.ofList (trim name)))
  | continuation {file : String} {line : List Char} (hspace : line.head? = some ' ') :
      Says ⟨.source file, line⟩ (.continuation file (String.ofList line))
  | code {file : String} {line sectionCode digits fields text : List Char} {address : UInt16}
      {bytes : Bytes} {label : Option String}
      (hline : IsCoded line sectionCode digits fields text)
      (haddress : IsNumeral 16 digits address.toNat) (hfields : Labels (words fields) bytes label) :
      Says ⟨.source file, line⟩ (.code file (String.ofList sectionCode) address bytes label
        (String.ofList (trimStart text)))
  | symbol {name rest kind value : List Char} {address : UInt16} (hname : ' ' ∉ name)
      (hrest : trim rest = kind ++ ':' :: value) (hkind : ':' ∉ kind)
      (haddress : IsNumeral 16 (trim value) address.toNat) :
      Says ⟨.symbolsByName, name ++ ' ' :: rest⟩
        (.symbol (String.ofList name) (String.ofList kind) address)
  | nameAt {value name : List Char} {address : UInt16} (hvalue : ' ' ∉ value)
      (haddress : IsNumeral 16 value address.toNat) :
      Says ⟨.symbolsByValue, value ++ ' ' :: name⟩ (.nameAt address (String.ofList (trim name)))

/-! ## Parts of a line -/

theorem separate_eq_ok_iff {separator : Char} {text before after : List Char} :
    separate separator text = .ok (before, after) ↔
      separator ∉ before ∧ text = before ++ separator :: after := by
  rw [separate]
  constructor
  · intro h
    split at h
    · next parts hcut =>
        cases h
        exact not_mem_of_cut? hcut
    · cases h
  · rintro ⟨hbefore, rfl⟩
    rw [cut?_of_not_mem hbefore]

theorem readAddress_eq_ok_iff {text : List Char} {address : UInt16} :
    readAddress text = .ok address ↔ IsNumeral 16 text address.toNat := by
  rw [← readWord_eq_ok_iff, readAddress]
  cases readWord 16 text <;> simp

theorem decode_eq_error_iff {word : List Char} :
    (∃ fault, Hex.decode word = .error fault) ↔ ∀ bytes, ¬ Hex.Spells word bytes := by
  simp only [← Hex.decode_eq_ok_iff]
  cases Hex.decode word <;> simp

theorem readFields_eq_ok_iff {fields : List Char} {bytes : Bytes} {label : Option String} :
    readFields fields = .ok (bytes, label) ↔ Labels (words fields) bytes label := by
  rw [readFields]
  constructor
  · intro h
    split at h
    · next hwords =>
        cases h
        rw [hwords]
        exact .none
    · next word hwords =>
        rw [hwords]
        split at h
        · next read hread =>
            cases h
            exact .code (Hex.decode_eq_ok_iff.mp hread)
        · next fault hfault =>
            cases h
            exact .label (decode_eq_error_iff.mp ⟨fault, hfault⟩)
    · next code next more hwords =>
        rw [hwords]
        split at h
        · next read hread =>
            cases h
            have hboth : Labels (code :: ((next :: more).dropLast ++
                [(next :: more).getLast (List.cons_ne_nil next more)])) bytes _ :=
              .both _ (Hex.decode_eq_ok_iff.mp hread)
            rwa [List.dropLast_concat_getLast] at hboth
        · cases h
  · generalize words fields = tokens
    intro h
    cases h with
    | none => rfl
    | code hcode => simp [Hex.decode_eq_ok_iff.mpr hcode]
    | label hlabel =>
        obtain ⟨fault, hfault⟩ := decode_eq_error_iff.mpr hlabel
        simp [hfault]
    | @both code label between bytes hcode =>
        rcases between with _ | ⟨next, between⟩
        · simp [Hex.decode_eq_ok_iff.mpr hcode]
        · have hlast : (next :: (between ++ [label])).getLast (List.cons_ne_nil _ _) = label := by
            rw [List.getLast_cons (by simp), List.getLast_concat]
          simp [Hex.decode_eq_ok_iff.mpr hcode, hlast]

theorem IsCoded.head?_ne {line sectionCode digits fields text : List Char}
    (h : IsCoded line sectionCode digits fields text) : line.head? ≠ some ' ' := by
  obtain ⟨blank, -, rfl⟩ := h.exists_blank
  intro hhead
  have hspace : ' ' ∈ sectionCode ++ ':' :: digits := by
    rw [List.head?_append_of_ne_nil _ (by simp)] at hhead
    exact List.mem_of_head? hhead
  exact absurd (h.location_not_blank ' ' hspace) (by decide)

/-- The parts of a line are those of its cuts at the first blank and at the next colon. -/
theorem IsCoded.cut {line sectionCode digits fields text : List Char}
    (h : IsCoded line sectionCode digits fields text) :
    cut? isBlank line = some (sectionCode ++ ':' :: digits, fields ++ ':' :: text) := by
  obtain ⟨blank, hblank, hparts⟩ := h.exists_blank
  exact cut?_eq_some_iff.mpr ⟨blank, hblank, h.location_not_blank, hparts⟩

theorem IsCoded.unique {line sectionCode digits fields text : List Char}
    {sectionCode' digits' fields' text' : List Char}
    (h : IsCoded line sectionCode digits fields text)
    (hother : IsCoded line sectionCode' digits' fields' text') :
    sectionCode = sectionCode' ∧ digits = digits' ∧ fields = fields' ∧ text = text' := by
  have hcut := h.cut.symm.trans hother.cut
  obtain ⟨hlocation, hrest⟩ := Prod.mk.inj (Option.some.inj hcut)
  have hcodes : some (sectionCode, digits) = some (sectionCode', digits') := by
    rw [← cut?_of_not_mem h.code_has_no_colon, hlocation,
      cut?_of_not_mem hother.code_has_no_colon]
  have hfields : some (fields, text) = some (fields', text') := by
    rw [← cut?_of_not_mem h.fields_have_no_colon, hrest,
      cut?_of_not_mem hother.fields_have_no_colon]
  cases hcodes
  cases hfields
  exact ⟨rfl, rfl, rfl, rfl⟩

theorem readCode_eq_ok_iff {file : String} {line : List Char} {entry : Entry} :
    readCode file line = .ok entry ↔
      ∃ sectionCode digits fields text address bytes label,
        IsCoded line sectionCode digits fields text ∧ IsNumeral 16 digits address.toNat ∧
          Labels (words fields) bytes label ∧
            entry = .code file (String.ofList sectionCode) address bytes label
              (String.ofList (trimStart text)) := by
  simp only [readCode, bind_eq_ok_iff, Prod.exists, separate_eq_ok_iff, readAddress_eq_ok_iff,
    readFields_eq_ok_iff, pure, Except.pure, Except.ok.injEq]
  constructor
  · rintro ⟨sectionCode, digits, ⟨hcode, hlocation⟩, address, haddress, fields, text,
      ⟨hfields, hrest⟩, bytes, label, hlabels, rfl⟩
    refine ⟨sectionCode, digits, fields, text, address, bytes, label, ?_, haddress, hlabels, rfl⟩
    cases hcut : cut? isBlank line with
    | none =>
        rw [hcut] at hrest
        simp at hrest
    | some parts =>
        rw [hcut, Option.getD_some] at hlocation hrest
        obtain ⟨location, rest⟩ := parts
        obtain rfl : location = _ := hlocation
        obtain rfl : rest = _ := hrest
        obtain ⟨blank, hblank, hbefore, hline⟩ := cut?_eq_some_iff.mp hcut
        exact ⟨⟨blank, hblank, hline⟩, hbefore, hcode, hfields⟩
  · rintro ⟨sectionCode, digits, fields, text, address, bytes, label, hline, haddress, hlabels, rfl⟩
    rw [hline.cut, Option.getD_some]
    exact ⟨sectionCode, digits, ⟨hline.code_has_no_colon, rfl⟩, address, haddress, fields, text,
      ⟨hline.fields_have_no_colon, rfl⟩, bytes, label, hlabels, rfl⟩

/-! ## Reading -/

/-- Exactly the lines that say an entry are read as it. -/
theorem Item.says_iff {item : Item} {entry : Entry} :
    item.Says entry ↔ item.block.entry item.line = .ok entry := by
  obtain ⟨block, line⟩ := item
  cases block with
  | sections =>
      simp only [Block.entry, bind_eq_ok_iff, Prod.exists, separate_eq_ok_iff, pure, Except.pure,
        Except.ok.injEq]
      constructor
      · intro h
        cases h with
        | sectionName hcode => exact ⟨_, _, ⟨hcode, rfl⟩, rfl⟩
      · rintro ⟨code, name, ⟨hcode, rfl⟩, rfl⟩
        exact .sectionName hcode
  | source file =>
      simp only [Block.entry]
      constructor
      · intro h
        cases h with
        | continuation hspace => rw [if_pos hspace]
        | code hline haddress hfields =>
            rw [if_neg hline.head?_ne]
            exact readCode_eq_ok_iff.mpr ⟨_, _, _, _, _, _, _, hline, haddress, hfields, rfl⟩
      · intro h
        by_cases hspace : line.head? = some ' '
        · rw [if_pos hspace] at h
          cases h
          exact .continuation hspace
        · rw [if_neg hspace] at h
          obtain ⟨_, _, _, _, _, _, _, hline, haddress, hfields, rfl⟩ := readCode_eq_ok_iff.mp h
          exact .code hline haddress hfields
  | symbolsByName =>
      simp only [Block.entry, bind_eq_ok_iff, Prod.exists, separate_eq_ok_iff,
        readAddress_eq_ok_iff, pure, Except.pure, Except.ok.injEq]
      constructor
      · intro h
        cases h with
        | symbol hname hrest hkind haddress =>
            exact ⟨_, _, ⟨hname, rfl⟩, _, _, ⟨hkind, hrest⟩, _, haddress, rfl⟩
      · rintro ⟨name, rest, ⟨hname, rfl⟩, kind, value, ⟨hkind, hrest⟩, address, haddress, rfl⟩
        exact .symbol hname hrest hkind haddress
  | symbolsByValue =>
      simp only [Block.entry, bind_eq_ok_iff, Prod.exists, separate_eq_ok_iff,
        readAddress_eq_ok_iff, pure, Except.pure, Except.ok.injEq]
      constructor
      · intro h
        cases h with
        | nameAt hvalue haddress => exact ⟨_, _, ⟨hvalue, rfl⟩, _, haddress, rfl⟩
      · rintro ⟨value, name, ⟨hvalue, rfl⟩, address, haddress, rfl⟩
        exact .nameAt hvalue haddress

theorem Item.Says.unique {item : Item} {entry other : Entry} (h : item.Says entry)
    (hother : item.Says other) : entry = other := by
  have hsame := (says_iff.mp h).symm.trans (says_iff.mp hother)
  exact Except.ok.inj hsame

/-! ## Source lines -/

/-- The source text of a line: the line itself if it begins with a space, and otherwise what follows
the first colon behind the first blank, without the blanks before it. -/
def sourceText (line : List Char) : List Char :=
  if line.head? = some ' ' then line
  else trimStart (((line.dropWhile fun c => !isBlank c).dropWhile (· ≠ ':')).drop 1)

theorem ne_colon_of_not_mem {text : List Char} (h : ':' ∉ text) :
    ∀ c ∈ text, decide (c ≠ ':') = true := by
  intro c hc
  rw [decide_eq_true_eq]
  rintro rfl
  exact h hc

theorem IsCoded.sourceText_eq {line sectionCode digits fields text : List Char}
    (h : IsCoded line sectionCode digits fields text) : sourceText line = trimStart text := by
  obtain ⟨blank, hblank, hline⟩ := h.exists_blank
  have hrest : line.dropWhile (fun c => !isBlank c) = blank :: (fields ++ ':' :: text) := by
    have hlocation : ∀ c ∈ sectionCode ++ ':' :: digits, (!isBlank c) = true := by
      intro c hc
      rw [h.location_not_blank c hc]
      rfl
    rw [hline, List.dropWhile_append_of_pos hlocation, List.dropWhile_cons_of_neg (by simp [hblank])]
  have hfields : ∀ c ∈ blank :: fields, decide (c ≠ ':') = true := by
    apply ne_colon_of_not_mem
    rw [List.mem_cons, not_or]
    refine ⟨?_, h.fields_have_no_colon⟩
    rintro rfl
    exact absurd hblank (by decide)
  rw [sourceText, if_neg h.head?_ne, hrest, ← List.cons_append,
    List.dropWhile_append_of_pos hfields, List.dropWhile_cons_of_neg (by simp)]
  rfl

end RemoteDebugger.Listing
