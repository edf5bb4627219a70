import RemoteDebugger.Proofs.Listing.Grouping

/-!
# The words between an address and the source text

A line with an address is meant to have at most two words there, its machine code and its label.  The
record of such a line accounts for all its words.  A line with more of them is read as well: its first
word is taken for the code and its last one for the label, and the words between them are lost.
-/

namespace RemoteDebugger.Listing

open RemoteDebugger.Numeral RemoteDebugger.Text

/-- The words that stand for machine code: none if there is no code, and otherwise one. -/
inductive CodeWords : List (List Char) → Bytes → Prop
  | none : CodeWords [] []
  | one {word : List Char} {bytes : Bytes} (hcode : Hex.Spells word bytes) : CodeWords [word] bytes

/-- Every word is the code or the label of a record. -/
def Accounts (tokens : List (List Char)) (bytes : Bytes) (label : Option String) : Prop :=
  ∃ code, CodeWords code bytes ∧ tokens = code ++ (label.map String.toList).toList

theorem CodeWords.length_le {code : List (List Char)} {bytes : Bytes} (h : CodeWords code bytes) :
    code.length ≤ 1 := by
  cases h with
  | none => exact Nat.zero_le 1
  | one hcode => exact Nat.le_refl 1

namespace Labels

variable {tokens : List (List Char)} {bytes : Bytes} {label : Option String}

/-- The record accounts for up to two words. -/
theorem accounts_iff (h : Labels tokens bytes label) :
    Accounts tokens bytes label ↔ tokens.length ≤ 2 := by
  constructor
  · rintro ⟨code, hcode, rfl⟩
    have hlabel : (label.map String.toList).toList.length ≤ 1 := by cases label <;> simp
    have hlength := hcode.length_le
    rw [List.length_append]
    omega
  · intro hlength
    cases h with
    | none => exact ⟨[], .none, rfl⟩
    | @code word bytes hcode => exact ⟨[word], .one hcode, rfl⟩
    | @label word hlabel => exact ⟨[], .none, by simp⟩
    | @both code label between bytes hcode =>
        have hbetween : between = [] := by
          apply List.eq_nil_of_length_eq_zero
          simp only [List.length_cons, List.length_append, List.length_nil] at hlength
          omega
        exact ⟨[code], .one hcode, by simp [hbetween]⟩

/-- Of more than two words, those between the first and the last are lost: others in their place
give the same record. -/
theorem exists_between (h : Labels tokens bytes label) (hlength : 2 < tokens.length) :
    ∃ code between last, between ≠ [] ∧ tokens = code :: (between ++ [last]) ∧
      Hex.Spells code bytes ∧ label = some (String.ofList last) ∧
        ∀ others, Labels (code :: (others ++ [last])) bytes label := by
  cases h with
  | both between hcode =>
      refine ⟨_, between, _, ?_, rfl, hcode, rfl, fun others => .both others hcode⟩
      rintro rfl
      simp at hlength
  | _ => simp at hlength

end Labels

/-- The words of a line with an address in a listing that is read, and the record of the address if
no later line has the same one.  The record accounts for up to two words; of more than two, those
between the first and the last are lost. -/
theorem Document.code_fields_of_parse {text : String} {doc : Document} {bodies : List Body}
    {before after : List Item} {file : String} {line : List Char}
    (h : Document.parse text = .ok doc)
    (hbodies : List.Forall₂ Body.IsOf (paragraphs (trimmedLines text)) bodies)
    (hitems : bodies.flatMap Body.items = before ++ ⟨.source file, line⟩ :: after)
    (hline : line.head? ≠ some ' ') :
    ∃ sectionCode digits fields source address bytes label,
      IsCoded line sectionCode digits fields source ∧ IsNumeral 16 digits address.toNat ∧
      Labels (words fields) bytes label ∧
      (Accounts (words fields) bytes label ↔ (words fields).length ≤ 2) ∧
      (2 < (words fields).length → ∃ code between last, between ≠ [] ∧
        words fields = code :: (between ++ [last]) ∧ Hex.Spells code bytes ∧
          label = some (String.ofList last) ∧
            ∀ others, Labels (code :: (others ++ [last])) bytes label) ∧
      ((∀ later ∈ after, ¬ later.HasKey (.address address)) →
        doc.origin? address = some ⟨file, (sourceTexts file before).length,
          String.ofList sectionCode, bytes, label⟩) := by
  obtain ⟨-, bodies', hbodies', hentries, hgroups⟩ := groups_of_parse h
  obtain rfl : bodies = bodies' :=
    List.right_unique_forall₂' (fun _ _ _ h hother => h.unique hother) hbodies hbodies'
  obtain ⟨entry, hentry⟩ := hentries ⟨.source file, line⟩ (by rw [hitems]; simp)
  have hsaid := hentry
  cases hentry with
  | continuation hspace => exact absurd hspace hline
  | @code file line sectionCode digits fields source address bytes label hcoded haddress hlabels =>
      refine ⟨sectionCode, digits, fields, source, address, bytes, label, hcoded, haddress,
        hlabels, hlabels.accounts_iff, hlabels.exists_between, ?_⟩
      intro hlast
      rw [hgroups.origin?_eq_some_iff]
      exact ⟨before, ⟨.source file, line⟩, _, ⟨after, hitems, ⟨_, hsaid, rfl⟩, hlast⟩, hsaid, rfl⟩

/-! ## A line with three words -/

/-- The line `00:0200 A9 FF reset: lda #$ff`, with a blank between the digits of its code. -/
def crowdedLine : List Char := "00:0200 A9 FF reset: lda #$ff".toList

def crowded : String := "Source: a.s\n00:0200 A9 FF reset: lda #$ff\n"

theorem forall₂_crowded : List.Forall₂ Body.IsOf (paragraphs (trimmedLines crowded))
    [⟨.source "a.s", [crowdedLine]⟩] := by
  have hlines : paragraphs (trimmedLines crowded) = [["Source: a.s".toList, crowdedLine]] := by
    decide +kernel
  rw [hlines]
  exact .cons ⟨_, rfl, rfl⟩ .nil

theorem isCoded_crowdedLine :
    IsCoded crowdedLine "00".toList "0200".toList "A9 FF reset".toList " lda #$ff".toList := by
  have hlocation : ("00".toList ++ ':' :: "0200".toList).all (!isBlank ·) = true := by decide
  refine ⟨⟨' ', by decide, by decide⟩, ?_, by decide, by decide⟩
  intro c hc
  simpa using List.all_eq_true.mp hlocation c hc

theorem parse_crowded : ∃ doc, Document.parse crowded = .ok doc ∧
    doc.origin? 0x0200 = some ⟨"a.s", 0, "00", [0xA9], some "reset"⟩ := by
  have hparses : (Document.parse crowded).toOption.map (·.origin? 0x0200) =
      some (some ⟨"a.s", 0, "00", [0xA9], some "reset"⟩) := by
    decide +kernel
  exact Document.exists_of_map_toOption hparses

/-- The word `FF` is lost. -/
theorem Document.code_fields_of_crowded : ∃ doc, Document.parse crowded = .ok doc ∧
    ([⟨.source "a.s", [crowdedLine]⟩] : List Body).flatMap Body.items =
      [] ++ ⟨.source "a.s", crowdedLine⟩ :: [] ∧
    crowdedLine.head? ≠ some ' ' ∧
    words "A9 FF reset".toList = ["A9".toList, "FF".toList, "reset".toList] ∧
    ¬ Accounts (words "A9 FF reset".toList) [0xA9] (some "reset") ∧
    doc.origin? 0x0200 = some ⟨"a.s", 0, "00", [0xA9], some "reset"⟩ := by
  obtain ⟨doc, hdoc, horigin⟩ := parse_crowded
  have hitems : ([⟨.source "a.s", [crowdedLine]⟩] : List Body).flatMap Body.items =
      [] ++ ⟨.source "a.s", crowdedLine⟩ :: [] := rfl
  have hhead : crowdedLine.head? ≠ some ' ' := by decide
  have hwords : words "A9 FF reset".toList = ["A9".toList, "FF".toList, "reset".toList] := by
    decide
  obtain ⟨_, _, _, _, address, bytes, label, hcoded, haddress, -, haccounts, -, hrecord⟩ :=
    code_fields_of_parse hdoc forall₂_crowded hitems hhead
  obtain ⟨rfl, rfl, rfl, rfl⟩ := hcoded.unique isCoded_crowdedLine
  have hdigits : IsNumeral 16 "0200".toList (0x0200 : UInt16).toNat :=
    readWord_eq_ok_iff.mp (by decide +kernel)
  obtain rfl : address = 0x0200 := UInt16.toNat_inj.mp (haddress.unique hdigits)
  have hsame := (hrecord (by simp)).symm.trans horigin
  cases hsame
  refine ⟨doc, hdoc, hitems, hhead, hwords, ?_, horigin⟩
  rw [haccounts, hwords]
  decide

/-- A line with three words is read. -/
theorem Document.not_rejected_of_three_words :
    ¬ ∀ (text : String) (doc : Document) (bodies : List Body) (file : String)
      (line sectionCode digits fields source : List Char), Document.parse text = .ok doc →
        List.Forall₂ Body.IsOf (paragraphs (trimmedLines text)) bodies →
          ⟨.source file, line⟩ ∈ bodies.flatMap Body.items →
            IsCoded line sectionCode digits fields source → (words fields).length ≤ 2 := by
  intro hrejected
  obtain ⟨doc, hdoc, -⟩ := parse_crowded
  have hlength := hrejected crowded doc _ "a.s" crowdedLine _ _ _ _ hdoc forall₂_crowded
    (by simp [Body.items]) isCoded_crowdedLine
  revert hlength
  decide

end RemoteDebugger.Listing
