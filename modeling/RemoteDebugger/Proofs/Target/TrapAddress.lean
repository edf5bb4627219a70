import RemoteDebugger.Proofs.Target.HexReplies
import RemoteDebugger.Proofs.Target.StopReplies

/-!
# The place of the address in a trap reply

The program counter of a trap reply is meant to stand at a fixed byte offset.  The decoder counts
characters: the four digits of the address stand behind the first five characters of the payload,
whatever the number of their bytes.  The two counts agree where both characters of the register
number are ASCII.  Where one character of two bytes stands in their place, the address that is read
lies one byte further on.
-/

namespace RemoteDebugger.Target

open RemoteDebugger.Numeral RemoteDebugger.Text

/-! ## Digits as bytes -/

/-- The bytes of digits, as characters, are the digits. -/
theorem characters_map_toUInt8 {digits : List Char} {number : Nat} (h : Denotes 16 digits number) :
    characters (digits.map Char.toUInt8) = digits := by
  have hsame : ∀ c ∈ digits, Char.ofUInt8 c.toUInt8 = c := by
    intro c hc
    exact ofUInt8_toUInt8_of_ascii (h.ascii c hc)
  rw [characters, List.map_map]
  exact (List.map_congr_left hsame).trans (List.map_id _)

theorem ascii_of_denotes_characters {digits : Bytes} {number : Nat}
    (h : Denotes 16 (characters digits) number) : ∀ b ∈ digits, b.toNat < 128 := by
  intro b hb
  rw [← toNat_ofUInt8]
  exact h.ascii _ (List.mem_map_of_mem hb)

/-! ## Fields of a payload -/

/-- The letter `T` and the two digits of a signal open a payload. -/
def HasTrapSignal (payload : Bytes) (signal : UInt8) : Prop :=
  ∃ s₁ s₂ rest, payload = 'T'.toUInt8 :: s₁ :: s₂ :: rest ∧
    Denotes 16 (characters [s₁, s₂]) signal.toNat

/-- The four bytes from an offset on, counted from zero, are the digits of an address. -/
def HasAddressAt (payload : Bytes) (offset : Nat) (address : UInt16) : Prop :=
  ∃ p₁ p₂ p₃ p₄ rest, payload.drop offset = p₁ :: p₂ :: p₃ :: p₄ :: rest ∧
    Denotes 16 (characters [p₁, p₂, p₃, p₄]) address.toNat

theorem HasAddressAt.unique {payload : Bytes} {offset : Nat} {address other : UInt16}
    (h : HasAddressAt payload offset address) (hother : HasAddressAt payload offset other) :
    address = other := by
  obtain ⟨p₁, p₂, p₃, p₄, rest, hbytes, haddress⟩ := h
  obtain ⟨q₁, q₂, q₃, q₄, more, hbytes', hother⟩ := hother
  rw [hbytes] at hbytes'
  cases hbytes'
  exact UInt16.toNat_inj.mp (haddress.unique hother)

/-- Whether the two bytes behind the signal are ASCII, as far as there are any. -/
def HasAsciiRegister (payload : Bytes) : Prop :=
  ∀ b ∈ (payload.drop 3).take 2, b.toNat < 128

/-- The number of bytes that the first characters of a text take. -/
def byteOffset (text : List Char) (count : Nat) : Nat :=
  (encodeUtf8 (String.ofList (text.take count))).length

theorem drop_byteOffset (text : List Char) (count : Nat) :
    (encodeUtf8 (String.ofList text)).drop (byteOffset text count) =
      encodeUtf8 (String.ofList (text.drop count)) := by
  have hsplit := encodeUtf8_append (text.take count) (text.drop count)
  rw [List.take_append_drop] at hsplit
  rw [hsplit, byteOffset, List.drop_left]

/-- ASCII characters in front take one byte each. -/
theorem byteOffset_append {front : List Char} (h : ∀ c ∈ front, c.toNat < 128)
    (later : List Char) (count : Nat) :
    byteOffset (front ++ later) (front.length + count) = front.length + byteOffset later count := by
  rw [byteOffset, List.take_length_add_append, encodeUtf8_append, List.length_append,
    encodeUtf8_of_ascii h, List.length_map, byteOffset]

/-- The letter and the digits of the signal are the first characters of a text. -/
theorem exists_of_hasTrapSignal {text : List Char} {signal : UInt8}
    (h : HasTrapSignal (encodeUtf8 (String.ofList text)) signal) :
    ∃ s₁ s₂ later, text = 'T' :: s₁ :: s₂ :: later ∧ Denotes 16 [s₁, s₂] signal.toNat ∧
      (encodeUtf8 (String.ofList text)).drop 3 = encodeUtf8 (String.ofList later) := by
  obtain ⟨s₁, s₂, rest, hpayload, hsignal⟩ := h
  have hascii : ∀ b ∈ ['T'.toUInt8, s₁, s₂], b.toNat < 128 := by
    rw [List.forall_mem_cons]
    exact ⟨by decide, ascii_of_denotes_characters hsignal⟩
  obtain ⟨later, rfl, hlater⟩ := exists_of_encodeUtf8_eq_append hpayload hascii
  refine ⟨Char.ofUInt8 s₁, Char.ofUInt8 s₂, later, rfl, hsignal, ?_⟩
  rw [hlater, hpayload]
  rfl

/-! ## Where the decoder finds the address -/

theorem hasTrapSignal_of_text {s₁ s₂ : Char} {signal : UInt8}
    (h : Denotes 16 [s₁, s₂] signal.toNat) (later : List Char) :
    HasTrapSignal (encodeUtf8 (String.ofList ('T' :: s₁ :: s₂ :: later))) signal := by
  have hascii : ∀ c ∈ ['T', s₁, s₂], c.toNat < 128 := by
    rw [List.forall_mem_cons]
    exact ⟨by decide, h.ascii⟩
  refine ⟨s₁.toUInt8, s₂.toUInt8, encodeUtf8 (String.ofList later), ?_, ?_⟩
  · have hsplit := encodeUtf8_append ['T', s₁, s₂] later
    rwa [encodeUtf8_of_ascii hascii] at hsplit
  · have hdigits := characters_map_toUInt8 h
    simp only [List.map_cons, List.map_nil] at hdigits
    rwa [hdigits]

/-- The four characters behind the first ones of a text are digits of an address exactly if the
bytes there are. -/
theorem hasAddressAt_byteOffset_iff {text : List Char} {count : Nat} {address : UInt16} :
    HasAddressAt (encodeUtf8 (String.ofList text)) (byteOffset text count) address ↔
      ∃ p₁ p₂ p₃ p₄ rest, text.drop count = p₁ :: p₂ :: p₃ :: p₄ :: rest ∧
        Denotes 16 [p₁, p₂, p₃, p₄] address.toNat := by
  rw [HasAddressAt, drop_byteOffset]
  constructor
  · rintro ⟨p₁, p₂, p₃, p₄, rest, hbytes, haddress⟩
    have hascii : ∀ b ∈ [p₁, p₂, p₃, p₄], b.toNat < 128 := ascii_of_denotes_characters haddress
    obtain ⟨later, htext, -⟩ := exists_of_encodeUtf8_eq_append hbytes hascii
    exact ⟨_, _, _, _, later, htext, haddress⟩
  · rintro ⟨p₁, p₂, p₃, p₄, rest, htext, haddress⟩
    have hascii : ∀ c ∈ [p₁, p₂, p₃, p₄], c.toNat < 128 := haddress.ascii
    refine ⟨p₁.toUInt8, p₂.toUInt8, p₃.toUInt8, p₄.toUInt8, encodeUtf8 (String.ofList rest), ?_, ?_⟩
    · have hsplit := encodeUtf8_append [p₁, p₂, p₃, p₄] rest
      rw [htext]
      rwa [encodeUtf8_of_ascii hascii] at hsplit
    · have hdigits := characters_map_toUInt8 haddress
      simp only [List.map_cons, List.map_nil] at hdigits
      rwa [hdigits]

/-- The address is read from behind the first five characters. -/
theorem decodeStop_eq_trap_iff {text : List Char} {signal : UInt8} {address : UInt16} :
    decodeStop (encodeUtf8 (String.ofList text)) = .ok ⟨signal, some address⟩ ↔
      HasTrapSignal (encodeUtf8 (String.ofList text)) signal ∧
        HasAddressAt (encodeUtf8 (String.ofList text)) (byteOffset text 5) address := by
  rw [decodeStop_eq_ok_iff, hasAddressAt_byteOffset_iff]
  constructor
  · rintro ⟨part, rest, htext, hspelled⟩
    have hsame : text = part ++ rest := by
      have hdecoded := decodeUtf8?_eq_some_iff.mpr htext
      rw [decodeUtf8?_encodeUtf8, Option.some.injEq, String.ofList_inj] at hdecoded
      exact hdecoded
    subst hsame
    cases hspelled with
    | trap hsignal haddress =>
        exact ⟨hasTrapSignal_of_text hsignal _, _, _, _, _, rest, rfl, haddress⟩
  · rintro ⟨hsignal, p₁, p₂, p₃, p₄, rest, hdrop, haddress⟩
    obtain ⟨s₁, s₂, later, rfl, hdigits, -⟩ := exists_of_hasTrapSignal hsignal
    -- the text is long enough to have two characters before the address
    rcases later with _ | ⟨r₁, _ | ⟨r₂, later⟩⟩
    · cases hdrop
    · cases hdrop
    · obtain rfl : later = p₁ :: p₂ :: p₃ :: p₄ :: rest := hdrop
      exact ⟨['T', s₁, s₂, r₁, r₂, p₁, p₂, p₃, p₄], rest, rfl, .trap hdigits haddress⟩

/-! ## Bytes against characters -/

theorem hasAddressAt_five_iff {text : List Char} {signal : UInt8} {address : UInt16}
    (hsignal : HasTrapSignal (encodeUtf8 (String.ofList text)) signal)
    (hregister : HasAsciiRegister (encodeUtf8 (String.ofList text))) :
    HasAddressAt (encodeUtf8 (String.ofList text)) (byteOffset text 5) address ↔
      HasAddressAt (encodeUtf8 (String.ofList text)) 5 address := by
  have hfive : ∀ b ∈ (encodeUtf8 (String.ofList text)).take 5, b.toNat < 128 := by
    obtain ⟨s₁, s₂, rest, hpayload, hdigits⟩ := hsignal
    have hfront : ∀ b ∈ ['T'.toUInt8, s₁, s₂], b.toNat < 128 := by
      rw [List.forall_mem_cons]
      exact ⟨by decide, ascii_of_denotes_characters hdigits⟩
    rw [HasAsciiRegister, hpayload] at hregister
    rw [hpayload]
    exact List.forall_mem_append.mpr ⟨hfront, hregister⟩
  rw [HasAddressAt, HasAddressAt, drop_byteOffset, drop_encodeUtf8_of_ascii hfive]

/-- Two bytes that are not both ASCII, before one that is, are the encoding of one character. -/
theorem byteOffset_of_wide_pair {text : List Char} {b₁ b₂ p : UInt8} {rest : Bytes}
    (h : encodeUtf8 (String.ofList text) = b₁ :: b₂ :: p :: rest) (hp : p.toNat < 128)
    (hwide : ¬ (b₁.toNat < 128 ∧ b₂.toNat < 128)) :
    byteOffset text 2 = 3 := by
  cases text with
  | nil => cases h
  | cons c later =>
      rw [encodeUtf8_cons] at h
      by_cases hc : c.toNat < 128
      · -- the second byte opens a character that would have to go on behind it
        exfalso
        rw [utf8EncodeChar_of_ascii hc, List.singleton_append] at h
        obtain ⟨hfirst, hlater⟩ := List.cons.inj h
        cases later with
        | nil => cases hlater
        | cons d later =>
            rw [encodeUtf8_cons] at hlater
            by_cases hd : d.toNat < 128
            · rw [utf8EncodeChar_of_ascii hd, List.singleton_append] at hlater
              obtain ⟨hsecond, -⟩ := List.cons.inj hlater
              apply hwide
              rw [← hfirst, ← hsecond, toNat_toUInt8_of_ascii hc, toNat_toUInt8_of_ascii hd]
              exact ⟨hc, hd⟩
            · have hlength : (String.utf8EncodeChar d).length ≤ [b₂].length :=
                length_le_of_utf8EncodeChar_append hlater hd hp
              have hsize := two_le_utf8Size_of_not_ascii hd
              rw [String.length_utf8EncodeChar, List.length_singleton] at hlength
              omega
      · have hlength : (String.utf8EncodeChar c).length ≤ [b₁, b₂].length :=
          length_le_of_utf8EncodeChar_append h hc hp
        have hsize := two_le_utf8Size_of_not_ascii hc
        have htwo : (String.utf8EncodeChar c).length = [b₁, b₂].length := by
          rw [String.length_utf8EncodeChar] at hlength ⊢
          exact Nat.le_antisymm hlength hsize
        have hsplit : String.utf8EncodeChar c ++ encodeUtf8 (String.ofList later) =
            [b₁, b₂] ++ p :: rest := h
        obtain ⟨hwidth, hlater⟩ := List.append_inj hsplit htwo
        have hnext : ∀ b ∈ [p], b.toNat < 128 := List.forall_mem_singleton.mpr hp
        obtain ⟨more, rfl, -⟩ := exists_of_encodeUtf8_eq_append hlater hnext
        have hdigit : (Char.ofUInt8 p).toNat < 128 := by rwa [toNat_ofUInt8]
        have hfront : encodeUtf8 (String.ofList [c, Char.ofUInt8 p]) =
            [b₁, b₂] ++ [(Char.ofUInt8 p).toUInt8] := by
          rw [encodeUtf8_cons, hwidth, encodeUtf8_cons, utf8EncodeChar_of_ascii hdigit]
          rfl
        exact congrArg List.length hfront

theorem byteOffset_of_wide_register {text : List Char} {signal : UInt8} {address : UInt16}
    (hsignal : HasTrapSignal (encodeUtf8 (String.ofList text)) signal)
    (haddress : HasAddressAt (encodeUtf8 (String.ofList text)) 5 address)
    (hregister : ¬ HasAsciiRegister (encodeUtf8 (String.ofList text))) :
    byteOffset text 5 = 6 := by
  obtain ⟨s₁, s₂, later, rfl, hdigits, hthree⟩ := exists_of_hasTrapSignal hsignal
  obtain ⟨p₁, p₂, p₃, p₄, rest, hfive, haddress⟩ := haddress
  have hascii : p₁.toNat < 128 := ascii_of_denotes_characters haddress p₁ List.mem_cons_self
  rw [HasAsciiRegister, hthree] at hregister
  have hdrop : (encodeUtf8 (String.ofList later)).drop 2 = p₁ :: p₂ :: p₃ :: p₄ :: rest := by
    rw [← hthree, List.drop_drop]
    exact hfive
  rcases hlater : encodeUtf8 (String.ofList later) with _ | ⟨b₁, _ | ⟨b₂, more⟩⟩
  · rw [hlater] at hdrop
    cases hdrop
  · rw [hlater] at hdrop
    cases hdrop
  · rw [hlater] at hdrop hregister
    obtain rfl : more = p₁ :: p₂ :: p₃ :: p₄ :: rest := hdrop
    have hwide : ¬ (b₁.toNat < 128 ∧ b₂.toNat < 128) := by simpa using hregister
    have hpair := byteOffset_of_wide_pair hlater hascii hwide
    have hfront : ∀ c ∈ ['T', s₁, s₂], c.toNat < 128 := by
      rw [List.forall_mem_cons]
      exact ⟨by decide, hdigits.ascii⟩
    have hsplit : byteOffset ('T' :: s₁ :: s₂ :: later) 5 = 3 + byteOffset later 2 :=
      byteOffset_append hfront later 2
    rw [hsplit, hpair]

/-- The address of a trap reply is read from behind the first five characters of the payload, which
is at offset five if the register number is ASCII.  If it is not, but digits stand at offset five,
then the address is read from offset six. -/
theorem trap_address_behind_five_characters (payload : Bytes) (signal : UInt8) :
    (∀ address, decodeStop payload = .ok ⟨signal, some address⟩ ↔
      ∃ text, payload = encodeUtf8 (String.ofList text) ∧ HasTrapSignal payload signal ∧
        HasAddressAt payload (byteOffset text 5) address) ∧
      ∀ text, payload = encodeUtf8 (String.ofList text) → HasTrapSignal payload signal →
        (HasAsciiRegister payload → ∀ address,
          decodeStop payload = .ok ⟨signal, some address⟩ ↔ HasAddressAt payload 5 address) ∧
        (¬ HasAsciiRegister payload → ∀ address, HasAddressAt payload 5 address →
          byteOffset text 5 = 6 ∧ ∀ read,
            decodeStop payload = .ok ⟨signal, some read⟩ ↔ HasAddressAt payload 6 read) := by
  refine ⟨?_, ?_⟩
  · intro address
    constructor
    · intro h
      obtain ⟨part, rest, rfl, -⟩ := decodeStop_eq_ok_iff.mp h
      exact ⟨part ++ rest, rfl, decodeStop_eq_trap_iff.mp h⟩
    · rintro ⟨text, rfl, htrap⟩
      exact decodeStop_eq_trap_iff.mpr htrap
  · rintro text rfl hsignal
    refine ⟨?_, ?_⟩
    · intro hregister address
      rw [decodeStop_eq_trap_iff, hasAddressAt_five_iff hsignal hregister]
      exact and_iff_right hsignal
    · intro hregister address haddress
      have hsix := byteOffset_of_wide_register hsignal haddress hregister
      refine ⟨hsix, ?_⟩
      intro read
      rw [decodeStop_eq_trap_iff, hsix]
      exact and_iff_right hsignal

/-! ## A register number that is one character -/

/-- A trap reply with `é` for its register number and five digits behind it. -/
def wideRegister : List Char := ['T', '1', '1', 'é', '4', '0', '7', '0', 'B']

theorem encodeUtf8_wideRegister :
    encodeUtf8 (String.ofList wideRegister) =
      [0x54, 0x31, 0x31, 0xC3, 0xA9, 0x34, 0x30, 0x37, 0x30, 0x42] := by
  decide +kernel

theorem hasTrapSignal_wideRegister :
    HasTrapSignal (encodeUtf8 (String.ofList wideRegister)) 0x11 := by
  rw [encodeUtf8_wideRegister]
  exact ⟨_, _, _, rfl, [1, 1], by decide, by decide⟩

theorem hasAddressAt_wideRegister :
    HasAddressAt (encodeUtf8 (String.ofList wideRegister)) 5 0x4070 ∧
      HasAddressAt (encodeUtf8 (String.ofList wideRegister)) 6 0x070B := by
  rw [encodeUtf8_wideRegister]
  exact ⟨⟨_, _, _, _, _, rfl, [4, 0, 7, 0], by decide, by decide⟩,
    ⟨_, _, _, _, _, rfl, [0, 7, 0, 11], by decide, by decide⟩⟩

theorem not_hasAsciiRegister_wideRegister :
    ¬ HasAsciiRegister (encodeUtf8 (String.ofList wideRegister)) := by
  rw [encodeUtf8_wideRegister, HasAsciiRegister]
  intro hascii
  exact absurd (hascii 0xC3 (by decide)) (by decide)

/-- The digits `4070` stand at offset five, and `070B` is read. -/
theorem trap_address_of_wide_register :
    HasTrapSignal (encodeUtf8 (String.ofList wideRegister)) 0x11 ∧
      ¬ HasAsciiRegister (encodeUtf8 (String.ofList wideRegister)) ∧
      HasAddressAt (encodeUtf8 (String.ofList wideRegister)) 5 0x4070 ∧
      decodeStop (encodeUtf8 (String.ofList wideRegister)) = .ok ⟨0x11, some 0x070B⟩ := by
  obtain ⟨-, hread⟩ := trap_address_behind_five_characters
    (encodeUtf8 (String.ofList wideRegister)) 0x11
  obtain ⟨-, hwide⟩ := hread wideRegister rfl hasTrapSignal_wideRegister
  obtain ⟨hfive, hsix⟩ := hasAddressAt_wideRegister
  obtain ⟨-, hdecode⟩ := hwide not_hasAsciiRegister_wideRegister 0x4070 hfive
  exact ⟨hasTrapSignal_wideRegister, not_hasAsciiRegister_wideRegister, hfive,
    (hdecode 0x070B).mpr hsix⟩

/-- The address does not stand at a fixed byte offset: what is read need not stand there, and what
stands there need not be read. -/
theorem not_address_at_fixed_offset :
    (¬ ∀ payload signal address, decodeStop payload = .ok ⟨signal, some address⟩ →
      HasAddressAt payload 5 address) ∧
    ¬ ∀ text signal address, HasTrapSignal (encodeUtf8 (String.ofList text)) signal →
      HasAddressAt (encodeUtf8 (String.ofList text)) 5 address →
        decodeStop (encodeUtf8 (String.ofList text)) = .ok ⟨signal, some address⟩ := by
  obtain ⟨hfive, hsix⟩ := hasAddressAt_wideRegister
  have hoffset : byteOffset wideRegister 5 = 6 := by decide +kernel
  have hdecode : decodeStop (encodeUtf8 (String.ofList wideRegister)) =
      .ok ⟨0x11, some 0x070B⟩ := by
    rw [decodeStop_eq_trap_iff, hoffset]
    exact ⟨hasTrapSignal_wideRegister, hsix⟩
  have hne : (0x070B : UInt16) ≠ 0x4070 := by decide
  constructor
  · intro hfixed
    exact hne ((hfixed _ _ _ hdecode).unique hfive)
  · intro hfixed
    have hread := hfixed _ _ _ hasTrapSignal_wideRegister hfive
    rw [hdecode] at hread
    cases hread

end RemoteDebugger.Target
