import Mathlib.Data.List.Flatten
import RemoteDebugger.Proofs.Number.Digits
import RemoteDebugger.Target.Memory

/-!
# Dumps of memory

A dump shows bytes in groups of two with colons between them.  The groups are counted from the end,
so that of an odd number of bytes the first one stands alone.  `IsDump` says which texts the groups
are, and no others are; since they hold the digits of all bytes in order, a dump shows nothing but
its bytes.
-/

namespace RemoteDebugger.Target

/-! ## Groups of bytes -/

theorem flatten_pairs (bytes : Bytes) : (pairs bytes).flatten = bytes := by
  fun_induction pairs bytes with
  | case1 first second rest ih => simp [ih]
  | case2 single => rfl
  | case3 => rfl

theorem even_length_rest {first second : UInt8} {rest : Bytes}
    (h : (first :: second :: rest).length % 2 = 0) : rest.length % 2 = 0 := by
  simp only [List.length_cons] at h
  omega

/-- An even number of bytes falls into whole pairs. -/
theorem pairs_of_even {bytes : Bytes} (h : bytes.length % 2 = 0) :
    (pairs bytes).length = bytes.length / 2 ∧ ∀ group ∈ pairs bytes, group.length = 2 := by
  fun_induction pairs bytes with
  | case1 first second rest ih =>
      obtain ⟨hlength, hpairs⟩ := ih (even_length_rest h)
      refine ⟨?_, List.forall_mem_cons.mpr ⟨rfl, hpairs⟩⟩
      simp only [List.length_cons, hlength]
      omega
  | case2 single => simp at h
  | case3 => simp

/-- Pairs can be formed on either side of an even number of bytes. -/
theorem pairs_append {front : Bytes} (h : front.length % 2 = 0) (back : Bytes) :
    pairs (front ++ back) = pairs front ++ pairs back := by
  fun_induction pairs front with
  | case1 first second rest ih =>
      simp [pairs, ih (even_length_rest h)]
  | case2 single => simp at h
  | case3 => rfl

/-- The groups of two bytes that are met on the way from the end to the start. -/
def pairsFromEnd (bytes : Bytes) : List Bytes :=
  (pairs bytes.reverse).map List.reverse

theorem reverse_pairsFromEnd_of_even {bytes : Bytes} (h : bytes.length % 2 = 0) :
    (pairsFromEnd bytes).reverse = pairs bytes := by
  unfold pairsFromEnd
  fun_induction pairs bytes with
  | case1 first second rest ih =>
      have hrest := even_length_rest h
      have hreverse : rest.reverse.length % 2 = 0 := by rwa [List.length_reverse]
      have hsplit : (first :: second :: rest).reverse = rest.reverse ++ [second, first] := by simp
      rw [hsplit, pairs_append hreverse, List.map_append, List.reverse_append, ih hrest]
      rfl
  | case2 single => simp at h
  | case3 => rfl

/-- The groups of a dump are those from the end, in the order of the bytes. -/
theorem dumpGroups_eq (bytes : Bytes) : dumpGroups bytes = (pairsFromEnd bytes).reverse := by
  unfold dumpGroups
  split
  · next heven => exact (reverse_pairsFromEnd_of_even heven).symm
  · next hodd =>
      cases bytes with
      | nil => exact absurd rfl hodd
      | cons first rest =>
          have hrest : rest.length % 2 = 0 := by
            simp only [List.length_cons] at hodd
            omega
          have hreverse : rest.reverse.length % 2 = 0 := by rwa [List.length_reverse]
          have hpairs := reverse_pairsFromEnd_of_even hrest
          rw [pairsFromEnd, List.reverse_cons, pairs_append hreverse, List.map_append,
            List.reverse_append, ← pairsFromEnd, hpairs]
          rfl

theorem flatten_dumpGroups (bytes : Bytes) : (dumpGroups bytes).flatten = bytes := by
  unfold dumpGroups
  split
  · exact flatten_pairs bytes
  · rw [List.flatten_cons, flatten_pairs, List.take_append_drop]

theorem length_dumpGroups (bytes : Bytes) :
    (dumpGroups bytes).length = (bytes.length + 1) / 2 := by
  unfold dumpGroups
  split
  · next heven =>
      rw [(pairs_of_even heven).1]
      omega
  · next hodd =>
      have hrest : (bytes.drop 1).length % 2 = 0 := by
        rw [List.length_drop]
        omega
      rw [List.length_cons, (pairs_of_even hrest).1, List.length_drop]
      omega

/-- Only the first group of an odd number of bytes is a single byte. -/
theorem length_of_getElem?_dumpGroups {bytes group : Bytes} {index : Nat}
    (h : (dumpGroups bytes)[index]? = some group) :
    group.length = if index = 0 ∧ bytes.length % 2 = 1 then 1 else 2 := by
  unfold dumpGroups at h
  split at h
  · next heven =>
      rw [if_neg (by omega)]
      exact (pairs_of_even heven).2 group (List.mem_of_getElem? h)
  · next hodd =>
      have hrest : (bytes.drop 1).length % 2 = 0 := by
        rw [List.length_drop]
        omega
      cases index with
      | zero =>
          obtain rfl := Option.some.inj h
          rw [if_pos ⟨rfl, by omega⟩, List.length_take]
          omega
      | succ index =>
          rw [if_neg (by omega)]
          exact (pairs_of_even hrest).2 group (List.mem_of_getElem? h)

theorem ne_nil_of_mem_dumpGroups {bytes group : Bytes} (h : group ∈ dumpGroups bytes) :
    group ≠ [] := by
  obtain ⟨index, hindex⟩ := List.mem_iff_getElem?.mp h
  have hlength := length_of_getElem?_dumpGroups hindex
  rintro rfl
  split at hlength
  · cases hlength
  · cases hlength

/-! ## Groups of digits -/

/-- The digits of a dump. -/
def dumpDigits : List Char :=
  ['0', '1', '2', '3', '4', '5', '6', '7', '8', '9', 'a', 'b', 'c', 'd', 'e', 'f']

/-- The texts between the colons of a dump.  An empty dump has none. -/
def dumpFields (dump : String) : List (List Char) :=
  if dump.toList = [] then [] else dump.toList.splitOn ':'

/-- Texts are the groups of a dump: one for every two bytes, of four digits each, except that the
first has two if the number of bytes is odd; together they are the digits of all bytes in order. -/
structure IsDump (groups : List (List Char)) (bytes : Bytes) : Prop where
  length_eq : groups.length = (bytes.length + 1) / 2
  length_group : ∀ index group, groups[index]? = some group →
    group.length = if index = 0 ∧ bytes.length % 2 = 1 then 2 else 4
  digits : ∀ group ∈ groups, ∀ c ∈ group, c ∈ dumpDigits
  flatten_eq : groups.flatten = Hex.encode bytes

theorem mem_dumpDigits_of_mem_encode {bytes : Bytes} {c : Char} (h : c ∈ Hex.encode bytes) :
    c ∈ dumpDigits := by
  have all : ∀ value : Fin 16, Hex.digit .lower value ∈ dumpDigits := by decide
  obtain ⟨value, hvalue, rfl⟩ := Hex.exists_of_mem_flatMap_byte h
  exact all ⟨value, hvalue⟩

theorem encode_flatten (groups : List Bytes) :
    Hex.encode groups.flatten = (groups.map Hex.encode).flatten := by
  induction groups with
  | nil => rfl
  | cons group later ih =>
      rw [List.flatten_cons, List.map_cons, List.flatten_cons, ← ih]
      exact List.flatMap_append

theorem isDump_dumpGroups (bytes : Bytes) : IsDump ((dumpGroups bytes).map Hex.encode) bytes where
  length_eq := by rw [List.length_map, length_dumpGroups]
  length_group index group h := by
    rw [List.getElem?_map] at h
    obtain ⟨shown, hshown, rfl⟩ := Option.map_eq_some_iff.mp h
    rw [Hex.length_encode, length_of_getElem?_dumpGroups hshown]
    split <;> rfl
  digits group h c hc := by
    obtain ⟨shown, -, rfl⟩ := List.mem_map.mp h
    exact mem_dumpDigits_of_mem_encode hc
  flatten_eq := by rw [← encode_flatten, flatten_dumpGroups]

/-- No other texts are the groups of a dump of the same bytes. -/
theorem IsDump.unique {groups others : List (List Char)} {bytes : Bytes} (h : IsDump groups bytes)
    (hothers : IsDump others bytes) : groups = others := by
  refine List.eq_iff_flatten_eq.mpr ⟨h.flatten_eq.trans hothers.flatten_eq.symm, ?_⟩
  have hlength : groups.length = others.length := h.length_eq.trans hothers.length_eq.symm
  apply List.ext_getElem
  · rw [List.length_map, List.length_map, hlength]
  · intro index hleft hright
    rw [List.length_map] at hleft hright
    rw [List.getElem_map, List.getElem_map, h.length_group index _ (List.getElem?_eq_getElem hleft),
      hothers.length_group index _ (List.getElem?_eq_getElem hright)]

/-! ## Dumps -/

/-- The groups of a dump are found again between its colons. -/
theorem dumpFields_renderMemory (bytes : Bytes) :
    dumpFields (renderMemory bytes) = (dumpGroups bytes).map Hex.encode := by
  have hcolon : ∀ group ∈ (dumpGroups bytes).map Hex.encode, ':' ∉ group := by
    intro group hgroup hc
    have hdigit := (isDump_dumpGroups bytes).digits group hgroup ':' hc
    revert hdigit
    decide
  unfold dumpFields renderMemory
  rw [String.toList_ofList]
  cases hgroups : dumpGroups bytes with
  | nil => rfl
  | cons group later =>
      have hsplit := List.splitOn_intercalate ':' hcolon (by simp [hgroups])
      rw [hgroups] at hsplit
      rw [if_neg, hsplit]
      intro hempty
      -- an empty text has one empty part, but no group is empty
      rw [hempty, List.splitOn_nil, List.map_cons] at hsplit
      have hencode : Hex.encode group = [] := (List.cons.inj hsplit).1.symm
      have hnil : group = [] := by
        have hlength := Hex.length_encode group
        rw [hencode, List.length_nil] at hlength
        exact List.eq_nil_of_length_eq_zero (by omega)
      have hmem : group ∈ dumpGroups bytes := by rw [hgroups]; exact List.mem_cons_self
      exact ne_nil_of_mem_dumpGroups hmem hnil

theorem renderMemory_eq_empty_iff {bytes : Bytes} : renderMemory bytes = "" ↔ bytes = [] := by
  constructor
  · intro h
    have hfields := dumpFields_renderMemory bytes
    have hnone : dumpFields "" = [] := rfl
    rw [h, hnone] at hfields
    have hgroups : dumpGroups bytes = [] := List.map_eq_nil_iff.mp hfields.symm
    rw [← flatten_dumpGroups bytes, hgroups]
    rfl
  · rintro rfl
    rfl

/-- A dump is a faithful grouping of its bytes: the texts between its colons are the groups of two
bytes that are met from the end, put in order, and of no bytes there are none; the digits in them
are read back as the bytes, so that no two byte strings have the same dump. -/
theorem memory_dump_faithful (bytes : Bytes) :
    IsDump (dumpFields (renderMemory bytes)) bytes ∧
      (∀ groups, IsDump groups bytes → groups = dumpFields (renderMemory bytes)) ∧
      dumpFields (renderMemory bytes) = ((pairsFromEnd bytes).map Hex.encode).reverse ∧
      (renderMemory bytes = "" ↔ bytes = []) ∧
      Hex.decode (dumpFields (renderMemory bytes)).flatten = .ok bytes ∧
      ∀ other, renderMemory other = renderMemory bytes → other = bytes := by
  have hdump : ∀ shown, IsDump (dumpFields (renderMemory shown)) shown := by
    intro shown
    rw [dumpFields_renderMemory]
    exact isDump_dumpGroups shown
  have hdecode : ∀ shown, Hex.decode (dumpFields (renderMemory shown)).flatten = .ok shown := by
    intro shown
    rw [(hdump shown).flatten_eq, Hex.decode_encode]
  refine ⟨hdump bytes, fun groups hgroups => hgroups.unique (hdump bytes), ?_,
    renderMemory_eq_empty_iff, hdecode bytes, ?_⟩
  · rw [dumpFields_renderMemory, dumpGroups_eq, List.map_reverse]
  · intro other hsame
    have hother := hdecode other
    rw [hsame, hdecode bytes] at hother
    exact (Except.ok.inj hother).symm

/-- Of three bytes the first stands alone. -/
theorem memory_dump_of_odd :
    renderMemory [0x01, 0x02, 0xAB] = "01:02ab" ∧
      IsDump [['0', '1'], ['0', '2', 'a', 'b']] [0x01, 0x02, 0xAB] ∧
      ∀ other, renderMemory other = "01:02ab" → other = [0x01, 0x02, 0xAB] := by
  have hrendered : renderMemory [0x01, 0x02, 0xAB] = "01:02ab" := by decide
  obtain ⟨hdump, -, -, -, -, hunique⟩ := memory_dump_faithful [0x01, 0x02, 0xAB]
  have hfields : dumpFields "01:02ab" = [['0', '1'], ['0', '2', 'a', 'b']] := by decide
  rw [hrendered, hfields] at hdump
  rw [hrendered] at hunique
  exact ⟨hrendered, hdump, hunique⟩

end RemoteDebugger.Target
