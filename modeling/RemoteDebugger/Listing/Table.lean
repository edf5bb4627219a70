/-!
# Tables in the order of the latest changes

A table maps names to values and lists them in the order in which they were last changed: an entry
that is changed becomes the last one.  `find?_update` and `names_update` say what a change does to
the values and to the order.
-/

namespace RemoteDebugger.Listing

/-- Values by name, in the order of their latest changes. -/
structure Table (α : Type) where
  entries : List (String × α) := []
  distinct : (entries.map Prod.fst).Nodup := by simp

namespace Table

variable {α : Type}

/-- Change the value of a name, or give it a first one, and put it last. -/
def changeLast (name : String) (change : Option α → α) :
    List (String × α) → List (String × α)
  | [] => [(name, change none)]
  | (other, value) :: rest =>
    if other = name then rest ++ [(name, change (some value))]
    else (other, value) :: changeLast name change rest

theorem names_changeLast (name : String) (change : Option α → α) {entries : List (String × α)}
    (distinct : (entries.map Prod.fst).Nodup) :
    (changeLast name change entries).map Prod.fst =
      (entries.map Prod.fst).filter (· ≠ name) ++ [name] := by
  induction entries with
  | nil => rfl
  | cons head rest ih =>
    obtain ⟨hnotin, hrest⟩ := List.nodup_cons.1 distinct
    unfold changeLast
    split
    · next h =>
      have hself : (rest.map Prod.fst).filter (· ≠ name) = rest.map Prod.fst :=
        List.filter_eq_self.2 fun other hother => by
          have hne : other ≠ name := fun he => hnotin (by simpa [h, ← he] using hother)
          simpa using hne
      simp only [List.map_append, List.map_cons, List.map_nil, List.filter_cons, h, ne_eq,
        not_true_eq_false, decide_false, Bool.false_eq_true, if_false]
      exact congrArg (· ++ [name]) hself.symm
    · next h =>
      simp only [List.map_cons, ih hrest, List.filter_cons, h, ne_eq, not_false_eq_true,
        decide_true, if_true, List.cons_append]

theorem lookup_changeLast (name other : String) (change : Option α → α)
    {entries : List (String × α)} (distinct : (entries.map Prod.fst).Nodup) :
    (changeLast name change entries).lookup other =
      if other = name then some (change (entries.lookup name)) else entries.lookup other := by
  induction entries with
  | nil =>
    by_cases h : other = name
    · simp [changeLast, h]
    · have hbeq : (other == name) = false := by simpa using h
      simp [changeLast, List.lookup_cons, h, hbeq]
  | cons head rest ih =>
    obtain ⟨first, value⟩ := head
    obtain ⟨hnotin, hrest⟩ := List.nodup_cons.1 distinct
    by_cases hfirst : first = name
    · subst hfirst
      have habsent : rest.lookup first = none := by
        rw [List.lookup_eq_none_iff]
        intro entry hmem
        have hkey : entry.1 ∈ rest.map Prod.fst := List.mem_map_of_mem hmem
        simpa using fun he : first = entry.1 => hnotin (he ▸ hkey)
      by_cases h : other = first
      · subst h
        simp [changeLast, List.lookup_append, habsent]
      · have hbeq : (other == first) = false := by simpa using h
        simp [changeLast, List.lookup_append, List.lookup_cons, h, hbeq]
    · have hbeq : (name == first) = false := by simpa using fun he : name = first => hfirst he.symm
      by_cases h : other = first
      · subst h
        simp [changeLast, hfirst]
      · have hbeq' : (other == first) = false := by simpa using h
        simp [changeLast, hfirst, List.lookup_cons, hbeq, hbeq', ih hrest]

/-- Change the value of a name, or give it a first one. -/
def update (table : Table α) (name : String) (change : Option α → α) : Table α where
  entries := changeLast name change table.entries
  distinct := by
    rw [names_changeLast name change table.distinct, List.nodup_append]
    refine ⟨table.distinct.filter _, by simp, ?_⟩
    rintro other hother last hlast rfl
    have := (List.mem_filter.1 hother).2
    simp_all

/-- The value of a name. -/
def find? (table : Table α) (name : String) : Option α :=
  table.entries.lookup name

/-- All names, in order. -/
def names (table : Table α) : List String :=
  table.entries.map Prod.fst

/-- The value of the first name. -/
def first? (table : Table α) : Option α :=
  table.entries.head?.map Prod.snd

/-- A change concerns one name only. -/
theorem find?_update (table : Table α) (name other : String) (change : Option α → α) :
    (table.update name change).find? other =
      if other = name then some (change (table.find? name)) else table.find? other :=
  lookup_changeLast name other change table.distinct

/-- A change puts its name last and keeps the order of all others. -/
theorem names_update (table : Table α) (name : String) (change : Option α → α) :
    (table.update name change).names = table.names.filter (· ≠ name) ++ [name] :=
  names_changeLast name change table.distinct

end Table

end RemoteDebugger.Listing
