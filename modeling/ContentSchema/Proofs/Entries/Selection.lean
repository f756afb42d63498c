import ContentSchema.Proofs.Entries.Writes

/-!
# Known and unknown names

A reader that knows some names takes the entries under them and may keep the rest
as they stand.  Nothing is lost between the two parts: both keep the order of the
entries, and a known name finds among the known entries what it found before.

A writer goes the other way: it has a table with a slot for every name that it knows, and
writes the slots that have a value.

Neither part says how often a name may occur; that is NOT judged here.
-/

namespace ContentSchema
namespace Entries

variable {α β : Type}

/-- The entries that have one of these names, in order. -/
def among (names : List String) (entries : Entries α) : Entries α :=
  entries.filter fun entry => names.contains entry.1

/-- The entries that have none of these names, in order. -/
def outside (names : List String) (entries : Entries α) : Entries α :=
  entries.filter fun entry => !names.contains entry.1

section Selection

variable {names : List String} {entries first second : Entries α} {name : String} {value : α}

theorem among_cons_of_mem (h : name ∈ names) :
    among names ((name, value) :: entries) = (name, value) :: among names entries :=
  List.filter_cons_of_pos (by simpa using h)

theorem among_cons_of_not_mem (h : name ∉ names) :
    among names ((name, value) :: entries) = among names entries :=
  List.filter_cons_of_neg (by simpa using h)

theorem outside_cons_of_mem (h : name ∈ names) :
    outside names ((name, value) :: entries) = outside names entries :=
  List.filter_cons_of_neg (by simpa using h)

theorem outside_cons_of_not_mem (h : name ∉ names) :
    outside names ((name, value) :: entries) = (name, value) :: outside names entries :=
  List.filter_cons_of_pos (by simpa using h)

theorem not_mem_of_mem_keys_outside (h : name ∈ keys (outside names entries)) : name ∉ names := by
  obtain ⟨entry, hEntry, rfl⟩ := List.mem_map.mp h
  simpa using (List.mem_filter.mp hEntry).2

theorem distinct_among (h : Distinct entries) : Distinct (among names entries) :=
  h.sublist (List.filter_sublist.map Prod.fst)

theorem distinct_outside (h : Distinct entries) : Distinct (outside names entries) :=
  h.sublist (List.filter_sublist.map Prod.fst)

/-- Entries that are selected by their names are found as before. -/
theorem lookup_filter_name (keeps : String → Bool) (entries : Entries α) (key : String) :
    (entries.filter fun entry => keeps entry.1).lookup key =
      if keeps key then entries.lookup key else none := by
  induction entries with
  | nil => simp
  | cons entry rest ih =>
      obtain ⟨first, value⟩ := entry
      rw [List.filter_cons]
      by_cases hHere : key = first
      · subst hHere
        by_cases hKept : keeps key <;> simp [hKept, ih]
      · have hOther : (key == first) = false := by simpa using hHere
        by_cases hKept : keeps first <;> simp [hKept, List.lookup_cons, hOther, ih]

/-- A known name finds among the known entries what it finds among all. -/
theorem lookup_among (h : name ∈ names) :
    (among names entries).lookup name = entries.lookup name := by
  rw [among, lookup_filter_name names.contains, if_pos (by simpa using h)]

/-- A known name in front does not repeat when it is not found after. -/
theorem distinct_among_cons_iff (h : name ∈ names) :
    Distinct (among names ((name, value) :: entries)) ↔
      (entries.lookup name).isSome = false ∧ Distinct (among names entries) := by
  rw [among_cons_of_mem h, distinct_cons_iff, lookup_among h]

/-- Where no known name repeats, none of them is found after it was listed. -/
theorem distinct_among_cons (hDistinct : Distinct (among names ((name, value) :: entries))) :
    (name ∈ names → entries.lookup name = none) ∧ Distinct (among names entries) := by
  by_cases hName : name ∈ names
  · obtain ⟨hNew, hRest⟩ := (distinct_among_cons_iff hName).mp hDistinct
    exact ⟨fun _ => by simpa using hNew, hRest⟩
  · rw [among_cons_of_not_mem hName] at hDistinct
    exact ⟨fun hKnown => absurd hKnown hName, hDistinct⟩

/-- A name that is not known finds among the others what it finds among all. -/
theorem lookup_outside (h : name ∉ names) :
    (outside names entries).lookup name = entries.lookup name := by
  rw [outside, lookup_filter_name fun key => !names.contains key, if_pos (by simpa using h)]

/-- Where known entries come first, the known entries are those. -/
theorem among_append (hFirst : ∀ key ∈ keys first, key ∈ names)
    (hSecond : ∀ key ∈ keys second, key ∉ names) : among names (first ++ second) = first := by
  have hKept : among names first = first :=
    List.filter_eq_self.mpr fun entry hEntry => by
      simpa using hFirst entry.1 (List.mem_map_of_mem hEntry)
  have hDropped : among names second = [] :=
    List.filter_eq_nil_iff.mpr fun entry hEntry => by
      simpa using hSecond entry.1 (List.mem_map_of_mem hEntry)
  rw [among, List.filter_append]
  show among names first ++ among names second = first
  rw [hKept, hDropped, List.append_nil]

/-- Where known entries come first, the others are those that come after. -/
theorem outside_append (hFirst : ∀ key ∈ keys first, key ∈ names)
    (hSecond : ∀ key ∈ keys second, key ∉ names) : outside names (first ++ second) = second := by
  have hDropped : outside names first = [] :=
    List.filter_eq_nil_iff.mpr fun entry hEntry => by
      simpa using hFirst entry.1 (List.mem_map_of_mem hEntry)
  have hKept : outside names second = second :=
    List.filter_eq_self.mpr fun entry hEntry => by
      simpa using hSecond entry.1 (List.mem_map_of_mem hEntry)
  rw [outside, List.filter_append]
  show outside names first ++ outside names second = second
  rw [hKept, hDropped, List.nil_append]

end Selection

/-! ## Entries that are there -/

section Present

variable {slots : List (String × Option α)} {name : String} {value : Option α}

/-- The entries of a table whose values are there, in order. -/
def present (slots : List (String × Option α)) : Entries α :=
  slots.filterMap fun slot => slot.2.map fun value => (slot.1, value)

@[simp] theorem present_nil : present ([] : List (String × Option α)) = [] := rfl

theorem present_append (first second : List (String × Option α)) :
    present (first ++ second) = present first ++ present second :=
  List.filterMap_append

theorem keys_present_sublist : (keys (present slots)).Sublist (slots.map Prod.fst) := by
  induction slots with
  | nil => exact List.Sublist.slnil
  | cons slot rest ih =>
      obtain ⟨name, value⟩ := slot
      cases value with
      | none => exact ih.cons name
      | some value => exact ih.cons_cons name

theorem mem_present_iff {written : α} :
    (name, written) ∈ present slots ↔ (name, some written) ∈ slots := by
  simp [present]

/-- Where no name of the table repeats, a name has the value of its slot, if it is there. -/
theorem lookup_present (hNames : (slots.map Prod.fst).Nodup) (hSlot : (name, value) ∈ slots) :
    (present slots).lookup name = value := by
  have hDistinct : Distinct (present slots) := hNames.sublist keys_present_sublist
  cases value with
  | some written => exact (mem_iff_lookup hDistinct).mp (mem_present_iff.mpr hSlot)
  | none =>
      by_contra hFound
      obtain ⟨written, hWritten⟩ := Option.ne_none_iff_exists'.mp hFound
      have hOther := mem_present_iff.mp (mem_of_lookup hWritten)
      have hSame := List.inj_on_of_nodup_map hNames hSlot hOther rfl
      cases hSame

end Present
end Entries
end ContentSchema
