import ContentSchema.Entries
import Mathlib.Data.List.Induction
import Mathlib.Data.List.Nodup
import Mathlib.Tactic.Common

/-!
# Repeated writes

What a run of writes leaves behind, told from the writes alone: the names are
those of the entries before and of the writes in order of first occurrence, and
the value of a name is made by the writes of that name one after another.  All
of `insertAll`, `ofList` and the merges of definitions are such runs.

The order statements need entries without a repeated name to start from; the
lookup statements do NOT.
-/

namespace ContentSchema
namespace Entries

variable {α β γ : Type}

/-! ## Names in order of first occurrence -/

theorem eraseDups_eq_self {names : List String} (h : names.Nodup) : names.eraseDups = names := by
  induction names with
  | nil => rfl
  | cons name rest ih =>
      obtain ⟨hName, hRest⟩ := List.nodup_cons.mp h
      have hKept : rest.filter (fun other => !other == name) = rest := by
        rw [List.filter_eq_self]
        intro other hMem
        have hOther : other ≠ name := fun hSame => hName (hSame ▸ hMem)
        simpa using hOther
      rw [List.eraseDups_cons, hKept, ih hRest]

theorem nodup_eraseDups (names : List String) : names.eraseDups.Nodup := by
  match names with
  | [] => exact List.nodup_nil
  | name :: rest =>
      have hShort : (rest.filter fun other => !other == name).length ≤ rest.length :=
        List.length_filter_le _ _
      rw [List.eraseDups_cons, List.nodup_cons, List.mem_eraseDups]
      exact ⟨by simp, nodup_eraseDups _⟩
termination_by names.length
decreasing_by simp only [List.length_cons]; omega

/-- A name that has occurred adds nothing to the names in order. -/
theorem eraseDups_append_cons_of_mem {names rest : List String} {name : String}
    (h : name ∈ names) : (names ++ name :: rest).eraseDups = (names ++ rest).eraseDups := by
  rw [List.eraseDups_append, List.eraseDups_append, List.cons_removeAll]
  simp [h]

/-- Names that have all occurred add nothing. -/
theorem eraseDups_append_of_subset {names more : List String} (h : ∀ name ∈ more, name ∈ names) :
    (names ++ more).eraseDups = names.eraseDups := by
  have hNone : more.removeAll names = [] := by
    rw [List.removeAll, List.filter_eq_nil_iff]
    intro name hName
    simp [h name hName]
  rw [List.eraseDups_append, hNone, List.eraseDups_nil, List.append_nil]

/-- Names that come first occur first. -/
theorem eraseDups_prefix {names more : List String} (h : names <+: more) :
    names.eraseDups <+: more.eraseDups := by
  obtain ⟨rest, rfl⟩ := h
  rw [List.eraseDups_append]
  exact List.prefix_append _ _

/-! ## Runs of writes -/

/-- Write every item of a list in turn. -/
def updateAll (name : γ → String) (f : γ → Option α → α) (items : List γ)
    (entries : Entries α) : Entries α :=
  items.foldl (fun acc item => update (name item) (f item) acc) entries

section UpdateAll

variable {name : γ → String} {f : γ → Option α → α}

@[simp] theorem updateAll_nil (entries : Entries α) : updateAll name f [] entries = entries := rfl

@[simp] theorem updateAll_cons (item : γ) (rest : List γ) (entries : Entries α) :
    updateAll name f (item :: rest) entries =
      updateAll name f rest (update (name item) (f item) entries) := rfl

theorem distinct_updateAll {items : List γ} {entries : Entries α} (h : Distinct entries) :
    Distinct (updateAll name f items entries) := by
  induction items generalizing entries with
  | nil => exact h
  | cons item rest ih => exact ih (distinct_update h)

/-- Names keep the order in which they first occur, before or in the writes. -/
theorem keys_updateAll {items : List γ} {entries : Entries α} (h : Distinct entries) :
    keys (updateAll name f items entries) = (keys entries ++ items.map name).eraseDups := by
  induction items generalizing entries with
  | nil => simpa using (eraseDups_eq_self h).symm
  | cons item rest ih =>
      rw [updateAll_cons, ih (distinct_update h), List.map_cons]
      by_cases hMem : name item ∈ keys entries
      · rw [keys_update_of_mem hMem, eraseDups_append_cons_of_mem hMem]
      · rw [keys_update_of_not_mem hMem, List.append_assoc, List.singleton_append]

/-- The value of a name is made by the writes of that name, one after another. -/
theorem lookup_updateAll (items : List γ) (entries : Entries α) (key : String) :
    (updateAll name f items entries).lookup key =
      (items.filter fun item => name item = key).foldl
        (fun present item => some (f item present)) (entries.lookup key) := by
  induction items generalizing entries with
  | nil => rfl
  | cons item rest ih =>
      rw [updateAll_cons, ih]
      by_cases hKey : name item = key
      · subst hKey
        simp [lookup_update_self]
      · have hOther : key ≠ name item := fun hSame => hKey hSame.symm
        simp [hKey, lookup_update_of_ne hOther]

/-- A name that is not written keeps its value. -/
theorem lookup_updateAll_of_not_mem {items : List γ} {key : String} (h : key ∉ items.map name)
    (entries : Entries α) : (updateAll name f items entries).lookup key = entries.lookup key := by
  have hNone : items.filter (fun item => name item = key) = [] := by
    rw [List.filter_eq_nil_iff]
    intro item hItem hKey
    exact h (List.mem_map.mpr ⟨item, hItem, by simpa using hKey⟩)
  rw [lookup_updateAll, hNone]
  rfl

end UpdateAll

theorem insertAll_eq_updateAll (entries additions : Entries α) :
    insertAll entries additions =
      updateAll Prod.fst (fun entry _ => entry.2) additions entries := rfl

/-- Of several values written under one name the last remains. -/
theorem lookup_insertAll (entries additions : Entries α) (key : String) :
    (insertAll entries additions).lookup key =
      ((additions.filter fun entry => entry.1 = key).getLast?.map Prod.snd).or
        (entries.lookup key) := by
  rw [insertAll_eq_updateAll, lookup_updateAll]
  induction additions.filter (fun entry => entry.1 = key) using List.reverseRecOn with
  | nil => rfl
  | append_singleton writes last _ => simp

theorem lookup_insertAll_of_not_mem {additions : Entries α} {key : String}
    (h : key ∉ keys additions) (entries : Entries α) :
    (insertAll entries additions).lookup key = entries.lookup key := by
  rw [insertAll_eq_updateAll]
  exact lookup_updateAll_of_not_mem h entries

theorem keys_insertAll {entries additions : Entries α} (h : Distinct entries) :
    keys (insertAll entries additions) = (keys entries ++ keys additions).eraseDups := by
  rw [insertAll_eq_updateAll, keys_updateAll h]
  rfl

theorem distinct_insertAll {entries additions : Entries α} (h : Distinct entries) :
    Distinct (insertAll entries additions) :=
  distinct_updateAll h

theorem mem_keys_insert_iff {entries : Entries α} {key name : String} {value : α} :
    key ∈ keys (insert name value entries) ↔ key = name ∨ key ∈ keys entries := by
  by_cases hName : name ∈ keys entries
  · rw [keys_insert_of_mem hName]
    constructor
    · exact .inr
    · rintro (rfl | hKey)
      · exact hName
      · exact hKey
  · rw [keys_insert_of_not_mem hName, List.mem_append, List.mem_singleton, or_comm]

/-- Names are only ever added. -/
theorem mem_keys_insertAll_iff {entries additions : Entries α} {key : String} :
    key ∈ keys (insertAll entries additions) ↔ key ∈ keys entries ∨ key ∈ keys additions := by
  induction additions generalizing entries with
  | nil => simp [insertAll]
  | cons entry rest ih =>
      show key ∈ keys (insertAll (insert entry.1 entry.2 entries) rest) ↔ _
      rw [ih, mem_keys_insert_iff, keys_cons, List.mem_cons]
      exact or_assoc.trans or_left_comm

theorem insertAll_append (entries first second : Entries α) :
    insertAll (insertAll entries first) second = insertAll entries (first ++ second) := by
  rw [insertAll, insertAll, insertAll, List.foldl_append]

/-- A new name goes to the end. -/
theorem update_of_not_mem {name : String} {f : Option α → α} {entries : Entries α}
    (h : name ∉ keys entries) : update name f entries = entries ++ [(name, f none)] := by
  induction entries with
  | nil => rfl
  | cons entry rest ih =>
      obtain ⟨key, present⟩ := entry
      rw [keys_cons, List.mem_cons, not_or] at h
      rw [update, if_neg (Ne.symm h.1), ih h.2, List.cons_append]

theorem insert_of_not_mem {name : String} {value : α} {entries : Entries α}
    (h : name ∉ keys entries) : insert name value entries = entries ++ [(name, value)] :=
  update_of_not_mem h

/-- A name that is not repeated does not stand in front of its entry. -/
theorem not_mem_keys_of_distinct_append {before after : Entries α} {entry : String × α}
    (h : Distinct (before ++ entry :: after)) : entry.1 ∉ keys before := by
  intro hMem
  rw [Distinct, keys, List.map_append, List.nodup_append] at h
  exact h.2.2 entry.1 hMem entry.1 (by simp) rfl

/-- Names that are all new and different go to the end in order. -/
theorem insertAll_eq_append {entries additions : Entries α} (h : Distinct (entries ++ additions)) :
    insertAll entries additions = entries ++ additions := by
  induction additions generalizing entries with
  | nil => exact (List.append_nil entries).symm
  | cons entry rest ih =>
      have hNew := not_mem_keys_of_distinct_append h
      have hMoved : entries ++ entry :: rest = (entries ++ [entry]) ++ rest := by simp
      rw [hMoved] at h ⊢
      show insertAll (insert entry.1 entry.2 entries) rest = _
      rw [insert_of_not_mem hNew, ih h]

theorem ofList_eq_self {entries : Entries α} (h : Distinct entries) : ofList entries = entries :=
  insertAll_eq_append h

theorem distinct_nil : Distinct ([] : Entries α) := List.nodup_nil

theorem distinct_ofList (additions : List (String × α)) : Distinct (ofList additions) :=
  distinct_insertAll distinct_nil

theorem keys_ofList (additions : List (String × α)) :
    keys (ofList additions) = (additions.map Prod.fst).eraseDups := by
  rw [ofList, keys_insertAll distinct_nil]
  rfl

/-! ## Membership and lookup -/

theorem mem_keys_iff {entries : Entries α} {key : String} :
    key ∈ keys entries ↔ ∃ value, entries.lookup key = some value := by
  rw [← Option.isSome_iff_exists, List.lookup_isSome_iff]
  simp [keys]

/-- Nothing is found under a name that is not listed. -/
theorem lookup_eq_none_iff {entries : Entries α} {key : String} :
    entries.lookup key = none ↔ key ∉ keys entries := by
  rw [mem_keys_iff, ← Option.isSome_iff_exists, Bool.not_eq_true, Option.isSome_eq_false_iff,
    Option.isNone_iff_eq_none]

/-- A name in front does not repeat when it is not found after. -/
theorem distinct_cons_iff {name : String} {value : α} {rest : Entries α} :
    Distinct ((name, value) :: rest) ↔ (rest.lookup name).isSome = false ∧ Distinct rest := by
  rw [Distinct, keys_cons, List.nodup_cons, mem_keys_iff, ← Option.isSome_iff_exists,
    Bool.not_eq_true]
  rfl

theorem mem_of_lookup {entries : Entries α} {key : String} {value : α}
    (h : entries.lookup key = some value) : (key, value) ∈ entries := by
  obtain ⟨before, after, rfl, _⟩ := List.lookup_eq_some_iff.mp h
  simp

/-- Where no name repeats, what is listed is what is found. -/
theorem mem_iff_lookup {entries : Entries α} (h : Distinct entries) {key : String} {value : α} :
    (key, value) ∈ entries ↔ entries.lookup key = some value := by
  refine ⟨fun hMem => ?_, mem_of_lookup⟩
  induction entries with
  | nil => simp at hMem
  | cons entry rest ih =>
      obtain ⟨first, present⟩ := entry
      obtain ⟨hFirst, hRest⟩ := List.nodup_cons.mp h
      rcases List.mem_cons.mp hMem with hSame | hTail
      · cases hSame
        simp
      · have hKey : key ≠ first := by
          rintro rfl
          exact hFirst (List.mem_map.mpr ⟨_, hTail, rfl⟩)
        have hFalse : (key == first) = false := by simp [hKey]
        rw [List.lookup_cons, hFalse]
        exact ih hRest hTail

theorem distinct_iff_of_perm {first second : Entries α} (hPerm : first.Perm second) :
    Distinct first ↔ Distinct second :=
  (hPerm.map Prod.fst).nodup_iff

/-- Where no name repeats, the order does not matter to what is found. -/
theorem lookup_eq_of_perm {first second : Entries α} (hPerm : first.Perm second)
    (hDistinct : Distinct first) (name : String) : first.lookup name = second.lookup name := by
  have hOther : Distinct second := (distinct_iff_of_perm hPerm).mp hDistinct
  refine Option.ext fun value => ?_
  rw [← mem_iff_lookup hDistinct, ← mem_iff_lookup hOther]
  exact hPerm.mem_iff

/-- Where no name repeats, a name is listed at most once. -/
theorem filter_name_eq {entries : Entries α} (h : Distinct entries) (key : String) :
    (entries.filter fun entry => entry.1 = key) =
      ((entries.lookup key).map fun value => (key, value)).toList := by
  induction entries with
  | nil => rfl
  | cons entry rest ih =>
      obtain ⟨first, present⟩ := entry
      obtain ⟨hFirst, hRest⟩ := List.nodup_cons.mp h
      by_cases hKey : first = key
      · subst hKey
        simp [ih hRest, lookup_eq_none_iff.mpr hFirst]
      · have hFalse : (key == first) = false := by simp [Ne.symm hKey]
        simp [hKey, ih hRest, List.lookup_cons, hFalse]

/-- Items appended under a name follow the ones that are there, in order. -/
theorem getD_lookup_foldl_append (additions : List (String × α)) (entries : Entries (List α))
    (key : String) :
    ((additions.foldl (fun kept entry => append entry.1 entry.2 kept) entries).lookup key).getD [] =
      (entries.lookup key).getD [] ++
        (additions.filter fun entry => entry.1 = key).map Prod.snd := by
  have hFold (items : List (String × α)) (start : Option (List α)) :
      (items.foldl (fun present item => some (present.getD [] ++ [item.2])) start).getD [] =
        start.getD [] ++ items.map Prod.snd := by
    induction items generalizing start with
    | nil => simp
    | cons item rest ih =>
        rw [List.foldl_cons, ih]
        simp
  show ((updateAll Prod.fst (fun entry present => present.getD [] ++ [entry.2]) additions
    entries).lookup key).getD [] = _
  rw [lookup_updateAll, hFold]

/-- Items appended under one name are kept in order. -/
theorem getD_lookup_appendAll (additions : List (String × α)) (key : String) :
    ((additions.foldl (fun kept entry => append entry.1 entry.2 kept) []).lookup key).getD [] =
      (additions.filter fun entry => entry.1 = key).map Prod.snd :=
  getD_lookup_foldl_append additions [] key

/-- A name that does not stand in front is written after what does. -/
theorem update_append_of_not_mem {name : String} {f : Option α → α} {before : Entries α}
    (h : name ∉ keys before) (after : Entries α) :
    update name f (before ++ after) = before ++ update name f after := by
  induction before with
  | nil => rfl
  | cons entry rest ih =>
      obtain ⟨key, present⟩ := entry
      rw [keys_cons, List.mem_cons, not_or] at h
      rw [List.cons_append, update, if_neg (Ne.symm h.1), ih h.2, List.cons_append]

/-- Items that are all appended under a new name become one list at the end. -/
theorem foldl_append_of_name {name : String} {entries : Entries (List α)}
    (hNew : name ∉ keys entries) {items : List α} (hItems : items ≠ []) :
    (items.map fun item => (name, item)).foldl
      (fun kept entry => append entry.1 entry.2 kept) entries = entries ++ [(name, items)] := by
  have hMore (listed rest : List α) : (rest.map fun item => (name, item)).foldl
      (fun kept entry => append entry.1 entry.2 kept) (entries ++ [(name, listed)]) =
        entries ++ [(name, listed ++ rest)] := by
    induction rest generalizing listed with
    | nil => simp
    | cons item rest ih =>
        have hAppend : append name item (entries ++ [(name, listed)]) =
            entries ++ [(name, listed ++ [item])] := by
          rw [append, update_append_of_not_mem hNew]
          simp [update]
        rw [List.map_cons, List.foldl_cons, hAppend, ih, List.append_assoc]
        rfl
  cases items with
  | nil => contradiction
  | cons item rest =>
      have hFirst : append name item entries = entries ++ [(name, [item])] :=
        update_of_not_mem hNew
      rw [List.map_cons, List.foldl_cons, hFirst]
      exact hMore [item] rest

/-- Items that are all appended under one name become one list. -/
theorem appendAll_of_name (name : String) {items : List α} (hItems : items ≠ []) :
    (items.map fun item => (name, item)).foldl
      (fun entries entry => append entry.1 entry.2 entries) [] = [(name, items)] :=
  foldl_append_of_name (by simp) hItems

theorem lookup_insertAll_of_distinct {additions : Entries α} (h : Distinct additions)
    (entries : Entries α) (key : String) :
    (insertAll entries additions).lookup key =
      (additions.lookup key).or (entries.lookup key) := by
  rw [lookup_insertAll, filter_name_eq h]
  cases additions.lookup key <;> rfl

/-- What is listed was there before or was written. -/
theorem mem_of_mem_insertAll {entries additions : Entries α} (h : Distinct entries)
    {entry : String × α} (hEntry : entry ∈ insertAll entries additions) :
    entry ∈ entries ∨ entry ∈ additions := by
  obtain ⟨key, value⟩ := entry
  have hLookup := (mem_iff_lookup (distinct_insertAll h)).mp hEntry
  rw [lookup_insertAll, Option.or_eq_some_iff, Option.map_eq_some_iff] at hLookup
  rcases hLookup with ⟨⟨name, written⟩, hLast, rfl⟩ | ⟨_, hBefore⟩
  · obtain ⟨hMem, hName⟩ := List.mem_filter.mp (List.mem_of_getLast? hLast)
    have hName : name = key := by simpa using hName
    exact .inr (hName ▸ hMem)
  · exact .inl (mem_of_lookup hBefore)

/-- Nothing is listed that was not written. -/
theorem mem_of_mem_ofList {additions : List (String × α)} {entry : String × α}
    (h : entry ∈ ofList additions) : entry ∈ additions :=
  (mem_of_mem_insertAll distinct_nil h).resolve_left List.not_mem_nil

theorem lookup_mapValues (f : α → β) (entries : Entries α) (key : String) :
    (mapValues f entries).lookup key = (entries.lookup key).map f := by
  induction entries with
  | nil => rfl
  | cons entry rest ih =>
      obtain ⟨name, value⟩ := entry
      rw [mapValues, List.map_cons, List.lookup_cons, List.lookup_cons]
      cases key == name with
      | true => rfl
      | false => exact ih

/-- A search among values that succeeds only under one name finds what it finds
there. -/
theorem findSome?_values {entries : Entries α} {f : α → Option β} {key : String}
    {found : Option β}
    (hEntries :
      ∀ name value, (name, value) ∈ entries → f value = if name = key then found else none)
    (hKey : found.isSome → key ∈ keys entries) : (values entries).findSome? f = found := by
  induction entries with
  | nil =>
      have hNone : found = none := by simpa using hKey
      rw [hNone]
      rfl
  | cons entry rest ih =>
      obtain ⟨name, value⟩ := entry
      have hHere := hEntries name value List.mem_cons_self
      have hRest := ih fun name value hMem => hEntries name value (List.mem_cons_of_mem _ hMem)
      rw [values, List.map_cons, List.findSome?_cons, hHere]
      show (match if name = key then found else none with
        | some b => some b
        | none => (values rest).findSome? f) = found
      by_cases hName : name = key
      · rw [if_pos hName]
        cases found with
        | some b => rfl
        | none => exact hRest (by simp)
      · rw [if_neg hName]
        apply hRest
        intro hSome
        exact (List.mem_cons.mp (hKey hSome)).resolve_left (Ne.symm hName)

end Entries
end ContentSchema
