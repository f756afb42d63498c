/-!
# Entries in insertion order

Names paired with values, listed in the order in which the names were first
written.  Writing a name that is already present replaces its value and keeps
its place; a new name goes to the end.  Every table, column set and object of
this library is listed this way, and that order is part of its meaning.

The representation does NOT forbid a repeated name: a text that repeats one is
read into entries first and judged afterwards.  `Entries.Distinct` says that no
name is repeated, and the operations below keep it.
-/

namespace ContentSchema

/-- Named values in the order in which their names were first written. -/
abbrev Entries (α : Type) := List (String × α)

namespace Entries

variable {α β : Type}

/-- The names, in order. -/
def keys (entries : Entries α) : List String :=
  entries.map Prod.fst

/-- The values, in order. -/
def values (entries : Entries α) : List α :=
  entries.map Prod.snd

/-- No name is written twice. -/
def Distinct (entries : Entries α) : Prop :=
  (keys entries).Nodup

instance (entries : Entries α) : Decidable (Distinct entries) :=
  inferInstanceAs (Decidable (List.Nodup (keys entries)))

/-- Whether the name is present. -/
def contains (entries : Entries α) (name : String) : Bool :=
  (entries.lookup name).isSome

/-- Give `name` the value that `f` makes of its present one, in place if there
is one and at the end otherwise. -/
def update (name : String) (f : Option α → α) : Entries α → Entries α
  | [] => [(name, f none)]
  | (key, value) :: rest =>
      if key = name then (key, f (some value)) :: rest
      else (key, value) :: update name f rest

/-- Write `value` under `name`. -/
def insert (name : String) (value : α) (entries : Entries α) : Entries α :=
  update name (fun _ => value) entries

/-- Write `value` under `name` unless the name is present. -/
def insertNew (name : String) (value : α) (entries : Entries α) : Entries α :=
  update name (fun present => present.getD value) entries

/-- Write each of `additions` in turn. -/
def insertAll (entries additions : Entries α) : Entries α :=
  additions.foldl (fun acc entry => insert entry.1 entry.2 acc) entries

/-- Write a list of named values into an empty set of entries. -/
def ofList (additions : List (String × α)) : Entries α :=
  insertAll [] additions

/-- Append `item` to the list kept under `name`. -/
def append (name : String) (item : α) (entries : Entries (List α)) : Entries (List α) :=
  update name (fun present => present.getD [] ++ [item]) entries

/-- Apply `f` to every value. -/
def mapValues (f : α → β) (entries : Entries α) : Entries β :=
  entries.map fun entry => (entry.1, f entry.2)

@[simp] theorem keys_nil : keys ([] : Entries α) = [] := rfl

@[simp] theorem keys_cons (name : String) (value : α) (rest : Entries α) :
    keys ((name, value) :: rest) = name :: keys rest := rfl

@[simp] theorem keys_mapValues (f : α → β) (entries : Entries α) :
    keys (mapValues f entries) = keys entries := by
  simp [keys, mapValues]

/-- A present name keeps its place. -/
theorem keys_update_of_mem {name : String} {f : Option α → α} {entries : Entries α}
    (h : name ∈ keys entries) : keys (update name f entries) = keys entries := by
  induction entries with
  | nil => simp at h
  | cons entry rest ih =>
      obtain ⟨key, value⟩ := entry
      by_cases hHere : key = name
      · simp [update, hHere]
      · have hRest : name ∈ keys rest := by
          simpa [Ne.symm hHere] using h
        simp [update, hHere, ih hRest]

/-- A new name goes to the end. -/
theorem keys_update_of_not_mem {name : String} {f : Option α → α} {entries : Entries α}
    (h : name ∉ keys entries) : keys (update name f entries) = keys entries ++ [name] := by
  induction entries with
  | nil => rfl
  | cons entry rest ih =>
      obtain ⟨key, value⟩ := entry
      have hOther : key ≠ name := fun hSame => h (by simp [hSame])
      have hRest : name ∉ keys rest := fun hMem => h (by simp [hMem])
      simp [update, hOther, ih hRest]

theorem distinct_update {name : String} {f : Option α → α} {entries : Entries α}
    (h : Distinct entries) : Distinct (update name f entries) := by
  by_cases hMem : name ∈ keys entries
  · simpa [Distinct, keys_update_of_mem hMem] using h
  · rw [Distinct, keys_update_of_not_mem hMem, List.nodup_append]
    refine ⟨h, by simp, fun key hKey other hOther => ?_⟩
    rw [List.mem_singleton.mp hOther]
    rintro rfl
    exact hMem hKey

/-- The updated name is found with its new value. -/
theorem lookup_update_self (name : String) (f : Option α → α) (entries : Entries α) :
    (update name f entries).lookup name = some (f (entries.lookup name)) := by
  induction entries with
  | nil => simp [update]
  | cons entry rest ih =>
      obtain ⟨key, value⟩ := entry
      by_cases hHere : key = name
      · simp [update, hHere]
      · have hFalse : (name == key) = false := by simp [Ne.symm hHere]
        simp [update, hHere, List.lookup_cons, hFalse, ih]

/-- Every other name keeps its value. -/
theorem lookup_update_of_ne {name other : String} (h : other ≠ name) (f : Option α → α)
    (entries : Entries α) : (update name f entries).lookup other = entries.lookup other := by
  have hFalse : (other == name) = false := by simp [h]
  induction entries with
  | nil => simp [update, List.lookup_cons, hFalse]
  | cons entry rest ih =>
      obtain ⟨key, value⟩ := entry
      by_cases hHere : key = name
      · simp [update, hHere, List.lookup_cons, hFalse]
      · simp [update, hHere, List.lookup_cons, ih]

theorem keys_insert_of_mem {name : String} {value : α} {entries : Entries α}
    (h : name ∈ keys entries) : keys (insert name value entries) = keys entries :=
  keys_update_of_mem h

theorem keys_insert_of_not_mem {name : String} {value : α} {entries : Entries α}
    (h : name ∉ keys entries) : keys (insert name value entries) = keys entries ++ [name] :=
  keys_update_of_not_mem h

@[simp] theorem lookup_insert_self (name : String) (value : α) (entries : Entries α) :
    (insert name value entries).lookup name = some value :=
  lookup_update_self name _ entries

theorem lookup_insert_of_ne {name other : String} (h : other ≠ name) (value : α)
    (entries : Entries α) : (insert name value entries).lookup other = entries.lookup other :=
  lookup_update_of_ne h _ entries

end Entries

end ContentSchema
