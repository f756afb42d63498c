import ContentSchema.Proofs.Document.Settings

/-!
# Table settings by name

Settings are read by walking all entries, but what is read depends on nothing but
what stands under the name of each setting.

* `TableSettings.not_mem_names_iff` says that the listed names are those that are read:
  an entry of any other name is passed over, whatever it holds.
* `TableSettings.ReadFrom` says what is read under each name, and
  `TableSettings.decodeEntries_eq_ok_iff` that this is all the walks over entries do.
* `TableSettings.decodeEntries_perm` leaves the order out.

What is wrong with settings is NOT told by name alone: of several faults one is named,
and which one depends on the order of the entries.
-/

namespace ContentSchema

open Datum (Slots)

/-! ## Slots by name -/

namespace Datum.Slots

variable {α : Type} {field name : String} {d : Datum} {rest : List (String × Datum)} {default : α}
  {read : Datum → Except DecodeError α}

/-- What a field is read as depends on what stands under its name. -/
theorem withDefault_congr {first second : Slots}
    (hSame : first.found.lookup field = second.found.lookup field) :
    first.withDefault field default read = second.withDefault field default read := by
  rw [withDefault, withDefault, hSame]

theorem withDefault_of_lookup_eq_none {slots : Slots} (hNone : slots.found.lookup field = none) :
    slots.withDefault field default read = .ok default := by
  rw [withDefault, hNone]

@[simp] theorem withDefault_nil :
    Slots.withDefault { found := [] } field default read = .ok default := rfl

@[simp] theorem withDefault_cons_self :
    Slots.withDefault { found := (field, d) :: rest } field default read = read d := by
  rw [withDefault, List.lookup_cons_self]

@[simp] theorem withDefault_cons_of_ne (hOther : field ≠ name) :
    Slots.withDefault { found := (name, d) :: rest } field default read =
      Slots.withDefault { found := rest } field default read := by
  have hFalse : (field == name) = false := by simpa using hOther
  refine withDefault_congr ?_
  rw [List.lookup_cons, hFalse]

end Datum.Slots

/-! ## The names that are read -/

theorem Capability.word_mem_names (capability : Capability) :
    capability.word ∈ TableSettings.names := by
  cases capability <;> decide

namespace TableSettings

variable {name : String}

theorem readEntry_of_foreign (hForeign : name ∉ names) (settings : TableSettings) (d : Datum) :
    readEntry settings (name, d) = .ok settings := by
  unfold readEntry
  split
  case h_7 => rfl
  all_goals
    rename_i hName
    change name = _ at hName
    subst hName
    exact absurd (by decide) hForeign

theorem ofWord?_of_foreign (hForeign : name ∉ names) : Capability.ofWord? name = none := by
  refine List.find?_eq_none.mpr fun capability _ hWord => hForeign ?_
  rw [← of_decide_eq_true hWord]
  exact capability.word_mem_names

/-- The listed names are exactly those that are read: an entry of any other name leaves
every state of both walks as it is, and an entry of a listed name cannot hold an object,
say, without a fault. -/
theorem not_mem_names_iff :
    name ∉ names ↔ (∀ settings d, readEntry settings (name, d) = .ok settings) ∧
      ∀ capabilities d, Capabilities.readEntry capabilities (name, d) = .ok capabilities := by
  constructor
  · intro hForeign
    refine ⟨readEntry_of_foreign hForeign, fun capabilities d => ?_⟩
    rw [Capabilities.readEntry, ofWord?_of_foreign hForeign]
  · rintro ⟨hPlain, hCapabilities⟩ hName
    have hFault : ∀ name ∈ names, (readEntry {} (name, .ofValue (.object []))).isOk = false ∨
        (Capabilities.readEntry {} (name, .ofValue (.object []))).isOk = false := by
      decide
    obtain hFault | hFault := hFault name hName
    · rw [hPlain] at hFault
      contradiction
    · rw [hCapabilities] at hFault
      contradiction

end TableSettings

/-! ## Settings by name -/

namespace Capabilities

theorem word_inj {c capability : Capability} : c.word = capability.word ↔ c = capability := by
  refine ⟨fun hSame => ?_, congrArg Capability.word⟩
  have hWords := congrArg Capability.ofWord? hSame
  rw [ofWord?_word, ofWord?_word] at hWords
  exact Option.some.inj hWords

/-- An entry of another name declares nothing. -/
theorem readEntry_of_other {name : String} {d : Datum} (before : Capabilities)
    (hOther : Capability.ofWord? name = none) : readEntry before (name, d) = .ok before := by
  rw [readEntry, hOther]

/-- An entry of the name of a capability declares that one. -/
theorem readEntry_word {capability : Capability} {d : Datum} (before : Capabilities) :
    readEntry before (capability.word, d) =
      (d.optional Datum.bool).map (before.declare capability) := by
  rw [readEntry, ofWord?_word]
  cases d.optional Datum.bool <;> rfl

/-- Capabilities are read by name: a name that is missing leaves what was declared. -/
theorem foldlM_readEntry_eq_ok_iff {entries : List (String × Datum)}
    (hDistinct : Entries.Distinct (Entries.among TableSettings.names entries))
    {before after : Capabilities} :
    entries.foldlM readEntry before = .ok after ↔
      ∀ c : Capability, Slots.withDefault { found := entries } c.word (before.declared c)
        (Datum.optional Datum.bool) = .ok (after.declared c) := by
  induction entries generalizing before with
  | nil =>
      simp only [List.foldlM_nil, Slots.withDefault_nil, Except.ok.injEq, pure, Except.pure]
      exact ⟨fun hSame c => by rw [hSame], fun hSame => ext hSame⟩
  | cons entry rest ih =>
      obtain ⟨name, d⟩ := entry
      obtain ⟨hOnce, hRest⟩ := Entries.distinct_among_cons hDistinct
      rw [List.foldlM_cons, bind_eq_ok_iff]
      cases hWord : Capability.ofWord? name with
      | none =>
          have hOther (c : Capability) : c.word ≠ name := by
            intro hSame
            rw [← hSame, ofWord?_word] at hWord
            contradiction
          simp [readEntry_of_other before hWord, ih hRest,
            Slots.withDefault_cons_of_ne (hOther _)]
      | some capability =>
          obtain rfl : capability.word = name := by simpa using List.find?_some hWord
          have hNone : rest.lookup capability.word = none := hOnce capability.word_mem_names
          rw [readEntry_word]
          cases hFlag : d.optional Datum.bool with
          | error e =>
              refine iff_of_false (fun hMade => ?_) fun hAll => ?_
              · obtain ⟨_, hMade, _⟩ := hMade
                contradiction
              · have hHere := hAll capability
                rw [Slots.withDefault_cons_self, hFlag] at hHere
                contradiction
          | ok flag =>
              simp only [Except.map, Except.ok.injEq, exists_eq_left', ih hRest]
              -- The other capabilities are declared as before, and this one is not named again.
              refine forall_congr' fun c => ?_
              by_cases hSame : c = capability
              · subst hSame
                rw [Slots.withDefault_cons_self, hFlag, Slots.withDefault_of_lookup_eq_none hNone]
                simp [declare]
              · rw [Slots.withDefault_cons_of_ne (word_inj.not.mpr hSame)]
                simp [declare, hSame]

end Capabilities

namespace TableSettings

/-- What is read of plain settings: each under its own name, and as it was before
where the name is missing. -/
@[mk_iff] structure PlainOver (before : TableSettings) (entries : List (String × Datum))
    (settings : TableSettings) : Prop where
  labelField : Slots.withDefault { found := entries } "labelField" before.labelField
    (Datum.optional LabelField.decode) = .ok settings.labelField
  fallbackLabelFields : Slots.withDefault { found := entries } "fallbackLabelFields"
    before.fallbackLabelFields (Datum.listOf Datum.text) = .ok settings.fallbackLabelFields
  sortField : Slots.withDefault { found := entries } "sortField" before.sortField
    (Datum.optional SortSetting.decode) = .ok settings.sortField
  aggregateRoot : Slots.withDefault { found := entries } "aggregateRoot" before.aggregateRoot
    (Datum.optional Datum.bool) = .ok settings.aggregateRoot
  rootLevelType : Slots.withDefault { found := entries } "rootLevelType" before.rootLevelType
    (Datum.optional Datum.text) = .ok settings.rootLevelType
  appendLabel : Slots.withDefault { found := entries } "appendLabel" before.appendLabel
    (Datum.optional Datum.bool) = .ok settings.appendLabel
  capabilities : before.capabilities = settings.capabilities

theorem plainOver_cons_iff {name : String} {d : Datum} {rest : List (String × Datum)}
    (hOnce : name ∈ names → rest.lookup name = none) {before settings : TableSettings} :
    PlainOver before ((name, d) :: rest) settings ↔
      ∃ after, readEntry before (name, d) = .ok after ∧ PlainOver after rest settings := by
  unfold readEntry
  split
  case h_7 hLabels hFallbacks hSorting hAggregate hLevel hAppend =>
    simp [plainOver_iff, Slots.withDefault_cons_of_ne, Ne.symm hLabels, Ne.symm hFallbacks,
      Ne.symm hSorting, Ne.symm hAggregate, Ne.symm hLevel, Ne.symm hAppend, pure, Except.pure]
  all_goals
    rename_i hName
    change name = _ at hName
    subst hName
    -- What is read under the name does not come again, so both sides list the same facts.
    have hNone := hOnce (by decide)
    simp only [plainOver_iff, bind_eq_ok_iff, Slots.withDefault_cons_self, ne_eq, String.reduceEq,
      not_false_eq_true, Slots.withDefault_cons_of_ne, pure, Except.pure, Except.ok.injEq, hNone,
      Slots.withDefault_of_lookup_eq_none, ↓existsAndEq, and_true]
    tauto

/-- The plain settings are read by name. -/
theorem foldlM_readEntry_eq_ok_iff {entries : List (String × Datum)}
    (hDistinct : Entries.Distinct (Entries.among names entries))
    {before settings : TableSettings} :
    entries.foldlM readEntry before = .ok settings ↔ PlainOver before entries settings := by
  induction entries generalizing before with
  | nil =>
      obtain ⟨⟩ := before
      obtain ⟨⟩ := settings
      simp [plainOver_iff, pure, Except.pure]
  | cons entry rest ih =>
      obtain ⟨name, d⟩ := entry
      obtain ⟨hOnce, hRest⟩ := Entries.distinct_among_cons hDistinct
      rw [List.foldlM_cons, bind_eq_ok_iff, plainOver_cons_iff hOnce]
      simp only [ih hRest]

/-- What is read of named entries: every setting under its own name, and nothing
where the name is missing. -/
structure ReadFrom (entries : List (String × Datum)) (settings : TableSettings) : Prop where
  plain : PlainOver {} entries { settings with capabilities := {} }
  capabilities : ∀ c : Capability, Slots.withDefault { found := entries } c.word none
    (Datum.optional Datum.bool) = .ok (settings.capabilities.declared c)

/-- The two walks over entries read every setting under its own name, provided
that no setting repeats. -/
theorem decodeEntries_eq_ok_iff {entries : List (String × Datum)} {settings : TableSettings} :
    decodeEntries entries = .ok settings ↔
      Entries.Distinct (Entries.among names entries) ∧ ReadFrom entries settings := by
  have hKeys : (entries.map Prod.fst).filter names.contains =
      Entries.keys (Entries.among names entries) := List.filter_map
  unfold decodeEntries
  rw [hKeys]
  dsimp only
  split
  case h_1 name hRepeated =>
    refine iff_of_false nofun fun hRead => ?_
    have hCount := List.nodup_iff_count_le_one.mp hRead.1 name
    have hTwice := List.find?_some hRepeated
    simp only [decide_eq_true_eq] at hTwice
    omega
  case h_2 hNone =>
    have hDistinct : Entries.Distinct (Entries.among names entries) := by
      refine List.nodup_iff_count_le_one.mpr fun name => ?_
      by_cases hName : name ∈ Entries.keys (Entries.among names entries)
      · simpa using List.find?_eq_none.mp hNone name hName
      · rw [List.count_eq_zero_of_not_mem hName]
        omega
    simp only [bind_eq_ok_iff, foldlM_readEntry_eq_ok_iff hDistinct,
      Capabilities.foldlM_readEntry_eq_ok_iff hDistinct, hDistinct, true_and]
    constructor
    · rintro ⟨plain, hPlain, capabilities, hCapabilities, hMade⟩
      cases hMade
      exact ⟨{ hPlain with capabilities := rfl }, hCapabilities⟩
    · intro hRead
      exact ⟨_, hRead.plain, _, hRead.capabilities, rfl⟩

/-- Settings are read by name, so nothing else matters to them. -/
theorem ReadFrom.congr {first second : List (String × Datum)} {settings : TableSettings}
    (hSame : ∀ name ∈ names, first.lookup name = second.lookup name)
    (hRead : ReadFrom first settings) : ReadFrom second settings where
  plain := {
    labelField := (Slots.withDefault_congr (hSame _ (by decide))).symm.trans hRead.plain.labelField
    fallbackLabelFields :=
      (Slots.withDefault_congr (hSame _ (by decide))).symm.trans hRead.plain.fallbackLabelFields
    sortField := (Slots.withDefault_congr (hSame _ (by decide))).symm.trans hRead.plain.sortField
    aggregateRoot :=
      (Slots.withDefault_congr (hSame _ (by decide))).symm.trans hRead.plain.aggregateRoot
    rootLevelType :=
      (Slots.withDefault_congr (hSame _ (by decide))).symm.trans hRead.plain.rootLevelType
    appendLabel :=
      (Slots.withDefault_congr (hSame _ (by decide))).symm.trans hRead.plain.appendLabel
    capabilities := hRead.plain.capabilities }
  capabilities := fun c =>
    (Slots.withDefault_congr (hSame _ c.word_mem_names)).symm.trans (hRead.capabilities c)

/-- Settings that come in another order, or among other foreign entries, are read
alike. -/
theorem decodeEntries_perm {first second : List (String × Datum)}
    (hPerm : (Entries.among names first).Perm (Entries.among names second))
    {settings : TableSettings} :
    decodeEntries first = .ok settings ↔ decodeEntries second = .ok settings := by
  rw [decodeEntries_eq_ok_iff, decodeEntries_eq_ok_iff, ← Entries.distinct_iff_of_perm hPerm]
  refine and_congr_right fun hDistinct => ?_
  have hSame : ∀ name ∈ names, first.lookup name = second.lookup name := by
    intro name hName
    rw [← Entries.lookup_among hName, Entries.lookup_eq_of_perm hPerm hDistinct,
      Entries.lookup_among hName]
  exact ⟨.congr hSame, .congr fun name hName => (hSame name hName).symm⟩

end TableSettings

end ContentSchema
