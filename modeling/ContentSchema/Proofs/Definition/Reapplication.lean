import ContentSchema.Proofs.Definition.Precedence
import ContentSchema.Proofs.Value.Regrouping

/-!
# Overlays applied again

Laying a definition over another one a second time changes nothing, and a definition
laid over itself stays as it is.  Every part of a definition has a rule of its own, and
each rule has these two properties: the last declaration counts, the last list that is
not empty, the last palette, and fields merge their configurations.

* `CompiledField.merge_merge_self` and `CompiledField.merge_self` are the case of one
  field.
* `TableDefinition.merge_reapplied` is the statement about tables.

Where a configuration repeats a key this does NOT hold: the value under that key is
laid over itself once more each time.
-/

namespace ContentSchema

/-! ## Settings -/

section Settings

variable {α : Type}

theorem orElse_orElse_self (base overlay : Option α) :
    (overlay <|> (overlay <|> base)) = (overlay <|> base) := by
  cases overlay <;> rfl

theorem orElse_self (declared : Option α) : (declared <|> declared) = declared := by
  cases declared <;> rfl

theorem laterUnlessEmpty_laterUnlessEmpty_self (base overlay : List α) :
    laterUnlessEmpty (laterUnlessEmpty base overlay) overlay = laterUnlessEmpty base overlay := by
  cases overlay <;> rfl

theorem laterUnlessEmpty_self (list : List α) : laterUnlessEmpty list list = list := by
  cases list <;> rfl

end Settings

namespace Capabilities

theorem merge_merge_self (base overlay : Capabilities) :
    (base.merge overlay).merge overlay = base.merge overlay := by
  ext1 capability
  exact orElse_orElse_self _ _

theorem merge_self (capabilities : Capabilities) :
    capabilities.merge capabilities = capabilities := by
  ext1 capability
  exact orElse_self _

end Capabilities

/-! ## One field -/

namespace CompiledField

variable {base overlay : CompiledField}

theorem merge_merge_self (hBase : (Value.object base.config).WellFormed)
    (hOverlay : (Value.object overlay.config).WellFormed) :
    (base.merge overlay).merge overlay = base.merge overlay := by
  have hConfig := Value.merge_merge_self hBase hOverlay
  rw [Value.merge, Value.merge, Value.object.injEq] at hConfig
  simp only [merge, orElse_orElse_self, hConfig]

theorem merge_self {field : CompiledField} (hField : (Value.object field.config).WellFormed) :
    field.merge field = field := by
  have hConfig := Value.merge_self hField
  rw [Value.merge, Value.object.injEq] at hConfig
  simp only [merge, orElse_self, hConfig]

end CompiledField

/-! ## One table -/

namespace TableDefinition

/-- Nothing is listed twice, and no configuration of a field repeats a key, at any
depth. -/
structure WellFormed (definition : TableDefinition) : Prop extends Distinct definition where
  configs : ∀ key field, definition.fields.lookup key = some field →
    (Value.object field.config).WellFormed

variable {base overlay : TableDefinition}

theorem mergeFields_mergeFields_self (hBase : base.WellFormed) (hOverlay : overlay.WellFormed) :
    mergeFields (mergeFields base.fields overlay.fields) overlay.fields =
      mergeFields base.fields overlay.fields := by
  rw [mergeFields_eq_mergeWith, mergeFields_eq_mergeWith]
  refine Entries.mergeWith_mergeWith_self hBase.fields hOverlay.fields ?_ ?_
  · intro key lower upper hLower hUpper
    exact CompiledField.merge_merge_self (hBase.configs key lower hLower)
      (hOverlay.configs key upper hUpper)
  · intro key field hField
    exact CompiledField.merge_self (hOverlay.configs key field hField)

theorem mergeFields_self (hBase : base.WellFormed) :
    mergeFields base.fields base.fields = base.fields := by
  rw [mergeFields_eq_mergeWith]
  refine Entries.mergeWith_self hBase.fields ?_
  intro key field hField
  exact CompiledField.merge_self (hBase.configs key field hField)

theorem insertAll_insertAll_self (hBase : base.Distinct) (hOverlay : overlay.Distinct) :
    Entries.insertAll (Entries.insertAll base.palettes overlay.palettes) overlay.palettes =
      Entries.insertAll base.palettes overlay.palettes := by
  simp only [Entries.insertAll_eq_mergeWith]
  exact Entries.mergeWith_mergeWith_self hBase.palettes hOverlay.palettes
    (fun _ _ _ _ _ => rfl) (fun _ _ _ => rfl)

theorem insertAll_self (hBase : base.Distinct) :
    Entries.insertAll base.palettes base.palettes = base.palettes := by
  rw [Entries.insertAll_eq_mergeWith]
  exact Entries.mergeWith_self hBase.palettes fun _ _ _ => rfl

/-- **Overlays applied again.**  A definition laid over another one twice amounts to
laying it over once, and one laid over itself to itself, in every part and with the
order of fields, palettes and configuration keys. -/
theorem merge_reapplied (hBase : base.WellFormed) (hOverlay : overlay.WellFormed) :
    (base.merge overlay).merge overlay = base.merge overlay ∧ base.merge base = base := by
  constructor
  · simp only [merge, Bool.or_assoc, Bool.or_self, orElse_orElse_self,
      laterUnlessEmpty_laterUnlessEmpty_self, mergeFields_mergeFields_self hBase hOverlay,
      insertAll_insertAll_self hBase.toDistinct hOverlay.toDistinct,
      Capabilities.merge_merge_self]
  · simp only [merge, Bool.or_self, orElse_self, laterUnlessEmpty_self, mergeFields_self hBase,
      insertAll_self hBase.toDistinct, Capabilities.merge_self]

/-- A palette of news. -/
def newsPalette (identifier : String) (items : List PaletteItem) : PaletteDefinition where
  identifier := identifier
  labelPath := "LLL:news:" ++ identifier
  items := items

/-- A table with a title column, whose evaluation rules are nested, and a palette. -/
def newsBase : TableDefinition where
  table := "tx_news"
  isRootTable := true
  labelField := ["title"]
  fields :=
    [("title", newsColumn "title" (some "Title") [("eval", .object [("trim", .bool true)])])]
  palettes := [("dates", newsPalette "dates" [])]

/-- An overlay that adds to the rules, and lists a column and a palette of its own. -/
def newsOverlay : TableDefinition where
  table := "tx_news"
  isRootTable := false
  aggregateRoot := some true
  fields :=
    [ ("date", newsColumn "date" none []),
      ("title", newsColumn "title" none
        [("size", .int 20), ("eval", .object [("required", .bool true)])]) ]
  palettes :=
    [ ("meta", newsPalette "meta" [.field "date"]),
      ("dates", newsPalette "dates" [.field "date"]) ]

/-- The overlay changes the table once and not again. -/
theorem merge_reapplied_news :
    (newsBase.merge newsOverlay).merge newsOverlay = newsBase.merge newsOverlay ∧
      newsBase.merge newsBase = newsBase ∧
      Entries.keys (newsBase.merge newsOverlay).fields = ["title", "date"] := by
  have hBase : newsBase.WellFormed := by
    refine ⟨⟨by decide, by decide⟩, ?_⟩
    intro key field hField
    have hMem := Entries.mem_of_lookup hField
    simp only [newsBase, List.mem_singleton, Prod.mk.injEq] at hMem
    obtain ⟨_, rfl⟩ := hMem
    simp [newsColumn, Value.WellFormed, Value.EntriesWellFormed, Entries.Distinct]
  have hOverlay : newsOverlay.WellFormed := by
    refine ⟨⟨by decide, by decide⟩, ?_⟩
    intro key field hField
    have hMem := Entries.mem_of_lookup hField
    simp only [newsOverlay, List.mem_cons, List.not_mem_nil, or_false, Prod.mk.injEq] at hMem
    rcases hMem with ⟨_, rfl⟩ | ⟨_, rfl⟩ <;>
      simp [newsColumn, Value.WellFormed, Value.EntriesWellFormed, Entries.Distinct]
  obtain ⟨hAgain, hSelf⟩ := merge_reapplied hBase hOverlay
  exact ⟨hAgain, hSelf, by decide⟩

end TableDefinition
end ContentSchema
