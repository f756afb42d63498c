import ContentSchema.Proofs.Pass.Acceptance
import ContentSchema.Proofs.Pass.Items

/-!
# Columns of a pass

Identifiers are claimed as they are authored, but fields and palettes are listed
under their final ones.  Two nodes of a pass are therefore never authored alike,
and still they can end up under one final identifier: one of them is set apart
by the prefix of its document, and the other is authored with that prefix
written out.

* `PassContext.nameOf` is the final identifier of a node.
* `PassContext.Collides` is the one way in which two nodes share it.
* `PassContext.Lists` says what a list of final identifiers amounts to.
* `lists_of_mem_passes` says it of every pass of every run.

Nothing else costs an entry: a pass whose nodes do NOT collide lists each of its
fields and each of its palettes that is not empty exactly once.
-/

namespace ContentSchema

namespace PassContext

/-! ## Final identifiers -/

/-- What the identifiers of the pass are set apart with. -/
def beginning (context : PassContext) : String :=
  match prefixFor context.document.name context.policy with
  | .ok name => name ++ "_"
  | .error _ => ""

/-- The palette is set apart by the prefix of its document. -/
def PaletteApart (context : PassContext) (node : FieldNode) : Prop :=
  context.isRootTable = true ∧ node.useExistingField = false ∧
    node.prefixField.getD context.policy.enabled = true

/-- The field is set apart by the prefix of its document.  The discriminator
never is. -/
def FieldApart (context : PassContext) (node : FieldNode) : Prop :=
  context.typeField ≠ some node.identifierText ∧ context.PaletteApart node

instance (context : PassContext) : DecidablePred context.PaletteApart := fun _ =>
  inferInstanceAs (Decidable (_ ∧ _ ∧ _))

instance (context : PassContext) : DecidablePred context.FieldApart := fun _ =>
  inferInstanceAs (Decidable (_ ∧ _))

variable {context : PassContext} (apart : FieldNode → Prop) [DecidablePred apart]

/-- The final identifier of a node, of which `apart` says whether it is set
apart. -/
def nameOf (context : PassContext) (apart : FieldNode → Prop) [DecidablePred apart]
    (node : FieldNode) : String :=
  if apart node then context.beginning ++ node.identifierText else node.identifierText

/-- The first node is set apart, and the second one is authored with the prefix
written out. -/
def Collides (context : PassContext) (apart : FieldNode → Prop) (first second : FieldNode) :
    Prop :=
  apart first ∧ ¬apart second ∧
    second.identifierText = context.beginning ++ first.identifierText

theorem prefixFor_append (hNamed : context.Named) (raw : String) :
    (do return (← prefixFor context.document.name context.policy) ++ "_" ++ raw :
      Except CompileError String) = .ok (context.beginning ++ raw) := by
  obtain ⟨_, hParts⟩ := hNamed
  obtain ⟨name, hName⟩ := exists_prefixFor hParts context.policy
  unfold beginning
  rw [hName]
  rfl

/-- Palettes are set apart on the root table only, unless they say otherwise. -/
theorem paletteIdentifier_eq (hNamed : context.Named) (node : FieldNode) :
    context.paletteIdentifier node.toFieldAttributes node.identifierText =
      .ok (context.nameOf context.PaletteApart node) := by
  have hPrefix := prefixFor_append hNamed node.identifierText
  unfold paletteIdentifier assignFieldIdentifier assignIdentifier nameOf PaletteApart
  by_cases hRoot : context.isRootTable = true
  · by_cases hBinds : node.useExistingField = true
    · simp [hRoot, hBinds]
    · by_cases hEnabled : node.prefixField.getD context.policy.enabled = true
      · simp only [hRoot, hBinds, hEnabled, Bool.not_true, Bool.false_or, Bool.false_eq_true,
          if_false, if_true, and_self]
        exact hPrefix
      · simp [hRoot, hBinds, hEnabled]
  · simp [hRoot]

/-- Fields follow the rule of palettes, except for the discriminator. -/
theorem fieldIdentifier_eq (hNamed : context.Named) (node : FieldNode) :
    context.fieldIdentifier node.toFieldAttributes node.identifierText =
      .ok (context.nameOf context.FieldApart node) := by
  unfold fieldIdentifier
  by_cases hDiscriminator : context.typeField = some node.identifierText
  · have hPlain : ¬context.FieldApart node := fun hApart => hApart.1 hDiscriminator
    rw [nameOf, if_neg hPlain]
    by_cases hRoot : context.isRootTable = true
    · simp [hRoot, hDiscriminator]
    · simp [hRoot, assignFieldIdentifier]
  · have hPalette := paletteIdentifier_eq hNamed node
    unfold paletteIdentifier at hPalette
    simpa [hDiscriminator, nameOf, FieldApart] using hPalette

/-! ## Collisions -/

/-- Differently authored nodes share a final identifier only if they collide. -/
theorem nameOf_eq_iff {first second : FieldNode}
    (hRaw : first.identifierText ≠ second.identifierText) :
    context.nameOf apart first = context.nameOf apart second ↔
      context.Collides apart first second ∨ context.Collides apart second first := by
  unfold nameOf Collides
  by_cases hFirst : apart first
  · by_cases hSecond : apart second
    · simp [hFirst, hSecond, hRaw]
    · simp [hFirst, hSecond, eq_comm]
  · by_cases hSecond : apart second
    · simp [hFirst, hSecond]
    · simp [hFirst, hSecond, hRaw]

/-- What the final identifiers `keys` of some nodes amount to. -/
structure Lists (context : PassContext) (apart : FieldNode → Prop) [DecidablePred apart]
    (nodes : List FieldNode) (keys : List String) : Prop where
  /-- No two nodes are authored alike. -/
  authored : (nodes.map FieldNode.identifierText).Nodup
  listed : keys = (nodes.map (context.nameOf apart)).eraseDups
  /-- Two nodes share an entry exactly when they collide. -/
  shared : ∀ first ∈ nodes, ∀ second ∈ nodes, first.identifierText ≠ second.identifierText →
    (context.nameOf apart first = context.nameOf apart second ↔
      context.Collides apart first second ∨ context.Collides apart second first)
  /-- Every node has an entry of its own exactly when none collides with another. -/
  complete : keys = nodes.map (context.nameOf apart) ↔
    ∀ first ∈ nodes, ∀ second ∈ nodes, ¬context.Collides apart first second

/-- Final identifiers are pairwise different exactly when no nodes collide. -/
theorem nodup_map_nameOf_iff {nodes : List FieldNode}
    (hAuthored : (nodes.map FieldNode.identifierText).Nodup) :
    (nodes.map (context.nameOf apart)).Nodup ↔
      ∀ first ∈ nodes, ∀ second ∈ nodes, ¬context.Collides apart first second := by
  have hNodes : nodes.Nodup := hAuthored.of_map _
  rw [List.nodup_map_iff_inj_on hNodes]
  constructor
  · intro hInjective first hFirst second hSecond hCollides
    have hNames : context.nameOf apart first = context.nameOf apart second := by
      rw [nameOf, if_pos hCollides.1, nameOf, if_neg hCollides.2.1, hCollides.2.2]
    have hSame := hInjective first hFirst second hSecond hNames
    rw [hSame] at hCollides
    exact hCollides.2.1 hCollides.1
  · intro hFree first hFirst second hSecond hNames
    -- Two nodes of one name are authored differently, so one collides with the other.
    by_contra hNe
    have hRaw : first.identifierText ≠ second.identifierText := fun hRaw =>
      hNe (List.inj_on_of_nodup_map hAuthored hFirst hSecond hRaw)
    rcases (nameOf_eq_iff apart hRaw).mp hNames with hCollides | hCollides
    · exact hFree first hFirst second hSecond hCollides
    · exact hFree second hSecond first hFirst hCollides

theorem lists_of_nodup {nodes : List FieldNode}
    (hAuthored : (nodes.map FieldNode.identifierText).Nodup) :
    context.Lists apart nodes (nodes.map (context.nameOf apart)).eraseDups where
  authored := hAuthored
  listed := rfl
  shared := fun _ _ _ _ hRaw => nameOf_eq_iff apart hRaw
  complete := by
    rw [← nodup_map_nameOf_iff apart hAuthored]
    constructor
    · intro hKeys
      rw [← hKeys]
      exact Entries.nodup_eraseDups _
    · exact Entries.eraseDups_eq_self

end PassContext

/-! ## Passes -/

namespace Pass

/-- The nodes of a compiled pass asked for nothing twice. -/
theorem Compiled.admits {pass : Pass} (hPass : pass.Compiled) :
    ({} : Claims).Admits (pass.context.asked pass.nodes) := by
  have hNamed := hPass.named
  obtain ⟨_, _, _, hNodes, _⟩ := hPass
  exact ((PassContext.exists_compileNodes_iff (fun node _ => PassContext.compiles node)
    hNamed).mp ⟨_, hNodes⟩).2.1

theorem map_eq_map_of_forall₂ {α β γ : Type} {R : α → β → Prop} {f : α → γ} {g : β → γ}
    (hMaps : ∀ a b, R a b → f a = g b) {items : List α} {others : List β}
    (hRelated : List.Forall₂ R items others) : items.map f = others.map g := by
  induction hRelated with
  | nil => rfl
  | cons hHead _ ih => rw [List.map_cons, List.map_cons, hMaps _ _ hHead, ih]

/-- The fields of a pass have the final identifiers of its field nodes. -/
theorem Compiled.map_uniqueIdentifier {pass : Pass} (hPass : pass.Compiled) :
    (compiledFields pass.items).map CompiledField.uniqueIdentifier =
      (pass.context.fieldNodes pass.nodes).map
        (pass.context.nameOf pass.context.FieldApart) := by
  obtain ⟨chunks, hChunks, hItems⟩ := hPass.exists_chunks
  rw [hItems]
  symm
  apply map_eq_map_of_forall₂ _ (PassContext.forall₂_makes_fieldNodes hChunks)
  rintro node _ ⟨type, unique, _, hUnique, rfl⟩
  rw [PassContext.fieldIdentifier_eq hPass.named] at hUnique
  rw [PassContext.compiledField_uniqueIdentifier, Except.ok.inj hUnique]

theorem Compiled.map_palette_identifier {pass : Pass} (hPass : pass.Compiled) :
    (pass.items.filterMap PassItem.palette?).map PaletteDefinition.identifier =
      (pass.context.paletteNodes pass.nodes).map
        (pass.context.nameOf pass.context.PaletteApart) := by
  obtain ⟨chunks, hChunks, hItems⟩ := hPass.exists_chunks
  rw [hItems]
  symm
  apply map_eq_map_of_forall₂ _ (PassContext.forall₂_makesPalette hChunks)
  rintro node _ ⟨unique, entries, hUnique, _, rfl⟩
  rw [PassContext.paletteIdentifier_eq hPass.named] at hUnique
  exact Except.ok.inj hUnique

end Pass

/-- In every pass of every run, at whatever depth, the fields are listed under
the final identifiers of the field nodes and the palettes under those of the
palette nodes that are not empty; only nodes that collide share an entry. -/
theorem lists_of_mem_passes {environment : Environment} {documents : List SchemaDocument}
    {pass : Pass} (hPass : pass ∈ (runWalk environment documents).emission.passes) :
    (∀ node ∈ pass.context.fieldNodes pass.nodes,
      pass.context.fieldIdentifier node.toFieldAttributes node.identifierText =
        .ok (pass.context.nameOf pass.context.FieldApart node)) ∧
      pass.context.Lists pass.context.FieldApart (pass.context.fieldNodes pass.nodes)
        (Entries.keys pass.table.fields) ∧
      (∀ node ∈ pass.context.paletteNodes pass.nodes,
        pass.context.paletteIdentifier node.toFieldAttributes node.identifierText =
          .ok (pass.context.nameOf pass.context.PaletteApart node)) ∧
      pass.context.Lists pass.context.PaletteApart (pass.context.paletteNodes pass.nodes)
        (Entries.keys pass.table.palettes) := by
  have hCompiled := compiled_of_mem_passes hPass
  have hFree := Claims.admits_start_iff.mp hCompiled.admits
  -- Palettes that are not empty are some of those whose identifiers were claimed.
  have hPalettes :
      ((pass.context.paletteNodes pass.nodes).map FieldNode.identifierText).Nodup :=
    hFree.2.1.sublist (List.filter_sublist.map _)
  refine ⟨fun node _ => PassContext.fieldIdentifier_eq hCompiled.named node, ?_,
    fun node _ => PassContext.paletteIdentifier_eq hCompiled.named node, ?_⟩
  · rw [hCompiled.keys_fields, hCompiled.map_uniqueIdentifier]
    exact PassContext.lists_of_nodup _ hFree.1
  · rw [hCompiled.keys_palettes, hCompiled.map_palette_identifier]
    exact PassContext.lists_of_nodup _ hPalettes

/-- A catalog with text columns only, and no existing column. -/
def textEnvironment : Environment where
  catalog := ⟨[{ name := "Text", storage := .input }]⟩
  baseSchema := .empty

/-- A document whose first field is set apart and whose second one is authored
with the prefix written out. -/
def teaser : SchemaDocument where
  name := "acme/teaser"
  fields :=
    [ .ofType "a" "Text",
      { FieldNode.ofType "acme_teaser_a" "Text" with prefixField := some false } ]

/-- The two fields of the document are authored differently, the document
compiles, and its pass lists a single field. -/
theorem shared_entry_teaser :
    (compile textEnvironment [teaser]).isOk = true ∧
      ((runWalk textEnvironment [teaser]).emission.passes.map fun pass =>
        ((pass.context.fieldNodes pass.nodes).map FieldNode.identifierText,
          Entries.keys pass.table.fields)) = [(["a", "acme_teaser_a"], ["acme_teaser_a"])] := by
  decide +kernel

/-- The rules at the document whose fields collide. -/
theorem lists_of_mem_passes_teaser :
    ∃ pass ∈ (runWalk textEnvironment [teaser]).emission.passes,
      pass.context.Lists pass.context.FieldApart (pass.context.fieldNodes pass.nodes)
          (Entries.keys pass.table.fields) ∧
        pass.context.Lists pass.context.PaletteApart (pass.context.paletteNodes pass.nodes)
          (Entries.keys pass.table.palettes) := by
  have hSome : (runWalk textEnvironment [teaser]).emission.passes.isEmpty = false := by
    decide +kernel
  obtain ⟨pass, hPass⟩ := List.exists_mem_of_ne_nil _ (by simpa using hSome)
  have hLists := lists_of_mem_passes hPass
  exact ⟨pass, hPass, hLists.2.1, hLists.2.2.2⟩

end ContentSchema
