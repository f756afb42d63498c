import ContentSchema.Proofs.Pass.Keys
import ContentSchema.Proofs.Pass.Reshaping

/-!
# Palettes and tabs among fields

A palette may be put around consecutive fields of a pass, and a tab or an empty
palette between any two of its nodes.  Either way the nodes of the pass become the
same fields, and the pass is accepted if it was, provided that the identifier of
the new node is free.

* `PassContext.Groups` says that a node stands for some fields of a pass.
* `PassContext.Groups.accepts_iff` compares what two passes ask of their nodes.
* `PassContext.Groups.reshapes` relates their sites, and
  `PassContext.Groups.keys_eq` the keys that they register.

A palette around tabs, palettes or line breaks is NOT among the groups: the first
two would be refused, and a line break is refused outside of a palette.
-/

namespace ContentSchema
namespace PassContext

/-- The node is a field of its own. -/
def IsField (context : PassContext) (node : FieldNode) : Prop :=
  context.kindOf? node = some .ordinary ∨ context.kindOf? node = some .collection ∨
    context.kindOf? node = some .flexForm

/-- A node that stands for some fields of a pass: a palette around them, which may be
empty, or a tab, which stands for none. -/
inductive Groups (context : PassContext) (node : FieldNode) :
    List FieldNode → FieldKind → Prop where
  | palette (kind : context.kindOf? node = some .palette)
      (fields : ∀ field ∈ node.fields, context.IsField field) :
      Groups context node node.fields .palette
  | tab (kind : context.kindOf? node = some .tab) : Groups context node [] .tab

variable {context : PassContext} {path : LanguagePath} {node field : FieldNode}
  {before run after : List FieldNode} {kind other : FieldKind}

/-! ## Single fields -/

theorem IsField.kindOf?_ne (hField : context.IsField field)
    (hKind : kind = .palette ∨ kind = .tab ∨ kind = .linebreak) :
    context.kindOf? field ≠ some kind := by
  intro hSame
  rcases hField with hField | hField | hField
  all_goals
    rw [hField] at hSame
    obtain rfl := Option.some.inj hSame
    simp at hKind

theorem IsField.ownFields_eq (hField : context.IsField field) :
    context.ownFields field = [field] := by
  rcases hField with hField | hField | hField
  all_goals rw [ownFields, hField]

theorem IsField.shapeKeys_eq (hField : context.IsField field) :
    context.shapeKeys path field = [] := by
  rcases hField with hField | hField | hField
  all_goals rw [shapeKeys, hField]

/-- A field is accepted inside of a palette exactly when it is outside of one. -/
theorem IsField.entryAccepted_iff (hField : context.IsField field) :
    context.EntryAccepted field ↔ context.NodeAccepted field := by
  obtain ⟨type, hType, hPalette, hTab, hLinebreak⟩ : ∃ type, context.typeOf? field = some type ∧
      type.kind ≠ .palette ∧ type.kind ≠ .tab ∧ type.kind ≠ .linebreak := by
    rcases hField with hField | hField | hField
    all_goals
      obtain ⟨type, hType, hRole⟩ := Option.map_eq_some_iff.mp hField
      exact ⟨type, hType, by simp [hRole]⟩
  rw [entryAccepted_iff_of_field hType hPalette hTab hLinebreak,
    nodeAccepted_iff_of_field hType hPalette hTab hLinebreak]

theorem fieldNodes_eq_self (hRun : ∀ field ∈ run, context.IsField field) :
    context.fieldNodes run = run := by
  unfold fieldNodes
  rw [List.flatMap_congr fun field hField => (hRun field hField).ownFields_eq]
  exact List.flatMap_singleton' run

/-- A node that has a type and an identifier resolves. -/
theorem resolves_of_kindOf? (hKind : context.kindOf? node = some kind)
    (hNode : node.HasIdentifier) : context.Resolves node := by
  obtain ⟨type, hType, _⟩ := Option.map_eq_some_iff.mp hKind
  unfold typeOf? boundType? at hType
  unfold Resolves
  split at hType
  case isTrue hBinds =>
    rw [FieldNode.hasIdentifier_iff.mp hNode, Option.bind_some] at hType
    rw [if_pos hBinds]
    refine ⟨hNode, ?_⟩
    -- A column that is not described leaves the type that the node names.
    cases hColumn : context.environment.baseSchema.get? context.table node.identifierText with
    | some column => exact .inl (by rw [BaseSchema.has, hColumn]; rfl)
    | none =>
        rw [hColumn] at hType
        exact .inr ⟨type, hType⟩
  case isFalse hNew =>
    rw [if_neg hNew]
    exact ⟨type, hType, fun _ => hNode⟩

/-! ## Groups of fields -/

namespace Groups

variable (hGroups : context.Groups node run kind)

include hGroups

theorem kindOf?_eq : context.kindOf? node = some kind := by
  cases hGroups with
  | palette hKind => exact hKind
  | tab hKind => exact hKind

theorem isField : ∀ field ∈ run, context.IsField field := by
  cases hGroups with
  | palette _ hFields => exact hFields
  | tab => simp

/-- The node contributes the fields that it stands for. -/
theorem ownFields_eq : context.ownFields node = context.fieldNodes run := by
  rw [fieldNodes_eq_self hGroups.isField]
  cases hGroups with
  | palette hKind hFields =>
      rw [ownFields, hKind]
      refine List.filter_eq_self.mpr fun field hField => decide_eq_true ?_
      exact (hFields field hField).kindOf?_ne (.inr (.inr rfl))
  | tab hKind => rw [ownFields, hKind]

theorem fieldNodes_eq :
    context.fieldNodes (before ++ node :: after) = context.fieldNodes (before ++ run ++ after) := by
  unfold fieldNodes
  rw [List.flatMap_append, List.flatMap_cons, hGroups.ownFields_eq, List.append_assoc before,
    List.flatMap_append, List.flatMap_append, fieldNodes]

/-- None of the fields is a palette or a tab. -/
theorem nodesOfKind_eq_nil (hOther : other = .palette ∨ other = .tab) :
    context.nodesOfKind other run = [] := by
  refine List.filter_eq_nil_iff.mpr fun field hField hKind => ?_
  exact (hGroups.isField field hField).kindOf?_ne (by tauto) (of_decide_eq_true hKind)

/-- Palettes and tabs stay apart if the identifier of the new one is free. -/
theorem nodup_nodesOfKind_iff (hOther : other = .palette ∨ other = .tab)
    (hFree : node.identifierText ∉
      (context.nodesOfKind kind (before ++ run ++ after)).map FieldNode.identifierText) :
    ((context.nodesOfKind other (before ++ node :: after)).map FieldNode.identifierText).Nodup ↔
      ((context.nodesOfKind other (before ++ run ++ after)).map
        FieldNode.identifierText).Nodup := by
  have hRun (shape : FieldKind) (hShape : shape = .palette ∨ shape = .tab) :
      context.nodesOfKind shape (before ++ run ++ after) =
        context.nodesOfKind shape before ++ context.nodesOfKind shape after := by
    have hNil := hGroups.nodesOfKind_eq_nil hShape
    unfold nodesOfKind at hNil ⊢
    rw [List.filter_append, List.filter_append, hNil, List.append_nil]
  rw [hRun other hOther]
  by_cases hSame : kind = other
  · subst hSame
    rw [hRun kind hOther, List.map_append] at hFree
    have hNode : context.nodesOfKind kind (before ++ node :: after) =
        context.nodesOfKind kind before ++ node :: context.nodesOfKind kind after := by
      unfold nodesOfKind
      rw [List.filter_append, List.filter_cons_of_pos (by simpa using hGroups.kindOf?_eq)]
    rw [hNode, List.map_append, List.map_cons, List.map_append, List.nodup_middle, List.nodup_cons]
    exact and_iff_right hFree
  · -- The node claims nothing in the other space.
    have hNot : ¬context.kindOf? node = some other := by
      rw [hGroups.kindOf?_eq]
      exact fun hEq => hSame (Option.some.inj hEq)
    unfold nodesOfKind
    rw [List.filter_append, List.filter_cons_of_neg (by simpa using hNot)]

variable (hNode : node.HasIdentifier)

include hNode

/-- The share of the node is that of the fields that it stands for. -/
theorem nodeAccepted_iff :
    context.NodeAccepted node ↔ ∀ field ∈ run, context.NodeAccepted field := by
  have hResolves := resolves_of_kindOf? hGroups.kindOf?_eq hNode
  cases hGroups with
  | palette hKind hFields =>
      rw [nodeAccepted_iff_of_palette hKind, and_iff_right hResolves]
      exact forall₂_congr fun field hField => (hFields field hField).entryAccepted_iff
  | tab hKind =>
      rw [nodeAccepted_iff_of_tab hKind, iff_true_intro hResolves]
      simp

/-- Nodes with a group among them are accepted exactly when they are with the
fields themselves. -/
theorem accepts_iff (hFree : node.identifierText ∉
    (context.nodesOfKind kind (before ++ run ++ after)).map FieldNode.identifierText) :
    context.Accepts (before ++ node :: after) ↔ context.Accepts (before ++ run ++ after) := by
  have hNodes : (∀ other ∈ before ++ node :: after, context.NodeAccepted other) ↔
      ∀ other ∈ before ++ run ++ after, context.NodeAccepted other := by
    simp only [List.forall_mem_append, List.forall_mem_cons, hGroups.nodeAccepted_iff hNode,
      and_assoc]
  rw [PassContext.accepts_iff, PassContext.accepts_iff, hNodes, Claims.admits_start_iff,
    Claims.admits_start_iff]
  unfold asked
  rw [hGroups.fieldNodes_eq, hGroups.nodup_nodesOfKind_iff (.inl rfl) hFree,
    hGroups.nodup_nodesOfKind_iff (.inr rfl) hFree]

end Groups

/-! ## Sites with groups -/

namespace Groups

variable (hGroups : context.Groups node run kind)

include hGroups

/-- Sites with a group and with the fields themselves have the same fields. -/
theorem reshapes :
    (Site.mk context path (before ++ run ++ after)).Reshapes
      ⟨context, path, before ++ node :: after⟩ :=
  ⟨rfl, rfl, hGroups.fieldNodes_eq⟩

/-- The keys of the node are those of its shape and then those of the fields that
it stands for. -/
theorem nodeKeys_eq :
    context.nodeKeys path node =
      context.shapeKeys path node ++ run.flatMap (context.nodeKeys path) := by
  have hRun : context.treeKeys path run = run.flatMap (context.nodeKeys path) := by
    refine List.flatMap_congr fun field hField => ?_
    have hIsField := hGroups.isField field hField
    rw [nodeKeys, hIsField.shapeKeys_eq, hIsField.ownFields_eq, treeKeys, List.flatMap_singleton,
      List.nil_append]
  rw [nodeKeys, hGroups.ownFields_eq, fieldNodes_eq_self hGroups.isField, hRun]

/-- A group registers the keys of its shape in front of those of its fields, and
changes no other key. -/
theorem keys_eq (hSite : (Site.mk context path (before ++ run ++ after)).Succeeds)
    (hOther : (Site.mk context path (before ++ node :: after)).Succeeds) :
    (Site.mk context path (before ++ run ++ after)).keys =
        (context.titleKeys path ++ before.flatMap (context.nodeKeys path)) ++
          (run ++ after).flatMap (context.nodeKeys path) ∧
      (Site.mk context path (before ++ node :: after)).keys =
        (context.titleKeys path ++ before.flatMap (context.nodeKeys path)) ++
          context.shapeKeys path node ++ (run ++ after).flatMap (context.nodeKeys path) := by
  rw [Site.keys, hSite.registers_walk.map_snd, Site.keys, hOther.registers_walk.map_snd]
  simp only [List.flatMap_append, List.flatMap_cons, hGroups.nodeKeys_eq, List.append_assoc,
    and_self]

end Groups
end PassContext
end ContentSchema
