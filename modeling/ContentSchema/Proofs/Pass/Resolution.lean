import ContentSchema.Compiler.Resolution
import ContentSchema.Proofs.Walk.Result

/-!
# Resolvable nodes

Which nodes of a pass have a type, and which type that is, told without the
order in which the compiler looks for it.

* `PassContext.Resolves` says when a node resolves.
* `PassContext.typeOf?` is the type that it resolves to.

A node that does NOT resolve may still have a `typeOf?`: it names a registered
type and lacks the identifier that the type needs.
-/

namespace ContentSchema

namespace FieldNode

/-- The node has an identifier that is not blank. -/
def HasIdentifier (node : FieldNode) : Prop :=
  node.identifier?.isSome

instance (node : FieldNode) : Decidable node.HasIdentifier :=
  inferInstanceAs (Decidable (node.identifier?.isSome = true))

theorem identifierText_of_identifier? {node : FieldNode} {identifier : String}
    (hIdentifier : node.identifier? = some identifier) : node.identifierText = identifier := by
  obtain ⟨hAuthored, _⟩ := Option.filter_eq_some_iff.mp hIdentifier
  rw [identifierText, hAuthored]
  rfl

/-- A node with an identifier is known by what it was authored with. -/
theorem hasIdentifier_iff {node : FieldNode} :
    node.HasIdentifier ↔ node.identifier? = some node.identifierText := by
  constructor
  · intro hNode
    obtain ⟨identifier, hIdentifier⟩ := Option.isSome_iff_exists.mp hNode
    rw [identifierText_of_identifier? hIdentifier]
    exact hIdentifier
  · intro hNode
    rw [HasIdentifier, hNode]
    rfl

end FieldNode

namespace PassContext

variable {context : PassContext} {node : FieldNode}

/-- The type of the existing column that a node binds to, if that is described. -/
def boundType? (context : PassContext) (node : FieldNode) : Option TypeDescriptor :=
  if node.useExistingField then
    node.identifier?.bind (context.environment.baseSchema.get? context.table)
  else none

/-- The registered type that a node names. -/
def namedType? (context : PassContext) (node : FieldNode) : Option TypeDescriptor :=
  node.type.bind context.environment.catalog.find?

/-- The type of a node: that of its column, else the one that it names. -/
def typeOf? (context : PassContext) (node : FieldNode) : Option TypeDescriptor :=
  context.boundType? node <|> context.namedType? node

/-- The structural role of a node. -/
def kindOf? (context : PassContext) (node : FieldNode) : Option FieldKind :=
  (context.typeOf? node).map TypeDescriptor.kind

/-- The storage that a node compiles to. -/
def storageOf? (context : PassContext) (node : FieldNode) : Option StorageKind :=
  (context.typeOf? node).map TypeDescriptor.storage

theorem kindOf?_of_typeOf? {type : TypeDescriptor} (hType : context.typeOf? node = some type) :
    context.kindOf? node = some type.kind := by
  rw [kindOf?, hType]
  rfl

theorem storageOf?_of_typeOf? {type : TypeDescriptor}
    (hType : context.typeOf? node = some type) :
    context.storageOf? node = some type.storage := by
  rw [storageOf?, hType]
  rfl

/-- The node has a type and the identifier that it needs: a node that binds to
an existing column always needs one, any other unless it is a line break. -/
def Resolves (context : PassContext) (node : FieldNode) : Prop :=
  if node.useExistingField then
    node.HasIdentifier ∧
      (context.environment.baseSchema.has context.table node.identifierText ∨
        ∃ type, context.namedType? node = some type)
  else
    ∃ type, context.namedType? node = some type ∧ (type.kind ≠ .linebreak → node.HasIdentifier)

theorem requireIdentifier_eq_ok_iff {typeName identifier : String} :
    context.requireIdentifier node typeName = .ok identifier ↔
      node.identifier? = some identifier := by
  unfold requireIdentifier
  cases node.identifier? <;> simp

/-- Requiring an identifier succeeds exactly when there is one. -/
theorem requireIdentifier_eq_ok_iff_hasIdentifier {typeName identifier : String} :
    context.requireIdentifier node typeName = .ok identifier ↔
      node.HasIdentifier ∧ identifier = node.identifierText := by
  rw [requireIdentifier_eq_ok_iff, FieldNode.hasIdentifier_iff]
  constructor
  · intro hIdentifier
    have hText := FieldNode.identifierText_of_identifier? hIdentifier
    rw [hText]
    exact ⟨hIdentifier, rfl⟩
  · rintro ⟨hIdentifier, rfl⟩
    exact hIdentifier

theorem authoredType_eq_ok_iff {type : TypeDescriptor} :
    context.authoredType node = .ok type ↔
      context.namedType? node = some type ∧ (type.kind ≠ .linebreak → node.HasIdentifier) := by
  unfold authoredType namedType?
  cases node.type with
  | none => simp [throw, throwThe, MonadExceptOf.throw]
  | some typeName =>
      cases hFind : context.environment.catalog.find? typeName with
      | none => simp [hFind, throw, throwThe, MonadExceptOf.throw]
      | some found =>
          -- A line break is the one type that needs no identifier.
          by_cases hKind : found.kind = .linebreak
          · simp only [hFind, hKind, ne_eq, not_true, if_false, Option.bind_some]
            constructor
            · intro hType
              cases hType
              exact ⟨rfl, fun hNot => absurd hKind hNot⟩
            · rintro ⟨hType, _⟩
              cases hType
              rfl
          · simp only [hFind, ne_eq, hKind, not_false_eq_true, if_true, Option.bind_some,
              bind_eq_ok_iff, requireIdentifier_eq_ok_iff_hasIdentifier]
            constructor
            · rintro ⟨_, ⟨hNode, _⟩, hType⟩
              cases hType
              exact ⟨rfl, fun _ => hNode⟩
            · rintro ⟨hType, hNode⟩
              cases hType
              exact ⟨_, ⟨hNode hKind, rfl⟩, rfl⟩

/-- The type of a node that binds to a column, once it has an identifier. -/
theorem boundType?_of_hasIdentifier (hBinds : node.useExistingField = true)
    (hNode : node.HasIdentifier) :
    context.boundType? node =
      context.environment.baseSchema.get? context.table node.identifierText := by
  rw [boundType?, if_pos hBinds, FieldNode.hasIdentifier_iff.mp hNode]
  rfl

/-- The type of a described column counts before any type that the node names. -/
theorem typeOf?_of_existing (hBinds : node.useExistingField = true) (hNode : node.HasIdentifier)
    {type : TypeDescriptor}
    (hColumn : context.environment.baseSchema.get? context.table node.identifierText = some type) :
    context.typeOf? node = some type := by
  rw [typeOf?, boundType?_of_hasIdentifier hBinds hNode, hColumn]
  rfl

/-- Resolving succeeds exactly for the nodes that resolve, with their type. -/
theorem resolve_eq_ok_iff {type : TypeDescriptor} :
    context.resolve node = .ok type ↔
      context.Resolves node ∧ context.typeOf? node = some type := by
  unfold resolve Resolves
  by_cases hBinds : node.useExistingField = true
  · simp only [if_pos hBinds, bind_eq_ok_iff, requireIdentifier_eq_ok_iff_hasIdentifier]
    constructor
    · rintro ⟨_, ⟨hNode, rfl⟩, hType⟩
      -- A described column decides the type, any other leaves it to the authored one.
      rw [typeOf?, boundType?_of_hasIdentifier hBinds hNode]
      cases hColumn :
          context.environment.baseSchema.get? context.table node.identifierText with
      | none =>
          rw [hColumn] at hType
          obtain ⟨hNamed, _⟩ := authoredType_eq_ok_iff.mp hType
          exact ⟨⟨hNode, .inr ⟨type, hNamed⟩⟩, hNamed⟩
      | some column =>
          rw [hColumn] at hType
          cases hType
          exact ⟨⟨hNode, .inl (by simp [BaseSchema.has, hColumn])⟩, rfl⟩
    · rintro ⟨⟨hNode, _⟩, hType⟩
      refine ⟨_, ⟨hNode, rfl⟩, ?_⟩
      rw [typeOf?, boundType?_of_hasIdentifier hBinds hNode] at hType
      cases hColumn :
          context.environment.baseSchema.get? context.table node.identifierText with
      | none =>
          rw [hColumn] at hType
          exact authoredType_eq_ok_iff.mpr ⟨hType, fun _ => hNode⟩
      | some column =>
          rw [hColumn] at hType
          cases hType
          rfl
  · rw [if_neg hBinds, if_neg hBinds, typeOf?, boundType?, if_neg hBinds, authoredType_eq_ok_iff]
    constructor
    · rintro ⟨hNamed, hNode⟩
      exact ⟨⟨type, hNamed, hNode⟩, hNamed⟩
    · rintro ⟨⟨named, hNamed, hNode⟩, hType⟩
      obtain rfl : named = type := Option.some.inj (hNamed.symm.trans hType)
      exact ⟨hNamed, hNode⟩

/-- A node that resolves has a type. -/
theorem Resolves.exists_typeOf? (hNode : context.Resolves node) :
    ∃ type, context.typeOf? node = some type := by
  unfold Resolves at hNode
  split at hNode
  case isTrue hBinds =>
    obtain ⟨hIdentifier, hColumn | ⟨type, hNamed⟩⟩ := hNode
    · obtain ⟨column, hColumn⟩ := Option.isSome_iff_exists.mp hColumn
      exact ⟨column, by simp [typeOf?, boundType?_of_hasIdentifier hBinds hIdentifier, hColumn]⟩
    · rw [typeOf?, hNamed]
      cases context.boundType? node with
      | none => exact ⟨type, rfl⟩
      | some column => exact ⟨column, rfl⟩
  case isFalse hBinds =>
    obtain ⟨type, hNamed, _⟩ := hNode
    exact ⟨type, by simp [typeOf?, boundType?, hBinds, hNamed]⟩

/-- Only a line break resolves without an identifier. -/
theorem Resolves.hasIdentifier (hNode : context.Resolves node) {type : TypeDescriptor}
    (hType : context.typeOf? node = some type) (hKind : type.kind ≠ .linebreak) :
    node.HasIdentifier := by
  unfold Resolves at hNode
  split at hNode
  case isTrue => exact hNode.1
  case isFalse hBinds =>
    obtain ⟨named, hNamed, hIdentifier⟩ := hNode
    have hSame : context.typeOf? node = some named := by
      simp [typeOf?, boundType?, hBinds, hNamed]
    obtain rfl : named = type := Option.some.inj (hSame.symm.trans hType)
    exact hIdentifier hKind

end PassContext
end ContentSchema
