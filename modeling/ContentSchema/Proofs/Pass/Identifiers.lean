import ContentSchema.Proofs.Pass.Sites

/-!
# Identifiers of a tree

Every field of every pass of a walk is a node of the tree that is walked, and it
is authored with an identifier that is not blank.  An identifier that occurs
nowhere in the tree is therefore that of no field.

* `FieldNode.identifiers` lists the identifiers in the tree of a node.
* `Site.Succeeds.hasIdentifier` says that fields have one.
* `Site.Succeeds.mem_allIdentifiers` says where it occurs.

The list also has identifiers of nodes that become NO field, such as tabs,
palettes and the containers of a section.
-/

namespace ContentSchema

namespace FieldNode

mutual

/-- The identifiers in the tree of a node, its own and those of containers
included. -/
def identifiers : FieldNode → List String
  | ⟨attributes, fields, container⟩ =>
      attributes.identifier.toList ++ (allIdentifiers fields ++ allIdentifiers container)

/-- The identifiers in the trees of a list of nodes. -/
def allIdentifiers : List FieldNode → List String
  | [] => []
  | node :: rest => identifiers node ++ allIdentifiers rest

end

theorem mem_allIdentifiers_iff {nodes : List FieldNode} {identifier : String} :
    identifier ∈ allIdentifiers nodes ↔ ∃ node ∈ nodes, identifier ∈ node.identifiers := by
  induction nodes with
  | nil => simp [allIdentifiers]
  | cons node rest ih => simp [allIdentifiers, ih]

theorem mem_identifiers_of_identifier {node : FieldNode} {identifier : String}
    (hNode : node.identifier = some identifier) : identifier ∈ node.identifiers := by
  obtain ⟨attributes, fields, container⟩ := node
  exact List.mem_append_left _ (Option.mem_toList.mpr hNode)

theorem mem_identifiers_of_fields {node : FieldNode} {identifier : String}
    (hNested : identifier ∈ allIdentifiers node.fields) : identifier ∈ node.identifiers := by
  obtain ⟨attributes, fields, container⟩ := node
  exact List.mem_append_right _ (List.mem_append_left _ hNested)

/-- A node with an identifier is authored with it. -/
theorem HasIdentifier.mem_identifiers {node : FieldNode} (hNode : node.HasIdentifier) :
    node.identifierText ∈ node.identifiers := by
  have hFound := hasIdentifier_iff.mp hNode
  exact mem_identifiers_of_identifier (Option.filter_eq_some_iff.mp hFound).1

end FieldNode

namespace Site

variable {site : Site} {node : FieldNode}

/-- The tree of a field is part of the trees of the site. -/
theorem mem_allIdentifiers_of_field (hNode : node ∈ site.fields) {identifier : String}
    (hMem : identifier ∈ node.identifiers) : identifier ∈ FieldNode.allIdentifiers site.nodes := by
  rcases mem_nodes_or_palette hNode with hTop | ⟨palette, hPalette, hEntry⟩
  · exact FieldNode.mem_allIdentifiers_iff.mpr ⟨node, hTop, hMem⟩
  · refine FieldNode.mem_allIdentifiers_iff.mpr ⟨palette, hPalette, ?_⟩
    exact FieldNode.mem_identifiers_of_fields
      (FieldNode.mem_allIdentifiers_iff.mpr ⟨node, hEntry, hMem⟩)

/-- A field needs an identifier: only a line break goes without. -/
theorem Succeeds.hasIdentifier (hSite : site.Succeeds) (hNode : node ∈ site.fields) :
    node.HasIdentifier := by
  have hAccepts := (PassContext.compilePass_succeeds_iff
    (fun node _ => PassContext.compiles node) hSite.named).mp hSite.result
  obtain ⟨hNodes, _, _⟩ := PassContext.accepts_iff.mp hAccepts
  have hField (hResolves : site.context.Resolves node)
      (hLinebreak : site.context.kindOf? node ≠ some .linebreak) : node.HasIdentifier := by
    obtain ⟨type, hType⟩ := hResolves.exists_typeOf?
    apply hResolves.hasIdentifier hType
    intro hKind
    apply hLinebreak
    rw [PassContext.kindOf?_of_typeOf? hType, hKind]
  -- The field is a node of the site or an entry of one of its palettes.
  obtain ⟨top, hTop, hOwn⟩ := List.mem_flatMap.mp hNode
  have hAccepted := hNodes top hTop
  unfold PassContext.ownFields at hOwn
  split at hOwn
  case h_1 hPalette =>
    obtain ⟨hEntry, hLinebreak⟩ := List.mem_filter.mp hOwn
    exact hField (hAccepted.entries hPalette node hEntry).resolves (of_decide_eq_true hLinebreak)
  case h_2 => contradiction
  case h_3 =>
    obtain rfl := List.mem_singleton.mp hOwn
    exact hField hAccepted.resolves hAccepted.linebreak

/-- A pass of a walk is that of the site, or one of the walk over the nested nodes
of a collection. -/
theorem Succeeds.own_or_nested (hSite : site.Succeeds) {pass : Pass}
    (hPass : pass ∈ site.walk.emission.passes) :
    pass.site = site ∨ ∃ node ∈ site.fields, ∃ child, site.child? node = some child ∧
      child.Succeeds ∧ pass ∈ child.walk.emission.passes := by
  obtain ⟨own, hOwn, hPasses⟩ := hSite.passes_walk
  rw [hPasses] at hPass
  rcases List.mem_append.mp hPass with hNested | hLast
  · obtain ⟨child, hChild, hInChild⟩ := List.mem_flatMap.mp hNested
    obtain ⟨node, hNode, hMade⟩ := List.mem_filterMap.mp hChild
    exact .inr ⟨node, hNode, child, hMade, hSite.child hNode hMade, hInChild⟩
  · rw [List.mem_singleton.mp hLast]
    exact .inl hOwn

/-- The fields of all passes of a walk are authored in the trees of the site. -/
theorem Succeeds.mem_allIdentifiers (hSite : site.Succeeds) {pass : Pass}
    (hPass : pass ∈ site.walk.emission.passes) (hNode : node ∈ pass.site.fields) :
    node.identifierText ∈ FieldNode.allIdentifiers site.nodes := by
  have hWithin : ∀ identifier ∈ FieldNode.allIdentifiers pass.site.nodes,
      identifier ∈ FieldNode.allIdentifiers site.nodes := by
    refine hSite.forall_mem_passes (P := fun other =>
      ∀ identifier ∈ FieldNode.allIdentifiers other.nodes,
        identifier ∈ FieldNode.allIdentifiers site.nodes) ?_ (fun _ hMem => hMem) pass hPass
    intro outer field inner hField hChild hOuter identifier hMem
    rw [nodes_of_child? hChild] at hMem
    exact hOuter identifier
      (mem_allIdentifiers_of_field hField (FieldNode.mem_identifiers_of_fields hMem))
  have hIdentifier := (hSite.of_mem_passes hPass).hasIdentifier hNode
  exact hWithin _ (mem_allIdentifiers_of_field hNode hIdentifier.mem_identifiers)

end Site
end ContentSchema
