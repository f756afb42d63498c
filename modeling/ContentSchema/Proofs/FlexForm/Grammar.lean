import ContentSchema.Compiler.FlexForm
import ContentSchema.Proofs.Pass.Claims

/-!
# The grammar of nested forms

Which nested forms are accepted, and what an accepted one expands to, told
without the walk: every level of a form has a condition of its own and a value
of its own.

* `FlexForm.WellFormed` is the grammar of a whole form.
* `FlexForm.formValue` is the data structure of a form at a position.
* `FlexForm.expand_result_eq_ok_iff` says that a form expands exactly if it
  follows the grammar, and then to that value.

The grammar mentions neither the position of the form nor its identifier, so
whether a form is accepted does NOT depend on where it stands.
-/

namespace ContentSchema

namespace FlexForm

variable {context : PassContext}

theorem take_eq_ok_iff {space : IdentifierSpace} {taken taken' : List String}
    {identifier : String} :
    take context space taken identifier = .ok taken' ↔
      identifier ∉ taken ∧ taken' = identifier :: taken := by
  unfold take
  by_cases hTaken : identifier ∈ taken
  · simp [hTaken]
  · simp [hTaken, eq_comm]

/-! ## The grammar -/

/-- A field that may stand in a place. -/
def AdmitsField (context : PassContext) (place : Place) (node : FieldNode) : Prop :=
  context.Resolves node ∧ ∃ type, context.typeOf? node = some type ∧ place.admits type = true

/-- A container of a section. -/
structure AdmitsContainer (context : PassContext) (node : FieldNode) : Prop where
  identifier : node.HasIdentifier
  nonempty : node.fields ≠ []
  fields : ∀ field ∈ node.fields, AdmitsField context .container field
  distinct : (node.fields.map FieldNode.identifierText).Nodup

/-- A section. -/
structure AdmitsSection (context : PassContext) (node : FieldNode) : Prop where
  identifier : node.HasIdentifier
  nonempty : node.container ≠ []
  containers : ∀ container ∈ node.container, AdmitsContainer context container
  distinct : (node.container.map FieldNode.identifierText).Nodup

/-- A leaf of a sheet: a section, or a field that may stand in a sheet. -/
def AdmitsLeaf (context : PassContext) (node : FieldNode) : Prop :=
  if node.hasType sectionType = true then AdmitsSection context node
  else AdmitsField context .sheet node

theorem admitsLeaf_of_section {node : FieldNode} (hSection : node.hasType sectionType = true) :
    AdmitsLeaf context node ↔ AdmitsSection context node := by
  rw [AdmitsLeaf, if_pos hSection]

theorem admitsLeaf_of_field {node : FieldNode} (hField : ¬node.hasType sectionType = true) :
    AdmitsLeaf context node ↔ AdmitsField context .sheet node := by
  rw [AdmitsLeaf, if_neg hField]

/-- The leaves of a form, across its sheets if it has any. -/
def leaves (nodes : List FieldNode) : List FieldNode :=
  nodes.flatMap fun node => if node.hasType sheetType = true then node.fields else [node]

/-- A form that follows the grammar. -/
structure WellFormed (context : PassContext) (nodes : List FieldNode) : Prop where
  /-- None of the nodes is a sheet, or all of them are. -/
  layout : (∀ node ∈ nodes, node.hasType sheetType = false) ∨
    ∀ node ∈ nodes, node.hasType sheetType = true
  sheets : ∀ node ∈ nodes, node.hasType sheetType = true → node.HasIdentifier
  distinctSheets :
    ((nodes.filter fun node => node.hasType sheetType).map FieldNode.identifierText).Nodup
  leaves : ∀ leaf ∈ leaves nodes, AdmitsLeaf context leaf
  /-- Leaves have different identifiers, also when they stand in different sheets. -/
  distinctLeaves : ((FlexForm.leaves nodes).map FieldNode.identifierText).Nodup

/-! ## The values -/

/-- The element of a field of the given type. -/
def elementOf (path : LanguagePath) (node : FieldNode) (type : TypeDescriptor) : Value :=
  let position := path.push node.identifierText
  .object
    ([("label", .string (position.pathFor "label"))]
      ++ Value.textEntry? "description" (PassContext.describedPath? position node type)
      ++ [("type", .string type.name)]
      ++ Value.entry? "displayCond" node.displayCond
      ++ [("config", .object (Entries.insertAll node.config
          (Value.entry? "items" (PassContext.registeredItems position node type))))])

/-- The element of a field with its identifier.  It is of no use for a node
without a type. -/
def fieldElement (context : PassContext) (path : LanguagePath) (node : FieldNode) :
    String × Value :=
  (node.identifierText, ((context.typeOf? node).map (elementOf path node)).getD .null)

/-- The element of a container of the section at `key`, with its identifier. -/
def containerElement (context : PassContext) (path : LanguagePath) (key : String)
    (node : FieldNode) : String × Value :=
  let position := key ++ ".container." ++ node.identifierText
  (node.identifierText, .object
    [ ("title", .string (path.pathFor (position ++ ".title"))),
      ("type", .string "array"),
      ("el", .object (node.fields.map (fieldElement context (path.push position)))) ])

/-- The element of a section. -/
def sectionValue (context : PassContext) (path : LanguagePath) (node : FieldNode) : Value :=
  let key := "sections." ++ node.identifierText
  .object
    [ ("title", .string (path.pathFor (key ++ ".title"))),
      ("type", .string "array"),
      ("section", .int 1),
      ("el", .object (node.container.map (containerElement context path key))) ]

/-- The element of a leaf with its identifier. -/
def leafElement (context : PassContext) (path : LanguagePath) (node : FieldNode) :
    String × Value :=
  if node.hasType sectionType = true then (node.identifierText, sectionValue context path node)
  else fieldElement context path node

/-- The texts that a sheet shows. -/
def textsOf (path : LanguagePath) (sheet : FieldNode) : List (String × Value) :=
  let key := "sheets." ++ sheet.identifierText
  [("sheetTitle", .string (path.pathFor (key ++ ".label")))]
    ++ Value.textEntry? "sheetDescription"
      (sheet.description.map fun _ => path.pathFor (key ++ ".description"))
    ++ Value.textEntry? "sheetShortDescr"
      (sheet.linkTitle.map fun _ => path.pathFor (key ++ ".linkTitle"))

/-- A sheet with its identifier. -/
def sheetElement (context : PassContext) (path : LanguagePath) (sheet : FieldNode) :
    String × Value :=
  (sheet.identifierText,
    sheetValue (textsOf path sheet) (sheet.fields.map (leafElement context path)))

/-- The data structure of a form. -/
def formValue (context : PassContext) (path : LanguagePath) (nodes : List FieldNode) : Value :=
  expand.structureOf context
    (if nodes.all fun node => !node.hasType sheetType then
      [(defaultSheet, sheetValue [] (nodes.map (leafElement context path)))]
    else nodes.map (sheetElement context path))

/-! ## Expansion, level by level -/

/-- A field expands exactly where it may stand. -/
theorem leaf_result_eq_ok_iff {path : LanguagePath} {form : String} {place : Place}
    {node : FieldNode} {element : String × Value} :
    (leaf context path form place node).result = .ok element ↔
      AdmitsField context place node ∧ element = fieldElement context path node := by
  unfold leaf AdmitsField
  simp only [Walk.bind_result_eq_ok_iff, Walk.liftM_result, PassContext.guard_result_eq_ok_iff,
    PassContext.resolve_eq_ok_iff, PassContext.requireIdentifier_eq_ok_iff_hasIdentifier,
    PassContext.registerLabels_result, PassContext.registerItems_result, Walk.pure_result]
  constructor
  · rintro ⟨type, ⟨hNode, hType⟩, hAdmits, _, ⟨_, rfl⟩, _, hLabels, _, hItems, hElement⟩
    cases hLabels
    cases hItems
    cases hElement
    refine ⟨⟨hNode, type, hType, by simpa using hAdmits⟩, ?_⟩
    rw [fieldElement, hType]
    rfl
  · rintro ⟨⟨hNode, type, hType, hAdmits⟩, rfl⟩
    have hKind : type.kind ≠ .linebreak := by
      intro hLinebreak
      simp [Place.admits, hLinebreak] at hAdmits
    refine ⟨type, ⟨hNode, hType⟩, by simpa using hAdmits, _,
      ⟨hNode.hasIdentifier hType hKind, rfl⟩, _, rfl, _, rfl, ?_⟩
    rw [fieldElement, hType]
    rfl

/-- The fields of a container expand if each may stand there and their
identifiers can be taken in order. -/
theorem containerElements_result_eq_ok_iff {path : LanguagePath} {form : String}
    {taken : List String} {nodes : List FieldNode} {elements : List (String × Value)} :
    (containerElements context path form taken nodes).result = .ok elements ↔
      (∀ node ∈ nodes, AdmitsField context .container node) ∧
        Fresh taken (nodes.map FieldNode.identifierText) ∧
        elements = nodes.map (fieldElement context path) := by
  induction nodes generalizing taken elements with
  | nil => simp [containerElements, eq_comm]
  | cons node rest ih =>
      simp only [containerElements, Walk.bind_result_eq_ok_iff, leaf_result_eq_ok_iff,
        Walk.liftM_result, take_eq_ok_iff, ih, Walk.pure_result, List.map_cons, fresh_cons,
        List.forall_mem_cons]
      constructor
      · rintro ⟨_, ⟨hNode, rfl⟩, _, ⟨hFree, rfl⟩, _, ⟨hRest, hFresh, rfl⟩, hElements⟩
        cases hElements
        exact ⟨⟨hNode, hRest⟩, ⟨hFree, hFresh⟩, rfl⟩
      · rintro ⟨⟨hNode, hRest⟩, ⟨hFree, hFresh⟩, rfl⟩
        exact ⟨_, ⟨hNode, rfl⟩, _, ⟨hFree, rfl⟩, _, ⟨hRest, hFresh, rfl⟩, rfl⟩

theorem containers_result_eq_ok_iff {path : LanguagePath} {form key : String}
    {taken : List String} {nodes : List FieldNode} {elements : List (String × Value)} :
    (containers context path form key taken nodes).result = .ok elements ↔
      (∀ node ∈ nodes, AdmitsContainer context node) ∧
        Fresh taken (nodes.map FieldNode.identifierText) ∧
        elements = nodes.map (containerElement context path key) := by
  induction nodes generalizing taken elements with
  | nil => simp [containers, eq_comm]
  | cons node rest ih =>
      simp only [containers, Walk.bind_result_eq_ok_iff, Walk.liftM_result, take_eq_ok_iff,
        PassContext.requireIdentifier_eq_ok_iff_hasIdentifier, PassContext.guard_result_eq_ok_iff,
        PassContext.register_result, containerElements_result_eq_ok_iff, ih, Walk.pure_result,
        List.map_cons, fresh_cons, fresh_nil_left, List.forall_mem_cons]
      constructor
      · rintro ⟨_, ⟨hIdentifier, rfl⟩, _, ⟨hFree, rfl⟩, hFields, _, hTitle, _,
          ⟨hAdmits, hDistinct, rfl⟩, _, ⟨hRest, hFresh, rfl⟩, hElements⟩
        cases hTitle
        cases hElements
        exact ⟨⟨⟨hIdentifier, by simpa using hFields, hAdmits, hDistinct⟩, hRest⟩,
          ⟨hFree, hFresh⟩, rfl⟩
      · rintro ⟨⟨hNode, hRest⟩, ⟨hFree, hFresh⟩, rfl⟩
        exact ⟨_, ⟨hNode.identifier, rfl⟩, _, ⟨hFree, rfl⟩, by simpa using hNode.nonempty, _, rfl,
          _, ⟨hNode.fields, hNode.distinct, rfl⟩, _, ⟨hRest, hFresh, rfl⟩, rfl⟩

/-- A section expands if it has containers and these expand. -/
theorem sectionElement_result_eq_ok_iff {path : LanguagePath} {form : String}
    {node : FieldNode} {element : Value} (hIdentifier : node.HasIdentifier) :
    (sectionElement context path form node node.identifierText).result = .ok element ↔
      AdmitsSection context node ∧ element = sectionValue context path node := by
  unfold sectionElement
  simp only [PassContext.guard_result_eq_ok_iff, Walk.bind_result_eq_ok_iff,
    PassContext.register_result, containers_result_eq_ok_iff, fresh_nil_left, Walk.pure_result]
  constructor
  · rintro ⟨hContainers, _, hTitle, _, ⟨hAdmits, hDistinct, rfl⟩, hElement⟩
    cases hTitle
    cases hElement
    exact ⟨⟨hIdentifier, by simpa using hContainers, hAdmits, hDistinct⟩, rfl⟩
  · rintro ⟨hNode, rfl⟩
    exact ⟨by simpa using hNode.nonempty, _, rfl, _, ⟨hNode.containers, hNode.distinct, rfl⟩, rfl⟩

/-- The leaves of a sheet expand if each of them does and their identifiers can
be taken in order; what is taken then is theirs as well. -/
theorem sheetElements_result_eq_ok_iff {path : LanguagePath} {form : String}
    {taken taken' : List String} {nodes : List FieldNode} {elements : List (String × Value)} :
    (sheetElements context path form taken nodes).result = .ok (taken', elements) ↔
      (∀ node ∈ nodes, AdmitsLeaf context node) ∧
        Fresh taken (nodes.map FieldNode.identifierText) ∧
        taken' = (nodes.map FieldNode.identifierText).reverse ++ taken ∧
        elements = nodes.map (leafElement context path) := by
  induction nodes generalizing taken taken' elements with
  | nil => simp [sheetElements, eq_comm]
  | cons node rest ih =>
      unfold sheetElements
      -- A section is named before it expands, a field by the element it expands to.
      by_cases hSection : node.hasType sectionType = true
      · have hElement : leafElement context path node =
            (node.identifierText, sectionValue context path node) := if_pos hSection
        simp only [if_pos hSection, Walk.bind_result_eq_ok_iff, Walk.liftM_result, take_eq_ok_iff,
          PassContext.requireIdentifier_eq_ok_iff_hasIdentifier, Prod.exists, ih, Walk.pure_result,
          List.map_cons, fresh_cons, List.forall_mem_cons, admitsLeaf_of_section hSection, hElement]
        constructor
        · rintro ⟨_, ⟨hIdentifier, rfl⟩, _, ⟨hFree, rfl⟩, element, hSectionOk, _, _,
            ⟨hRest, hFresh, rfl, rfl⟩, hResult⟩
          obtain ⟨hNode, rfl⟩ := (sectionElement_result_eq_ok_iff hIdentifier).mp hSectionOk
          cases hResult
          exact ⟨⟨hNode, hRest⟩, ⟨hFree, hFresh⟩, by simp, rfl⟩
        · rintro ⟨⟨hNode, hRest⟩, ⟨hFree, hFresh⟩, rfl, rfl⟩
          exact ⟨_, ⟨hNode.identifier, rfl⟩, _, ⟨hFree, rfl⟩, _,
            (sectionElement_result_eq_ok_iff hNode.identifier).mpr ⟨hNode, rfl⟩, _, _,
            ⟨hRest, hFresh, rfl, rfl⟩, by simp⟩
      · have hElement : leafElement context path node = fieldElement context path node :=
          if_neg hSection
        simp only [if_neg hSection, Walk.bind_result_eq_ok_iff, Walk.liftM_result, take_eq_ok_iff,
          leaf_result_eq_ok_iff, Prod.exists, ih, Walk.pure_result, List.map_cons, fresh_cons,
          List.forall_mem_cons, admitsLeaf_of_field hSection, hElement]
        constructor
        · rintro ⟨_, _, ⟨hNode, hLeafOk⟩, _, ⟨hFree, rfl⟩, _, _, ⟨hRest, hFresh, rfl, rfl⟩,
            hResult⟩
          cases hLeafOk
          cases hResult
          exact ⟨⟨hNode, hRest⟩, ⟨hFree, hFresh⟩, by simp, rfl⟩
        · rintro ⟨⟨hNode, hRest⟩, ⟨hFree, hFresh⟩, rfl, rfl⟩
          exact ⟨_, _, ⟨hNode, rfl⟩, _, ⟨hFree, rfl⟩, _, _, ⟨hRest, hFresh, rfl, rfl⟩,
            by simp [fieldElement]⟩

@[simp] theorem sheetTexts_result {path : LanguagePath} {sheet : FieldNode} :
    (sheetTexts context path sheet sheet.identifierText).result = .ok (textsOf path sheet) := by
  unfold sheetTexts textsOf
  simp only [Walk.bind_result_eq_ok_iff, PassContext.register_result,
    PassContext.registerOptional_result, Walk.pure_result]
  exact ⟨_, rfl, _, rfl, _, rfl, rfl⟩

theorem sheets_result_eq_ok_iff {path : LanguagePath} {form : String}
    {sheetsTaken leavesTaken : List String} {nodes : List FieldNode}
    {elements : List (String × Value)} :
    (sheets context path form sheetsTaken leavesTaken nodes).result = .ok elements ↔
      (∀ sheet ∈ nodes, sheet.HasIdentifier) ∧
        Fresh sheetsTaken (nodes.map FieldNode.identifierText) ∧
        (∀ leaf ∈ nodes.flatMap FieldNode.fields, AdmitsLeaf context leaf) ∧
        Fresh leavesTaken ((nodes.flatMap FieldNode.fields).map FieldNode.identifierText) ∧
        elements = nodes.map (sheetElement context path) := by
  induction nodes generalizing sheetsTaken leavesTaken elements with
  | nil => simp [sheets, eq_comm]
  | cons sheet rest ih =>
      simp only [sheets, Walk.bind_result_eq_ok_iff, Walk.liftM_result, take_eq_ok_iff,
        PassContext.requireIdentifier_eq_ok_iff_hasIdentifier, Prod.exists,
        sheetElements_result_eq_ok_iff, ih, Walk.pure_result, List.map_cons, fresh_cons,
        List.forall_mem_cons, List.flatMap_cons, List.map_append, fresh_append,
        List.forall_mem_append]
      constructor
      · rintro ⟨_, ⟨hIdentifier, rfl⟩, _, ⟨hFree, rfl⟩, _, hTexts, _, _,
          ⟨hLeaves, hFresh, rfl, rfl⟩, _, ⟨hRest, hSheets, hMore, hLater, rfl⟩, hElements⟩
        rw [sheetTexts_result] at hTexts
        cases hTexts
        cases hElements
        exact ⟨⟨hIdentifier, hRest⟩, ⟨hFree, hSheets⟩, ⟨hLeaves, hMore⟩, ⟨hFresh, hLater⟩, rfl⟩
      · rintro ⟨⟨hIdentifier, hRest⟩, ⟨hFree, hSheets⟩, ⟨hLeaves, hMore⟩, ⟨hFresh, hLater⟩, rfl⟩
        exact ⟨_, ⟨hIdentifier, rfl⟩, _, ⟨hFree, rfl⟩, _, sheetTexts_result, _, _,
          ⟨hLeaves, hFresh, rfl, rfl⟩, _, ⟨hRest, hSheets, hMore, hLater, rfl⟩, rfl⟩

/-! ## Whole forms -/

theorem leaves_of_plain {nodes : List FieldNode}
    (hPlain : ∀ node ∈ nodes, node.hasType sheetType = false) : leaves nodes = nodes := by
  unfold leaves
  induction nodes with
  | nil => rfl
  | cons node rest ih =>
      rw [List.forall_mem_cons] at hPlain
      rw [List.flatMap_cons, ih hPlain.2, hPlain.1]
      rfl

theorem leaves_of_sheets {nodes : List FieldNode}
    (hSheets : ∀ node ∈ nodes, node.hasType sheetType = true) :
    leaves nodes = nodes.flatMap FieldNode.fields := by
  unfold leaves
  induction nodes with
  | nil => rfl
  | cons node rest ih =>
      rw [List.forall_mem_cons] at hSheets
      rw [List.flatMap_cons, ih hSheets.2, hSheets.1]
      rfl

/-- Without sheets, a form is as well formed as its nodes are as leaves. -/
theorem wellFormed_of_plain {nodes : List FieldNode}
    (hPlain : ∀ node ∈ nodes, node.hasType sheetType = false) :
    WellFormed context nodes ↔
      (∀ node ∈ nodes, AdmitsLeaf context node) ∧ (nodes.map FieldNode.identifierText).Nodup := by
  have hFilter : (nodes.filter fun node => node.hasType sheetType) = [] :=
    List.filter_eq_nil_iff.mpr fun node hNode => by simp [hPlain node hNode]
  constructor
  · rintro ⟨_, _, _, hLeaves, hDistinct⟩
    rw [leaves_of_plain hPlain] at hLeaves hDistinct
    exact ⟨hLeaves, hDistinct⟩
  · rintro ⟨hLeaves, hDistinct⟩
    refine ⟨.inl hPlain, ?_, by simp [hFilter], ?_, ?_⟩
    · intro node hNode hSheet
      rw [hPlain node hNode] at hSheet
      contradiction
    · rwa [leaves_of_plain hPlain]
    · rwa [leaves_of_plain hPlain]

theorem wellFormed_of_sheets {nodes : List FieldNode}
    (hSheets : ∀ node ∈ nodes, node.hasType sheetType = true) :
    WellFormed context nodes ↔
      (∀ sheet ∈ nodes, sheet.HasIdentifier) ∧ (nodes.map FieldNode.identifierText).Nodup ∧
        (∀ leaf ∈ nodes.flatMap FieldNode.fields, AdmitsLeaf context leaf) ∧
        ((nodes.flatMap FieldNode.fields).map FieldNode.identifierText).Nodup := by
  have hFilter : (nodes.filter fun node => node.hasType sheetType) = nodes :=
    List.filter_eq_self.mpr hSheets
  constructor
  · rintro ⟨_, hIdentifiers, hDistinctSheets, hLeaves, hDistinct⟩
    rw [leaves_of_sheets hSheets] at hLeaves hDistinct
    rw [hFilter] at hDistinctSheets
    exact ⟨fun sheet hSheet => hIdentifiers sheet hSheet (hSheets sheet hSheet),
      hDistinctSheets, hLeaves, hDistinct⟩
  · rintro ⟨hIdentifiers, hDistinctSheets, hLeaves, hDistinct⟩
    refine ⟨.inr hSheets, fun sheet hSheet _ => hIdentifiers sheet hSheet, ?_, ?_, ?_⟩
    · rwa [hFilter]
    · rwa [leaves_of_sheets hSheets]
    · rwa [leaves_of_sheets hSheets]

/-- A form expands exactly if it follows the grammar, and then to its value. -/
theorem expand_result_eq_ok_iff {path : LanguagePath} {form : String} {nodes : List FieldNode}
    {value : Value} :
    (expand context path form nodes).result = .ok value ↔
      WellFormed context nodes ∧ value = formValue context path nodes := by
  unfold expand sheetLayout? formValue
  by_cases hPlain : (nodes.all fun node => !node.hasType sheetType) = true
  · have hNodes : ∀ node ∈ nodes, node.hasType sheetType = false := by simpa using hPlain
    simp only [if_pos hPlain, Walk.bind_result_eq_ok_iff, Prod.exists,
      sheetElements_result_eq_ok_iff, fresh_nil_left, Walk.pure_result, wellFormed_of_plain hNodes]
    constructor
    · rintro ⟨_, _, ⟨hLeaves, hDistinct, _, rfl⟩, hValue⟩
      cases hValue
      exact ⟨⟨hLeaves, hDistinct⟩, rfl⟩
    · rintro ⟨⟨hLeaves, hDistinct⟩, rfl⟩
      exact ⟨_, _, ⟨hLeaves, hDistinct, rfl, rfl⟩, rfl⟩
  · by_cases hSheets : (nodes.all fun node => node.hasType sheetType) = true
    · have hNodes : ∀ node ∈ nodes, node.hasType sheetType = true := by simpa using hSheets
      simp only [if_neg hPlain, if_pos hSheets, Walk.bind_result_eq_ok_iff,
        sheets_result_eq_ok_iff, fresh_nil_left, Walk.pure_result, wellFormed_of_sheets hNodes]
      constructor
      · rintro ⟨_, ⟨hIdentifiers, hDistinctSheets, hLeaves, hDistinct, rfl⟩, hValue⟩
        cases hValue
        exact ⟨⟨hIdentifiers, hDistinctSheets, hLeaves, hDistinct⟩, rfl⟩
      · rintro ⟨⟨hIdentifiers, hDistinctSheets, hLeaves, hDistinct⟩, rfl⟩
        exact ⟨_, ⟨hIdentifiers, hDistinctSheets, hLeaves, hDistinct, rfl⟩, rfl⟩
    · -- Neither layout holds, so the form is refused and does not follow the grammar.
      simp only [if_neg hPlain, if_neg hSheets, PassContext.fail_result, reduceCtorEq, false_iff]
      rintro ⟨hForm, _⟩
      rcases hForm.layout with hLayout | hLayout
      · exact hPlain (by simpa using hLayout)
      · exact hSheets (by simpa using hLayout)

end FlexForm
end ContentSchema
