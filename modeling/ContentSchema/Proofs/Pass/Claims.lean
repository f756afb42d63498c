import ContentSchema.Proofs.Pass.Resolution

/-!
# Claims of a pass

The walk over a pass takes identifiers one at a time and stops at the first that
is taken.  Which identifiers a list of nodes asks for can be told without any
walk, and the walk gets them all exactly when they are pairwise different and
none was taken before.

* `Fresh` is that condition for one list of identifiers.
* `Claims.Admits` is the condition for all three spaces of a pass.
* `PassContext.asked` is what a list of nodes asks for.

Tabs, palettes and fields do NOT exclude each other: one identifier may be used
once in each of the three spaces.
-/

namespace ContentSchema

/-! ## One list of identifiers -/

/-- Identifiers that can be taken one after another: they are pairwise different
and none of them is taken. -/
def Fresh (taken identifiers : List String) : Prop :=
  identifiers.Nodup ∧ ∀ identifier ∈ identifiers, identifier ∉ taken

@[simp] theorem fresh_nil (taken : List String) : Fresh taken [] := by
  simp [Fresh]

@[simp] theorem fresh_nil_left {identifiers : List String} :
    Fresh [] identifiers ↔ identifiers.Nodup := by
  simp [Fresh]

theorem fresh_singleton {taken : List String} {identifier : String} :
    Fresh taken [identifier] ↔ identifier ∉ taken := by
  simp [Fresh]

/-- What is taken first is taken for all that follow. -/
theorem fresh_append {taken first second : List String} :
    Fresh taken (first ++ second) ↔ Fresh taken first ∧ Fresh (first.reverse ++ taken) second := by
  unfold Fresh
  rw [List.nodup_append]
  -- The first identifiers are in the way of the second ones like those taken before.
  constructor
  · rintro ⟨⟨hFirst, hSecond, hApart⟩, hTaken⟩
    refine ⟨⟨hFirst, fun identifier hMem => hTaken identifier (List.mem_append_left _ hMem)⟩,
      hSecond, ?_⟩
    intro identifier hMem hEarlier
    rcases List.mem_append.mp hEarlier with hEarlier | hEarlier
    · exact hApart identifier (List.mem_reverse.mp hEarlier) identifier hMem rfl
    · exact hTaken identifier (List.mem_append_right _ hMem) hEarlier
  · rintro ⟨⟨hFirst, hTaken⟩, hSecond, hEarlier⟩
    refine ⟨⟨hFirst, hSecond, ?_⟩, ?_⟩
    · rintro identifier hMem other hOther rfl
      exact hEarlier identifier hOther
        (List.mem_append_left _ (List.mem_reverse.mpr hMem))
    · intro identifier hMem
      rcases List.mem_append.mp hMem with hMem | hMem
      · exact hTaken identifier hMem
      · exact fun hOld => hEarlier identifier hMem (List.mem_append_right _ hOld)

theorem fresh_cons {taken : List String} {identifier : String} {rest : List String} :
    Fresh taken (identifier :: rest) ↔ identifier ∉ taken ∧ Fresh (identifier :: taken) rest := by
  rw [← List.singleton_append, fresh_append, fresh_singleton]
  rfl

/-! ## The three spaces of a pass -/

namespace Claims

/-- The claims of `first` and then those of `second`. -/
def append (first second : Claims) : Claims where
  fields := first.fields ++ second.fields
  palettes := first.palettes ++ second.palettes
  tabs := first.tabs ++ second.tabs

instance : Append Claims := ⟨append⟩

@[simp] theorem fields_append (first second : Claims) :
    (first ++ second).fields = first.fields ++ second.fields := rfl

@[simp] theorem palettes_append (first second : Claims) :
    (first ++ second).palettes = first.palettes ++ second.palettes := rfl

@[simp] theorem tabs_append (first second : Claims) :
    (first ++ second).tabs = first.tabs ++ second.tabs := rfl

/-- What is claimed once `asked` was claimed in order, the newest first. -/
def add (claims asked : Claims) : Claims where
  fields := asked.fields.reverse ++ claims.fields
  palettes := asked.palettes.reverse ++ claims.palettes
  tabs := asked.tabs.reverse ++ claims.tabs

/-- Everything asked for can be claimed. -/
structure Admits (claims asked : Claims) : Prop where
  fields : Fresh claims.fields asked.fields
  palettes : Fresh claims.palettes asked.palettes
  tabs : Fresh claims.tabs asked.tabs

/-- A single identifier of a space.  Sheets and containers count as fields. -/
def single (space : IdentifierSpace) (identifier : String) : Claims :=
  match space with
  | .palette => { palettes := [identifier] }
  | .tab => { tabs := [identifier] }
  | _ => { fields := [identifier] }

theorem add_append (claims first second : Claims) :
    claims.add (first ++ second) = (claims.add first).add second := by
  simp [add]

theorem admits_append {claims first second : Claims} :
    claims.Admits (first ++ second) ↔ claims.Admits first ∧ (claims.add first).Admits second := by
  constructor
  · rintro ⟨hFields, hPalettes, hTabs⟩
    have hFields' := fresh_append.mp hFields
    have hPalettes' := fresh_append.mp hPalettes
    have hTabs' := fresh_append.mp hTabs
    exact ⟨⟨hFields'.1, hPalettes'.1, hTabs'.1⟩, hFields'.2, hPalettes'.2, hTabs'.2⟩
  · rintro ⟨hFirst, hSecond⟩
    exact ⟨fresh_append.mpr ⟨hFirst.fields, hSecond.fields⟩,
      fresh_append.mpr ⟨hFirst.palettes, hSecond.palettes⟩,
      fresh_append.mpr ⟨hFirst.tabs, hSecond.tabs⟩⟩

@[simp] theorem add_empty (claims : Claims) : claims.add {} = claims := by
  simp [add]

@[simp] theorem admits_empty (claims : Claims) : claims.Admits {} :=
  ⟨fresh_nil _, fresh_nil _, fresh_nil _⟩

/-- Nothing is claimed when a pass starts. -/
theorem admits_start_iff {asked : Claims} :
    ({} : Claims).Admits asked ↔
      asked.fields.Nodup ∧ asked.palettes.Nodup ∧ asked.tabs.Nodup := by
  constructor
  · rintro ⟨hFields, hPalettes, hTabs⟩
    exact ⟨fresh_nil_left.mp hFields, fresh_nil_left.mp hPalettes, fresh_nil_left.mp hTabs⟩
  · rintro ⟨hFields, hPalettes, hTabs⟩
    exact ⟨fresh_nil_left.mpr hFields, fresh_nil_left.mpr hPalettes, fresh_nil_left.mpr hTabs⟩

theorem claim?_eq_some_iff {claims claims' : Claims} {space : IdentifierSpace}
    {identifier : String} :
    claims.claim? space identifier = some claims' ↔
      claims.Admits (single space identifier) ∧ claims' = claims.add (single space identifier) := by
  have hAdmits : claims.Admits (single space identifier) ↔
      identifier ∉ (match space with
        | .palette => claims.palettes
        | .tab => claims.tabs
        | _ => claims.fields) := by
    constructor
    · rintro ⟨hFields, hPalettes, hTabs⟩
      cases space <;> simp_all [single, fresh_singleton]
    · intro hFree
      constructor <;> cases space <;> simp_all [single, fresh_singleton]
  rw [hAdmits]
  cases space <;> simp [claim?, single, add, eq_comm]

end Claims

namespace PassContext

variable {context : PassContext}

theorem claim_eq_ok_iff {claims claims' : Claims} {space : IdentifierSpace}
    {identifier : String} :
    context.claim claims space identifier = .ok claims' ↔
      claims.Admits (.single space identifier) ∧
        claims' = claims.add (.single space identifier) := by
  rw [← Claims.claim?_eq_some_iff]
  unfold claim
  cases claims.claim? space identifier <;> simp

/-! ## What nodes ask for -/

/-- The entries of a palette that become fields: all but line breaks. -/
def paletteFields (context : PassContext) (nodes : List FieldNode) : List FieldNode :=
  nodes.filter fun node => context.kindOf? node ≠ some .linebreak

/-- The nodes that one node contributes to the fields of a pass: those inside it
if it is a palette, none if it is a tab, and otherwise itself. -/
def ownFields (context : PassContext) (node : FieldNode) : List FieldNode :=
  match context.kindOf? node with
  | some .palette => context.paletteFields node.fields
  | some .tab => []
  | _ => [node]

/-- The nodes that become fields of a pass over `nodes`, in the order of the
walk. -/
def fieldNodes (context : PassContext) (nodes : List FieldNode) : List FieldNode :=
  nodes.flatMap context.ownFields

/-- The nodes of one structural role. -/
def nodesOfKind (context : PassContext) (kind : FieldKind) (nodes : List FieldNode) :
    List FieldNode :=
  nodes.filter fun node => context.kindOf? node = some kind

/-- What a pass over `nodes` asks for, in the order of the walk. -/
def asked (context : PassContext) (nodes : List FieldNode) : Claims where
  fields := (context.fieldNodes nodes).map FieldNode.identifierText
  palettes := (context.nodesOfKind .palette nodes).map FieldNode.identifierText
  tabs := (context.nodesOfKind .tab nodes).map FieldNode.identifierText

@[simp] theorem asked_nil (context : PassContext) : context.asked [] = {} := rfl

/-- A list of nodes asks for what its nodes ask for. -/
theorem asked_cons (context : PassContext) (node : FieldNode) (rest : List FieldNode) :
    context.asked (node :: rest) = context.asked [node] ++ context.asked rest := by
  have hKind : ∀ kind, context.nodesOfKind kind (node :: rest) =
      context.nodesOfKind kind [node] ++ context.nodesOfKind kind rest := by
    intro kind
    rw [nodesOfKind, ← List.singleton_append, List.filter_append]
    rfl
  simp only [asked, hKind, List.map_append, fieldNodes, List.flatMap_cons, List.flatMap_nil,
    List.append_nil]
  rfl

/-- The claims for the fields among the entries of a palette. -/
def askedInside (context : PassContext) (nodes : List FieldNode) : Claims where
  fields := (context.paletteFields nodes).map FieldNode.identifierText

/-- What a node of the given role asks for. -/
def askedBy (context : PassContext) (node : FieldNode) : FieldKind → Claims
  | .palette => .single .palette node.identifierText ++ context.askedInside node.fields
  | .tab => .single .tab node.identifierText
  | _ => .single .field node.identifierText

theorem asked_singleton_of_kind {node : FieldNode} {kind : FieldKind}
    (hKind : context.kindOf? node = some kind) :
    context.asked [node] = context.askedBy node kind := by
  unfold asked fieldNodes ownFields nodesOfKind
  cases kind with
  | palette =>
      simp only [hKind, List.flatMap_cons, List.flatMap_nil, List.append_nil, List.filter_cons]
      rfl
  | tab => simp [hKind, askedBy, Claims.single]
  | ordinary => simp [hKind, askedBy, Claims.single]
  | linebreak => simp [hKind, askedBy, Claims.single]
  | collection => simp [hKind, askedBy, Claims.single]
  | flexForm => simp [hKind, askedBy, Claims.single]

/-- A node that is neither a palette nor a tab asks for one identifier. -/
theorem askedBy_of_field {node : FieldNode} {kind : FieldKind} (hPalette : kind ≠ .palette)
    (hTab : kind ≠ .tab) : context.askedBy node kind = .single .field node.identifierText := by
  cases kind <;> first | contradiction | rfl

@[simp] theorem askedInside_nil (context : PassContext) : context.askedInside [] = {} := rfl

theorem askedInside_cons (context : PassContext) (node : FieldNode) (rest : List FieldNode) :
    context.askedInside (node :: rest) =
      context.askedInside [node] ++ context.askedInside rest := by
  unfold askedInside paletteFields
  rw [← List.singleton_append, List.filter_append, List.map_append]
  rfl

theorem askedInside_singleton_of_kind {node : FieldNode} {kind : FieldKind}
    (hKind : context.kindOf? node = some kind) :
    context.askedInside [node] =
      if kind = .linebreak then {} else { fields := [node.identifierText] } := by
  by_cases hLinebreak : kind = .linebreak
  · simp [askedInside, paletteFields, hKind, hLinebreak]
  · simp [askedInside, paletteFields, hKind, hLinebreak]

end PassContext
end ContentSchema
