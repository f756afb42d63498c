import ContentSchema.Proofs.FlexForm.Layout
import ContentSchema.Proofs.Run.Sites

/-!
# Layouts of nested forms

What the data structure of a form has, in whatever pass of a document the form
stands, and what becomes of it when the leaves are put on other sheets.

* `PassContext.Arises` are the passes of a document.
* `FlexForm.structureKey_of_arises` says which key the data structures of a pass have.
* `FlexForm.expand_keeps_leaves` puts these together for a form that is accepted.

A pass arises whether or not the document compiles; the form has to be accepted,
but what stands beside it does NOT matter.
-/

namespace ContentSchema

/-- The passes that a document may lead to: the one over its own nodes, and those
over the nested nodes of collections. -/
inductive PassContext.Arises (environment : Environment) (document : SchemaDocument) :
    PassContext → Prop where
  | own {context : PassContext} (made : ofDocument environment document = .ok context) :
      Arises environment document context
  | nested {context child : PassContext} {node : FieldNode} {table : String}
      (above : Arises environment document context)
      (made : context.ofCollection node table = .ok child) :
      Arises environment document child

namespace FlexForm

variable {environment : Environment} {document : SchemaDocument} {context : PassContext}

/-- The key of a data structure is the discriminator value of the pass, if the pass
has a discriminator column. -/
theorem structureKey_of_arises (hPass : context.Arises environment document) :
    (∀ typeField, context.typeField = some typeField →
        context.typeName = some (structureKey context)) ∧
      (context.typeField = none → structureKey context = defaultKey) := by
  unfold structureKey
  cases hPass with
  | own made =>
      obtain ⟨table, typeName, _, _, rfl⟩ := PassContext.ofDocument_eq_ok_iff.mp made
      show (∀ typeField, document.typeFieldName = some typeField → _) ∧
        (document.typeFieldName = none → _)
      cases hField : document.typeFieldName with
      | none => simp [PassContext.root, hField]
      | some typeField => simp [PassContext.root, hField]
  | nested above made =>
      -- A nested pass has neither a column nor a value.
      unfold PassContext.ofCollection at made
      split at made
      · contradiction
      · cases made
        exact ⟨fun _ hSome => by contradiction, fun _ => rfl⟩

/-- **Sheets only group.**  The data structure of an accepted form has a single key
and keeps every authored node in order.  The same leaves on other sheets, or on none,
are accepted as well and have the same elements. -/
theorem expand_keeps_leaves {path : LanguagePath} {form : String} {nodes : List FieldNode}
    {value : Value} (hPass : context.Arises environment document)
    (hValue : (expand context path form nodes).result = .ok value) :
    ∃ key, (∀ typeField, context.typeField = some typeField → context.typeName = some key) ∧
      (context.typeField = none → key = "default") ∧
      Keeps context value key nodes ∧
      ∀ others, LaidOut others → leaves others = leaves nodes →
        ∃ other, (expand context path form others).result = .ok other ∧
          elementsIn key other = elementsIn key value := by
  obtain ⟨hForm, rfl⟩ := expand_result_eq_ok_iff.mp hValue
  obtain ⟨hTyped, hDefault⟩ := structureKey_of_arises hPass
  refine ⟨structureKey context, hTyped, hDefault, keeps_formValue hForm, ?_⟩
  intro others hOthers hSame
  have hOtherForm : WellFormed context others := by
    apply wellFormed_of_laidOut hOthers
    · rw [hSame]
      exact hForm.leaves
    · rw [hSame]
      exact hForm.distinctLeaves
  refine ⟨_, expand_result_eq_ok_iff.mpr ⟨hOtherForm, rfl⟩, ?_⟩
  rw [elementsIn_formValue hOthers, elementsIn_formValue hForm.laidOut, hSame]

/-- The leaves of a form: a field, a section with one container, and another field. -/
def surveyLeaves : List FieldNode :=
  [ .ofType "intro" "Text",
    { FieldNode.ofType "questions" "Section" with
      container :=
        [ { FieldNode.ofType "question" "Container" with
            fields := [.ofType "text" "Text", .ofType "hint" "Text"] } ] },
    .ofType "outro" "Text" ]

/-- The leaves on two sheets. -/
def surveySheets : List FieldNode :=
  [ { FieldNode.ofType "first" "Sheet" with fields := surveyLeaves.take 2 },
    { FieldNode.ofType "last" "Sheet" with fields := surveyLeaves.drop 2 } ]

/-- The document that the form belongs to. -/
def survey : SchemaDocument where
  name := "acme/survey"
  fields := [{ FieldNode.ofType "options" "FlexForm" with fields := surveySheets }]

/-- The pass over the document, with a catalog that has one form element. -/
def surveyContext : PassContext :=
  .root ⟨⟨[{ name := "Text", storage := .input }]⟩, .empty⟩ survey "tt_content" "acme_survey"

/-- The form without its sheets has the same three elements. -/
theorem expand_keeps_leaves_survey :
    ∃ value other,
      (expand surveyContext survey.rootPath "options" surveySheets).result = .ok value ∧
      (expand surveyContext survey.rootPath "options" surveyLeaves).result = .ok other ∧
      Keeps surveyContext value "acme_survey" surveySheets ∧
      elementsIn "acme_survey" other = elementsIn "acme_survey" value ∧
      (elementsIn "acme_survey" value).map Prod.fst = ["intro", "questions", "outro"] := by
  have hPass : surveyContext.Arises surveyContext.environment survey :=
    .own (PassContext.ofDocument_eq_ok_iff.mpr ⟨_, _, rfl, rfl, rfl⟩)
  obtain ⟨value, hValue⟩ := exists_eq_ok_of_isSome (by decide +kernel :
    (expand surveyContext survey.rootPath "options" surveySheets).result.toOption.isSome = true)
  obtain ⟨key, hTyped, _, hKeeps, hOthers⟩ := expand_keeps_leaves hPass hValue
  obtain rfl : "acme_survey" = key := Option.some.inj (hTyped "CType" rfl)
  have hLaidOut : LaidOut surveyLeaves := by
    constructor
    · exact .inl (by decide)
    · decide
    · decide
  obtain ⟨other, hOther, hSame⟩ := hOthers surveyLeaves hLaidOut rfl
  refine ⟨value, other, hValue, hOther, hKeeps, hSame, ?_⟩
  have hNames : (expand surveyContext survey.rootPath "options" surveySheets).result.toOption.map
      (fun value => (elementsIn "acme_survey" value).map Prod.fst) =
        some ["intro", "questions", "outro"] := by decide +kernel
  rw [hValue] at hNames
  exact Option.some.inj hNames

end FlexForm
end ContentSchema
