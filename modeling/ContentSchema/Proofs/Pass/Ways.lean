import ContentSchema.Proofs.FlexForm.Ways
import ContentSchema.Proofs.Pass.Keys
import ContentSchema.Proofs.Run.Sites

/-!
# Ways to the texts of a pass

The keys of a walk lie below the position of its site: those of the title next to
it, those of tabs and palettes behind a fixed word, and those of a field, of its
nested form and of its nested pass behind the identifier of the field.

* `Site.Way` are the ways to the texts of a site, `Site.FieldWay` those behind one of
  its fields.
* `Site.Succeeds.exists_way` says that every key lies at the end of a way.
* `Site.Unambiguous` says what keeps ways apart, and `Site.Way.text_eq` that a way
  leads to one text only where all passes below the site keep theirs apart.

A description is registered twice where a collection writes the table of its
document, once for the field and once for the content type: that is NOT ambiguous,
since both are the same text.
-/

namespace ContentSchema

namespace Site

open PassContext (LabelWay)

/-! ## Ways -/

/-- The last step from a palette to each of its texts. -/
inductive PaletteStep (palette : FieldNode) : String → String → Prop where
  | label : PaletteStep palette "label" (palette.label.getD palette.identifierText)
  | description {text : String} (hText : palette.description = some text) :
      PaletteStep palette "description" text

mutual

/-- The ways behind a field: to its own texts, into its nested form and into its
nested pass. -/
inductive FieldWay : Site → FieldNode → List String → String → Prop where
  | own {site : Site} {node : FieldNode} {type : TypeDescriptor} {way : List String}
      {text : String} (hType : site.context.typeOf? node = some type)
      (inner : LabelWay node type way text) : FieldWay site node way text
  | form {site : Site} {node : FieldNode} {type : TypeDescriptor} {way : List String}
      {text : String} (hType : site.context.typeOf? node = some type)
      (hKind : type.kind = .flexForm)
      (inner : FlexForm.FormWay site.context node.fields way text) : FieldWay site node way text
  | nested {site child : Site} {node : FieldNode} {way : List String} {text : String}
      (hChild : site.child? node = some child) (inner : Way child way text) :
      FieldWay site node way text

/-- The ways from a site to the texts of its pass and of the passes below it. -/
inductive Way : Site → List String → String → Prop where
  | title {site : Site} (hRoot : site.context.isRootTable = true) :
      Way site ["title"] site.context.displayTitle
  | description {site : Site} (hRoot : site.context.isRootTable = true) :
      Way site ["description"] (site.context.description.getD "")
  | tab {site : Site} {node : FieldNode}
      (hNode : node ∈ site.context.nodesOfKind .tab site.nodes) :
      Way site ["tabs", node.identifierText] (node.label.getD node.identifierText)
  | palette {site : Site} {node : FieldNode} {step text : String}
      (hNode : node ∈ site.context.paletteNodes site.nodes) (inner : PaletteStep node step text) :
      Way site ["palettes", node.identifierText, step] text
  | field {site : Site} {node : FieldNode} {way : List String} {text : String}
      (hNode : node ∈ site.fields) (inner : FieldWay site node way text) :
      Way site (node.identifierText :: way) text

end

/-! ## Keys lie at the end of ways -/

variable {site : Site} {node : FieldNode} {key : LanguageKey}

theorem exists_titleWay (hKey : key ∈ site.context.titleKeys site.path) :
    ∃ way, Way site way key.default ∧ key.steps = site.path.steps ++ way := by
  unfold PassContext.titleKeys at hKey
  split at hKey
  case isTrue hRoot =>
    simp only [List.mem_cons, List.not_mem_nil, or_false] at hKey
    rcases hKey with rfl | rfl
    · exact ⟨_, .title hRoot, by
        rw [LanguagePath.steps_entry, Text.split_of_dotless (by decide)]⟩
    · exact ⟨_, .description hRoot, by
        rw [LanguagePath.steps_entry, Text.split_of_dotless (by decide)]⟩
  case isFalse => contradiction

theorem exists_shapeWay (hNode : node ∈ site.nodes) (hStep : Text.Dotless node.identifierText)
    (hKey : key ∈ site.context.shapeKeys site.path node) :
    ∃ way, Way site way key.default ∧ key.steps = site.path.steps ++ way := by
  unfold PassContext.shapeKeys at hKey
  split at hKey
  case h_1 hKind =>
    split at hKey
    · contradiction
    case isFalse hFields =>
      have hPalette : node ∈ site.context.paletteNodes site.nodes :=
        List.mem_filter.mpr
          ⟨List.mem_filter.mpr ⟨hNode, decide_eq_true hKind⟩, by simpa using hFields⟩
      have hName : Text.split '.' ("palettes." ++ node.identifierText) =
          ["palettes", node.identifierText] :=
        Text.split_word_append_of_dotless "palettes" "palettes." (by decide) (by decide) hStep
      rcases List.mem_cons.mp hKey with rfl | hDescription
      · refine ⟨_, .palette hPalette .label, ?_⟩
        rw [LanguagePath.steps_entry_append_word "label" ".label" (by decide) (by decide), hName]
        rfl
      · obtain ⟨text, hText, rfl⟩ := Option.map_eq_some_iff.mp (Option.mem_toList.mp hDescription)
        refine ⟨_, .palette hPalette (.description hText), ?_⟩
        rw [LanguagePath.steps_entry_append_word "description" ".description" (by decide)
          (by decide), hName]
        rfl
  case h_2 hKind =>
    rw [List.mem_singleton.mp hKey]
    refine ⟨_, .tab (List.mem_filter.mpr ⟨hNode, decide_eq_true hKind⟩), ?_⟩
    rw [LanguagePath.steps_entry,
      Text.split_word_append_of_dotless "tabs" "tabs." (by decide) (by decide) hStep]
  case h_3 => contradiction

theorem exists_fieldWay
    (hForm : site.context.kindOf? node = some .flexForm →
      FlexForm.WellFormed site.context node.fields)
    (hStep : Text.Dotless node.identifierText) (hFields : FieldNode.DotlessAll node.fields)
    (hKey : key ∈ site.context.fieldKeys site.path node) :
    ∃ way, FieldWay site node way key.default ∧
      key.steps = site.path.steps ++ node.identifierText :: way := by
  unfold PassContext.fieldKeys at hKey
  split at hKey
  case h_2 => contradiction
  case h_1 type hType =>
    have hPosition : (site.path.push node.identifierText).steps =
        site.path.steps ++ [node.identifierText] := by
      rw [LanguagePath.steps_push, Text.split_of_dotless hStep]
    have hOwn (hListed : key ∈
        PassContext.labelKeys (site.path.push node.identifierText) node type ++
          PassContext.itemKeys (site.path.push node.identifierText) node type) :
        ∃ way, FieldWay site node way key.default ∧
          key.steps = site.path.steps ++ node.identifierText :: way := by
      obtain ⟨way, hWay, hSteps⟩ := PassContext.exists_labelWay hListed
      exact ⟨way, .own hType hWay, by simpa [hPosition] using hSteps⟩
    rcases List.mem_append.mp hKey with hLabel | hRest
    · exact hOwn (List.mem_append_left _ hLabel)
    · rcases List.mem_append.mp hRest with hInForm | hItem
      · split at hInForm
        case isTrue hKind =>
          have hKindOf : site.context.kindOf? node = some .flexForm := by
            rw [PassContext.kindOf?_of_typeOf? hType, hKind]
          obtain ⟨way, hWay, hSteps⟩ := FlexForm.exists_formWay (hForm hKindOf) hFields hInForm
          exact ⟨way, .form hType hKind hWay, by simpa [hPosition] using hSteps⟩
        case isFalse => contradiction
      · exact hOwn (List.mem_append_right _ hItem)

/-- The identifiers of a field and of what is nested in it are among those of the
site. -/
theorem dotless_of_field (hNodes : FieldNode.DotlessAll site.nodes) (hNode : node ∈ site.fields) :
    Text.Dotless node.identifierText ∧ FieldNode.DotlessAll node.fields := by
  rcases mem_nodes_or_palette hNode with hTop | ⟨palette, hPalette, hEntry⟩
  · exact ⟨hNodes.identifierText hTop, hNodes.fields hTop⟩
  · have hEntries := hNodes.fields hPalette
    exact ⟨hEntries.identifierText hEntry, hEntries.fields hEntry⟩

/-- Every key of a walk lies at the end of one of the ways of its site. -/
theorem Succeeds.exists_way (hSite : site.Succeeds) (hDotless : FieldNode.DotlessAll site.nodes)
    (hKey : key ∈ site.keys) :
    ∃ way, Way site way key.default ∧ key.steps = site.path.steps ++ way := by
  induction site using Site.induction with
  | step site ih =>
      rcases hSite.mem_keys_iff_child.mp hKey with hOwn | ⟨child, hChild, hBelow⟩
      · rcases mem_ownKeys_iff.mp hOwn with hTitle | ⟨node, hNode, hShape⟩ | ⟨node, hNode, hField⟩
        · exact exists_titleWay hTitle
        · exact exists_shapeWay hNode (hDotless.identifierText hNode) hShape
        · obtain ⟨hStep, hInner⟩ := dotless_of_field hDotless hNode
          obtain ⟨way, hWay, hSteps⟩ :=
            exists_fieldWay (hSite.admissible.forms node hNode) hStep hInner hField
          exact ⟨_, .field hNode hWay, hSteps⟩
      · obtain ⟨node, hNode, hMade⟩ := List.mem_filterMap.mp hChild
        obtain ⟨hStep, hInner⟩ := dotless_of_field hDotless hNode
        have hNodes : FieldNode.DotlessAll child.nodes := by
          rw [nodes_of_child? hMade]
          exact hInner
        obtain ⟨way, hWay, hSteps⟩ := ih child hChild (hSite.child hNode hMade) hNodes hBelow
        refine ⟨_, .field hNode (.nested hMade hWay), ?_⟩
        -- The position of the nested pass is one step further in.
        obtain ⟨context, _, rfl⟩ := Option.map_eq_some_iff.mp hMade
        rw [hSteps, LanguagePath.steps_push, Text.split_of_dotless hStep, List.append_assoc]
        rfl

/-! ## One text for each way -/

/-- Nothing that the pass at the site registers lies where something else does. -/
@[mk_iff]
structure Unambiguous (site : Site) : Prop where
  dotless : FieldNode.DotlessAll site.nodes
  /-- Beside a tab with the name of a text of its own, no field has the name under
  which tabs are kept. -/
  tabs : ∀ tab ∈ site.context.nodesOfKind .tab site.nodes,
    tab.identifierText ∈ ["label", "description", "title"] →
      ∀ node ∈ site.fields, node.identifierText ≠ "tabs"
  /-- Beside a palette a field has nothing nested in it, if it has the name under
  which palettes are kept. -/
  palettes : site.context.paletteNodes site.nodes ≠ [] →
    ∀ node ∈ site.fields, node.identifierText = "palettes" → node.fields = []
  items : ∀ node ∈ site.fields, ∀ type ∈ site.context.typeOf? node, node.ItemsAgree type
  /-- Nested nodes make up a form or a pass, never both. -/
  formPass : ∀ node ∈ site.fields, ∀ type ∈ site.context.typeOf? node,
    type.kind = .flexForm → ¬site.context.HasPass node
  /-- Besides the items of a field, no leaf of its form has the name under which items
  are kept. -/
  formItems : ∀ node ∈ site.fields, ∀ type ∈ site.context.typeOf? node,
    type.kind = .flexForm → node.labelledItems type ≠ [] →
      ∀ leaf ∈ FlexForm.leaves node.fields, leaf.identifierText ≠ "items"
  /-- Besides the items of a field, no field of its nested pass has that name. -/
  passItems : ∀ node ∈ site.fields, ∀ type ∈ site.context.typeOf? node,
    ∀ child ∈ site.child? node, node.labelledItems type ≠ [] →
      ∀ field ∈ child.fields, field.identifierText ≠ "items"
  forms : ∀ node ∈ site.fields, ∀ type ∈ site.context.typeOf? node,
    type.kind = .flexForm → FlexForm.Unambiguous site.context node.fields

instance (site : Site) : Decidable site.Unambiguous :=
  decidable_of_iff' _ (unambiguous_iff site)

variable {way other : List String} {text text' : String}

theorem PaletteStep.text_eq {step last : String} (hFirst : PaletteStep node step text)
    (hSecond : PaletteStep node last text') (hSame : step = last) : text = text' := by
  cases hFirst with
  | label =>
      cases hSecond with
      | label => rfl
      | description hText => simp at hSame
  | description hText =>
      cases hSecond with
      | label => simp at hSame
      | description hText' => exact Option.some.inj (hText.symm.trans hText')

theorem Way.ne_nil (hWay : Way site way text) : way ≠ [] := by
  cases hWay <;> simp

theorem FieldWay.ne_nil (hWay : FieldWay site node way text) : way ≠ [] := by
  rintro rfl
  cases hWay with
  | own hType inner => exact inner.ne_nil rfl
  | form hType hKind inner =>
      obtain ⟨step, rest, hSame, _⟩ := inner.exists_cons
      contradiction
  | nested hChild inner => exact inner.ne_nil rfl

/-- One step below a site lie its title and its description only. -/
theorem Way.of_singleton {step : String} (hWay : Way site way text) (hSame : way = [step]) :
    step = "title" ∨ step = "description" ∧ text = site.context.description.getD "" := by
  cases hWay with
  | title hRoot => exact .inl (List.cons.inj hSame).1.symm
  | description hRoot => exact .inr ⟨(List.cons.inj hSame).1.symm, rfl⟩
  | tab hNode => simp at hSame
  | palette hNode inner => simp at hSame
  | field hNode inner => exact absurd (List.cons.inj hSame).2 inner.ne_nil

/-- One step below a field lie texts of its own, or the title of its nested pass. -/
theorem FieldWay.of_singleton {step : String} (hWay : FieldWay site node way text)
    (hSame : way = [step]) : step ∈ ["label", "description", "title"] := by
  cases hWay with
  | own hType inner => rcases inner.of_singleton hSame with rfl | ⟨rfl, _⟩ <;> simp
  | form hType hKind inner =>
      obtain ⟨_, rest, hWay, hRest⟩ := inner.exists_cons
      exact absurd (List.cons.inj (hWay.symm.trans hSame)).2 hRest
  | nested hChild inner => rcases inner.of_singleton hSame with rfl | ⟨rfl, _⟩ <;> simp

theorem hasPass_of_child? {child : Site} (hChild : site.child? node = some child) :
    site.context.HasPass node := by
  obtain ⟨context, hContext, _⟩ := Option.map_eq_some_iff.mp hChild
  exact (PassContext.child?_eq_some_iff.mp hContext).1

/-- Two steps below a field lie only texts of what is nested in it. -/
theorem FieldWay.fields_ne_nil {step last : String} (hWay : FieldWay site node way text)
    (hSame : way = [step, last]) : node.fields ≠ [] := by
  cases hWay with
  | own hType inner => exact absurd hSame inner.ne_pair
  | form hType hKind inner => exact inner.nodes_ne_nil
  | nested hChild inner => exact (hasPass_of_child? hChild).2

/-- Below the name of items lie only texts of a field of that name. -/
theorem Way.of_items {rest : List String} (hWay : Way site way text)
    (hSame : way = "items" :: rest) : ∃ field ∈ site.fields, field.identifierText = "items" := by
  cases hWay with
  | title hRoot => simp at hSame
  | description hRoot => simp at hSame
  | tab hNode => simp at hSame
  | palette hNode inner => simp at hSame
  | field hNode inner => exact ⟨_, hNode, (List.cons.inj hSame).1⟩

/-- Where a field and its nested pass register the same key, it is the description
of both. -/
theorem text_eq_of_nested {child : Site} {type : TypeDescriptor}
    (hItems : node.labelledItems type ≠ [] → ∀ field ∈ child.fields, field.identifierText ≠ "items")
    (hChild : site.child? node = some child) (hOwn : LabelWay node type way text)
    (hNested : Way child other text') (hSame : way = other) : text = text' := by
  cases hOwn with
  | label => rcases hNested.of_singleton hSame.symm with hTitle | ⟨hTitle, _⟩ <;> simp at hTitle
  | description hText =>
      rcases hNested.of_singleton hSame.symm with hTitle | ⟨_, hBelow⟩
      · simp at hTitle
      · obtain ⟨settings, hContext⟩ := context_of_child? hChild
        rw [hBelow, hContext]
        show text = node.description.getD ""
        rw [hText]
        rfl
  | item hItem =>
      obtain ⟨field, hField, hName⟩ := hNested.of_items hSame.symm
      exact absurd hName (hItems (List.ne_nil_of_mem hItem) field hField)

/-- A field and its form register no key in common. -/
theorem not_formWay_of_labelWay {type : TypeDescriptor}
    (hItems : node.labelledItems type ≠ [] →
      ∀ leaf ∈ FlexForm.leaves node.fields, leaf.identifierText ≠ "items")
    (hOwn : LabelWay node type way text) :
    ¬FlexForm.FormWay site.context node.fields way text' := by
  intro hInner
  obtain ⟨step, rest, rfl, hRest⟩ := hInner.exists_cons
  obtain ⟨rfl, hSome⟩ := hOwn.of_cons rfl hRest
  obtain ⟨leaf, hLeaf, hName⟩ := hInner.of_items rfl
  exact hItems hSome leaf hLeaf hName

/-- Behind a field a way leads to one text, if that holds of its nested pass. -/
theorem FieldWay.text_eq (hNode : node ∈ site.fields) (hClear : site.Unambiguous)
    (hForm : site.context.kindOf? node = some .flexForm →
      FlexForm.WellFormed site.context node.fields)
    (hBelow : ∀ child, site.child? node = some child → ∀ {way other text text'},
      Way child way text → Way child other text' → way = other → text = text')
    (hFirst : FieldWay site node way text) (hSecond : FieldWay site node other text')
    (hSame : way = other) : text = text' := by
  cases hFirst with
  | own hType inner =>
      cases hSecond with
      | own hType' inner' =>
          obtain rfl := Option.some.inj (hType.symm.trans hType')
          exact inner.text_eq (hClear.items node hNode _ hType) inner' hSame
      | form hType' hKind inner' =>
          obtain rfl := Option.some.inj (hType.symm.trans hType')
          rw [← hSame] at inner'
          have hItems := hClear.formItems node hNode _ hType hKind
          exact absurd inner' (not_formWay_of_labelWay hItems inner)
      | nested hChild inner' =>
          have hItems := hClear.passItems node hNode _ hType _ hChild
          exact text_eq_of_nested hItems hChild inner inner' hSame
  | form hType hKind inner =>
      cases hSecond with
      | own hType' inner' =>
          obtain rfl := Option.some.inj (hType.symm.trans hType')
          rw [hSame] at inner
          have hItems := hClear.formItems node hNode _ hType hKind
          exact absurd inner (not_formWay_of_labelWay hItems inner')
      | form hType' hKind' inner' =>
          have hKindOf : site.context.kindOf? node = some .flexForm := by
            rw [PassContext.kindOf?_of_typeOf? hType, hKind]
          exact inner.text_eq (hForm hKindOf) (hClear.forms node hNode _ hType hKind) inner' hSame
      | nested hChild inner' =>
          exact absurd (hasPass_of_child? hChild) (hClear.formPass node hNode _ hType hKind)
  | nested hChild inner =>
      cases hSecond with
      | own hType inner' =>
          have hItems := hClear.passItems node hNode _ hType _ hChild
          exact (text_eq_of_nested hItems hChild inner' inner hSame.symm).symm
      | form hType hKind inner' =>
          exact absurd (hasPass_of_child? hChild) (hClear.formPass node hNode _ hType hKind)
      | nested hChild' inner' =>
          obtain rfl := Option.some.inj (hChild.symm.trans hChild')
          exact hBelow _ hChild inner inner' hSame

/-- The texts that a pass has for itself and the fields that it leads to. -/
theorem Way.text_eq_of_fields (hSite : site.Succeeds) (hClear : site.Unambiguous)
    (hFields : ∀ node ∈ site.fields, ∀ {way other text text'}, FieldWay site node way text →
      FieldWay site node other text' → way = other → text = text')
    (hFirst : Way site way text) (hSecond : Way site other text') (hSame : way = other) :
    text = text' := by
  have hAdmissible := hSite.admissible
  cases hFirst with
  | title hRoot =>
      cases hSecond with
      | title hRoot' => rfl
      | description hRoot' => simp at hSame
      | tab hNode => simp at hSame
      | palette hNode inner => simp at hSame
      | field hNode inner => exact absurd (List.cons.inj hSame).2.symm inner.ne_nil
  | description hRoot =>
      cases hSecond with
      | title hRoot' => simp at hSame
      | description hRoot' => rfl
      | tab hNode => simp at hSame
      | palette hNode inner => simp at hSame
      | field hNode inner => exact absurd (List.cons.inj hSame).2.symm inner.ne_nil
  | tab hNode =>
      cases hSecond with
      | title hRoot => simp at hSame
      | description hRoot => simp at hSame
      | tab hNode' =>
          have hName := (List.cons.inj (List.cons.inj hSame).2).1
          rw [List.inj_on_of_nodup_map hAdmissible.tabs hNode hNode' hName]
      | palette hNode' inner => simp at hSame
      | field hNode' inner =>
          obtain ⟨hName, hRest⟩ := List.cons.inj hSame
          exact absurd hName.symm (hClear.tabs _ hNode (inner.of_singleton hRest.symm) _ hNode')
  | palette hNode inner =>
      cases hSecond with
      | title hRoot => simp at hSame
      | description hRoot => simp at hSame
      | tab hNode' => simp at hSame
      | palette hNode' inner' =>
          obtain ⟨hName, hLast⟩ := List.cons.inj (List.cons.inj hSame).2
          obtain rfl := List.inj_on_of_nodup_map hAdmissible.palettes
            (List.mem_filter.mp hNode).1 (List.mem_filter.mp hNode').1 hName
          exact inner.text_eq inner' (List.cons.inj hLast).1
      | field hNode' inner' =>
          obtain ⟨hName, hRest⟩ := List.cons.inj hSame
          exact absurd (hClear.palettes (List.ne_nil_of_mem hNode) _ hNode' hName.symm)
            (inner'.fields_ne_nil hRest.symm)
  | field hNode inner =>
      cases hSecond with
      | title hRoot => exact absurd (List.cons.inj hSame).2 inner.ne_nil
      | description hRoot => exact absurd (List.cons.inj hSame).2 inner.ne_nil
      | tab hNode' =>
          obtain ⟨hName, hRest⟩ := List.cons.inj hSame
          exact absurd hName (hClear.tabs _ hNode' (inner.of_singleton hRest) _ hNode)
      | palette hNode' inner' =>
          obtain ⟨hName, hRest⟩ := List.cons.inj hSame
          exact absurd (hClear.palettes (List.ne_nil_of_mem hNode') _ hNode hName)
            (inner.fields_ne_nil hRest)
      | field hNode' inner' =>
          obtain ⟨hName, hRest⟩ := List.cons.inj hSame
          obtain rfl := List.inj_on_of_nodup_map hAdmissible.fields hNode hNode' hName
          exact hFields _ hNode inner inner' hRest

/-- A way from a site leads to one text, if the pass at the site and those below it
keep their ways apart. -/
theorem Way.text_eq (hSite : site.Succeeds)
    (hClear : ∀ pass ∈ site.walk.emission.passes, pass.site.Unambiguous)
    (hFirst : Way site way text) (hSecond : Way site other text') (hSame : way = other) :
    text = text' := by
  induction site using Site.induction generalizing way other text text' with
  | step site ih =>
      obtain ⟨own, hOwn, hPasses⟩ := hSite.passes_walk
      have hHere : site.Unambiguous := by
        rw [← hOwn]
        exact hClear own (by simp [hPasses])
      refine hFirst.text_eq_of_fields hSite hHere ?_ hSecond hSame
      intro node hNode way other text text' hFirst hSecond hSame
      refine hFirst.text_eq hNode hHere (hSite.admissible.forms node hNode) ?_ hSecond hSame
      intro child hChild way other text text' hFirst hSecond hSame
      have hListed : child ∈ site.children := List.mem_filterMap.mpr ⟨node, hNode, hChild⟩
      refine ih child hListed (hSite.child hNode hChild) ?_ hFirst hSecond hSame
      intro pass hPass
      apply hClear
      rw [hPasses]
      exact List.mem_append_left _ (List.mem_flatMap.mpr ⟨child, hListed, hPass⟩)

/-- Keys of a walk that are equal have equal texts, if its passes keep their ways
apart. -/
theorem Succeeds.default_eq (hSite : site.Succeeds)
    (hClear : ∀ pass ∈ site.walk.emission.passes, pass.site.Unambiguous)
    {first second : LanguageKey} (hFirst : first ∈ site.keys) (hSecond : second ∈ site.keys)
    (hSame : first.key = second.key) : first.default = second.default := by
  obtain ⟨own, hOwn, hPasses⟩ := hSite.passes_walk
  have hDotless : FieldNode.DotlessAll site.nodes := by
    have hHere := hClear own (by simp [hPasses])
    rw [hOwn] at hHere
    exact hHere.dotless
  obtain ⟨way, hWay, hSteps⟩ := hSite.exists_way hDotless hFirst
  obtain ⟨other, hOther, hSteps'⟩ := hSite.exists_way hDotless hSecond
  rw [LanguageKey.key_eq_iff, hSteps, hSteps'] at hSame
  exact hWay.text_eq hSite hClear hOther (List.append_cancel_left hSame)

end Site
end ContentSchema
