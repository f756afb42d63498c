import ContentSchema.Proofs.Document.Names
import ContentSchema.Proofs.Run.ContentTypes

/-!
# Generated names

Identifiers, discriminator values and icons of a document are made from its
name.  The first two leave out the dashes of the name and keep its parts apart
by underscores, which no part contains; an icon keeps the dashes and joins the
parts by one more.

* `SchemaDocument.NamedByDefault` is a content element whose names are all made
  this way.
* `generatedNames_eq_iff` says which generated names of two of them agree.

Different names do NOT always lead to different generated names: dashes are not
told apart from their absence, nor from the slash.
-/

namespace ContentSchema

/-- A content element under a valid name that leaves its identifiers and its
discriminator value to the default rules. -/
structure SchemaDocument.NamedByDefault (document : SchemaDocument) : Prop where
  name : isValidDocumentName document.name = true
  kind : document.kind = .contentElement
  prefixFields : document.prefixFields = true
  prefixStyle : document.prefixStyle = .full
  vendorPrefix : document.vendorPrefix = none
  typeName : document.typeName = none

namespace SchemaDocument

variable {document : SchemaDocument} {vendor package : String}

/-- The identifiers of such a document start with its parts, dashes left out. -/
theorem NamedByDefault.assignIdentifier_eq (hDocument : document.NamedByDefault)
    (hParts : splitQualifiedName document.name = .ok (vendor, package)) (raw : String) :
    assignIdentifier document.name (.ofDocument document) raw =
      .ok (ContentSchema.joinedName vendor package ++ "_" ++ raw) := by
  unfold assignIdentifier prefixFor PrefixPolicy.ofDocument
  rw [hParts, hDocument.prefixFields, hDocument.prefixStyle, hDocument.vendorPrefix]
  rfl

theorem NamedByDefault.resolvedTypeName_eq (hDocument : document.NamedByDefault)
    (hParts : splitQualifiedName document.name = .ok (vendor, package)) :
    document.resolvedTypeName = .ok (ContentSchema.joinedName vendor package) := by
  unfold resolvedTypeName SchemaDocument.joinedName
  rw [hDocument.typeName, hDocument.kind, hParts]
  rfl

end SchemaDocument

/-- The icon of a content type on the table of its document is made from the name
of the document as it is. -/
theorem Pass.Compiled.icon_eq {pass : Pass} (hPass : pass.Compiled)
    (hRoot : pass.context.isRootTable = true) {vendor package : String}
    (hParts : splitQualifiedName pass.context.document.name = .ok (vendor, package)) :
    pass.contentType.icon = some
      ⟨pass.context.kind.iconToken ++ "-" ++ vendor ++ "-" ++ package,
        pass.context.document.icon⟩ := by
  obtain ⟨contentType, hType, hMade⟩ := hPass.contentType_eq
  obtain ⟨parts, hOwn, hType⟩ := bind_eq_ok_iff.mp hType
  obtain rfl : parts = (vendor, package) := Except.ok.inj (hOwn.symm.trans hParts)
  cases hType
  rw [hMade]
  unfold shownType PassContext.titledType
  rw [if_pos hRoot]
  show (if pass.context.isRootTable = true then _ else none) = _
  rw [if_pos hRoot]

/-! ## Comparisons -/

section Comparisons

variable {vendor vendor' package package' : String}

theorem toList_joinedName (vendor package : String) :
    (joinedName vendor package).toList =
      (Text.without '-' vendor).toList ++ '_' :: (Text.without '-' package).toList := by
  unfold joinedName
  rw [String.toList_append, String.toList_append, List.append_assoc]
  rfl

/-- Joined names tell their parts, dashes apart, and what follows after them. -/
theorem joinedName_append_eq_iff (hVendor : NamePart vendor.toList)
    (hVendor' : NamePart vendor'.toList) (hPackage : NamePart package.toList)
    (hPackage' : NamePart package'.toList) (raw raw' : String) :
    joinedName vendor package ++ "_" ++ raw = joinedName vendor' package' ++ "_" ++ raw' ↔
      (Text.without '-' vendor = Text.without '-' vendor' ∧
        Text.without '-' package = Text.without '-' package') ∧ raw = raw' := by
  have hFree (part : String) (hPart : NamePart part.toList) :
      '_' ∉ (Text.without '-' part).toList :=
    Text.not_mem_without (hPart.not_mem (by decide))
  have hSplit (v p r : String) : (joinedName v p ++ "_" ++ r).toList =
      (Text.without '-' v).toList ++ '_' :: ((Text.without '-' p).toList ++ '_' :: r.toList) := by
    rw [String.toList_append, String.toList_append, toList_joinedName, List.append_assoc,
      List.append_assoc]
    rfl
  rw [← String.toList_inj, hSplit, hSplit, Text.append_mark_inj (hFree vendor hVendor)
    (hFree vendor' hVendor'), Text.append_mark_inj (hFree package hPackage)
    (hFree package' hPackage'), String.toList_inj, String.toList_inj, String.toList_inj, and_assoc]

theorem joinedName_eq_iff (hVendor : NamePart vendor.toList)
    (hVendor' : NamePart vendor'.toList) :
    joinedName vendor package = joinedName vendor' package' ↔
      Text.without '-' vendor = Text.without '-' vendor' ∧
        Text.without '-' package = Text.without '-' package' := by
  have hFree (part : String) (hPart : NamePart part.toList) :
      '_' ∉ (Text.without '-' part).toList :=
    Text.not_mem_without (hPart.not_mem (by decide))
  rw [← String.toList_inj, toList_joinedName, toList_joinedName,
    Text.append_mark_inj (hFree vendor hVendor) (hFree vendor' hVendor'), String.toList_inj,
    String.toList_inj]

/-- Icons agree if vendor and package do once they are joined by a dash. -/
theorem icon_eq_iff (token : String) :
    token ++ "-" ++ vendor ++ "-" ++ package = token ++ "-" ++ vendor' ++ "-" ++ package' ↔
      vendor.toList ++ '-' :: package.toList = vendor'.toList ++ '-' :: package'.toList := by
  have hSplit (v p : String) : (token ++ "-" ++ v ++ "-" ++ p).toList =
      (token ++ "-").toList ++ (v.toList ++ '-' :: p.toList) := by
    rw [String.toList_append, String.toList_append, String.toList_append, List.append_assoc,
      List.append_assoc]
    rfl
  rw [← String.toList_inj, hSplit, hSplit, List.append_cancel_left_eq]

end Comparisons

/-- Two content elements that are named by the default rules have equal assigned
identifiers exactly for equal raw ones and names that agree without their dashes;
they have equal discriminator values exactly if their names so agree, and equal
icons exactly if their names agree with slashes read as dashes.  Both kinds of
agreement at once mean that the names are equal. -/
theorem generatedNames_eq_iff {first second : SchemaDocument} (hFirst : first.NamedByDefault)
    (hSecond : second.NamedByDefault) :
    (∀ raw raw', ∃ unique unique',
      assignIdentifier first.name (.ofDocument first) raw = .ok unique ∧
        assignIdentifier second.name (.ofDocument second) raw' = .ok unique' ∧
        (unique = unique' ↔
          Text.without '-' first.name = Text.without '-' second.name ∧ raw = raw')) ∧
      (∃ typeName typeName', first.resolvedTypeName = .ok typeName ∧
        second.resolvedTypeName = .ok typeName' ∧
        (typeName = typeName' ↔
          Text.without '-' first.name = Text.without '-' second.name)) ∧
      (∀ environment documents, ∀ own ∈ (runWalk environment documents).emission.passes,
        ∀ other ∈ (runWalk environment documents).emission.passes,
          PassContext.ofDocument environment first = .ok own.context →
          PassContext.ofDocument environment second = .ok other.context →
          ∃ icon icon', own.contentType.icon = some icon ∧ other.contentType.icon = some icon' ∧
            (icon.identifier = icon'.identifier ↔
              Text.underscored first.name = Text.underscored second.name)) ∧
      (first.name = second.name ↔
        Text.without '-' first.name = Text.without '-' second.name ∧
          Text.underscored first.name = Text.underscored second.name) := by
  obtain ⟨vendor, package, hSplit, hName, hVendor, hPackage⟩ :=
    exists_parts_of_isValidDocumentName hFirst.name
  obtain ⟨vendor', package', hSplit', hName', hVendor', hPackage'⟩ :=
    exists_parts_of_isValidDocumentName hSecond.name
  have hUndashed := Text.without_name_eq_iff hName hName' hVendor hVendor'
  refine ⟨?_, ?_, ?_, name_eq_iff hFirst.name hSecond.name⟩
  · intro raw raw'
    refine ⟨_, _, hFirst.assignIdentifier_eq hSplit raw, hSecond.assignIdentifier_eq hSplit' raw',
      ?_⟩
    rw [joinedName_append_eq_iff hVendor hVendor' hPackage hPackage', hUndashed]
  · refine ⟨_, _, hFirst.resolvedTypeName_eq hSplit, hSecond.resolvedTypeName_eq hSplit', ?_⟩
    rw [joinedName_eq_iff hVendor hVendor', hUndashed]
  · intro environment documents own hOwn other hOther hReads hReads'
    -- The pass over a content element writes the table of its document.
    have hIcon {document : SchemaDocument} {pass : Pass} {v p : String}
        (hDocument : document.NamedByDefault)
        (hPass : pass ∈ (runWalk environment documents).emission.passes)
        (hContext : PassContext.ofDocument environment document = .ok pass.context)
        (hParts : splitQualifiedName document.name = .ok (v, p)) :
        pass.contentType.icon = some ⟨"content" ++ "-" ++ v ++ "-" ++ p, document.icon⟩ := by
      have hOf := PassContext.ofDocument_of_eq_ok hContext
      have hOwner : pass.context.document = document := PassContext.document_of_ofDocument hContext
      rw [(compiled_of_mem_passes hPass).icon_eq hOf.isRootTable (by rw [hOwner]; exact hParts),
        hOf.kind, hDocument.kind, hOwner]
      rfl
    refine ⟨_, _, hIcon hFirst hOwn hReads hSplit, hIcon hSecond hOther hReads' hSplit', ?_⟩
    rw [icon_eq_iff, Text.underscored_name_eq_iff hName hName' hVendor hVendor' hPackage hPackage']

/-- Documents with and without a dash have common identifiers and discriminator
values, and documents with dash and slash exchanged have common icons. -/
theorem shared_generatedNames_dashes :
    (isValidDocumentName "acme/foo-bar" = true ∧ isValidDocumentName "acme/foobar" = true ∧
      assignIdentifier "acme/foo-bar" (.ofDocument { name := "acme/foo-bar" }) "title" =
        .ok "acme_foobar_title" ∧
      assignIdentifier "acme/foobar" (.ofDocument { name := "acme/foobar" }) "title" =
        .ok "acme_foobar_title" ∧
      ({ name := "acme/foo-bar" } : SchemaDocument).resolvedTypeName = .ok "acme_foobar" ∧
      ({ name := "acme/foobar" } : SchemaDocument).resolvedTypeName = .ok "acme_foobar") ∧
      isValidDocumentName "a-b/c" = true ∧ isValidDocumentName "a/b-c" = true ∧
      ((runWalk textEnvironment [{ name := "a-b/c" }, { name := "a/b-c" }]).emission.passes.map
        fun pass => pass.contentType.icon.map ContentTypeIcon.identifier) =
          [some "content-a-b-c", some "content-a-b-c"] := by
  decide +kernel

/-- The rules for two documents whose names differ by a dash only. -/
theorem generatedNames_eq_iff_dash :
    ({ name := "acme/foo-bar" } : SchemaDocument).NamedByDefault ∧
      ({ name := "acme/foobar" } : SchemaDocument).NamedByDefault ∧
      (∀ raw, assignIdentifier "acme/foo-bar" (.ofDocument { name := "acme/foo-bar" }) raw =
        assignIdentifier "acme/foobar" (.ofDocument { name := "acme/foobar" }) raw) ∧
      Text.underscored "acme/foo-bar" ≠ Text.underscored "acme/foobar" := by
  have hFirst : ({ name := "acme/foo-bar" } : SchemaDocument).NamedByDefault :=
    ⟨by decide +kernel, rfl, rfl, rfl, rfl, rfl⟩
  have hSecond : ({ name := "acme/foobar" } : SchemaDocument).NamedByDefault :=
    ⟨by decide +kernel, rfl, rfl, rfl, rfl, rfl⟩
  have hUndashed : Text.without '-' "acme/foo-bar" = Text.without '-' "acme/foobar" := by
    decide +kernel
  obtain ⟨hAssigned, _, _, hNames⟩ := generatedNames_eq_iff hFirst hSecond
  refine ⟨hFirst, hSecond, ?_, ?_⟩
  · intro raw
    obtain ⟨unique, unique', hUnique, hUnique', hSame⟩ := hAssigned raw raw
    obtain rfl := hSame.mpr ⟨hUndashed, rfl⟩
    exact hUnique.trans hUnique'.symm
  · intro hUnderscored
    exact absurd (hNames.mpr ⟨hUndashed, hUnderscored⟩) (by decide)

end ContentSchema
