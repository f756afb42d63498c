import ContentSchema.Proofs.Document.Names
import ContentSchema.Proofs.Run.Positions
import ContentSchema.Proofs.Walk.Bounds

/-!
# Language files of documents

Unless another file or another extension is authored, the language file of a
document is made from its name and its kind: the name with underscores for its
slash and its dashes, the folder of the kind and the package once more.  The
underscores forget where the vendor ends, and the package tells it again.

* `SchemaDocument.OwnFile` says that the language file is made in this way.
* `SchemaDocument.OwnFile.eq_of_append_eq` reads name and kind off any text that
  begins with it.
* `SchemaDocument.standsIn_of_mem_compile_keys` finds all keys of a document in its
  language file, also if the document is refused.
* `languageFiles_apart` puts these together.

The underscored name alone does NOT tell documents apart: `a/b-c` and `a-b/c`
become the same text.
-/

namespace ContentSchema

theorem Text.slash_not_mem_underscored (s : String) : '/' ∉ (underscored s).toList := by
  unfold underscored
  rw [String.toList_ofList, List.mem_map]
  rintro ⟨c, _, hSlash⟩
  split at hSlash
  case isTrue => contradiction
  case isFalse hMark => exact hMark (.inl hSlash)

theorem ContentKind.slash_not_mem_directoryName (kind : ContentKind) :
    '/' ∉ kind.directoryName.toList := by
  cases kind <;> decide +kernel

theorem ContentKind.directoryName_inj {first second : ContentKind}
    (hSame : first.directoryName = second.directoryName) : first = second := by
  rw [← Option.some.injEq, ← ofDirectoryName?_directoryName, hSame,
    ofDirectoryName?_directoryName]

namespace SchemaDocument

/-! ## Files made from names -/

/-- The language file is made from the name and the kind of the document. -/
structure OwnFile (document : SchemaDocument) : Prop where
  name : isValidDocumentName document.name = true
  /-- No other file is authored, -/
  file : document.languageFile = none
  /-- and no other extension that holds it. -/
  extension : document.hostExtension = none

namespace OwnFile

variable {document first second : SchemaDocument}

/-- A text that begins with the language file, up to the slashes that end its parts. -/
theorem toList_append (hOwn : document.OwnFile) {vendor package : String}
    (hParts : document.name.toList = vendor.toList ++ '/' :: package.toList)
    (hVendor : NamePart vendor.toList) (rest : String) :
    (document.languageFileReference ++ rest).toList =
      "LLL:EXT:".toList ++ ((Text.underscored document.name).toList ++ '/' ::
        ("ContentBlocks/".toList ++ (document.kind.directoryName.toList ++ '/' ::
          (package.toList ++ '/' :: ("language/labels.xlf".toList ++ rest.toList))))) := by
  have hCut : Text.cut '/' document.name = some (vendor, package) := by
    unfold Text.cut
    rw [Text.cutChars_eq_some_iff.mpr ⟨hParts, hVendor.not_mem (by decide)⟩]
    simp
  have hFolder : "/ContentBlocks/".toList = '/' :: "ContentBlocks/".toList := by decide +kernel
  have hEnd : "/language/labels.xlf".toList = '/' :: "language/labels.xlf".toList := by
    decide +kernel
  have hSlash : "/".toList = ['/'] := by decide +kernel
  unfold languageFileReference displayName
  rw [hOwn.file, hOwn.extension, hCut]
  simp only [Option.getD_none, String.toList_append, hFolder, hEnd, hSlash, List.append_assoc,
    List.cons_append, List.nil_append]

/-- Texts that begin with the language files of documents tell their names and kinds,
and go on alike. -/
theorem eq_of_append_eq (hFirst : first.OwnFile) (hSecond : second.OwnFile)
    {rest rest' : String}
    (hSame : first.languageFileReference ++ rest = second.languageFileReference ++ rest') :
    first.name = second.name ∧ first.kind = second.kind ∧ rest = rest' := by
  obtain ⟨vendor, package, _, hParts, hVendor, hPackage⟩ :=
    exists_parts_of_isValidDocumentName hFirst.name
  obtain ⟨vendor', package', _, hParts', hVendor', hPackage'⟩ :=
    exists_parts_of_isValidDocumentName hSecond.name
  have hSlash (part : String) (hPart : NamePart part.toList) : '/' ∉ part.toList :=
    hPart.not_mem (by decide)
  -- Both texts are cut at the first slash, and then twice more.
  have hChars := congrArg String.toList hSame
  rw [hFirst.toList_append hParts hVendor, hSecond.toList_append hParts' hVendor',
    List.append_cancel_left_eq] at hChars
  obtain ⟨hNames, hChars⟩ := (Text.append_mark_inj (Text.slash_not_mem_underscored _)
    (Text.slash_not_mem_underscored _)).mp hChars
  rw [List.append_cancel_left_eq] at hChars
  obtain ⟨hKinds, hChars⟩ := (Text.append_mark_inj
    first.kind.slash_not_mem_directoryName second.kind.slash_not_mem_directoryName).mp hChars
  obtain ⟨hPackages, hChars⟩ := (Text.append_mark_inj (hSlash package hPackage)
    (hSlash package' hPackage')).mp hChars
  rw [List.append_cancel_left_eq] at hChars
  refine ⟨?_, ContentKind.directoryName_inj (String.toList_inj.mp hKinds),
    String.toList_inj.mp hChars⟩
  -- The package tells where the vendor ends.
  have hJoined := (Text.underscored_name_eq_iff hParts hParts' hVendor hVendor' hPackage
    hPackage').mp (String.toList_inj.mp hNames)
  rw [hPackages, List.append_cancel_right_eq] at hJoined
  rw [← String.toList_inj, hParts, hParts', hJoined, hPackages]

/-- Keys in the language files of documents that differ have different paths. -/
theorem path_ne (hFirst : first.OwnFile) (hSecond : second.OwnFile)
    (hDiffer : first.name ≠ second.name ∨ first.kind ≠ second.kind) {key key' : LanguageKey}
    (hKey : key.StandsIn first.languageFileReference)
    (hKey' : key'.StandsIn second.languageFileReference) : key.path ≠ key'.path := by
  intro hSame
  rw [hKey, hKey', String.append_assoc, String.append_assoc] at hSame
  obtain ⟨hName, hKind, _⟩ := hFirst.eq_of_append_eq hSecond hSame
  rcases hDiffer with hName' | hKind'
  · exact hName' hName
  · exact hKind' hKind

end OwnFile

/-! ## Keys of documents -/

/-- All keys that a document registers are its own and stand in its language file,
whether it is compiled in the end or not. -/
theorem standsIn_of_mem_compile_keys (environment : Environment) (typeFields : Entries String)
    (document : SchemaDocument) :
    ∀ entry ∈ (document.compile environment typeFields).emission.keys,
      entry.1 = document.name ∧ entry.2.StandsIn document.languageFileReference := by
  let bounds : Bounds :=
    { error := fun _ => True
      key := fun entry =>
        entry.1 = document.name ∧ entry.2.StandsIn document.languageFileReference }
  have hFields : bounds.AdmitFields document := ⟨fun _ _ => trivial, fun _ _ => trivial⟩
  have hKeys : bounds.AdmitKeys document.name document.languageFileReference := by
    intro path hFile suffix text
    refine ⟨rfl, ?_⟩
    rw [← hFile]
    exact path.standsIn_entry suffix text
  exact (keeps_compile environment typeFields hFields hKeys (fun _ _ => trivial)
    (fun _ _ => trivial)).keys

end SchemaDocument

/-! ## Documents apart -/

/-- Language files made from names and kinds are those of one name and one kind.  Below
files of different documents there is no common path: not of any key at any position, not
of keys that the documents register, wherever they are compiled and whether they are
refused or not, and not of keys that a result lists under their names. -/
theorem languageFiles_apart {first second : SchemaDocument} (hFirst : first.OwnFile)
    (hSecond : second.OwnFile) :
    (first.languageFileReference = second.languageFileReference →
      first.name = second.name ∧ first.kind = second.kind) ∧
    (first.name ≠ second.name ∨ first.kind ≠ second.kind →
      (∀ segments segments' suffix suffix',
        LanguagePath.pathFor ⟨first.languageFileReference, segments⟩ suffix ≠
          LanguagePath.pathFor ⟨second.languageFileReference, segments'⟩ suffix') ∧
      ∀ environment environment' typeFields typeFields',
        ∀ entry ∈ (first.compile environment typeFields).emission.keys,
          ∀ entry' ∈ (second.compile environment' typeFields').emission.keys,
            entry.2.path ≠ entry'.2.path) ∧
    (first.name ≠ second.name → ∀ environment documents result,
      compile environment documents = .ok result →
      (∀ document ∈ documents, document.name = first.name ∨ document.name = second.name →
        document.OwnFile) →
      ∀ key ∈ result.languageKeys.get first.name,
        ∀ key' ∈ result.languageKeys.get second.name, key.path ≠ key'.path) := by
  refine ⟨?_, fun hDiffer => ⟨?_, ?_⟩, ?_⟩
  · intro hSame
    have hBoth : first.languageFileReference ++ "" = second.languageFileReference ++ "" := by
      rw [hSame]
    obtain ⟨hName, hKind, _⟩ := hFirst.eq_of_append_eq hSecond hBoth
    exact ⟨hName, hKind⟩
  · intro segments segments' suffix suffix'
    have hStands (document : SchemaDocument) (segments : List String) (suffix : String) :=
      LanguagePath.standsIn_entry ⟨document.languageFileReference, segments⟩ suffix ""
    exact hFirst.path_ne hSecond hDiffer (hStands first segments suffix)
      (hStands second segments' suffix')
  · intro environment environment' typeFields typeFields' entry hEntry entry' hEntry'
    have hStands := (first.standsIn_of_mem_compile_keys environment typeFields entry hEntry).2
    have hStands' :=
      (second.standsIn_of_mem_compile_keys environment' typeFields' entry' hEntry').2
    exact hFirst.path_ne hSecond hDiffer hStands hStands'
  · intro hNames environment documents result hResult hOwn key hKey key' hKey'
    obtain ⟨before, document, after, hSplit, hEntry⟩ :=
      (mem_languageKeys_iff_registered hResult).mp hKey
    obtain ⟨before', document', after', hSplit', hEntry'⟩ :=
      (mem_languageKeys_iff_registered hResult).mp hKey'
    obtain ⟨hName, hStands⟩ :=
      document.standsIn_of_mem_compile_keys environment _ _ hEntry
    obtain ⟨hName', hStands'⟩ :=
      document'.standsIn_of_mem_compile_keys environment _ _ hEntry'
    have hMem : document ∈ documents := by simp [hSplit]
    have hMem' : document' ∈ documents := by simp [hSplit']
    have hDiffer : document.name ≠ document'.name := by
      rw [← hName, ← hName']
      exact hNames
    exact (hOwn document hMem (.inl hName.symm)).path_ne
      (hOwn document' hMem' (.inr hName'.symm)) (.inl hDiffer) hStands hStands'

/-- Two documents whose names become the same text with underscores keep apart. -/
theorem languageFiles_apart_underscored :
    let first : SchemaDocument := { name := "acme/photo-box" }
    let second : SchemaDocument := { name := "acme-photo/box" }
    Text.underscored first.name = Text.underscored second.name ∧
      ∃ result, compile brochureEnvironment [first, second] = .ok result ∧
        ((result.languageKeys.get first.name).map LanguageKey.key = ["title", "description"] ∧
          (result.languageKeys.get second.name).map LanguageKey.key = ["title", "description"]) ∧
        ∀ key ∈ result.languageKeys.get first.name,
          ∀ key' ∈ result.languageKeys.get second.name, key.path ≠ key'.path := by
  intro first second
  have hFirst : first.OwnFile := ⟨by decide +kernel, rfl, rfl⟩
  have hSecond : second.OwnFile := ⟨by decide +kernel, rfl, rfl⟩
  obtain ⟨result, hResult, hKeys⟩ := exists_eq_ok_of_map_eq_some
    (by decide +kernel : (compile brochureEnvironment [first, second]).toOption.map (fun result =>
      ((result.languageKeys.get first.name).map LanguageKey.key,
        (result.languageKeys.get second.name).map LanguageKey.key)) =
      some (["title", "description"], ["title", "description"]))
  refine ⟨by decide +kernel, result, hResult, Prod.mk.inj hKeys, ?_⟩
  refine (languageFiles_apart hFirst hSecond).2.2 (by decide +kernel) brochureEnvironment
    [first, second] result hResult ?_
  intro document hDocument _
  rcases List.mem_pair.mp hDocument with rfl | rfl
  · exact hFirst
  · exact hSecond

end ContentSchema
