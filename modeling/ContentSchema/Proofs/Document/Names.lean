import ContentSchema.Document.Identifier
import ContentSchema.Document.Name
import ContentSchema.Proofs.Walk.Result

/-!
# Valid names

The name of a document falls into a vendor and a package around its one slash.
Neither part contains an underscore, so texts that are joined from parts by
underscores fall back into them, and neither part starts with a dash.

* `exists_parts_of_isValidDocumentName` takes a valid name apart.
* `Text.without_name_eq_iff` compares names without their dashes.
* `Text.underscored_name_eq_iff` compares names with slashes read as dashes.
* `name_eq_iff` says that both comparisons together tell names apart.

Neither comparison does so alone: dashes may stand anywhere but in front.
-/

namespace ContentSchema

/-! ## Marks -/

namespace Text

/-- Two texts that are joined by a mark fall into equal parts if the mark occurs
in neither first part. -/
theorem append_mark_inj {mark : Char} {before before' after after' : List Char}
    (hBefore : mark ∉ before) (hBefore' : mark ∉ before') :
    before ++ mark :: after = before' ++ mark :: after' ↔ before = before' ∧ after = after' := by
  constructor
  · intro hSame
    have hCut : cutChars mark (before ++ mark :: after) = some (before, after) :=
      cutChars_eq_some_iff.mpr ⟨rfl, hBefore⟩
    have hCut' : cutChars mark (before' ++ mark :: after') = some (before', after') :=
      cutChars_eq_some_iff.mpr ⟨rfl, hBefore'⟩
    rw [hSame, hCut'] at hCut
    cases hCut
    exact ⟨rfl, rfl⟩
  · rintro ⟨rfl, rfl⟩
    rfl

theorem toList_without (mark : Char) (s : String) :
    (without mark s).toList = s.toList.filter (· ≠ mark) :=
  String.toList_ofList

theorem not_mem_without {mark other : Char} {s : String} (hFree : other ∉ s.toList) :
    other ∉ (without mark s).toList := by
  rw [toList_without]
  exact fun hMem => hFree (List.mem_filter.mp hMem).1

end Text

/-! ## Parts -/

/-- The text is one of the two parts of a valid name. -/
structure NamePart (part : List Char) : Prop where
  chars : ∀ c ∈ part, isNameChar c = true
  /-- It is not empty and does not start with a dash. -/
  first : ∃ c rest, part = c :: rest ∧ c ≠ '-'

namespace NamePart

variable {part : List Char}

theorem not_mem (hPart : NamePart part) {mark : Char} (hMark : isNameChar mark = false) :
    mark ∉ part := by
  intro hMem
  rw [hPart.chars mark hMem] at hMark
  contradiction

theorem ne_dash_cons (hPart : NamePart part) (rest : List Char) : part ≠ '-' :: rest := by
  intro hSame
  obtain ⟨c, others, rfl, hFirst⟩ := hPart.first
  exact hFirst (List.cons.inj hSame).1

end NamePart

theorem namePart_of_isValidNamePart {part : String} (hPart : isValidNamePart part = true) :
    NamePart part.toList := by
  unfold isValidNamePart at hPart
  split at hPart
  case h_1 => contradiction
  case h_2 c rest hChars =>
    obtain ⟨⟨hDash, hFirst⟩, hRest⟩ : (c ≠ '-' ∧ isNameChar c = true) ∧
        ∀ d ∈ rest, isNameChar d = true := by simpa using hPart
    refine ⟨?_, c, rest, hChars, hDash⟩
    rw [hChars]
    exact List.forall_mem_cons.mpr ⟨hFirst, hRest⟩

/-- A valid name is split into parts that make it up around its slash. -/
theorem exists_parts_of_isValidDocumentName {name : String}
    (hName : isValidDocumentName name = true) :
    ∃ vendor package, splitQualifiedName name = .ok (vendor, package) ∧
      name.toList = vendor.toList ++ '/' :: package.toList ∧
      NamePart vendor.toList ∧ NamePart package.toList := by
  unfold isValidDocumentName at hName
  split at hName
  case h_2 => contradiction
  case h_1 vendor package hCut =>
    rw [Bool.and_eq_true] at hName
    have hVendor := namePart_of_isValidNamePart hName.1
    have hPackage := namePart_of_isValidNamePart hName.2
    refine ⟨vendor, package, ?_, ?_, hVendor, hPackage⟩
    · have hSlash : '/' ∉ package.toList := hPackage.not_mem (by decide)
      have hEmpty (part : String) (hPart : NamePart part.toList) : part ≠ "" := by
        rintro rfl
        obtain ⟨_, _, hNone, _⟩ := hPart.first
        contradiction
      have hSplit : splitQualifiedName? name = some (vendor, package) := by
        unfold splitQualifiedName?
        rw [hCut]
        simp [hSlash, hEmpty vendor hVendor, hEmpty package hPackage]
      unfold splitQualifiedName
      rw [hSplit]
    · obtain ⟨⟨before, after⟩, hChars, hMade⟩ := Option.map_eq_some_iff.mp hCut
      cases hMade
      rw [String.toList_ofList, String.toList_ofList]
      exact (Text.cutChars_eq_some_iff.mp hChars).1

/-! ## Comparisons -/

section Comparisons

variable {name name' vendor vendor' package package' : String}

/-- Names agree without dashes exactly if their parts do. -/
theorem Text.without_name_eq_iff (hName : name.toList = vendor.toList ++ '/' :: package.toList)
    (hName' : name'.toList = vendor'.toList ++ '/' :: package'.toList)
    (hVendor : NamePart vendor.toList) (hVendor' : NamePart vendor'.toList) :
    without '-' name = without '-' name' ↔
      without '-' vendor = without '-' vendor' ∧ without '-' package = without '-' package' := by
  have hFree (part : String) (hPart : NamePart part.toList) : '/' ∉ (without '-' part).toList :=
    not_mem_without (hPart.not_mem (by decide))
  have hSplit (s v p : String) (hParts : s.toList = v.toList ++ '/' :: p.toList) :
      (without '-' s).toList = (without '-' v).toList ++ '/' :: (without '-' p).toList := by
    rw [toList_without, hParts, List.filter_append, List.filter_cons_of_pos (by decide),
      ← toList_without, ← toList_without]
  rw [← String.toList_inj, hSplit name vendor package hName,
    hSplit name' vendor' package' hName', append_mark_inj (hFree vendor hVendor)
    (hFree vendor' hVendor'), String.toList_inj, String.toList_inj]

/-- Names agree with slashes and dashes read alike exactly if their parts, joined
by a dash, do. -/
theorem Text.underscored_name_eq_iff
    (hName : name.toList = vendor.toList ++ '/' :: package.toList)
    (hName' : name'.toList = vendor'.toList ++ '/' :: package'.toList)
    (hVendor : NamePart vendor.toList) (hVendor' : NamePart vendor'.toList)
    (hPackage : NamePart package.toList) (hPackage' : NamePart package'.toList) :
    underscored name = underscored name' ↔
      vendor.toList ++ '-' :: package.toList = vendor'.toList ++ '-' :: package'.toList := by
  -- Underscores are read back as dashes, of which there are no others.
  let read (c : Char) : Char := if c = '_' then '-' else c
  have hRead (s v p : String) (hParts : s.toList = v.toList ++ '/' :: p.toList)
      (hV : NamePart v.toList) (hP : NamePart p.toList) :
      (underscored s).toList.map read = v.toList ++ '-' :: p.toList := by
    have hPart (part : List Char) (hChars : NamePart part) :
        (part.map fun c => if c = '/' ∨ c = '-' then '_' else c).map read = part := by
      rw [List.map_map]
      refine (List.map_congr_left ?_).trans (List.map_id part)
      intro c hMem
      have hUnderscore : c ≠ '_' := fun hSame => hChars.not_mem (by decide) (hSame ▸ hMem)
      have hSlash : c ≠ '/' := fun hSame => hChars.not_mem (by decide) (hSame ▸ hMem)
      by_cases hDash : c = '-'
      · simp [read, hDash]
      · simp [read, hDash, hSlash, hUnderscore]
    unfold underscored
    rw [String.toList_ofList, hParts, List.map_append, List.map_append, List.map_cons,
      List.map_cons, hPart _ hV, hPart _ hP]
    rfl
  have hWrite (s v p : String) (hParts : s.toList = v.toList ++ '/' :: p.toList) :
      (underscored s).toList =
        (v.toList ++ '-' :: p.toList).map fun c => if c = '/' ∨ c = '-' then '_' else c := by
    unfold underscored
    rw [String.toList_ofList, hParts, List.map_append, List.map_append, List.map_cons,
      List.map_cons]
    rfl
  constructor
  · intro hSame
    rw [← hRead name vendor package hName hVendor hPackage, hSame,
      hRead name' vendor' package' hName' hVendor' hPackage']
  · intro hSame
    rw [← String.toList_inj, hWrite name vendor package hName, hSame,
      hWrite name' vendor' package' hName']

/-- Of two parts joined by a dash the first one is told by its other characters,
because the second one does not start with a dash. -/
theorem vendor_eq_of_append_dash {first first' second second' : List Char}
    (hSecond : NamePart second)
    (hJoined : first ++ '-' :: second = first' ++ '-' :: second') {more : List Char}
    (hFirst : first' = first ++ more)
    (hUndashed : first.filter (· ≠ '-') = first'.filter (· ≠ '-')) : first = first' := by
  rw [hFirst, List.append_assoc, List.append_cancel_left_eq] at hJoined
  rw [hFirst, List.filter_append, List.self_eq_append_right] at hUndashed
  have hDashes : ∀ c ∈ more, c = '-' := by
    simpa using List.filter_eq_nil_iff.mp hUndashed
  cases more with
  | nil => rw [hFirst, List.append_nil]
  | cons dash rest =>
      obtain ⟨_, hRest⟩ := List.cons.inj hJoined
      cases rest with
      | nil => exact absurd hRest (hSecond.ne_dash_cons _)
      | cons c others =>
          obtain rfl := hDashes c (by simp)
          exact absurd hRest (hSecond.ne_dash_cons _)

end Comparisons

/-- Valid names are equal exactly if they agree both without their dashes and
with slashes read as dashes. -/
theorem name_eq_iff {name name' : String} (hName : isValidDocumentName name = true)
    (hName' : isValidDocumentName name' = true) :
    name = name' ↔
      Text.without '-' name = Text.without '-' name' ∧
        Text.underscored name = Text.underscored name' := by
  constructor
  · rintro rfl
    exact ⟨rfl, rfl⟩
  · rintro ⟨hUndashed, hUnderscored⟩
    obtain ⟨vendor, package, _, hParts, hVendor, hPackage⟩ :=
      exists_parts_of_isValidDocumentName hName
    obtain ⟨vendor', package', _, hParts', hVendor', hPackage'⟩ :=
      exists_parts_of_isValidDocumentName hName'
    have hJoined := (Text.underscored_name_eq_iff hParts hParts' hVendor hVendor' hPackage
      hPackage').mp hUnderscored
    have hVendors := ((Text.without_name_eq_iff hParts hParts' hVendor hVendor').mp hUndashed).1
    rw [← String.toList_inj, Text.toList_without, Text.toList_without] at hVendors
    -- One vendor starts with the other.
    have hSame : vendor.toList = vendor'.toList := by
      rcases List.append_eq_append_iff.mp hJoined with ⟨more, hMore, _⟩ | ⟨more, hMore, _⟩
      · exact vendor_eq_of_append_dash hPackage hJoined hMore hVendors
      · exact (vendor_eq_of_append_dash hPackage' hJoined.symm hMore hVendors.symm).symm
    rw [hSame, List.append_cancel_left_eq] at hJoined
    rw [← String.toList_inj, hParts, hParts', hSame, (List.cons.inj hJoined).2]

end ContentSchema
