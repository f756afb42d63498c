import ContentSchema.Proofs.Document.Names
import Mathlib.Computability.RegularExpressions

/-!
# The grammar of names

A name is valid if it matches `[a-z0-9][a-z0-9-]*/[a-z0-9][a-z0-9-]*` as a whole.
The name is cut once more when the parts of a document's name are told, and its
parts are freed from dashes when its columns are set apart; both agree with the
pattern on every name that matches.

* `isValidDocumentName_iff_matches` compares names with the pattern.
* `isValidDocumentName_iff` reads the pattern as two parts around a slash.
* `prefixFor_eq_ok` tells what stands before the columns of a valid name.
* `documentName_grammar` puts the three together.

A name that can be split does NOT have to be valid: its parts may hold any
characters but the second a slash.
-/

namespace ContentSchema

/-! ## Characters -/

/-- The letters and digits of names. -/
def nameLetters : List Char :=
  ['a', 'b', 'c', 'd', 'e', 'f', 'g', 'h', 'i', 'j', 'k', 'l', 'm',
    'n', 'o', 'p', 'q', 'r', 's', 't', 'u', 'v', 'w', 'x', 'y', 'z',
    '0', '1', '2', '3', '4', '5', '6', '7', '8', '9']

theorem isNameChar_iff (c : Char) : isNameChar c = true ↔ c ∈ nameLetters ∨ c = '-' := by
  constructor
  · intro hName
    -- Name characters are few enough to be tried one by one.
    have hAll : ((List.range 128).all fun n =>
        !isNameChar (Char.ofNat n) || ('-' :: nameLetters).contains (Char.ofNat n)) = true := by
      decide +kernel
    have hSmall : c.toNat < 128 := by
      have hBound : c ≤ 'z' ∨ c ≤ '9' ∨ c = '-' := by
        simp only [isNameChar, Bool.or_eq_true, Bool.and_eq_true, decide_eq_true_eq] at hName
        tauto
      rcases hBound with hBound | hBound | rfl
      · exact Nat.lt_of_le_of_lt hBound (by decide)
      · exact Nat.lt_of_le_of_lt hBound (by decide)
      · decide
    have hOne := List.all_eq_true.mp hAll c.toNat (List.mem_range.mpr hSmall)
    rw [Char.ofNat_toNat, hName] at hOne
    exact (List.mem_cons.mp (List.contains_iff_mem.mp hOne)).symm
  · rintro (hLetter | rfl)
    · have hAll : nameLetters.all isNameChar = true := by decide +kernel
      exact List.all_eq_true.mp hAll c hLetter
    · rfl

theorem dash_not_mem_nameLetters : '-' ∉ nameLetters := by
  decide +kernel

/-! ## The pattern -/

section Pattern

open RegularExpression

/-- Matches one character out of a list. -/
def oneOf (cs : List Char) : RegularExpression Char :=
  (cs.map char).sum

/-- `[a-z0-9][a-z0-9-]*`. -/
def namePartPattern : RegularExpression Char :=
  oneOf nameLetters * star (oneOf ('-' :: nameLetters))

/-- `[a-z0-9][a-z0-9-]*/[a-z0-9][a-z0-9-]*`. -/
def documentNamePattern : RegularExpression Char :=
  namePartPattern * char '/' * namePartPattern

theorem mem_matches_oneOf_iff (cs text : List Char) :
    text ∈ (oneOf cs).matches' ↔ ∃ c ∈ cs, text = [c] := by
  induction cs with
  | nil => simp [oneOf]
  | cons c rest ih =>
      have hSum : oneOf (c :: rest) = char c + oneOf rest := by simp [oneOf]
      rw [hSum, matches'_add, Language.mem_add, ih, matches'_char, List.exists_mem_cons_iff]
      rfl

theorem mem_matches_star_oneOf_iff (cs text : List Char) :
    text ∈ (star (oneOf cs)).matches' ↔ ∀ c ∈ text, c ∈ cs := by
  rw [matches'_star, Language.mem_kstar]
  constructor
  · rintro ⟨pieces, rfl, hPieces⟩ c hMem
    obtain ⟨piece, hPiece, hIn⟩ := List.mem_flatten.mp hMem
    obtain ⟨d, hD, rfl⟩ := (mem_matches_oneOf_iff cs piece).mp (hPieces piece hPiece)
    rwa [List.mem_singleton.mp hIn]
  · intro hAll
    refine ⟨text.map fun c => [c], by rw [← List.flatMap_def, List.flatMap_singleton'], ?_⟩
    intro piece hPiece
    obtain ⟨c, hMem, rfl⟩ := List.mem_map.mp hPiece
    exact (mem_matches_oneOf_iff cs [c]).mpr ⟨c, hAll c hMem, rfl⟩

/-- The pattern of a part describes the parts of valid names. -/
theorem mem_matches_namePartPattern_iff (text : List Char) :
    text ∈ namePartPattern.matches' ↔ NamePart text := by
  unfold namePartPattern
  rw [matches'_mul, Language.mem_mul]
  constructor
  · rintro ⟨before, hBefore, after, hAfter, rfl⟩
    obtain ⟨c, hLetter, rfl⟩ := (mem_matches_oneOf_iff _ _).mp hBefore
    have hRest := (mem_matches_star_oneOf_iff _ _).mp hAfter
    refine ⟨?_, c, after, rfl, fun hDash => dash_not_mem_nameLetters (hDash ▸ hLetter)⟩
    intro d hMem
    rcases List.mem_cons.mp hMem with rfl | hMem
    · exact (isNameChar_iff d).mpr (.inl hLetter)
    · exact (isNameChar_iff d).mpr ((List.mem_cons.mp (hRest d hMem)).symm)
  · rintro ⟨hChars, c, after, rfl, hDash⟩
    have hName (d : Char) (hMem : d ∈ c :: after) : d ∈ nameLetters ∨ d = '-' :=
      (isNameChar_iff d).mp (hChars d hMem)
    refine ⟨[c], ?_, after, ?_, rfl⟩
    · exact (mem_matches_oneOf_iff _ _).mpr ⟨c, (hName c (by simp)).resolve_right hDash, rfl⟩
    · refine (mem_matches_star_oneOf_iff _ _).mpr fun d hMem => ?_
      exact List.mem_cons.mpr (hName d (List.mem_cons_of_mem c hMem)).symm

theorem mem_matches_documentNamePattern_iff (text : List Char) :
    text ∈ documentNamePattern.matches' ↔
      ∃ vendor package, text = vendor ++ '/' :: package ∧ NamePart vendor ∧ NamePart package := by
  unfold documentNamePattern
  rw [matches'_mul, matches'_mul, matches'_char, Language.mem_mul]
  constructor
  · rintro ⟨front, hFront, package, hPackage, rfl⟩
    obtain ⟨vendor, hVendor, slash, hSlash, rfl⟩ := Language.mem_mul.mp hFront
    obtain rfl : slash = ['/'] := hSlash
    refine ⟨vendor, package, by simp, ?_, ?_⟩
    · exact (mem_matches_namePartPattern_iff vendor).mp hVendor
    · exact (mem_matches_namePartPattern_iff package).mp hPackage
  · rintro ⟨vendor, package, rfl, hVendor, hPackage⟩
    refine ⟨vendor ++ ['/'], ?_, package, ?_, by simp⟩
    · exact Language.mem_mul.mpr
        ⟨vendor, (mem_matches_namePartPattern_iff vendor).mpr hVendor, ['/'], rfl, rfl⟩
    · exact (mem_matches_namePartPattern_iff package).mpr hPackage

end Pattern

/-! ## Valid names -/

theorem isValidNamePart_iff (part : String) :
    isValidNamePart part = true ↔ NamePart part.toList := by
  refine ⟨namePart_of_isValidNamePart, ?_⟩
  rintro ⟨hChars, c, rest, hPart, hDash⟩
  rw [hPart, List.forall_mem_cons] at hChars
  unfold isValidNamePart
  rw [hPart]
  simpa [hDash, hChars.1] using hChars.2

theorem isValidDocumentName_iff_namePart (name : String) :
    isValidDocumentName name = true ↔
      ∃ vendor package : List Char,
        name.toList = vendor ++ '/' :: package ∧ NamePart vendor ∧ NamePart package := by
  constructor
  · intro hName
    obtain ⟨vendor, package, _, hParts, hVendor, hPackage⟩ :=
      exists_parts_of_isValidDocumentName hName
    exact ⟨vendor.toList, package.toList, hParts, hVendor, hPackage⟩
  · rintro ⟨vendor, package, hParts, hVendor, hPackage⟩
    have hCut : Text.cutChars '/' name.toList = some (vendor, package) :=
      Text.cutChars_eq_some_iff.mpr ⟨hParts, hVendor.not_mem (by decide)⟩
    unfold isValidDocumentName Text.cut
    rw [hCut]
    show (isValidNamePart _ && isValidNamePart _) = true
    rw [Bool.and_eq_true, isValidNamePart_iff, isValidNamePart_iff, String.toList_ofList,
      String.toList_ofList]
    exact ⟨hVendor, hPackage⟩

/-- Exactly the names that match the pattern are valid. -/
theorem isValidDocumentName_iff_matches (name : String) :
    isValidDocumentName name = true ↔ name.toList ∈ documentNamePattern.matches' := by
  rw [isValidDocumentName_iff_namePart, mem_matches_documentNamePattern_iff]

/-- A part of a name, told by its characters: there are some, all of them letters,
digits and dashes, the first one no dash. -/
structure IsNamePart (part : String) : Prop where
  nonempty : part ≠ ""
  chars : ∀ c ∈ part.toList, c ∈ nameLetters ∨ c = '-'
  first : part.toList.head? ≠ some '-'

theorem isNamePart_iff (part : String) : IsNamePart part ↔ NamePart part.toList := by
  constructor
  · rintro ⟨hSome, hChars, hFirst⟩
    refine ⟨fun c hMem => (isNameChar_iff c).mpr (hChars c hMem), ?_⟩
    cases hPart : part.toList with
    | nil => exact absurd (String.toList_eq_nil_iff.mp hPart) hSome
    | cons c rest =>
        refine ⟨c, rest, rfl, fun hDash => hFirst ?_⟩
        rw [hPart, hDash]
        rfl
  · rintro ⟨hChars, c, rest, hPart, hDash⟩
    refine ⟨?_, fun d hMem => (isNameChar_iff d).mp (hChars d hMem), ?_⟩
    · intro hEmpty
      rw [String.toList_eq_nil_iff.mpr hEmpty] at hPart
      exact absurd hPart (List.cons_ne_nil c rest).symm
    · rw [hPart]
      exact fun hHead => hDash (Option.some.inj hHead)

theorem isValidDocumentName_iff (name : String) :
    isValidDocumentName name = true ↔
      ∃ vendor package, name = vendor ++ "/" ++ package ∧ IsNamePart vendor ∧
        IsNamePart package := by
  rw [isValidDocumentName_iff_matches, mem_matches_documentNamePattern_iff]
  constructor
  · rintro ⟨vendor, package, hParts, hVendor, hPackage⟩
    refine ⟨String.ofList vendor, String.ofList package, ?_, ?_, ?_⟩
    · rw [← String.toList_inj, hParts]
      simp
    · rwa [isNamePart_iff, String.toList_ofList]
    · rwa [isNamePart_iff, String.toList_ofList]
  · rintro ⟨vendor, package, rfl, hVendor, hPackage⟩
    refine ⟨vendor.toList, package.toList, by simp, ?_, ?_⟩
    · exact (isNamePart_iff vendor).mp hVendor
    · exact (isNamePart_iff package).mp hPackage

/-! ## Parts of valid names -/

/-- A name is split where it was joined. -/
theorem splitQualifiedName_append {vendor package : String} (hVendor : IsNamePart vendor)
    (hPackage : IsNamePart package) :
    splitQualifiedName (vendor ++ "/" ++ package) = .ok (vendor, package) := by
  have hValid : isValidDocumentName (vendor ++ "/" ++ package) = true :=
    (isValidDocumentName_iff _).mpr ⟨vendor, package, rfl, hVendor, hPackage⟩
  obtain ⟨first, second, hSplit, hParts, hFirst, _⟩ := exists_parts_of_isValidDocumentName hValid
  have hJoined : vendor.toList ++ '/' :: package.toList =
      first.toList ++ '/' :: second.toList := by
    rw [← hParts]
    simp
  obtain ⟨hSame, hSame'⟩ := (Text.append_mark_inj
    (((isNamePart_iff vendor).mp hVendor).not_mem (by decide))
    (hFirst.not_mem (by decide))).mp hJoined
  rw [hSplit, String.toList_inj.mp hSame, String.toList_inj.mp hSame']

theorem IsNamePart.without_dash {part : String} (hPart : IsNamePart part) :
    Text.without '-' part ≠ "" ∧ ∀ c ∈ (Text.without '-' part).toList, c ∈ nameLetters := by
  rw [Text.toList_without]
  constructor
  · intro hEmpty
    obtain ⟨_, c, rest, hChars, hDash⟩ := (isNamePart_iff part).mp hPart
    have hNone : (Text.without '-' part).toList = [] := by rw [hEmpty]; rfl
    rw [Text.toList_without, hChars, List.filter_cons_of_pos (by simpa using hDash)] at hNone
    contradiction
  · intro c hMem
    obtain ⟨hMem, hDash⟩ := List.mem_filter.mp hMem
    exact (hPart.chars c hMem).resolve_right (by simpa using hDash)

/-- Without another text for the vendor, columns are set apart by the parts of the
name without their dashes. -/
theorem prefixFor_eq_ok {name vendor package : String} {policy : PrefixPolicy}
    (hSplit : splitQualifiedName name = .ok (vendor, package))
    (hVendor : policy.vendorPrefix = none) :
    prefixFor name policy = .ok (match policy.style with
      | .full => Text.without '-' vendor ++ "_" ++ Text.without '-' package
      | .vendor => Text.without '-' vendor) := by
  unfold prefixFor
  rw [hSplit, hVendor]
  rfl

/-- A name is valid exactly if it is made of two parts with a slash between them.
The parts are then the ones that it is split into, and without their dashes they
make up what stands before its columns: texts of letters and digits. -/
theorem documentName_grammar (name : String) :
    (isValidDocumentName name = true ↔
      ∃ vendor package, name = vendor ++ "/" ++ package ∧ IsNamePart vendor ∧
        IsNamePart package) ∧
    ∀ vendor package, name = vendor ++ "/" ++ package → IsNamePart vendor →
      IsNamePart package →
      splitQualifiedName name = .ok (vendor, package) ∧
      (∀ policy : PrefixPolicy, policy.vendorPrefix = none →
        prefixFor name policy = .ok (match policy.style with
          | .full => Text.without '-' vendor ++ "_" ++ Text.without '-' package
          | .vendor => Text.without '-' vendor)) ∧
      ∀ part ∈ [vendor, package], Text.without '-' part ≠ "" ∧
        ∀ c ∈ (Text.without '-' part).toList, c ∈ nameLetters := by
  refine ⟨isValidDocumentName_iff name, ?_⟩
  rintro vendor package rfl hVendor hPackage
  have hSplit := splitQualifiedName_append hVendor hPackage
  refine ⟨hSplit, fun policy hNone => prefixFor_eq_ok hSplit hNone, ?_⟩
  intro part hPart
  rcases List.mem_pair.mp hPart with rfl | rfl
  · exact hVendor.without_dash
  · exact hPackage.without_dash

theorem documentName_grammar_dashes :
    prefixFor "acme-labs/hero--2" { enabled := true, style := .full } =
      .ok "acmelabs_hero2" := by
  have hPart (part : String) (hValid : isValidNamePart part = true) : IsNamePart part :=
    (isNamePart_iff part).mpr ((isValidNamePart_iff part).mp hValid)
  have hPrefix := ((documentName_grammar "acme-labs/hero--2").2 "acme-labs" "hero--2"
    (by decide +kernel) (hPart _ (by decide +kernel)) (hPart _ (by decide +kernel))).2.1
    { enabled := true, style := .full } rfl
  exact hPrefix.trans (by decide +kernel)

end ContentSchema
