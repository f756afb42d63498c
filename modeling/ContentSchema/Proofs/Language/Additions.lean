import ContentSchema.Language.Keys
import ContentSchema.Proofs.Entries.Writes

/-!
# Additions to registered keys

Keys are registered one by one, for one document or another, and each is kept at the end
of the keys of its document.  So what is registered in the end, and the source texts that
are made of it, are told by the additions alone: by which came first, and for which
document.

* `LanguageKeys.addAll` registers keys in turn, and `LanguageKeys.addedTo` are the keys
  among them that are for a document.
* `LanguageKeys.get_addAll` tells the keys of a document.
* `LanguageKeys.addAll_history` makes additions of keys that are there already.
* `LanguageKeys.FirstTexts` says that source texts list what was added first.
* `LanguageKeys.firstTexts_addAll` puts these together.

Keys that are read from a text may list a document without any key.  These are NOT made
by additions, and their source texts list a document that never received a key.
-/

namespace ContentSchema
namespace LanguageKeys

/-! ## Source texts of a document -/

theorem sourceTexts_eq (keys : List LanguageKey) :
    sourceTexts keys =
      Entries.updateAll LanguageKey.key (fun key present => present.getD key.default) keys [] :=
  rfl

/-- Once there is a text it stays. -/
theorem foldl_present (keys : List LanguageKey) (text : String) :
    keys.foldl (fun present key => some (present.getD key.default)) (some text) = some text := by
  induction keys with
  | nil => rfl
  | cons key rest ih => exact ih

/-- Of several texts with one key the first is kept. -/
theorem lookup_sourceTexts (keys : List LanguageKey) (name : String) :
    (sourceTexts keys).lookup name =
      (keys.find? fun key => key.key = name).map LanguageKey.default := by
  rw [sourceTexts_eq, Entries.lookup_updateAll, ← List.head?_filter]
  cases keys.filter fun key => key.key = name with
  | nil => rfl
  | cons key rest => exact foldl_present rest key.default

theorem keys_sourceTexts (keys : List LanguageKey) :
    Entries.keys (sourceTexts keys) = (keys.map LanguageKey.key).eraseDups := by
  rw [sourceTexts_eq, Entries.keys_updateAll Entries.distinct_nil]
  rfl

/-! ## Additions -/

/-- Register keys of documents one after another. -/
def addAll (keys : LanguageKeys) (additions : List (String × LanguageKey)) : LanguageKeys :=
  additions.foldl (fun keys entry => keys.add entry.1 entry.2) keys

/-- The keys among the additions that are for a document, in order. -/
def addedTo (document : String) (additions : List (String × LanguageKey)) : List LanguageKey :=
  (additions.filter fun entry => entry.1 = document).map Prod.snd

/-- The keys of a document are followed by those that are added for it. -/
theorem get_addAll (keys : LanguageKeys) (additions : List (String × LanguageKey))
    (document : String) :
    (keys.addAll additions).get document = keys.get document ++ addedTo document additions :=
  Entries.getD_lookup_foldl_append additions keys document

theorem addedTo_filter (document : String) (additions : List (String × LanguageKey)) :
    addedTo document (additions.filter fun entry => entry.1 = document) =
      addedTo document additions := by
  rw [addedTo, List.filter_filter]
  simp [addedTo]

theorem addAll_nil_eq (additions : List (String × LanguageKey)) :
    addAll [] additions =
      Entries.updateAll Prod.fst (fun entry present => present.getD [] ++ [entry.2]) additions [] :=
  rfl

theorem distinct_addAll_nil (additions : List (String × LanguageKey)) :
    Entries.Distinct (addAll [] additions) :=
  Entries.distinct_updateAll Entries.distinct_nil

/-- Documents are listed in the order in which they first received a key. -/
theorem keys_addAll_nil (additions : List (String × LanguageKey)) :
    Entries.keys (addAll [] additions) = (additions.map Prod.fst).eraseDups := by
  rw [addAll_nil_eq, Entries.keys_updateAll Entries.distinct_nil]
  rfl

/-- Keys that are there, as additions in the order in which they are listed. -/
def history (keys : LanguageKeys) : List (String × LanguageKey) :=
  keys.flatMap fun (document, listed) => listed.map fun key => (document, key)

/-- Keys of which every document has some come about by additions. -/
theorem addAll_history {before keys : LanguageKeys} (hDistinct : Entries.Distinct (before ++ keys))
    (hSome : ∀ document listed, (document, listed) ∈ keys → listed ≠ []) :
    before.addAll keys.history = before ++ keys := by
  induction keys generalizing before with
  | nil => exact (List.append_nil before).symm
  | cons entry rest ih =>
      obtain ⟨document, listed⟩ := entry
      have hNew := Entries.not_mem_keys_of_distinct_append hDistinct
      have hListed := hSome document listed List.mem_cons_self
      have hMoved : before ++ (document, listed) :: rest =
          (before ++ [(document, listed)]) ++ rest := by simp
      rw [hMoved] at hDistinct ⊢
      rw [← ih hDistinct fun other keys hOther =>
        hSome other keys (List.mem_cons_of_mem _ hOther)]
      show List.foldl _ before (listed.map _ ++ history rest) = _
      rw [List.foldl_append]
      exact congrArg (addAll · (history rest)) (Entries.foldl_append_of_name hNew hListed)

/-! ## Source texts of additions -/

/-- The texts of documents list what was added first. -/
structure FirstTexts (additions : List (String × LanguageKey))
    (sources : Entries (Entries String)) : Prop where
  /-- The documents are those that received a key, in the order of their first ones. -/
  documents : Entries.keys sources = (additions.map Prod.fst).eraseDups
  /-- Each of them has its keys in the order in which they were first added. -/
  keys : ∀ document texts, (document, texts) ∈ sources →
    Entries.keys texts = ((addedTo document additions).map LanguageKey.key).eraseDups
  /-- Each key has the default text of its first addition. -/
  text : ∀ document texts, (document, texts) ∈ sources → ∀ name,
    texts.lookup name =
      ((addedTo document additions).find? fun key => key.key = name).map LanguageKey.default

/-- The texts that are listed for a document are made of the keys added for it. -/
theorem eq_sourceTexts_of_mem_sourceMap {additions : List (String × LanguageKey)}
    {document : String} {texts : Entries String}
    (hTexts : (document, texts) ∈ (addAll [] additions).sourceMap) :
    texts = sourceTexts (addedTo document additions) := by
  obtain ⟨⟨name, listed⟩, hListed, hMade⟩ := List.mem_map.mp hTexts
  obtain ⟨rfl, rfl⟩ := Prod.mk.inj hMade
  have hLookup := (Entries.mem_iff_lookup (distinct_addAll_nil additions)).mp hListed
  have hGet : (addAll [] additions).get name = listed := by
    rw [get, hLookup]
    rfl
  rw [← hGet, get_addAll]
  rfl

/-- **Source texts.**  Whatever keys are registered, and however the documents take
turns, the source texts list the documents that received a key and the different keys of
each, both in the order in which they were first added, and each key with the text of its
first addition.  All keys of which every document has some come about in this way.  The
keys of a document are those that it had and those that are added for it, as if nothing
had been added for any other. -/
theorem firstTexts_addAll :
    (∀ additions, FirstTexts additions (addAll [] additions).sourceMap) ∧
      (∀ keys : LanguageKeys, Entries.Distinct keys →
        (∀ document listed, (document, listed) ∈ keys → listed ≠ []) →
          addAll [] keys.history = keys) ∧
      ∀ (keys : LanguageKeys) additions document,
        (keys.addAll additions).get document =
            keys.get document ++ addedTo document additions ∧
          (keys.addAll additions).get document =
            (keys.addAll (additions.filter fun entry => entry.1 = document)).get document := by
  refine ⟨fun additions => ⟨?_, ?_, ?_⟩, fun keys hDistinct hSome => ?_, ?_⟩
  · rw [sourceMap, Entries.keys_mapValues, keys_addAll_nil]
  · intro document texts hTexts
    rw [eq_sourceTexts_of_mem_sourceMap hTexts, keys_sourceTexts]
  · intro document texts hTexts name
    rw [eq_sourceTexts_of_mem_sourceMap hTexts, lookup_sourceTexts]
  · exact addAll_history hDistinct hSome
  · intro keys additions document
    rw [get_addAll, get_addAll, addedTo_filter]
    exact ⟨rfl, rfl⟩

/-- Two documents that take turns, each with a key that is added twice. -/
def turns : List (String × LanguageKey) :=
  let key (name text : String) : LanguageKey := ⟨name, "labels.xlf:" ++ name, text⟩
  [ ("acme/b", key "title" "Card"), ("acme/a", key "title" "List"),
    ("acme/b", key "size.label" "Size"), ("acme/b", key "title" "Other"),
    ("acme/a", key "title" "More") ]

theorem firstTexts_addAll_turns :
    Entries.keys (addAll [] turns).sourceMap = ["acme/b", "acme/a"] ∧
      addAll [] (addAll [] turns).history = addAll [] turns ∧
      ((addAll [] turns).get "acme/a").map LanguageKey.default = ["List", "More"] := by
  obtain ⟨hTexts, hHistory, hGet⟩ := firstTexts_addAll
  refine ⟨(hTexts turns).documents.trans (by decide), hHistory _ (by decide) ?_, ?_⟩
  · intro document listed hListed
    have hAll : ∀ entry ∈ addAll [] turns, entry.2 ≠ [] := by decide
    exact hAll _ hListed
  · rw [(hGet [] turns "acme/a").1]
    decide

end LanguageKeys
end ContentSchema
