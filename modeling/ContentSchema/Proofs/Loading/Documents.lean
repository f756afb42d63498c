import ContentSchema.Proofs.Loading.Reordering
import ContentSchema.Proofs.Loading.Sets
import Mathlib

/-!
# Loading documents

Which documents are loaded from a tree of files, in which order, and when loading
fails.

* `DocumentSet.on_load_eq_ok_iff` says when documents are loaded, and into which set.
* `DocumentSet.load_complete` says what such a set has, and that it does not depend on
  the order in which directories list their entries.

Names are compared after the excluded ones are left out: two documents of one excluded
name are NOT an error.
-/

namespace ContentSchema
namespace DocumentSet

open Load

variable {tree : FileTree} {sources : List DocumentSource} {exclude : List String}
  {set grown : DocumentSet}

/-! ## All sources -/

/-- Sources are loaded one after another, as if their documents were one list. -/
theorem on_foldlM_load_eq_ok_iff :
    on tree (sources.foldlM (fun set source => do
        Load.ofExcept ((← source.load).foldlM (add exclude) set)) set) = .ok grown ↔
      ∃ lists, List.Forall₂ (DocumentSource.Lists tree) sources lists ∧
        lists.flatten.foldlM (add exclude) set = .ok grown := by
  rw [on_foldlM fun set source => (source.readOnly_load).bind fun _ => readOnly_ofExcept _]
  simp only [on_bind (DocumentSource.readOnly_load _), on_ofExcept]
  induction sources generalizing set with
  | nil => simp
  | cons source rest ih =>
      simp only [List.foldlM_cons, bind_eq_ok_iff, DocumentSource.on_load_eq_ok_iff, ih,
        List.forall₂_cons_left_iff]
      constructor
      · rintro ⟨next, ⟨list, hList, hNext⟩, lists, hLists, hGrown⟩
        refine ⟨list :: lists, ⟨list, lists, hList, hLists, rfl⟩, ?_⟩
        rw [List.flatten_cons, List.foldlM_append, bind_eq_ok_iff]
        exact ⟨next, hNext, hGrown⟩
      · rintro ⟨_, ⟨list, lists, hList, hLists, rfl⟩, hGrown⟩
        rw [List.flatten_cons, List.foldlM_append, bind_eq_ok_iff] at hGrown
        obtain ⟨next, hNext, hGrown⟩ := hGrown
        exact ⟨next, ⟨list, hList, hNext⟩, lists, hLists, hGrown⟩

/-- Documents are loaded if there are sources, all of these can be read, and the names
are as they should be. -/
theorem on_load_eq_ok_iff :
    on tree (load sources exclude) = .ok set ↔
      sources ≠ [] ∧
        ∃ lists, List.Forall₂ (DocumentSource.Lists tree) sources lists ∧
          (∀ loaded ∈ lists.flatten, isValidDocumentName loaded.name = true) ∧
          ((kept exclude lists.flatten).map LoadedDocument.name).Nodup ∧
          set = (kept exclude lists.flatten).foldl DocumentSet.push { sources } := by
  unfold load
  cases hSources : sources.isEmpty with
  | true => simp [List.isEmpty_iff.mp hSources]
  | false =>
      have hSome : sources ≠ [] := by simpa using hSources
      rw [if_neg (by simp), on_foldlM_load_eq_ok_iff, and_iff_right hSome]
      simp only [(holds_nil sources).foldlM_add_eq_ok_iff, List.nil_append]

/-- A source has one list of documents. -/
theorem lists_unique {lists others : List (List LoadedDocument)}
    (hLists : List.Forall₂ (DocumentSource.Lists tree) sources lists)
    (hOthers : List.Forall₂ (DocumentSource.Lists tree) sources others) :
    others = lists := by
  refine List.right_unique_forall₂' (fun source list other hList hOther => ?_) hOthers hLists
  rw [← DocumentSource.on_load_eq_ok_iff] at hList hOther
  exact Except.ok.inj (hList.symm.trans hOther)

/-- **Loading is complete, ordered and unique.**  Documents are loaded exactly if all
sources can be read, all names are valid, and those that are not excluded differ.  The
set then has what the sources list, one after another and without what is excluded, and
finds each document by its name.  The order in which directories list their entries
makes no difference. -/
theorem load_complete (hSources : sources ≠ []) :
    ((∃ set, on tree (load sources exclude) = .ok set) ↔
      ∃ lists, List.Forall₂ (DocumentSource.Lists tree) sources lists ∧
        (∀ loaded ∈ lists.flatten, isValidDocumentName loaded.name = true) ∧
        ((kept exclude lists.flatten).map LoadedDocument.name).Nodup) ∧
    (∀ set lists, on tree (load sources exclude) = .ok set →
      List.Forall₂ (DocumentSource.Lists tree) sources lists →
        set.documents = (kept exclude lists.flatten).map LoadedDocument.document ∧
        set.paths = (kept exclude lists.flatten).map LoadedDocument.path ∧
        set.Finds (kept exclude lists.flatten)) ∧
    ∀ other, tree.Reordered other →
      on other (load sources exclude) = on tree (load sources exclude) := by
  refine ⟨?_, ?_, fun other hTrees => (hTrees.alike_loadSet sources exclude).same⟩
  · simp only [on_load_eq_ok_iff, hSources, ne_eq, not_false_eq_true, true_and]
    constructor
    · rintro ⟨_, lists, hLists, hNames, hDistinct, rfl⟩
      exact ⟨lists, hLists, hNames, hDistinct⟩
    · rintro ⟨lists, hLists, hNames, hDistinct⟩
      exact ⟨_, lists, hLists, hNames, hDistinct, rfl⟩
  · intro set lists hSet hLists
    obtain ⟨_, others, hOthers, _, hDistinct, rfl⟩ := on_load_eq_ok_iff.mp hSet
    obtain rfl := lists_unique hLists hOthers
    have hHolds := (holds_nil sources).foldl_push hDistinct
    rw [List.nil_append] at hHolds
    exact ⟨hHolds.documents, hHolds.paths, hHolds.finds⟩

/-- A site with two element types and a page type, whose folders are not listed in order
and one of which has no document, and a bundle. -/
def siteTree : FileTree :=
  .directory
    [ ("blocks", .directory
        [ ("PageTypes", .directory
            [("blog", .directory [("config.yaml", .file "name: acme/blog".toUTF8)])]),
          ("notes", .directory []),
          ("ContentElements", .directory
            [ ("teaser", .directory [("config.yaml", .file "name: acme/teaser".toUTF8)]),
              ("draft", .directory []),
              ("slider", .directory [("config.yaml", .file "name: acme/slider".toUTF8)]) ]) ]),
      ("shared.json", .file "[\x7b\"name\": \"acme/slider\"\x7d]".toUTF8) ]

/-- A document file is read if its text is that of a document. -/
theorem exists_reads {kind : ContentKind} {path text name : String}
    (hText : tree.HasText path text)
    (hName : (Yaml.readAs SchemaDocument.decode text).toOption.map SchemaDocument.name =
      some name) :
    ∃ loaded, tree.Reads kind path loaded ∧ loaded.path = path ∧ loaded.name = name := by
  obtain ⟨document, hRead, rfl⟩ := exists_eq_ok_of_map_eq_some hName
  exact ⟨_, ⟨text, document, hText, hRead, rfl⟩, rfl, rfl⟩

/-- What the sources of that site list. -/
theorem exists_lists_site :
    ∃ slider teaser blog shared : LoadedDocument,
      List.Forall₂ (DocumentSource.Lists siteTree) [.directory "blocks", .bundle "shared.json"]
        [[slider, teaser, blog], [shared]] ∧
      [slider, teaser, blog, shared].map LoadedDocument.name =
        ["acme/slider", "acme/teaser", "acme/blog", "acme/slider"] ∧
      blog.path = "blocks/PageTypes/blog/config.yaml" := by
  obtain ⟨slider, hSlider, _, hSliderName⟩ := @exists_reads siteTree .contentElement
    "blocks/ContentElements/slider/config.yaml" "name: acme/slider" "acme/slider"
    ⟨_, by rfl, by rfl⟩ (by cbv)
  obtain ⟨teaser, hTeaser, _, hTeaserName⟩ := @exists_reads siteTree .contentElement
    "blocks/ContentElements/teaser/config.yaml" "name: acme/teaser" "acme/teaser"
    ⟨_, by rfl, by rfl⟩ (by cbv)
  obtain ⟨blog, hBlog, hBlogPath, hBlogName⟩ := @exists_reads siteTree .pageType
    "blocks/PageTypes/blog/config.yaml" "name: acme/blog" "acme/blog"
    ⟨_, by rfl, by rfl⟩ (by cbv)
  obtain ⟨documents, hShared, hSharedNames⟩ := exists_eq_ok_of_map_eq_some
    (by decide +kernel : (Json.readAs (Datum.listOf SchemaDocument.decode)
      "[\x7b\"name\": \"acme/slider\"\x7d]").toOption.map (List.map SchemaDocument.name) =
        some ["acme/slider"])
  obtain ⟨document, rfl, hSharedName⟩ := List.map_eq_singleton_iff.mp hSharedNames
  have hText : siteTree.HasText "shared.json" "[\x7b\"name\": \"acme/slider\"\x7d]" :=
    ⟨_, by rfl, by rfl⟩
  have hElements : siteTree.ListsBelow "blocks" .contentElement [slider, teaser] := by
    rw [FileTree.ListsBelow, if_pos (by decide +kernel)]
    exact ⟨["slider", "teaser"], ⟨["teaser", "draft", "slider"], by rfl, by decide,
      by decide +kernel⟩, .cons hSlider (.cons hTeaser .nil)⟩
  have hPages : siteTree.ListsBelow "blocks" .pageType [blog] := by
    rw [FileTree.ListsBelow, if_pos (by decide +kernel)]
    exact ⟨["blog"], ⟨["blog"], by rfl, by decide, by decide +kernel⟩, .cons hBlog .nil⟩
  have hNone (kind : ContentKind)
      (hKind : siteTree.hasDirectory (Path.join "blocks" kind.directoryName) = false) :
      siteTree.ListsBelow "blocks" kind [] := by
    rw [FileTree.ListsBelow, hKind]
    rfl
  have hKinds : List.Forall₂ (siteTree.ListsBelow "blocks") ContentKind.all
      [[slider, teaser], [blog], [], []] := by
    unfold ContentKind.all
    rw [List.forall₂_cons, List.forall₂_cons, List.forall₂_cons, List.forall₂_cons]
    refine ⟨hElements, hPages, hNone .recordType ?_, hNone .fileType ?_, .nil⟩
    · decide +kernel
    · decide +kernel
  refine ⟨slider, teaser, blog, ⟨"shared.json", document⟩, ?_, ?_, hBlogPath⟩
  · refine .cons ⟨⟨["PageTypes", "notes", "ContentElements"], by rfl⟩, _, hKinds, rfl⟩
      (.cons ⟨_, [document], hText, hShared, rfl⟩ .nil)
  · simp only [List.map_cons, hSliderName, hTeaserName, hBlogName, List.map_nil]
    rw [LoadedDocument.name, hSharedName]

/-- The documents of that site, without the one that the bundle has as well. -/
theorem load_complete_site :
    ∃ set, on siteTree (load [.directory "blocks", .bundle "shared.json"] ["acme/slider"]) =
        .ok set ∧
      set.names = ["acme/teaser", "acme/blog"] ∧
      set.path? "acme/blog" = some "blocks/PageTypes/blog/config.yaml" ∧
      set.contains "acme/slider" = false := by
  obtain ⟨slider, teaser, blog, shared, hLists, hNames, hPath⟩ := exists_lists_site
  obtain ⟨hSlider, hTeaser, hBlog, hShared⟩ : slider.name = "acme/slider" ∧
      teaser.name = "acme/teaser" ∧ blog.name = "acme/blog" ∧ shared.name = "acme/slider" := by
    simpa using hNames
  have hKept : kept ["acme/slider"] [[slider, teaser, blog], [shared]].flatten =
      [teaser, blog] := by
    simp [kept, hSlider, hTeaser, hBlog, hShared]
  obtain ⟨hSucceeds, hSets, _⟩ := @load_complete siteTree
    [.directory "blocks", .bundle "shared.json"] ["acme/slider"] (by simp)
  have hValid : ∀ loaded ∈ [[slider, teaser, blog], [shared]].flatten,
      isValidDocumentName loaded.name = true := by
    simp only [List.flatten_cons, List.flatten_nil, List.append_nil, List.cons_append,
      List.nil_append, List.forall_mem_cons, hSlider, hTeaser, hBlog, hShared]
    exact ⟨by decide +kernel, by decide +kernel, by decide +kernel, by decide +kernel,
      List.forall_mem_nil _⟩
  have hDistinct : ((kept ["acme/slider"] [[slider, teaser, blog], [shared]].flatten).map
      LoadedDocument.name).Nodup := by
    rw [hKept]
    simp [hTeaser, hBlog]
  obtain ⟨set, hSet⟩ := hSucceeds.mpr ⟨_, hLists, hValid, hDistinct⟩
  obtain ⟨hDocuments, _, hFinds⟩ := hSets set _ hSet hLists
  rw [hKept] at hDocuments hFinds
  refine ⟨set, hSet, ?_, ?_, ?_⟩
  · rw [names, hDocuments]
    show [teaser.name, blog.name] = _
    rw [hTeaser, hBlog]
  · rw [← hBlog, hFinds.path? blog (by simp), hPath]
  · rw [← Bool.not_eq_true, hFinds.contains]
    simp [hTeaser, hBlog]

end DocumentSet
end ContentSchema
