import CanvasFlutter.Export.Package
import CanvasFlutter.Proofs.Dart.Leaf

namespace CanvasFlutter

/-!
# `CanvasFlutter.Proofs.Route.Import` — the file that an import names

An import names a file by the way that leads to it from the folder of the file that it stands in.

## Contents
- **Paths.** `climb`, `relativeTo`: where a way leads.
- **Directives.** `importedUri?` reads the way off an import.
- **Routes.** `importedUri?_importLine`, `relativeTo_routes`: the import of a page names its file.
-/

open Dart Lexer

/-! ## Paths -/

/-- Where names lead from a folder, two dots one folder up. -/
def climb : List Text → List Text → List Text
  | folder, [] => folder
  | folder, name :: rest =>
      climb (if name = "..".toList then folder.dropLast
        else if name = ".".toList then folder else folder ++ [name]) rest

/-- The file that a way leads to from the folder of a file. -/
def relativeTo (source uri : Text) : Text :=
  ['/'].intercalate (climb (source.splitOn '/').dropLast (uri.splitOn '/'))

/-- A name that is no row of dots leads down. -/
theorem climb_name {folder : List Text} {name : Text} (h : name ≠ "..".toList ∧ name ≠ ".".toList)
    (rest : List Text) : climb folder (name :: rest) = climb (folder ++ [name]) rest := by
  rw [climb, if_neg h.1, if_neg h.2]

/-! ## Directives -/

/-- The way that an import gives in a string without escapes. -/
def importedUri? (directive : Text) : Option Text :=
  match tokens? directive with
  | some [.word keyword, .string literal, .mark [';']] =>
      if keyword = "import".toList ∧ '\\' ∉ literal then some literal.tail.dropLast else none
  | _ => none

/-- A character that a string shows as it is. -/
def IsVerbatim (c : Char) : Prop := Literal.escape c = [c]

instance : DecidablePred IsVerbatim := fun _ => inferInstanceAs (Decidable (_ = _))

theorem isVerbatim_of_isName {t : Text} (h : t.IsName) : ∀ c ∈ t, IsVerbatim c :=
  fun c hc => Text.forall_isAsciiWord (by decide) (h c hc)

theorem flatMap_escape {t : Text} (h : ∀ c ∈ t, IsVerbatim c) : t.flatMap Literal.escape = t := by
  induction t with
  | nil => rfl
  | cons c t ih =>
      rw [List.forall_mem_cons] at h
      have hc : Literal.escape c = [c] := h.1
      rw [List.flatMap_cons, hc, ih h.2, List.singleton_append]

theorem importedUri?_import {uri : Text} (h : ∀ c ∈ uri, IsVerbatim c) :
    importedUri? ("import ".toList ++ ('\'' :: (uri ++ ['\''])) ++ [';']) = some uri := by
  have hliteral : '\'' :: (uri ++ ['\'']) = Literal.string uri := by
    rw [Literal.string, flatMap_escape h]
  have hopen : Closed "import ".toList [.word "import".toList] :=
    closed_of_lexed (by decide) (by decide)
  have hend : Phrase [';'] [.mark [';']] := by
    have hlexed : lexed [';'] = [.mark [';']] := by decide
    exact hlexed ▸ phrase_lexed (by decide)
  have hphrase := hopen.append_phrase ((phrase_string uri).then_phrase hend (by decide))
  have hbackslash : '\\' ∉ '\'' :: (uri ++ ['\'']) := by
    have huri : '\\' ∉ uri := fun hmem => absurd (h _ hmem) (by decide)
    simp [huri]
  rw [List.append_assoc, hliteral, importedUri?, hphrase.tokens?, ← hliteral]
  simp only [List.cons_append, List.nil_append]
  rw [if_pos ⟨trivial, hbackslash⟩]
  simp

/-! ## Routes -/

namespace Route

/-- The way from the routes file to the file of a page. -/
def importedUri (r : Route) : Text := "../pages/".toList ++ r.importedPath

theorem toList_importLine_uri (r : Route) : r.importLine.toList
    = "import ".toList ++ ('\'' :: (r.importedUri ++ ['\''])) ++ [';'] := by
  have hopen : "import '../pages/".toList = "import ".toList ++ '\'' :: "../pages/".toList := rfl
  rw [toList_importLine, hopen]
  delta importedUri
  simp only [List.append_assoc, List.cons_append, List.nil_append]

theorem Named.importedUri?_importLine {r : Route} (h : r.Named) :
    importedUri? r.importLine.toList = some r.importedUri := by
  have hfolder : ∀ c ∈ "../pages/".toList, IsVerbatim c := Text.forall_of_all (by decide)
  have hpath : ∀ c ∈ r.importedPath, IsVerbatim c :=
    h.forall_importedPath (fun t ht => isVerbatim_of_isName ht) (by decide) (by decide)
  have hverbatim : ∀ c ∈ r.importedUri, IsVerbatim c := by
    show ∀ c ∈ "../pages/".toList ++ r.importedPath, IsVerbatim c
    exact List.forall_mem_append.mpr ⟨hfolder, hpath⟩
  rw [toList_importLine_uri, importedUri?_import hverbatim]

/-- The name of a page's file in its folder. -/
def fileName (r : Route) : Text := r.slug.toList ++ "_page.dart".toList

theorem importedUri_eq (r : Route) : r.importedUri = ['/'].intercalate
    ["..".toList, "pages".toList, r.slug.toList, r.fileName] := by
  have hfolder : "../pages/".toList = "..".toList ++ '/' :: ("pages".toList ++ ['/']) := rfl
  have hslash : "/".toList = ['/'] := rfl
  delta importedUri importedPath fileName
  rw [hfolder, hslash]
  simp only [List.intercalate, List.intersperse, List.flatten_cons, List.flatten_nil,
    List.append_assoc, List.cons_append, List.nil_append, List.append_nil]

theorem toList_file (r : Route) : r.file.toList = ['/'].intercalate
    ["lib".toList, "pages".toList, r.slug.toList, r.fileName] := by
  have hfolder : "lib/pages".toList = "lib".toList ++ '/' :: "pages".toList := rfl
  have hslash : "/".toList = ['/'] := rfl
  delta file pagesFolder fileName
  rw [toList_append_five, String.toList_append, hfolder, hslash]
  simp only [List.intercalate, List.intersperse, List.flatten_cons, List.flatten_nil,
    List.append_assoc, List.cons_append, List.nil_append, List.append_nil]

/-- The import of a page leads from the folder of the routes file to the file of the page. -/
theorem Named.relativeTo_importedUri {r : Route} (h : r.Named) :
    relativeTo Package.routesFile.toList r.importedUri = r.file.toList := by
  have hslash : '/' ∉ r.slug.toList := fun hmem => absurd (h.slug _ hmem) (by decide)
  have hending : '/' ∉ "_page.dart".toList := by decide
  have hfile : '/' ∉ r.fileName := fun hmem =>
    (List.mem_append.mp hmem).elim hslash hending
  have hdots : '/' ∉ "..".toList ∧ '/' ∉ "pages".toList := by decide
  have hnames : r.importedUri.splitOn '/'
      = ["..".toList, "pages".toList, r.slug.toList, r.fileName] := by
    rw [importedUri_eq]
    refine List.splitOn_intercalate '/' ?_ (by simp)
    simp only [List.forall_mem_cons]
    exact ⟨hdots.1, hdots.2, hslash, hfile, by simp⟩
  have hfolder : (Package.routesFile.toList.splitOn '/').dropLast
      = ["lib".toList, "app".toList] := by decide +kernel
  have hdown : r.slug.toList ≠ "..".toList ∧ r.slug.toList ≠ ".".toList := by
    have hname : ¬ Text.IsName "..".toList ∧ ¬ Text.IsName ".".toList := by decide
    exact ⟨fun heq => hname.1 (heq ▸ h.slug), fun heq => hname.2 (heq ▸ h.slug)⟩
  have hlast : r.fileName ≠ "..".toList ∧ r.fileName ≠ ".".toList := by
    have hmem : '_' ∈ r.fileName := List.mem_append_right _ (by decide)
    have hdot : '_' ∉ "..".toList ∧ '_' ∉ ".".toList := by decide
    exact ⟨fun heq => hdot.1 (heq ▸ hmem), fun heq => hdot.2 (heq ▸ hmem)⟩
  have hclimb : climb ["lib".toList, "app".toList]
      ["..".toList, "pages".toList, r.slug.toList, r.fileName]
      = ["lib".toList, "pages".toList, r.slug.toList, r.fileName] := by
    rw [climb, if_pos rfl, climb_name (by decide), climb_name hdown,
      climb_name hlast]
    rfl
  rw [relativeTo, hfolder, hnames, hclimb, toList_file]

end Route

end CanvasFlutter
