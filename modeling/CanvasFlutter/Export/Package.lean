import CanvasFlutter.Bytes.Archive
import CanvasFlutter.PageSource.Compile
import CanvasFlutter.RouteTable.Document
import CanvasFlutter.Workspace.Files

/-!
# `CanvasFlutter.Export.Package` — from a template to an archive

An export is put together in a staging folder: a copy of the template, this run's pages, this run's
routes. The archive is written beside its place and takes it when it is complete.

## Contents
- **Walking.** `visitFolder`, `visitTree`: all below a folder, each folder before what it holds.
- **Staging.** `stageTemplate`, `writePages`, `patchRoutesFile`.
- **Archiving.** `partialPath`, `writeArchive`.
-/

namespace CanvasFlutter.Package

/-- Something done to a workspace for an export. -/
abbrev ExportAction := FileAction ExportError

/-- A file operation on a path. -/
def onPath {α : Type} (path : String) (action : FileAction FileFault α) : ExportAction α :=
  FileAction.mapError (.file path) action

/-! ## Walking -/

/-- Something done with what a folder holds: the path, the names that lead to it from the top and
what it is. -/
abbrev Visit (α : Type) := String → List String → EntryKind → ExportAction α

/-- Visits what a listing of a folder names and all below, and gives the results in that order.
Links are left out. A folder is listed before its visit, so that what the visit creates in it is
not visited. Paths have a greatest length, so `fuel` of that size is never used up. -/
def visitFolder {α : Type} (visit : Visit α) : (fuel : Nat) → (path : String) →
    (names : List String) → List (String × EntryKind) → ExportAction (List α)
  | 0, path, _, _ => throw (.file path .nameTooLong)
  | fuel + 1, path, names, listing => do
      let results ← listing.mapM fun (name, kind) => do
        let child := Path.join path name
        let childNames := names ++ [name]
        match kind with
        | .link => return []
        | .file => return [← visit child childNames .file]
        | .folder => do
            let inside ← FileAction.attempt (FileAction.listFolder child)
            let result ← visit child childNames .folder
            match inside with
            | .ok inside => return result :: (← visitFolder visit fuel child childNames inside)
            | .error fault => throw (.file child fault)
      return results.flatten

/-- Visits all below a path; a file has nothing below it. -/
def visitTree {α : Type} (visit : Visit α) (path : String) : ExportAction (List α) := do
  match ← FileAction.attempt (FileAction.listFolder path) with
  | .ok listing => visitFolder visit maxPathBytes path [] listing
  | .error fault =>
      if ← FileAction.look (·.exists? path) then return [] else throw (.file path fault)

/-! ## Staging -/

/-- Copies the template into a new staging folder; what was there before is removed. -/
def stageTemplate (template staging : String) : ExportAction Unit := do
  unless ← FileAction.look (·.isFolder template) do
    throw (.file template .templateMissing)
  if ← FileAction.look (·.exists? staging) then
    onPath staging (FileAction.removeTree staging)
  onPath staging (FileAction.makeFolders staging)
  let _ ← visitTree
    (fun path names kind => do
      let target := Path.join staging ("/".intercalate names)
      match kind with
      | .folder => onPath target (FileAction.makeFolders target)
      | _ => onPath target (FileAction.copyFile path target))
    template

/-- Writes a page into the staging folder. -/
def writePage (staging : String) (page : GeneratedPage) : ExportAction Unit := do
  let path := Path.join staging page.route.file
  match Path.parent? path with
  | some parent => onPath parent (FileAction.makeFolders parent)
  | none => pure ()
  onPath path (FileAction.writeText path (String.ofList page.source))

/-- Writes every page into the staging folder. -/
def writePages (staging : String) (pages : List GeneratedPage) : ExportAction Unit :=
  pages.forM (writePage staging)

/-- The file with the routes within a project. -/
def routesFile : String := "lib/app/routes.dart"

/-- Puts the routes of this run into the routes file of the staging folder. -/
def patchRoutesFile (staging : String) (routes : List Route) : ExportAction Unit := do
  let path := Path.join staging routesFile
  let fault (f : FileFault) : ExportError :=
    if f = .notFound then .routeTableNotFound else .file path f
  let existing ← FileAction.mapError fault (FileAction.readText path)
  let imports := routes.map (·.importLine.toList)
  let entries := routes.map (·.tableEntry.toList)
  match patchRoutes existing.toList imports entries with
  | .ok patched => onPath path (FileAction.writeText path (String.ofList patched))
  | .error error => throw error

/-! ## Archiving -/

/-- The path of an archive while it is not complete. -/
def partialPath (archive : String) : String := archive ++ ".partial"

/-- The greatest compression level that archives know. -/
def maxLevel : Int := 264

/-- The archive entry of what is staged at a path, within a folder of this name. Only files are
compressed, so only they need a level that archives know. -/
def archiveEntry (folder archive : String) (level : Int) : Visit ArchiveEntry :=
  fun path names kind => do
    let name := "/".intercalate (folder :: names)
    match kind with
    | .folder => return ⟨name ++ "/", .empty⟩
    | _ =>
        if 0 ≤ level ∧ level ≤ maxLevel then
          return ⟨name, ← onPath path (FileAction.readBytes path)⟩
        else throw (.archive archive)

/-- Writes an archive of what is staged to a path that is free for it. -/
def compress (staging path folder : String) (level : Int) : ExportAction Unit := do
  onPath path (FileAction.writeBytes path .empty)
  let entries ← visitTree (archiveEntry folder path level) staging
  onPath path (FileAction.writeBytes path (Archive.write (⟨folder ++ "/", .empty⟩ :: entries)))

/-- Writes an archive of what is staged, with all entries within a folder of this name. -/
def writeArchive (staging archive folder : String) (level : Int) : ExportAction Unit := do
  let unfinished := partialPath archive
  match Path.parent? archive with
  | some parent => onPath parent (FileAction.makeFolders parent)
  | none => pure ()
  match ← FileAction.attempt (compress staging unfinished folder level) with
  | .ok () => onPath archive (FileAction.renameFile unfinished archive)
  | .error error =>
      let _ ← FileAction.attempt (FileAction.removeFile unfinished)
      throw error

end CanvasFlutter.Package
