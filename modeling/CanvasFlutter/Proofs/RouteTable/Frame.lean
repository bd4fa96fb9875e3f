import CanvasFlutter.Proofs.RouteTable.Rerun
import CanvasFlutter.Proofs.Text.Visible

namespace CanvasFlutter

/-!
# `CanvasFlutter.Proofs.RouteTable.Frame` — what patching leaves as it was

A patched file holds the lines of the file before but for those that the patcher owns: imports of
pages, the import of the material library where it was missing, and what stands in the table. The
section of directives is written line by line, the rest of the file character by character.

## Contents
- **Kept lines.** `Cut.withoutPages`: a file without its imports of pages.
- **Frame.** `Frame` says how the two files are made of the same parts; `exists_frame`.
-/

open Section RouteDocument

/-! ## Kept lines -/

namespace Section

/-- Whether a stretch imports a page. -/
def Stretch.isPageImport (s : Stretch) : Bool := s.directive?.any Directive.isPageImport

/-- The stretches of a section that do not import pages. -/
def Cut.kept {lines : List Text} (c : Cut lines) : List Stretch :=
  c.stretches.filter fun s => !s.isPageImport

/-- The text of lines without the imports of pages. -/
def Cut.withoutPages {lines : List Text} (c : Cut lines) : Text :=
  (linesOf c.kept ++ c.after).flatten

theorem entriesOf_kept {lines : List Text} (c : Cut lines) :
    entriesOf c.kept = (entriesOf c.stretches).filter fun e => !e.isPageImport := by
  rw [Cut.kept]
  induction c.stretches with
  | nil => rfl
  | cons s stretches ih =>
      have hs : s.isPageImport = s.directive?.any Directive.isPageImport := rfl
      cases he : s.directive? with
      | none => simp [hs, he, ih]
      | some e => cases hp : e.isPageImport <;> simp [hs, he, hp, ih]

/-- The lines that are kept are lines of the file. -/
theorem sublist_kept {lines : List Text} (c : Cut lines) :
    (linesOf c.kept ++ c.after).Sublist lines := by
  conv => rhs; rw [c.lines_eq]
  refine List.Sublist.append ?_ (List.Sublist.refl _)
  rw [Cut.kept]
  induction c.stretches with
  | nil => exact List.Sublist.refl _
  | cons s stretches ih =>
      by_cases hp : s.isPageImport = true
      · simpa [hp] using ih.trans (List.sublist_append_right ..)
      · simpa [hp] using ih

theorem visible_neat (s : Stretch) : Text.visible s.neat.lines = Text.visible s.lines := by
  have hline : ∀ line, Text.visible [Text.trim line ++ ['\n']] = Text.visible [line] := by
    intro line
    simp [Text.visible, trim_neat_line]
  cases s with
  | blank line => exact hline line
  | comment line => exact hline line
  | statement first more =>
      simp only [Text.visible, Stretch.neat, Stretch.lines, List.map_cons, List.map_map,
        Function.comp_def, trim_neat_line]

/-- What is written of stretches has their visible lines. -/
theorem visibleLines_onLines {stretches : List Stretch} (hvalid : ∀ s ∈ stretches, s.Valid)
    (hl : ∀ line ∈ linesOf stretches, '\n' ∉ Text.trim line) (t : Text) :
    Text.visibleLines (onLines ((entriesOf stretches).map Directive.text) ++ t)
      = Text.visible (linesOf stretches) ++ Text.visibleLines t := by
  induction stretches with
  | nil => rfl
  | cons s stretches ih =>
      have hrest := ih (fun s' hs' => hvalid s' (by simp [hs'])) fun line hline => hl line (by
        rw [linesOf_cons]
        exact List.mem_append_right _ hline)
      have hs : ∀ line ∈ s.lines, '\n' ∉ Text.trim line := fun line hline => hl line (by
        rw [linesOf_cons]
        exact List.mem_append_left _ hline)
      rw [entriesOf_cons, linesOf_cons, Text.visible_append, List.append_assoc, ← hrest]
      cases he : s.directive? with
      | none =>
          -- Only a blank line gives no entry.
          obtain ⟨line, rfl⟩ : ∃ line, s = .blank line := by
            cases s with
            | blank line => exact ⟨line, rfl⟩
            | _ => simp [Stretch.directive?] at he
          have hb : Text.isBlank line = true := hvalid (.blank line) (by simp)
          simp [Stretch.lines, Text.visible_singleton, hb]
      | some e =>
          rw [Option.toList_some, List.singleton_append, List.map_cons, onLines_cons_append,
            Text.visibleLines, pieces_entry he hs, Text.visible_append, visible_neat,
            ← Text.visibleLines]

end Section

/-! ## Frame -/

/-- The import of the material library on its line, where no directive of the file mentions it. -/
def insertedImport (existing : Text) : Text :=
  if (parse existing).directives.any Directive.isMaterialImport then []
  else onLines [materialImport.toList]

theorem onLines_withMaterialImport (existing : Text) :
    onLines ((parse existing).withMaterialImport.directives.map Directive.text)
      = insertedImport existing ++ onLines ((parse existing).directives.map Directive.text) := by
  rw [withMaterialImport, insertedImport]
  split
  · rfl
  · rw [List.map_cons, ← List.singleton_append, onLines_append]
    rfl

/-- The visible lines of texts on their lines, and of what follows. -/
theorem visibleLines_onLines_append (texts : List Text) (t : Text) :
    Text.visibleLines (onLines texts ++ t)
      = Text.visibleLines (onLines texts) ++ Text.visibleLines t := by
  induction texts with
  | nil => rfl
  | cons s texts ih =>
      rw [onLines_cons_append, Text.visibleLines_newline, ih,
        ← List.append_nil (onLines (s :: texts)), onLines_cons_append, Text.visibleLines_newline,
        List.append_nil, List.append_assoc]

/-- How a file and the patched file are made of the same parts. -/
structure Frame (existing patched : Text) (pages : List Page) where
  /-- The lines of the file, cut into its section and the lines after it. -/
  cut : Cut (Text.pieces existing)
  /-- The comments ahead of the imports. -/
  leading : Text
  /-- The directives and the comments between them, but for the imports of pages. -/
  directives : Text
  /-- The comments that go from the end of the section to the body. -/
  moved : Text
  /-- The body up to and with the opening brace of its table. -/
  front : Text
  /-- What the table held. -/
  inner : Text
  /-- The body from the closing brace of its table on. -/
  back : Text
  /-- The file without its imports of pages, up to and with the opening brace of the table. -/
  before : Text
  /-- What the table held, as it stands in the file. -/
  held : Text
  /-- The file from the closing brace of the table on. -/
  after : Text
  patched_eq : patched = leading ++ (onLines (importLines pages) ++ (insertedImport existing
    ++ (directives ++ '\n' :: (front ++ (tableBody (tableEntries pages) ++ back)))))
  table : tableParts? (parse existing).body = some (front, inner, back)
  /-- The entries stand in the table that is found in the patched file. -/
  table_filled : tableParts? (front ++ (tableBody (tableEntries pages) ++ back))
    = some (front, tableBody (tableEntries pages), back)
  /-- Without blank lines in front, all that follows the section is character by character in the
  patched file, but for what the table held. -/
  body_eq : moved ++ (cut.after.dropWhile Text.isBlank).flatten = front ++ (inner ++ back)
  existing_eq : cut.withoutPages = before ++ (held ++ after)
  opens : ∃ u, before = u ++ ['{']
  closes : ∃ z, after = '}' :: z
  same_before : Text.visibleLines before = Text.visibleLines (leading ++ (directives ++ front))
  same_held : Text.visibleLines held = Text.visibleLines inner
  same_after : Text.visibleLines after = Text.visibleLines back
  /-- Without what the patcher owns, both files have the same visible lines. -/
  same_lines : Text.visibleLines (before ++ after)
    = Text.visibleLines (leading ++ (directives ++ '\n' :: (front ++ back)))

/-- A file without its imports of pages looks like its document. -/
theorem visibleLines_withoutPages {existing : Text} (c : Cut (Text.pieces existing)) :
    Text.visibleLines c.withoutPages
      = Text.visibleLines (onLines ((parse existing).leading.map Directive.text)
        ++ (onLines ((parse existing).directives.map Directive.text)
          ++ (parse existing).body)) := by
  obtain ⟨moved, hkept, -, -, -, -, hbody⟩ := parse_of_cut c
  have hvalid : ∀ s ∈ c.kept, s.Valid := fun s hs => c.valid s (List.mem_filter.mp hs).1
  have hsub := sublist_kept c
  have hlines : ∀ line ∈ linesOf c.kept, '\n' ∉ Text.trim line := fun line hline =>
    Text.newline_not_mem_trim (hsub.subset (List.mem_append_left _ hline))
  have hafter : Text.pieces existing = linesOf c.stretches ++ c.after.takeWhile Text.isBlank
      ++ c.after.dropWhile Text.isBlank := by
    rw [List.append_assoc, List.takeWhile_append_dropWhile, ← c.lines_eq]
  -- The entries that are kept are written in their order, at the end those that go to the body.
  have hdocument : onLines ((parse existing).leading.map Directive.text)
      ++ (onLines ((parse existing).directives.map Directive.text) ++ (parse existing).body)
      = onLines ((entriesOf c.kept).map Directive.text)
        ++ (c.after.dropWhile Text.isBlank).flatten := by
    rw [entriesOf_kept, hkept, hbody]
    simp only [List.map_append, onLines_append, List.append_assoc]
  rw [hdocument, visibleLines_onLines hvalid hlines, Cut.withoutPages, Text.visibleLines,
    Text.visibleLines, Text.pieces_flatten_of_sublist hsub,
    Text.pieces_flatten_of_eq_append hafter, Text.visible_append, Text.visible_dropWhile_isBlank]

/-- **Frame.** Patching loses, doubles and reorders nothing that it does not own. -/
theorem exists_frame {existing patched : Text} {pages : List Page}
    (h : patchPages existing pages = .ok patched) : Nonempty (Frame existing patched pages) := by
  obtain ⟨front, inner, back, hparts, rfl⟩ := patchPages_eq_ok_iff.mp h
  obtain ⟨c⟩ := exists_cut (Text.pieces existing)
  obtain ⟨moved, -, -, -, -, -, hbody⟩ := parse_of_cut c
  have hfilled := tableParts?_filled hparts pages
  have hlook := visibleLines_withoutPages c
  obtain ⟨hbody', ⟨u, rfl⟩, z, rfl⟩ := tableParts?_eq_some hparts
  generalize hleading : onLines ((parse existing).leading.map Directive.text) = leading at hlook
  generalize hdirectives : onLines ((parse existing).directives.map Directive.text) = directives
    at hlook
  -- The file is cut at the opening brace, and what follows that at the closing brace.
  have hopen : leading ++ (directives ++ (parse existing).body)
      = (leading ++ (directives ++ u)) ++ '{' :: (inner ++ '}' :: z) := by
    rw [hbody']
    simp
  rw [hopen] at hlook
  obtain ⟨u', v', hcut, hsame⟩ := Text.exists_visible_cut (by decide) hlook
  obtain ⟨held, z', rfl, hsame'⟩ := Text.exists_visible_cut (by decide) hsame.after
  refine ⟨{
    cut := c, leading, directives, moved := onLines (moved.map Directive.text)
    front := u ++ ['{'], inner, back := '}' :: z, before := u' ++ ['{'], held, after := '}' :: z'
    patched_eq := ?_
    table := hparts
    table_filled := hfilled
    body_eq := by rw [← hbody, hbody']
    existing_eq := by rw [hcut]; simp
    opens := ⟨u', rfl⟩
    closes := ⟨z', rfl⟩
    same_before := by simpa using hsame.upTo
    same_held := hsame'.before
    same_after := hsame'.since
    same_lines := ?_ }⟩
  · have himports : ((importLines pages).map Directive.statement).map Directive.text
        = importLines pages := by
      rw [List.map_map]
      exact List.map_id _
    rw [render_eq fun i hi => pageImport_of_mem hi, List.map_append, List.map_append,
      onLines_append, onLines_append, himports]
    simp only [filled, withMaterialImport_leading, onLines_withMaterialImport, hleading,
      hdirectives, List.append_assoc]
  · have hjoin := Text.visibleLines_congr_join (by decide) (by decide) hsame.upTo hsame'.since
    have hsplit : ∀ t, Text.visibleLines (leading ++ (directives ++ t))
        = Text.visibleLines leading ++ (Text.visibleLines directives ++ Text.visibleLines t) :=
      fun t => by
        rw [← hleading, ← hdirectives, visibleLines_onLines_append, visibleLines_onLines_append]
    rw [hsplit, Text.visibleLines_cons_newline, ← hsplit]
    simpa using hjoin

/-- A routes file of an older project: directives of every kind, one of them the import of a page
that is gone, comments, and a table that is not empty. -/
def olderRoutes : Text := [
    "// Routes of the app.\n",
    "import '../pages/old/old_page.dart';\n",
    "import 'theme.dart';\n",
    "// Shared widgets.\n",
    "export 'widgets.dart';\n",
    "part 'routes.g.dart';\n\n",
    "/* All pages. */\n",
    "final Map<String, WidgetBuilder> routes = \x7b\n",
    "  '/old': (context) => const OldPage(), // gone\n",
    "\x7d;\n"].flatMap String.toList

/-- The file with a page. -/
def olderRoutesPatched : Text := [
    "// Routes of the app.\n",
    "import '../pages/home/home_page.dart';\n",
    "import 'package:flutter/material.dart';\n",
    "import 'theme.dart';\n",
    "// Shared widgets.\n",
    "export 'widgets.dart';\n",
    "part 'routes.g.dart';\n\n",
    "/* All pages. */\n",
    "final Map<String, WidgetBuilder> routes = \x7b\n",
    "  '/home': (context) => const HomePage(),\n",
    "\x7d;\n"].flatMap String.toList

theorem patchPages_olderRoutes : patchPages olderRoutes [⟨"Home", []⟩] = .ok olderRoutesPatched := by
  have hsome : (patchPages olderRoutes [⟨"Home", []⟩]).toOption = some olderRoutesPatched := by
    decide +kernel
  cases hpatch : patchPages olderRoutes [⟨"Home", []⟩] with
  | error e =>
      rw [hpatch] at hsome
      cases hsome
  | ok patched =>
      rw [hpatch] at hsome
      rw [Option.some.inj hsome]

/-- The frame of a file in which a page takes the place of another one. -/
theorem exists_frame_olderRoutes : patchPages olderRoutes [⟨"Home", []⟩] = .ok olderRoutesPatched ∧
    Nonempty (Frame olderRoutes olderRoutesPatched [⟨"Home", []⟩]) :=
  ⟨patchPages_olderRoutes, exists_frame patchPages_olderRoutes⟩

end CanvasFlutter
