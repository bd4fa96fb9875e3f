import CanvasFlutter.Proofs.Route.Legal
import CanvasFlutter.Proofs.RouteTable.CodeLine
import CanvasFlutter.Proofs.RouteTable.Frame

namespace CanvasFlutter

/-!
# `CanvasFlutter.Proofs.RouteTable.Imports` — which imports of pages a patched file has

What the patcher writes is quiet: an import and an entry leave every string and every comment as
they found it. So a line that begins in code begins in code in the patched file exactly if it does
in the part of the file that is kept, or if it was written in code.

## Contents
- **Written lines.** `Route.Named.quiet_importLine`, `Route.Named.quiet_tableEntry`.
- **Kept text.** `keptText?`; `codeLine_patched_iff`.
- **Imports of pages.** `Pattern.importsFromPages`; `Overlooked`; `codeLine_import_iff`.
-/

open Section RouteDocument Scanner

/-! ## Written lines -/

namespace Text

/-- The characters of a name are inert. -/
theorem IsName.isInert {t : Text} (h : IsName t) : ∀ c ∈ t, Scanner.isInert c = true :=
  fun _ hc => forall_isAsciiWord (p := fun c => Scanner.isInert c = true) (by decide) (h _ hc)

theorem IsName.quiet {t : Text} (h : IsName t) : Quiet t := quiet_of_all_isInert h.isInert

/-- A slash in front of a name begins no comment. -/
theorem IsName.quiet_slash {t : Text} (h : IsName t) (hne : t ≠ []) : Quiet ('/' :: t) := by
  obtain ⟨c, rest, rfl⟩ := List.exists_cons_of_ne_nil hne
  have hc := h.isInert c (by simp)
  exact (Scanner.quiet_slash hc).append (quiet_of_all_isInert fun d hd => h.isInert d (by simp [hd]))

end Text

namespace Route

theorem slug_ne_nil_of_mem_planAfter {before : List Route} {names : List String} {r : Route}
    (h : r ∈ planAfter before names) : r.slug.toList ≠ [] := by
  induction names generalizing before with
  | nil => cases h
  | cons name rest ih =>
      rcases List.mem_cons.mp h with rfl | h
      · exact (isSlug_candidate ..).ne_nil
      · exact ih h

variable {r : Route}

theorem Named.quiet_importLine (h : r.Named) (hne : r.slug.toList ≠ []) :
    Quiet r.importLine.toList := by
  have hsplit : r.importLine.toList = "import ".toList ++ (('\'' :: ((("..".toList
      ++ "/pages".toList) ++ (('/' :: r.slug.toList) ++ (('/' :: r.slug.toList)
      ++ "_page.dart".toList))) ++ ['\''])) ++ [';']) := by
    rw [toList_importLine, importedPath]
    simp
  rw [hsplit]
  have hword : ∀ {t : Text}, (t.all isInert) = true → Quiet t := fun h =>
    quiet_of_all_isInert (List.all_eq_true.mp h)
  have hslug := h.slug.quiet_slash hne
  have hpages : Quiet "/pages".toList := Text.IsName.quiet_slash (t := "pages".toList)
    (by decide) (by decide)
  exact (hword (by decide)).append <| (quiet_quoted (((hword (by decide)).append hpages).append
    (hslug.append (hslug.append (hword (by decide)))))).append (hword (by decide))

theorem Named.quiet_tableEntry (h : r.Named) (hne : r.slug.toList ≠ []) :
    Quiet r.tableEntry.toList := by
  have hbuilder : Quiet r.builder :=
    (quiet_of_all_isInert (List.all_eq_true.mp (by decide))).append <|
      h.className.quiet.append (quiet_of_all_isInert (List.all_eq_true.mp (by decide)))
  rw [toList_tableEntry]
  exact (quiet_quoted (h.slug.quiet_slash hne)).append hbuilder

end Route

theorem quiet_of_mem_importLines {pages : List Page} {i : Text} (h : i ∈ importLines pages) :
    Quiet i := by
  obtain ⟨r, hr, rfl⟩ := List.mem_map.mp h
  exact (named_of_mem_planRoutes hr).quiet_importLine (Route.slug_ne_nil_of_mem_planAfter hr)

theorem quiet_of_mem_tableEntries {pages : List Page} {e : Text} (h : e ∈ tableEntries pages) :
    Quiet e := by
  obtain ⟨r, hr, rfl⟩ := List.mem_map.mp h
  exact (named_of_mem_planRoutes hr).quiet_tableEntry (Route.slug_ne_nil_of_mem_planAfter hr)

theorem quiet_materialImport : Quiet materialImport.toList := by
  have hword : ∀ {t : Text}, (t.all isInert) = true → Quiet t := fun h =>
    quiet_of_all_isInert (List.all_eq_true.mp h)
  have hname : Quiet "/material".toList := Text.IsName.quiet_slash (t := "material".toList)
    (by decide) (by decide)
  exact (hword (t := "import ".toList) (by decide)).append <|
    (quiet_quoted ((hword (t := "package:flutter".toList) (by decide)).append
      (hname.append (hword (t := ".dart".toList) (by decide))))).append
        (hword (t := [';']) (by decide))

/-! ## Kept text -/

/-- The comments ahead of the first directive, as they are written. -/
def leadingText (existing : Text) : Text := onLines ((parse existing).leading.map Directive.text)

/-- The directives that are kept, as they are written. -/
def directivesText (existing : Text) : Text :=
  onLines ((parse existing).directives.map Directive.text)

/-- What is kept of a file, without the imports that patching writes and without entries in the
table; none if there is no table. -/
def keptText? (existing : Text) : Option Text :=
  (tableParts? (parse existing).body).map fun (front, _, back) =>
    leadingText existing ++ (directivesText existing ++ '\n' :: (front ++ '\n' :: back))

theorem keptText?_eq {existing front inner back : Text}
    (h : tableParts? (parse existing).body = some (front, inner, back)) :
    keptText? existing = some (leadingText existing
      ++ (directivesText existing ++ '\n' :: (front ++ '\n' :: back))) := by
  rw [keptText?, h]
  rfl

/-- Whether the imports are written in code: no string and no comment is left open by the comments
ahead of them. -/
def importsInCode (existing : Text) : Bool := State.code.after (leadingText existing) = .code

/-- The imports that patching writes. -/
def writtenImports (existing : Text) (pages : List Page) : List Text :=
  importLines pages ++ if (parse existing).directives.any Directive.isMaterialImport then []
    else [materialImport.toList]

/-- A patched file in terms of what is kept. -/
theorem patched_eq {existing patched : Text} {pages : List Page}
    (h : patchPages existing pages = .ok patched) : ∃ front inner back,
      tableParts? (parse existing).body = some (front, inner, back) ∧
      patched = leadingText existing ++ (onLines (writtenImports existing pages)
        ++ (directivesText existing ++ '\n' :: (front ++ '\n' ::
          ((tableEntries pages).flatMap entryLine ++ back)))) := by
  obtain ⟨front, inner, back, hparts, rfl⟩ := patchPages_eq_ok_iff.mp h
  have himports : ((importLines pages).map Directive.statement).map Directive.text
      = importLines pages := by
    rw [List.map_map]
    exact List.map_id _
  have hinserted : insertedImport existing = onLines
      (if (parse existing).directives.any Directive.isMaterialImport then []
        else [materialImport.toList]) := by
    rw [insertedImport]
    split <;> rfl
  refine ⟨front, inner, back, hparts, ?_⟩
  rw [render_eq fun i hi => pageImport_of_mem hi, List.map_append, List.map_append,
    onLines_append, onLines_append, himports]
  simp only [filled, withMaterialImport_leading, onLines_withMaterialImport, leadingText,
    directivesText, writtenImports, onLines_append, hinserted,
    tableBody_eq fun e he => tableEntry_of_mem he, List.append_assoc, List.cons_append]

theorem quiet_of_mem_writtenImports {existing : Text} {pages : List Page} {i : Text}
    (h : i ∈ writtenImports existing pages) : Quiet i ∧ '\n' ∉ i ∧ Text.Trimmed i := by
  rcases List.mem_append.mp h with h | h
  · have himport := pageImport_of_mem h
    exact ⟨quiet_of_mem_importLines h, himport.oneLine, himport.trimmed⟩
  · split at h
    · cases h
    · obtain rfl := List.mem_singleton.mp h
      exact ⟨quiet_materialImport, by decide, by decide⟩

/-- The entries of pages on their lines, without the line ends. -/
def entryTexts (pages : List Page) : List Text :=
  (tableEntries pages).map fun entry => ' ' :: ' ' :: entry

theorem flatMap_entryLine (pages : List Page) :
    (tableEntries pages).flatMap entryLine = onLines (entryTexts pages) := by
  rw [onLines, entryTexts, List.flatMap_map]
  rfl

theorem quiet_of_mem_entryTexts {pages : List Page} {l : Text} (h : l ∈ entryTexts pages) :
    Quiet l ∧ '\n' ∉ l ∧ Text.trim l ∈ tableEntries pages := by
  obtain ⟨e, he, rfl⟩ := List.mem_map.mp h
  have hentry := tableEntry_of_mem he
  have htrim : Text.trim ([' ', ' '] ++ e) = e := by
    rw [Text.trim_blank_append (by decide)]
    exact hentry.trimmed
  have hindent : Quiet [' ', ' '] := quiet_of_all_isInert (Text.forall_of_all (by decide))
  refine ⟨hindent.append (quiet_of_mem_tableEntries he), by simpa using hentry.oneLine, ?_⟩
  rw [show ' ' :: ' ' :: e = [' ', ' '] ++ e from rfl, htrim]
  exact he

/-- **Lines in code.** But for the entries of its table, the lines of a patched file that begin in
code are those of the text that is kept and, where these are written in code, the written
imports. -/
theorem codeLine_patched_iff {existing patched : Text} {pages : List Page}
    (h : patchPages existing pages = .ok patched) :
    ∃ kept, keptText? existing = some kept ∧ ∀ line, line ∉ tableEntries pages →
      (CodeLine patched line ↔ CodeLine kept line ∨
        (importsInCode existing = true ∧ line ∈ writtenImports existing pages)) := by
  obtain ⟨front, inner, back, hparts, rfl⟩ := patched_eq h
  refine ⟨_, keptText?_eq hparts, fun line hline => ?_⟩
  have hleading : Text.IsWhole (leadingText existing) := Text.isWhole_onLines _
  have hdirectives : Text.IsWhole (directivesText existing) := Text.isWhole_onLines _
  have hwritten : (writtenImports existing pages).map Text.trim = writtenImports existing pages :=
    (List.map_congr_left fun i hi => (quiet_of_mem_writtenImports hi).2.2).trans (List.map_id _)
  -- the text up to the first line of the table
  have hopen : Text.IsWhole (leadingText existing ++ (directivesText existing
      ++ ('\n' :: (front ++ ['\n'])))) :=
    hleading.append (hdirectives.append (Text.isWhole_append_newline ('\n' :: front)))
  have hquiet : ∀ l ∈ entryTexts pages, Quiet l := fun l hl => (quiet_of_mem_entryTexts hl).1
  have hlines : ∀ l ∈ entryTexts pages, '\n' ∉ l := fun l hl => (quiet_of_mem_entryTexts hl).2.1
  have htable := mem_codeLines_insert hopen hquiet hlines back line
  simp only [List.append_assoc, List.cons_append, List.nil_append] at htable
  have hentries : line ∉ (entryTexts pages).map Text.trim := by
    intro hmem
    obtain ⟨l, hl, rfl⟩ := List.mem_map.mp hmem
    exact hline (quiet_of_mem_entryTexts hl).2.2
  rw [codeLine_iff, codeLine_iff, mem_codeLines_insert hleading
    (fun l hl => (quiet_of_mem_writtenImports hl).1)
    (fun l hl => (quiet_of_mem_writtenImports hl).2.1), hwritten, flatMap_entryLine, htable,
    importsInCode, decide_eq_true_eq]
  simp only [hentries, and_false, or_false]

/-! ## Imports of pages -/

namespace Pattern

/-- What follows the opening quote of an import, with any white space or none in front of it. -/
def importUri? : Part := fun t => do
  let t ← Text.after? "import".toList t
  match blanks t with
  | [] => none
  | c :: t => if isQuote c then some t else none

/-- Whether a line begins with the import of a file in the folder of pages. -/
def importsFromPages (line : Text) : Bool := (importUri? line >>= pagesFolder?).isSome

theorem exists_of_importsFromPages {line : Text} (h : importsFromPages line = true) :
    ∃ rest, line = "import".toList ++ rest := by
  cases hstart : Text.after? "import".toList line with
  | none =>
      rw [importsFromPages, importUri?, hstart] at h
      cases h
  | some rest =>
      unfold Text.after? at hstart
      split at hstart
      · next hprefix =>
          obtain ⟨rest, rfl⟩ := List.isPrefixOf_iff_prefix.mp hprefix
          exact ⟨rest, rfl⟩
      · cases hstart

end Pattern

/-- A line that the reader of a file does not take for an import of a page: a line of a statement of
the section that has another form, or a line before or after the table. -/
def Overlooked (existing line : Text) : Prop :=
  (∃ statement, .statement statement ∈ (readDirectives none (Text.pieces existing)).1 ∧
    (Directive.statement statement).isPageImport = false ∧
    line ∈ Text.visibleLines statement) ∨
  ∃ front inner back, tableParts? (parse existing).body = some (front, inner, back) ∧
    (line ∈ Text.visibleLines front ∨ line ∈ Text.visibleLines back)

theorem visibleLines_onLines_eq (texts : List Text) :
    Text.visibleLines (onLines texts) = texts.flatMap Text.visibleLines := by
  induction texts with
  | nil => rfl
  | cons t texts ih =>
      rw [← List.append_nil (onLines (t :: texts)), onLines_cons_append, List.append_nil,
        Text.visibleLines_newline, ih, List.flatMap_cons]

/-- The visible lines of the comments and the directives that are kept are comments, or lines of a
statement that imports no page. -/
theorem exists_statement_of_mem_visibleLines {existing line : Text}
    (h : line ∈ Text.visibleLines (leadingText existing ++ directivesText existing))
    (hline : isComment line = false) :
    ∃ statement, .statement statement ∈ (readDirectives none (Text.pieces existing)).1 ∧
      (Directive.statement statement).isPageImport = false ∧
      line ∈ Text.visibleLines statement := by
  obtain ⟨c⟩ := exists_cut (Text.pieces existing)
  obtain ⟨moved, hkept, -⟩ := parse_of_cut c
  rw [leadingText, directivesText, ← onLines_append, ← List.map_append, visibleLines_onLines_eq,
    List.flatMap_map] at h
  obtain ⟨e, he, hmem⟩ := List.mem_flatMap.mp h
  have hread : e ∈ (entriesOf c.stretches).filter fun e => !e.isPageImport := by
    rw [hkept, ← List.append_assoc]
    exact List.mem_append_left _ he
  obtain ⟨hentry, hpage⟩ := List.mem_filter.mp hread
  cases e with
  | statement statement =>
      rw [readDirectives_of_cut c]
      exact ⟨statement, hentry, by simpa using hpage, hmem⟩
  | comment text =>
      -- a comment is a single line, and trimmed
      obtain ⟨s, hs, hse⟩ := List.mem_filterMap.mp hentry
      cases s with
      | blank l => cases hse
      | statement first more => cases hse
      | comment l =>
          obtain rfl : Text.trim l = text := Directive.comment.inj (Option.some.inj hse)
          obtain ⟨-, -, hcomment⟩ := c.valid _ hs
          have hnewline : '\n' ∉ Text.trim l := Text.newline_not_mem_trim (t := existing) (by
            rw [c.lines_eq]
            exact List.mem_append_left _ (List.mem_flatMap.mpr ⟨_, hs, by simp [Stretch.lines]⟩))
          rw [Directive.text, Text.visibleLines_line hnewline, Text.trim_trim] at hmem
          split at hmem
          · cases hmem
          · rw [List.mem_singleton.mp hmem, hcomment] at hline
            cases hline

/-- **Imports of pages.** The imports of pages that begin in code in a patched file are, where these
are written in code, those of this run, and those that begin in code in the text that is kept; all
of these the reader had overlooked. -/
theorem codeLine_import_iff {existing patched : Text} {pages : List Page}
    (h : patchPages existing pages = .ok patched) :
    ∃ kept, keptText? existing = some kept ∧
      ∀ line, Pattern.importsFromPages line = true →
        (CodeLine patched line ↔ CodeLine kept line ∨
          (importsInCode existing = true ∧ line ∈ importLines pages)) ∧
        (CodeLine kept line → Overlooked existing line) := by
  obtain ⟨kept, hkept, hiff⟩ := codeLine_patched_iff h
  refine ⟨kept, hkept, fun line hpages => ⟨?_, fun hline => ?_⟩⟩
  · obtain ⟨rest, rfl⟩ := Pattern.exists_of_importsFromPages hpages
    have hentry : "import".toList ++ rest ∉ tableEntries pages := by
      intro hmem
      obtain ⟨s, hs⟩ := (tableEntry_of_mem hmem).quoted
      exact absurd (List.cons.inj hs).1 (by decide)
    rw [hiff _ hentry, writtenImports, List.mem_append]
    constructor
    · rintro (hline | ⟨hcode, hline | hline⟩)
      · exact .inl hline
      · exact .inr ⟨hcode, hline⟩
      · -- the import of the material library is none of a page
        split at hline
        · cases hline
        · rw [List.mem_singleton.mp hline] at hpages
          exact absurd hpages (by decide)
    · rintro (hline | ⟨hcode, hline⟩)
      · exact .inl hline
      · exact .inr ⟨hcode, .inl hline⟩
  · obtain ⟨rest, rfl⟩ := Pattern.exists_of_importsFromPages hpages
    obtain ⟨⟨front, inner, back⟩, hparts, rfl⟩ := Option.map_eq_some_iff.mp hkept
    have hvisible := mem_visibleLines_of_codeLine hline (by simp)
    dsimp only at hvisible
    rw [← List.append_assoc, Text.visibleLines_newline, Text.visibleLines_newline, List.mem_append,
      List.mem_append] at hvisible
    rcases hvisible with hsection | hfront | hback
    · exact .inl (exists_statement_of_mem_visibleLines hsection rfl)
    · exact .inr ⟨front, inner, back, hparts, .inl hfront⟩
    · exact .inr ⟨front, inner, back, hparts, .inr hback⟩

/-- A file that imports a page without a space before the quote. -/
def tightImport : Text :=
  "import'../pages/a.dart';\nfinal Map<String, WidgetBuilder> r = \x7b\x7d;\n".toList

/-- The file with the import of the material library. -/
def tightImportPatched : Text :=
  ("import 'package:flutter/material.dart';\nimport'../pages/a.dart';\n\n" ++
    "final Map<String, WidgetBuilder> r = \x7b\n\x7d;\n").toList

/-- The import stays in the patched file, though no page is in it. -/
theorem codeLine_import_iff_tightImport :
    patchPages tightImport [] = .ok tightImportPatched ∧
    Pattern.importsFromPages "import'../pages/a.dart';".toList = true ∧
    CodeLine tightImportPatched "import'../pages/a.dart';".toList ∧
    Overlooked tightImport "import'../pages/a.dart';".toList := by
  have hpatched : patchPages tightImport [] = .ok tightImportPatched := by rfl
  have hpages : Pattern.importsFromPages "import'../pages/a.dart';".toList = true := by
    rfl
  have hline : CodeLine tightImportPatched "import'../pages/a.dart';".toList :=
    codeLine_iff.mpr (by decide +kernel)
  obtain ⟨kept, -, hiff⟩ := codeLine_import_iff hpatched
  obtain ⟨hcode, hoverlooked⟩ := hiff _ hpages
  refine ⟨hpatched, hpages, hline, hoverlooked ?_⟩
  rcases hcode.mp hline with hkept | ⟨-, hrun⟩
  · exact hkept
  · cases hrun

end CanvasFlutter
