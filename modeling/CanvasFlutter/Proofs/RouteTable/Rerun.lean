import CanvasFlutter.Proofs.Route.Lines

namespace CanvasFlutter

/-!
# `CanvasFlutter.Proofs.RouteTable.Rerun` — patching a file that was patched

What is patched into a file is read again as the same document, unless a statement that was open in
front of the table swallows it. So but for such files the last run wins.

## Contents
- **Pages.** `patchPages`, and `patchPages_eq_ok_iff`: what is written.
- **Reading.** `parse_patched`: a patched file is read as the document that was written.
- **Runs.** `patchPages_last_wins`.
-/

open Section

/-! ## Pages -/

/-- The imports of pages. -/
def importLines (pages : List Page) : List Text := (planRoutes pages).map (·.importLine.toList)

/-- The entries of pages in the table. -/
def tableEntries (pages : List Page) : List Text := (planRoutes pages).map (·.tableEntry.toList)

/-- A routes file with the imports and the entries of these pages. -/
def patchPages (existing : Text) (pages : List Page) : Except ExportError Text :=
  patchRoutes existing (importLines pages) (tableEntries pages)

theorem pageImport_of_mem {pages : List Page} {i : Text} (h : i ∈ importLines pages) :
    RouteDocument.PageImport i := by
  obtain ⟨r, hr, rfl⟩ := List.mem_map.mp h
  exact (named_of_mem_planRoutes hr).pageImport_importLine

theorem tableEntry_of_mem {pages : List Page} {e : Text} (h : e ∈ tableEntries pages) :
    TableEntry e := by
  obtain ⟨r, hr, rfl⟩ := List.mem_map.mp h
  exact (named_of_mem_planRoutes hr).tableEntry_tableEntry

namespace RouteDocument

/-- The document with the import of the material library, and these texts around the entries of
pages for its body. -/
def filled (d : RouteDocument) (front back : Text) (pages : List Page) : RouteDocument :=
  { d.withMaterialImport with body := front ++ (tableBody (tableEntries pages) ++ back) }

end RouteDocument

open RouteDocument

theorem patchPages_eq (existing : Text) (pages : List Page) :
    patchPages existing pages = match tableParts? (parse existing).body with
      | some (front, _, back) =>
          .ok (((parse existing).filled front back pages).render (importLines pages))
      | none => .error .routeTableNotFound := by
  rw [patchPages, patchRoutes, replaceTable?_eq, withMaterialImport_body]
  cases tableParts? (parse existing).body <;> rfl

theorem patchPages_eq_ok_iff {existing patched : Text} {pages : List Page} :
    patchPages existing pages = .ok patched ↔ ∃ front inner back,
      tableParts? (parse existing).body = some (front, inner, back) ∧
      patched = ((parse existing).filled front back pages).render (importLines pages) := by
  rw [patchPages_eq]
  constructor
  · intro h
    cases hparts : tableParts? (parse existing).body with
    | none => simp [hparts] at h
    | some parts =>
        obtain ⟨front, inner, back⟩ := parts
        rw [hparts] at h
        exact ⟨front, inner, back, rfl, (Except.ok.inj h).symm⟩
  · rintro ⟨front, inner, back, hparts, rfl⟩
    rw [hparts]

/-! ## Reading -/

namespace RouteDocument

variable {existing front inner back : Text}

/-- A body whose table is filled again begins with a line that is not blank, as it did before. -/
theorem body_visible_filled (h : tableParts? (parse existing).body = some (front, inner, back))
    (pages : List Page) :
    ∀ line ∈ (Text.pieces (front ++ (tableBody (tableEntries pages) ++ back))).head?,
      Text.isBlank line = false := by
  obtain ⟨q, l, v, t, more, rest, rfl, hl, hq, hpieces, -, -⟩ := exists_table_lines h
  have hbody := (ordered_parse existing).body_visible
  have hbrace : '\n' ∉ l ++ ['{'] := by simp [hl]
  rw [hpieces, List.head?_append] at hbody
  rw [List.append_assoc, hq, pieces_tableBody (fun e he => tableEntry_of_mem he) hbrace,
    List.head?_append]
  -- The first line stands in front of the table or is the line of its opening brace.
  cases hhead : (Text.pieces q).head? with
  | some line => simpa [hhead] using hbody
  | none =>
      have hvisible : Text.isWhite '{' = false := by decide
      simp [hvisible]

theorem Ordered.filled (h : tableParts? (parse existing).body = some (front, inner, back))
    (pages : List Page) : ((parse existing).filled front back pages).Ordered :=
  have hd := (ordered_parse existing).withMaterialImport
  ⟨hd.leading_tidy, hd.leading_comment, hd.directives_tidy, hd.first_statement, hd.last_statement,
    hd.no_page_import, body_visible_filled h pages⟩

theorem mentionsMaterial_filled (d : RouteDocument) (front back : Text) (pages : List Page) :
    (d.filled front back pages).MentionsMaterial := mentionsMaterial_withMaterialImport d

/-- Filling a table again leaves nothing of what filled it before. -/
theorem filled_filled (d : RouteDocument) (front back : Text) (pages pages' : List Page) :
    (d.filled front back pages).filled front back pages' = d.filled front back pages' := by
  rw [filled, (mentionsMaterial_filled d front back pages).withMaterialImport_eq]
  rfl

theorem tableParts?_filled (h : tableParts? (parse existing).body = some (front, inner, back))
    (pages : List Page) : tableParts? ((parse existing).filled front back pages).body
      = some (front, tableBody (tableEntries pages), back) :=
  tableParts?_refill h (neutral_tableBody fun _ he => tableEntry_of_mem he)

/-- A patched file is read as the document that was written, if no statement swallows the table. -/
theorem parse_patched (h : tableParts? (parse existing).body = some (front, inner, back))
    (hs : swallows front back = false) (pages : List Page) :
    parse (((parse existing).filled front back pages).render (importLines pages))
      = (parse existing).filled front back pages := by
  have hentries : ∀ e ∈ tableEntries pages, TableEntry e := fun _ he => tableEntry_of_mem he
  have hbody := noneEnds_refill h (noneEnds_parse_body existing) hentries
  rw [hs] at hbody
  exact parse_render (Ordered.filled h pages) (mentionsMaterial_filled ..) hbody
    fun i hi => pageImport_of_mem hi

end RouteDocument

/-- **Patching again.** Where no statement swallows the table, nothing of the first run is left. -/
theorem patchPages_patched {existing front inner back : Text}
    (h : tableParts? (parse existing).body = some (front, inner, back))
    (hs : swallows front back = false) (pages pages' : List Page) :
    patchPages (((parse existing).filled front back pages).render (importLines pages)) pages'
      = patchPages existing pages' := by
  rw [patchPages_eq, patchPages_eq existing, parse_patched h hs, tableParts?_filled h, h]
  simp only [filled_filled]

/-! ## Runs -/

/-- Whatever pages are patched into a file, the table is found or it is not. -/
theorem patchPages_eq_of_error {existing : Text} {pages : List Page} {e : ExportError}
    (h : patchPages existing pages = .error e) (pages' : List Page) :
    patchPages existing pages' = .error e := by
  rw [patchPages_eq] at h ⊢
  cases hparts : tableParts? (parse existing).body with
  | none => rwa [hparts] at h
  | some parts => simp [hparts] at h

/-- A file that is patched like another one is, after further runs, still patched like it. -/
theorem foldlM_patchPages {existing : Text}
    (again : ∀ pages patched, patchPages existing pages = .ok patched →
      ∀ pages', patchPages patched pages' = patchPages existing pages')
    {current : Text} (h : ∀ pages, patchPages current pages = patchPages existing pages)
    (runs : List (List Page)) (last : List Page) :
    (runs ++ [last]).foldlM patchPages current = patchPages existing last := by
  induction runs generalizing current with
  | nil =>
      rw [List.nil_append, List.foldlM_cons, h]
      cases patchPages existing last <;> rfl
  | cons pages runs ih =>
      rw [List.cons_append, List.foldlM_cons, h]
      cases hrun : patchPages existing pages with
      -- A run that fails found no table, so the last one finds none either.
      | error e => exact (patchPages_eq_of_error hrun last).symm
      | ok patched => exact ih (again pages patched hrun)

/-- **The last run wins.** If the reader of a file's section does not end within a statement, then
every patched file is patched again, and like the file itself; so the result of any runs depends
only on the file and the pages of the last one. -/
theorem patchPages_last_wins {existing : Text}
    (hs : leavesInside (Text.pieces existing) = false) :
    (∀ pages patched, patchPages existing pages = .ok patched →
      ∀ pages', patchPages patched pages' = patchPages existing pages' ∧
        ∃ patched', patchPages patched pages' = .ok patched') ∧
    ∀ runs last, (runs ++ [last]).foldlM patchPages existing = patchPages existing last := by
  have again : ∀ pages patched, patchPages existing pages = .ok patched →
      ∀ pages', patchPages patched pages' = patchPages existing pages' := by
    intro pages patched h pages'
    obtain ⟨front, inner, back, hparts, rfl⟩ := patchPages_eq_ok_iff.mp h
    refine patchPages_patched hparts ?_ pages pages'
    cases hswallows : swallows front back with
    | false => rfl
    | true =>
        -- The statement that swallows the table was not ended in the file.
        have := leavesInside_of_swallows hparts (noneEnds_parse_body existing) hswallows
        rw [leavesInside_parse_body, hs] at this
        exact absurd this (by decide)
  refine ⟨fun pages patched h pages' => ⟨again pages patched h pages', ?_⟩,
    foldlM_patchPages again fun _ => rfl⟩
  rw [again pages patched h pages']
  obtain ⟨front, inner, back, hparts, -⟩ := patchPages_eq_ok_iff.mp h
  exact ⟨_, patchPages_eq_ok_iff.mpr ⟨front, inner, back, hparts, rfl⟩⟩

/-- A routes file with an empty table. -/
def emptyTable : Text :=
  "import 'a.dart';\n\nfinal Map<String, WidgetBuilder> routes = \x7b\x7d;\n".toList

/-- An empty table is filled by the first run, and any runs give what the last one gives. -/
theorem patchPages_last_wins_emptyTable :
    (patchPages emptyTable [⟨"Home", []⟩]).toOption.isSome = true ∧
    leavesInside (Text.pieces emptyTable) = false ∧
    (∀ pages patched, patchPages emptyTable pages = .ok patched →
      ∀ pages', patchPages patched pages' = patchPages emptyTable pages' ∧
        ∃ patched', patchPages patched pages' = .ok patched') ∧
    ∀ runs last, (runs ++ [last]).foldlM patchPages emptyTable = patchPages emptyTable last :=
  ⟨by decide, by decide, patchPages_last_wins (by decide)⟩

end CanvasFlutter
