import CanvasFlutter.Proofs.PageSource.Declaration
import CanvasFlutter.Proofs.PageSource.Layout
import CanvasFlutter.Proofs.Route.Distinct
import CanvasFlutter.Proofs.Route.Import
import CanvasFlutter.Proofs.RouteTable.Rerun
import CanvasFlutter.Proofs.Workspace.Store

namespace CanvasFlutter

/-!
# `CanvasFlutter.Proofs.PageSource.Project` — the parts of a generated project agree

The names of a page are spelled in its file, its class, its import and its entry in the route table.
All are made of one route, and no two pages share theirs.

## Contents
- **Routes.** `map_route_compilePages`, `nodup_files`.
- **Table.** `tableText`, `tokens?_tableEntry`; `exists_written` says where it stands.
- **Files.** `readText_writePages`: a page is stored in its file.
- **Project.** `Consistent`, `consistent_patchPages`.
-/

open Dart Lexer Widget RouteDocument

/-! ## Routes -/

theorem map_route_compilePages (pages : List Page) :
    (compilePages pages).map (·.route) = planRoutes pages := by
  have hzip : ∀ {routes : List Route} {pages : List Page}, routes.length = pages.length →
      (List.zipWith (fun route page =>
        (⟨route, assemblePage route.className page.components⟩ : GeneratedPage)) routes pages).map
          (·.route) = routes := by
    intro routes pages h
    induction routes generalizing pages with
    | nil => rfl
    | cons r routes ih =>
        cases pages with
        | nil => simp at h
        | cons page pages => simp [ih (by simpa using h)]
  exact hzip (length_planRoutes pages)

/-- A route of a plan is a candidate for the name at its place. -/
theorem Route.exists_candidate {before : List Route} {names : List String} {i : Nat} {r : Route}
    (h : (planAfter before names)[i]? = some r) : ∃ name number, names[i]? = some name
      ∧ r = candidate name.toList (before.length + i) number := by
  induction names generalizing before i with
  | nil => simp [planAfter] at h
  | cons name rest ih =>
      cases i with
      | zero =>
          obtain rfl : choose before name.toList before.length = r := by simpa [planAfter] using h
          obtain ⟨number, -, heq⟩ := find?_choose before name.toList before.length
          exact ⟨name, number, by simp, by simpa using heq⟩
      | succ i =>
          obtain ⟨found, number, hfound, heq⟩ := ih (by simpa [planAfter] using h)
          refine ⟨found, number, by simpa using hfound, ?_⟩
          simpa [Nat.add_assoc, Nat.add_comm 1] using heq

theorem Route.path_inj {r s : Route} (h : r.path = s.path) : r.slug = s.slug := by
  have hlist := congrArg String.toList h
  simpa [path, String.toList_inj] using hlist

theorem Route.file_inj {r s : Route} (h : r.file = s.file) : r.slug = s.slug := by
  have hlist := congrArg String.toList h
  rw [toList_file, toList_file] at hlist
  simp only [List.intercalate, List.intersperse, List.flatten_cons, List.flatten_nil, fileName,
    List.append_nil, List.append_cancel_left_eq] at hlist
  have hlength := congrArg List.length hlist
  simp only [List.length_append] at hlength
  exact String.toList_inj.mp (List.append_inj_left hlist (by omega))

theorem nodup_routes {α : Type} {f : Route → α} (hf : ∀ r s, f r = f s → r.slug = s.slug)
    (pages : List Page) : ((compilePages pages).map (f ·.route)).Nodup := by
  have hmap : (compilePages pages).map (f ·.route) = (planRoutes pages).map f := by
    rw [← map_route_compilePages, List.map_map]
    rfl
  rw [hmap]
  exact List.pairwise_map.mpr
    ((separate_planRoutes pages).imp fun hseparate heq => hseparate.1 (hf _ _ heq))

theorem mem_planRoutes {pages : List Page} {g : GeneratedPage} (h : g ∈ compilePages pages) :
    g.route ∈ planRoutes pages := by
  rw [← map_route_compilePages]
  exact List.mem_map_of_mem h

/-- Routes of a plan that differ share no class. -/
theorem eq_of_className {pages : List Page} {r s : Route} (hr : r ∈ planRoutes pages)
    (hs : s ∈ planRoutes pages) (h : r.className = s.className) : r = s := by
  have hseparate := separate_planRoutes pages
  refine List.Pairwise.forall_of_forall_of_flip (R := fun r s => r.className = s.className → r = s)
    (fun _ _ _ => rfl) (hseparate.imp fun hne heq => absurd heq hne.2)
    (hseparate.imp fun hne heq => absurd heq.symm hne.2) hr hs h

/-! ## Table -/

/-- What stands between the braces of a table with the entries of these routes and nothing else. -/
def tableText (routes : List Route) : Text :=
  '\n' :: routes.flatMap fun r => entryLine r.tableEntry.toList

theorem tableBody_tableEntries (pages : List Page) :
    tableBody (tableEntries pages) = tableText (planRoutes pages) := by
  rw [tableBody_eq fun e he => tableEntry_of_mem he, tableText, tableEntries, List.flatMap_map]

/-- An entry is read as the string of its path and a builder of its class. -/
theorem tokens?_tableEntry {r : Route} (hclass : IsClassName r.className.toList) (h : r.Named) :
    tokens? r.tableEntry.toList = some (.string (Literal.string r.path.toList)
      :: (fixed ": (context) => const" ++ (classTokens r.className.toList ++ fixed "(),"))) := by
  have hpath : ∀ c ∈ '/' :: r.slug.toList, IsVerbatim c :=
    List.forall_mem_cons.mpr ⟨by decide, isVerbatim_of_isName h.slug⟩
  have hliteral : '\'' :: (('/' :: r.slug.toList) ++ ['\'']) = Literal.string r.path.toList := by
    rw [show r.path.toList = '/' :: r.slug.toList from String.toList_append, Literal.string,
      flatMap_escape hpath]
  have hopen : Closed Route.builderOpening (fixed ": (context) => const") :=
    closed_of_texts rfl rfl (by decide +kernel) (by decide +kernel)
  have hclose : Closed Route.builderClosing (fixed "(),") :=
    closed_of_texts rfl rfl (by decide +kernel) (by decide +kernel)
  have hbuilder := hopen.append (hclass.phrase.then_closed hclose (by decide))
  have hentry := (phrase_string r.path.toList).then_closed hbuilder
    (any_head?_append (by decide) _)
  rw [Route.toList_tableEntry, hliteral]
  exact hentry.phrase.tokens?

/-- A patched routes file: the import of each page stands on its line, and the table that was found
holds the entry of each page and nothing else. -/
structure Written (existing patched : Text) (routes : List Route) where
  /-- What stands above the imports of pages, line by line. -/
  above : List Text
  /-- The other directives, line by line. -/
  below : List Text
  /-- The body up to and with the opening brace of its table. -/
  front : Text
  /-- What the table held. -/
  inner : Text
  /-- The body from the closing brace of its table on. -/
  back : Text
  patched_eq : patched = onLines above ++ (onLines (routes.map (·.importLine.toList))
    ++ (onLines below ++ '\n' :: (front ++ (tableText routes ++ back))))
  table : tableParts? (parse existing).body = some (front, inner, back)
  table_written : tableParts? (front ++ (tableText routes ++ back))
    = some (front, tableText routes, back)

theorem exists_written {existing patched : Text} {pages : List Page}
    (h : patchPages existing pages = .ok patched) :
    Nonempty (Written existing patched (planRoutes pages)) := by
  obtain ⟨front, inner, back, hparts, rfl⟩ := patchPages_eq_ok_iff.mp h
  have hfilled := tableParts?_filled hparts pages
  rw [tableBody_tableEntries] at hfilled
  refine ⟨{
    above := ((parse existing).filled front back pages).leading.map Directive.text
    below := ((parse existing).filled front back pages).directives.map Directive.text
    front, inner, back
    patched_eq := ?_
    table := hparts
    table_written := ?_ }⟩
  · have himports : ((importLines pages).map Directive.statement).map Directive.text
        = (planRoutes pages).map (·.importLine.toList) := by
      rw [List.map_map]
      exact List.map_id _
    rw [render_eq fun i hi => pageImport_of_mem hi, List.map_append, List.map_append,
      onLines_append, onLines_append, himports, ← tableBody_tableEntries]
    simp only [filled, List.append_assoc]
  · rw [← tableBody_tableEntries] at hfilled ⊢
    exact hfilled

/-! ## Files -/

theorem readText_writePage {staging : String} {g : GeneratedPage} {w w' : Workspace}
    (h : (Package.writePage staging g).runOn w = (.ok (), w')) :
    (FileAction.readText (Path.join staging g.route.file)).runOn w'
      = (.ok (String.ofList g.source), w') := by
  unfold Package.writePage at h
  extract_lets path at h
  split at h
  · obtain ⟨_, between, -, hwrite⟩ := FileAction.runOn_bind_eq_ok h
    exact FileAction.readText_writeText (FileAction.runOn_mapError_eq_ok hwrite)
  · exact FileAction.readText_writeText (FileAction.runOn_mapError_eq_ok h)

/-- Once a page has been written, its source is read from its file. -/
theorem readText_writePages {staging : String} {before : List GeneratedPage} {g : GeneratedPage}
    {w w' : Workspace} (h : (Package.writePages staging (before ++ [g])).runOn w = (.ok (), w')) :
    (FileAction.readText (Path.join staging g.route.file)).runOn w'
      = (.ok (String.ofList g.source), w') := by
  rw [Package.writePages, List.forM_eq_forM, List.forM_append] at h
  obtain ⟨_, between, -, hlast⟩ := FileAction.runOn_bind_eq_ok h
  rw [List.forM_cons] at hlast
  obtain ⟨_, after, hpage, hend⟩ := FileAction.runOn_bind_eq_ok hlast
  obtain rfl : after = w' := congrArg Prod.snd hend
  exact readText_writePage hpage

/-! ## Project -/

/-- What the parts of a generated project say of each other. -/
structure Consistent (existing patched : Text) (pages : List Page) : Prop where
  length_eq : (compilePages pages).length = pages.length
  /-- The pages are in their order: each has a route made of its name and the source of its
  widgets. -/
  inOrder : ∀ i page, pages[i]? = some page → ∃ g number, (compilePages pages)[i]? = some g
    ∧ g.route = Route.candidate page.name.toList i number
    ∧ g.source = assemblePage g.route.className page.components
  written : Nonempty (Written existing patched ((compilePages pages).map (·.route)))
  paths : ((compilePages pages).map (·.route.path)).Nodup
  files : ((compilePages pages).map (·.route.file)).Nodup
  /-- The import of a page leads from the folder of the routes file to the file of the page. -/
  imports : ∀ g ∈ compilePages pages, ∃ uri, importedUri? g.route.importLine.toList = some uri
    ∧ relativeTo Package.routesFile.toList uri = g.route.file.toList
  /-- The file of a page holds its source once the pages up to it are written. -/
  stored : ∀ before g after, compilePages pages = before ++ g :: after → ∀ staging w w',
    (Package.writePages staging (before ++ [g])).runOn w = (.ok (), w') →
    (FileAction.readText (Path.join staging g.route.file)).runOn w'
      = (.ok (String.ofList g.source), w')
  /-- The entry of a page gives its path a constant of its class. -/
  entries : ∀ g ∈ compilePages pages, tokens? g.route.tableEntry.toList
    = some (.string (Literal.string g.route.path.toList) :: (fixed ": (context) => const"
      ++ (classTokens g.route.className.toList ++ fixed "(),")))
  declared : ∀ g ∈ compilePages pages, ∃ ts, tokens? g.source = some ts
    ∧ DeclaresConst g.route.className.toList ts
  /-- No other file declares the class of a page. -/
  declaredOnce : ∀ g ∈ compilePages pages, ∀ other ∈ compilePages pages,
    other.route.file ≠ g.route.file → ∀ ts, tokens? other.source = some ts →
      ¬ Declares g.route.className.toList ts

theorem getElem?_compilePages {pages : List Page} {i : Nat} {page : Page}
    (h : pages[i]? = some page) : ∃ r, (planRoutes pages)[i]? = some r
      ∧ (compilePages pages)[i]? = some ⟨r, assemblePage r.className page.components⟩ := by
  have hlt : i < (planRoutes pages).length := by
    rw [length_planRoutes]
    exact (List.getElem?_eq_some_iff.mp h).1
  refine ⟨_, List.getElem?_eq_getElem hlt, ?_⟩
  rw [compilePages, List.getElem?_zipWith, List.getElem?_eq_getElem hlt, h]

theorem exists_page {pages : List Page} {g : GeneratedPage} (h : g ∈ compilePages pages) :
    ∃ page ∈ pages, g.source = assemblePage g.route.className page.components := by
  obtain ⟨i, hi, rfl⟩ := List.getElem_of_mem h
  have hlt : i < pages.length := by rwa [length_compilePages] at hi
  obtain ⟨r, -, hg⟩ := getElem?_compilePages (List.getElem?_eq_getElem hlt)
  obtain ⟨_, hg⟩ := List.getElem?_eq_some_iff.mp hg
  exact ⟨pages[i], List.getElem_mem hlt, by rw [hg]⟩

/-- The source of a page is read as the tokens of its classes. -/
theorem tokens?_source {pages : List Page} {g : GeneratedPage} (h : g ∈ compilePages pages) :
    ∃ nodes, tokens? g.source = some (PageClass.ofNodes g.route.className nodes).tokens := by
  obtain ⟨page, -, hsource⟩ := exists_page h
  have hname := isClassName_of_mem_planRoutes (mem_planRoutes h)
  have hadmits : ∀ n ∈ Node.preorderAll page.components, Admits .all n := fun n _ => admits_all n
  obtain ⟨hclosed, -⟩ := closed_assemblePage hname hadmits
  exact ⟨_, hsource ▸ hclosed.phrase.tokens?⟩

/-- **The parts of a generated project agree**, whatever its pages are called. -/
theorem consistent_patchPages {existing patched : Text} {pages : List Page}
    (h : patchPages existing pages = .ok patched) : Consistent existing patched pages where
  length_eq := length_compilePages pages
  inOrder i page hpage := by
    obtain ⟨r, hr, hg⟩ := getElem?_compilePages hpage
    obtain ⟨name, number, hname, hcandidate⟩ := Route.exists_candidate hr
    obtain rfl : page.name = name := by simpa [hpage] using hname
    exact ⟨_, number, hg, by simpa using hcandidate, rfl⟩
  written := by
    rw [map_route_compilePages]
    exact exists_written h
  paths := nodup_routes (fun _ _ => Route.path_inj) pages
  files := nodup_routes (fun _ _ => Route.file_inj) pages
  imports g hg := by
    have hnamed := named_of_mem_planRoutes (mem_planRoutes hg)
    exact ⟨_, hnamed.importedUri?_importLine, hnamed.relativeTo_importedUri⟩
  stored _ _ _ _ _ _ _ := readText_writePages
  entries g hg := tokens?_tableEntry (isClassName_of_mem_planRoutes (mem_planRoutes hg))
    (named_of_mem_planRoutes (mem_planRoutes hg))
  declared g hg := by
    obtain ⟨nodes, htokens⟩ := tokens?_source hg
    exact ⟨_, htokens, declaresConst_tokens _ nodes⟩
  declaredOnce g hg other hother hfile ts hts hdeclares := by
    obtain ⟨nodes, htokens⟩ := tokens?_source hother
    obtain rfl := Option.some.inj (htokens.symm.trans hts)
    have hroute := mem_planRoutes hg
    have hroute' := mem_planRoutes hother
    have hname := name_eq_of_declares (isClassName_of_mem_planRoutes hroute)
      (isClassName_of_mem_planRoutes hroute') (fun n _ => admits_all n) hdeclares
    exact hfile (congrArg Route.file (eq_of_className hroute hroute' hname)).symm

/-- Two pages whose names give the same slug, and one whose name gives none. -/
def namesakes : List Page := [⟨"Home", [quotedLabel]⟩, ⟨"home", []⟩, ⟨"日本", []⟩]

theorem consistent_patchPages_namesakes :
    (planRoutes namesakes).map (·.path) = ["/home", "/home_2", "/page3"]
      ∧ ∃ patched, patchPages emptyTable namesakes = .ok patched
        ∧ Consistent emptyTable patched namesakes := by
  have hsome : (patchPages emptyTable namesakes).toOption.isSome = true := by decide +kernel
  refine ⟨by decide +kernel, ?_⟩
  cases hrun : patchPages emptyTable namesakes with
  | error e => simp [hrun, Except.toOption] at hsome
  | ok patched => exact ⟨patched, rfl, consistent_patchPages hrun⟩

end CanvasFlutter
