import CanvasFlutter.Proofs.RouteTable.Imports

namespace CanvasFlutter

/-!
# `CanvasFlutter.Proofs.RouteTable.Material` — when a patched file imports the material library

An import of the material library is looked for in code. A text of whole lines can be searched apart
from what follows it, unless it ends within an import whose URI stands in what follows; and what the
patcher writes, but for the import itself, is never a part of one. So a patched file imports the
library exactly if the text that is kept does, or if the import was missing and is written in code.

## Contents
- **Imports.** `Pattern.importsMaterial`, `ImportsMaterial`; `importsFrom`, the search.
- **Searching on.** `importsFrom_append`.
- **Written lines.** `importsFrom_writtenImports`, `importsFrom_table`.
- **Patching.** `importsMaterial_patched_iff`.
-/

open Section RouteDocument Scanner

/-! ## Imports -/

namespace Pattern

/-- The URI of the material library in quotes of one kind. -/
def materialUri (quote : Char) : Text :=
  quote :: ("package:flutter/material.dart".toList ++ [quote])

/-- Whether a text begins with the URI of the material library in quotes, after any white space. -/
def quotesMaterial (t : Text) : Bool :=
  ['\'', '"'].any fun quote => (materialUri quote).isPrefixOf (blanks t)

/-- Whether a text begins with the import of the material library. -/
def importsMaterial (t : Text) : Bool := (Text.after? "import".toList t).any quotesMaterial

/-- A character that goes on with an identifier. -/
def isIdentifierPart (c : Char) : Bool := Text.isAsciiWord c || c == '$'

end Pattern

open Pattern

/-- Somewhere in code, and not within an identifier, the text imports the material library. -/
def ImportsMaterial (t : Text) : Prop :=
  ∃ before rest, t = before ++ rest ∧ isCodeAt t before.length = true ∧
    (∀ c ∈ before.getLast?, isIdentifierPart c = false) ∧ importsMaterial rest = true

namespace Scanner

/-- Whether an import of the material library begins in code, if the scanner begins in this state
and an identifier may go on with the text. -/
def importsFrom : (within : Bool) → State → Text → Bool
  | _, _, [] => false
  | within, s, c :: rest =>
      (decide (s = .code) && !within && importsMaterial (c :: rest))
        || importsFrom (isIdentifierPart c) (s.next c rest.head?) rest

theorem importsFrom_iff {within : Bool} {s : State} {t : Text} :
    importsFrom within s t = true ↔ ∃ before rest, t = before ++ rest ∧
      isCodeFrom s t before.length = true ∧
      (before.getLast?.map isIdentifierPart).getD within = false ∧ importsMaterial rest = true := by
  induction t generalizing within s with
  | nil =>
      constructor
      · intro h
        cases h
      · rintro ⟨before, rest, -, hcode, -⟩
        cases hcode
  | cons c t ih =>
      rw [importsFrom, Bool.or_eq_true, ih]
      constructor
      · rintro (h | ⟨before, rest, rfl, hcode, hlast, hrest⟩)
        · simp only [Bool.and_eq_true, Bool.not_eq_true', decide_eq_true_eq] at h
          obtain ⟨⟨hs, hwithin⟩, himport⟩ := h
          exact ⟨[], c :: t, rfl, by simp [hs], hwithin, himport⟩
        · refine ⟨c :: before, rest, rfl, hcode, ?_, hrest⟩
          cases before with
          | nil => exact hlast
          | cons d before => rwa [List.getLast?_cons_of_ne_nil (List.cons_ne_nil d before)]
      · rintro ⟨before, rest, heq, hcode, hlast, hrest⟩
        cases before with
        | nil =>
            obtain rfl : c :: t = rest := heq
            have hs : s = .code := by simpa using hcode
            have hwithin : within = false := hlast
            exact .inl (by simp [hs, hwithin, hrest])
        | cons d before =>
            obtain ⟨rfl, rfl⟩ := List.cons.inj heq
            refine .inr ⟨before, rest, rfl, hcode, ?_, hrest⟩
            cases before with
            | nil => exact hlast
            | cons d before => rwa [List.getLast?_cons_of_ne_nil (List.cons_ne_nil d before)] at hlast

end Scanner

theorem importsMaterial_iff {t : Text} : ImportsMaterial t ↔ importsFrom false .code t = true := by
  rw [importsFrom_iff]
  have hlast : ∀ before : Text, (∀ c ∈ before.getLast?, isIdentifierPart c = false)
      ↔ (before.getLast?.map isIdentifierPart).getD false = false := fun before => by
    cases before.getLast? <;> simp
  simp only [ImportsMaterial, hlast]
  rfl

/-! ## Searching on -/

namespace Pattern

theorem newline_notMem_materialUri {quote : Char} (h : quote = '\'' ∨ quote = '"') :
    '\n' ∉ materialUri quote := by
  rcases h with rfl | rfl <;> decide

/-- A line that is seen decides whether the URI comes first. -/
theorem quotesMaterial_append {x : Text} (hx : Text.isBlank x = false) (y : Text) :
    quotesMaterial (x ++ '\n' :: y) = quotesMaterial (x ++ ['\n']) := by
  rcases Text.isBlank_or_exists_visible x with hblank | ⟨a, c, v, ha, hc, rfl⟩
  · rw [hx] at hblank
    cases hblank
  · have hblanks : ∀ t, blanks ((a ++ c :: v) ++ t) = (c :: v) ++ t := fun t => by
      have : Text.trimStart (a ++ (c :: (v ++ t))) = c :: (v ++ t) := by
        rw [Text.trimStart_blank_append ha, Text.trimStart, List.dropWhile_cons_of_neg (by simp [hc])]
      simpa [blanks, Text.trimStart] using this
    simp only [quotesMaterial, hblanks, List.any_cons, List.any_nil,
      isPrefixOf_append_cons (newline_notMem_materialUri (.inl rfl)),
      isPrefixOf_append_cons (newline_notMem_materialUri (.inr rfl))]

end Pattern

theorem isInert_of_isWhite {c : Char} (h : Text.isWhite c = true) : isInert c = true := by
  simp only [isInert, Bool.not_eq_true', List.contains_eq_any_beq, List.any_cons, List.any_nil,
    Bool.or_false, Bool.or_eq_false_iff, beq_eq_false_iff_ne]
  refine ⟨?_, ?_, ?_, ?_, ?_⟩ <;> (rintro rfl; exact absurd h (by decide))

/-- A text in code that ends within an import leaves the scanner in code. -/
theorem after_import_blank {b : Text} (hb : Text.isBlank b = true) :
    State.code.after ("import".toList ++ b) = .code := by
  have hinert : ∀ c ∈ "import".toList ++ b, isInert c = true := by
    intro c hc
    rcases List.mem_append.mp hc with hc | hc
    · exact Text.forall_of_all (p := fun c => isInert c = true) (by decide) c hc
    · exact isInert_of_isWhite (List.all_eq_true.mp hb c hc)
  exact (quiet_of_all_isInert hinert).after_eq .code

namespace Pattern

theorem after?_append (s t : Text) : Text.after? s (s ++ t) = some t := by
  rw [Text.after?, if_pos (List.isPrefixOf_iff_prefix.mpr (List.prefix_append s t)), List.drop_left]

/-- Lines decide whether they begin with an import, unless they end within one. -/
theorem importsMaterial_append {l y : Text}
    (h : State.code.after (l ++ ['\n']) = .code → quotesMaterial y = false) :
    importsMaterial (l ++ '\n' :: y) = importsMaterial (l ++ ['\n']) := by
  by_cases hstart : "import".toList <+: l
  · obtain ⟨b, rfl⟩ := hstart
    simp only [List.append_assoc, importsMaterial, after?_append, Option.any_some]
    by_cases hb : Text.isBlank b = true
    · -- the import goes on in what follows, so it is in code
      have hcode := h (by
        rw [List.append_assoc]
        exact after_import_blank (by rw [Text.isBlank_append, hb]; decide))
      have hblank : Text.isBlank (b ++ ['\n']) = true := by rw [Text.isBlank_append, hb]; decide
      have hleft : quotesMaterial (b ++ ['\n'] ++ y) = quotesMaterial y := by
        rw [quotesMaterial, quotesMaterial, blanks, blanks, ← Text.trimStart,
          Text.trimStart_blank_append hblank, ← Text.trimStart]
      have hright : quotesMaterial (b ++ ['\n']) = false := by
        rw [quotesMaterial, blanks, ← Text.trimStart, (Text.isBlank_iff_trimStart _).mp hblank]
        decide
      rw [hright, ← hcode, ← hleft, List.append_assoc, List.singleton_append]
    · exact quotesMaterial_append (Bool.eq_false_iff.mpr hb) y
  · have hnone : ∀ t, Text.after? "import".toList (l ++ '\n' :: t) = none := fun t => by
      have hnewline : '\n' ∉ "import".toList := by decide
      rw [Text.after?, isPrefixOf_append_cons hnewline, if_neg]
      intro hprefix
      obtain ⟨r, hr⟩ := List.isPrefixOf_iff_prefix.mp hprefix
      rcases List.append_eq_append_iff.mp hr with ⟨w, rfl, -⟩ | ⟨w, hl, hw⟩
      · exact hstart (List.prefix_append ..)
      · cases w with
        | nil =>
            rw [List.append_nil] at hl
            exact hstart (hl ▸ List.prefix_refl _)
        | cons d w =>
            obtain ⟨rfl, -⟩ := List.cons.inj hw
            exact hnewline (by rw [hl]; simp)
    rw [importsMaterial, importsMaterial, hnone, hnone]

end Pattern

namespace Scanner

/-- **Searching on.** Whole lines are searched apart from what follows them, unless an import that
they end with goes on in it. -/
theorem importsFrom_append {a y : Text} (ha : Text.IsWhole a) {s : State}
    (h : s.after a = .code → quotesMaterial y = false) :
    importsFrom false s (a ++ y) = (importsFrom false s a || importsFrom false (s.after a) y) := by
  obtain rfl | ⟨l, rfl⟩ := ha
  · rfl
  · rw [List.append_assoc, List.singleton_append]
    suffices hwithin : ∀ within, importsFrom within s (l ++ '\n' :: y)
        = (importsFrom within s (l ++ ['\n']) || importsFrom false (s.after (l ++ ['\n'])) y) from
      hwithin false
    intro within
    induction l generalizing s within with
    | nil =>
        have hfirst : ∀ t, importsMaterial ('\n' :: t) = false := fun t => rfl
        have hword : isIdentifierPart '\n' = false := by decide
        simp [importsFrom, hfirst, hword, State.after, next_newline s y.head?]
    | cons c l ih =>
        have hfirst : (decide (s = .code) && !within && importsMaterial (c :: (l ++ '\n' :: y)))
            = (decide (s = .code) && !within && importsMaterial (c :: (l ++ ['\n']))) := by
          by_cases hs : s = .code
          · subst hs
            have himport : importsMaterial (c :: l ++ '\n' :: y) = importsMaterial (c :: l ++ ['\n']) :=
              importsMaterial_append h
            rw [← List.cons_append, himport, List.cons_append]
          · simp [hs]
        have hrest := ih (s := s.next c (l ++ ['\n']).head?) h (isIdentifierPart c)
        rw [List.cons_append, List.cons_append, importsFrom, importsFrom, hfirst,
          head?_append_newline, hrest, Bool.or_assoc]
        rfl

end Scanner

/-! ## Written lines -/

namespace Pattern

/-- A text that begins with a character that is seen and no quote does not begin with the URI. -/
theorem quotesMaterial_eq_false {c : Char} (hc : Text.isWhite c = false) (hq : isQuote c = false)
    (t : Text) : quotesMaterial (c :: t) = false := by
  have hblanks : blanks (c :: t) = c :: t := List.dropWhile_cons_of_neg (by simp [hc])
  simp only [isQuote, Bool.or_eq_false_iff, beq_eq_false_iff_ne] at hq
  simp [quotesMaterial, hblanks, materialUri, List.isPrefixOf, hq.1.symm, hq.2.symm]

/-- Whoever imports the library names it. -/
theorem mem_of_importsMaterial {t : Text} (h : importsMaterial t = true) {c : Char}
    (hc : c ∈ "package:flutter/material.dart".toList) : c ∈ t := by
  unfold importsMaterial Text.after? at h
  split at h
  · rw [Option.any_some, quotesMaterial, List.any_eq_true] at h
    obtain ⟨quote, -, hprefix⟩ := h
    have hblanks : c ∈ blanks (t.drop "import".toList.length) := by
      refine (List.isPrefixOf_iff_prefix.mp hprefix).subset ?_
      exact List.mem_cons_of_mem quote (List.mem_append_left [quote] hc)
    exact List.mem_of_mem_drop ((List.dropWhile_sublist _).subset hblanks)
  · cases h

end Pattern

namespace Scanner

theorem importsFrom_eq_false {c : Char} (hc : c ∈ "package:flutter/material.dart".toList) {t : Text}
    (h : c ∉ t) (within : Bool) (s : State) : importsFrom within s t = false := by
  induction t generalizing within s with
  | nil => rfl
  | cons d t ih =>
      have hfirst : importsMaterial (d :: t) = false :=
        Bool.eq_false_iff.mpr fun himport => h (mem_of_importsMaterial himport hc)
      rw [importsFrom, hfirst, ih fun ht => h (by simp [ht])]
      simp

theorem quiet_onLines {lines : List Text} (h : ∀ l ∈ lines, Quiet l) : Quiet (onLines lines) := by
  induction lines with
  | nil => exact quiet_nil
  | cons l lines ih =>
      exact ((h l (by simp)).append (quiet_of_isInert (by decide))).append
        (ih fun m hm => h m (by simp [hm]))

end Scanner

theorem notMem_onLines {c : Char} (hc : c ≠ '\n') {lines : List Text} (h : ∀ l ∈ lines, c ∉ l) :
    c ∉ onLines lines := by
  intro hmem
  obtain ⟨l, hl, hmem⟩ := List.mem_flatMap.mp hmem
  rcases List.mem_append.mp hmem with hmem | hmem
  · exact h l hl hmem
  · exact hc (List.mem_singleton.mp hmem)

/-- The import of a page has no colon. -/
theorem colon_notMem_importLines (pages : List Page) : ∀ i ∈ importLines pages, ':' ∉ i := by
  intro i h
  obtain ⟨r, hr, rfl⟩ := List.mem_map.mp h
  have hname : ∀ t : Text, Text.IsName t → ∀ c ∈ t, c ≠ ':' := fun t ht c hc =>
    Text.forall_isAsciiWord (p := fun c => c ≠ ':') (by decide) (ht c hc)
  have hpath := (named_of_mem_planRoutes hr).forall_importedPath (p := (· ≠ ':')) hname
    (by decide) (by decide)
  rw [Route.toList_importLine, List.mem_append, List.mem_append]
  rintro (hc | hc | hc)
  · exact absurd hc (by decide)
  · exact hpath _ hc rfl
  · exact absurd hc (by decide)

/-- The entry of a page has no full stop. -/
theorem stop_notMem_entryTexts (pages : List Page) : ∀ l ∈ entryTexts pages, '.' ∉ l := by
  intro l h
  obtain ⟨e, he, rfl⟩ := List.mem_map.mp h
  obtain ⟨r, hr, rfl⟩ := List.mem_map.mp he
  have hname : ∀ t : Text, Text.IsName t → '.' ∉ t := fun t ht hc =>
    Text.forall_isAsciiWord (p := fun c => c ≠ '.') (by decide) (ht _ hc) rfl
  have hnamed := named_of_mem_planRoutes hr
  have hopen : '.' ∉ Route.builderOpening := by decide
  have hclose : '.' ∉ Route.builderClosing := by decide
  simp [Route.toList_tableEntry, Route.builder, hopen, hclose, hname _ hnamed.slug,
    hname _ hnamed.className]

/-- The import of the library on its line is found if it is written in code. -/
theorem importsFrom_materialImport {s : State} (hs : Steady s) :
    importsFrom false s (onLines [materialImport.toList]) = decide (s = .code) := by
  cases hs with
  | code => decide +kernel
  | comment => decide +kernel
  | quoted hq => rcases hq with rfl | rfl <;> decide +kernel

/-- The entries of pages, in front of the closing brace, import nothing. -/
theorem importsFrom_table {back : Text} (hback : ∃ z, back = '}' :: z) (pages : List Page)
    {s : State} (hs : Steady s) (before front : Text) :
    importsFrom false s (before ++ '\n' :: (front ++ '\n' :: (onLines (entryTexts pages) ++ back)))
      = importsFrom false s (before ++ '\n' :: (front ++ '\n' :: back)) := by
  obtain ⟨z, rfl⟩ := hback
  have hwhole : Text.IsWhole (before ++ '\n' :: (front ++ ['\n'])) := by
    simpa using Text.isWhole_append_newline (before ++ '\n' :: front)
  have hbrace : quotesMaterial ('}' :: z) = false := quotesMaterial_eq_false (by decide) (by decide) z
  have hentries : quotesMaterial (onLines (entryTexts pages) ++ '}' :: z) = false := by
    unfold entryTexts
    cases htable : tableEntries pages with
    | nil => exact hbrace
    | cons e entries =>
        obtain ⟨r, hr, rfl⟩ := List.mem_map.mp (show e ∈ tableEntries pages by simp [htable])
        rw [List.map_cons, onLines_cons_append, Route.toList_tableEntry]
        rfl
  have hquiet : Quiet (onLines (entryTexts pages)) :=
    quiet_onLines fun l hl => (quiet_of_mem_entryTexts hl).1
  have hnone := importsFrom_eq_false (c := '.') (by decide)
    (notMem_onLines (by decide) (stop_notMem_entryTexts pages)) false
  have hsplit : ∀ t, before ++ '\n' :: (front ++ '\n' :: t)
      = (before ++ '\n' :: (front ++ ['\n'])) ++ t := by simp
  rw [hsplit (onLines _ ++ _), hsplit ('}' :: z), importsFrom_append hwhole fun _ => hentries,
    importsFrom_append hwhole fun _ => hbrace,
    importsFrom_append (Text.isWhole_onLines _) fun _ => hbrace, hnone, Bool.false_or,
    hquiet.after_eq (hs.after hwhole)]

/-- The directives that are kept begin with a word. -/
theorem quotesMaterial_directives {existing : Text} (h : (parse existing).directives ≠ [])
    (y : Text) : quotesMaterial (directivesText existing ++ y) = false := by
  obtain ⟨e, directives, hdirectives⟩ := List.exists_cons_of_ne_nil h
  have hordered := ordered_parse existing
  have hcomment := hordered.first_statement e (by simp [hdirectives])
  obtain ⟨s, hs, he, -⟩ := hordered.directives_tidy e (by simp [hdirectives])
  rw [directivesText, hdirectives, List.map_cons, onLines_cons_append]
  cases s with
  | blank line => cases he
  | comment line =>
      obtain rfl := Option.some.inj he
      cases hcomment
  | statement first more =>
      obtain rfl := Option.some.inj he
      obtain ⟨hstart, -⟩ := hs
      obtain ⟨start, hmem, hprefix⟩ := List.any_eq_true.mp hstart
      obtain ⟨rest, hrest⟩ := List.isPrefixOf_iff_prefix.mp hprefix
      rw [Directive.text, ← hrest]
      -- each of the words that a directive can begin with
      simp only [List.mem_cons, List.not_mem_nil, or_false] at hmem
      rcases hmem with rfl | rfl | rfl | rfl | rfl | rfl <;>
        exact quotesMaterial_eq_false (by decide) (by decide) _

/-! ## Patching -/

/-- The imports of pages are searched apart from what follows them. -/
theorem importsFrom_leading (existing : Text) (pages : List Page) {y : Text}
    (h : State.code.after (leadingText existing) = .code → quotesMaterial y = false) :
    importsFrom false .code (leadingText existing ++ (onLines (importLines pages) ++ y))
      = (importsFrom false .code (leadingText existing)
        || importsFrom false (State.code.after (leadingText existing)) y) := by
  have hleading : Text.IsWhole (leadingText existing) := Text.isWhole_onLines _
  have hquiet : Quiet (onLines (importLines pages)) :=
    quiet_onLines fun l hl => quiet_of_mem_importLines hl
  have hafter := hquiet.after_eq (Steady.code.after hleading)
  have hnone := importsFrom_eq_false (c := ':') (by decide)
    (notMem_onLines (by decide) (colon_notMem_importLines pages)) false
  have himports : State.code.after (leadingText existing) = .code →
      quotesMaterial (onLines (importLines pages) ++ y) = false := by
    intro hcode
    cases hlines : importLines pages with
    | nil => exact h hcode
    | cons i imports =>
        obtain ⟨r, -, rfl⟩ := List.mem_map.mp (show i ∈ importLines pages by simp [hlines])
        rw [onLines_cons_append, Route.toList_importLine]
        rfl
  rw [importsFrom_append hleading himports,
    importsFrom_append (Text.isWhole_onLines _) (by rwa [hafter]), hnone, Bool.false_or, hafter]

/-- **The material library.** A patched file imports the material library exactly if the text that
is kept does, or if no directive mentions it and the imports are written in code. -/
theorem importsMaterial_patched_iff {existing patched : Text} {pages : List Page}
    (h : patchPages existing pages = .ok patched) :
    ∃ kept, keptText? existing = some kept ∧ (ImportsMaterial patched ↔ ImportsMaterial kept ∨
      (importsInCode existing = true ∧ ¬ (parse existing).MentionsMaterial)) := by
  obtain ⟨front, inner, back, hparts, rfl⟩ := patched_eq h
  obtain ⟨-, -, hback⟩ := tableParts?_eq_some hparts
  have hleading : Text.IsWhole (leadingText existing) := Text.isWhole_onLines _
  have hsteady : Steady (State.code.after (leadingText existing)) := Steady.code.after hleading
  have htable := importsFrom_table hback pages hsteady (directivesText existing) front
  refine ⟨_, keptText?_eq hparts, ?_⟩
  rw [importsMaterial_iff, importsMaterial_iff, importsInCode, decide_eq_true_eq, flatMap_entryLine,
    writtenImports, onLines_append, List.append_assoc]
  by_cases hmention : (parse existing).directives.any Directive.isMaterialImport = true
  · -- only imports of pages are written
    have hdirectives := quotesMaterial_directives (MentionsMaterial.directives_ne_nil hmention)
    rw [if_pos hmention, importsFrom_append hleading fun _ => hdirectives _, ← htable]
    have hpatched := importsFrom_leading existing pages fun _ => hdirectives
      ('\n' :: (front ++ '\n' :: (onLines (entryTexts pages) ++ back)))
    rw [show onLines [] = [] from rfl, List.nil_append, hpatched]
    simp [MentionsMaterial, hmention]
  · have hwritten : ∀ y, quotesMaterial (onLines [materialImport.toList] ++ y) = false :=
      fun y => rfl
    rw [if_neg hmention, importsFrom_leading existing pages fun _ => hwritten _]
    by_cases hcode : State.code.after (leadingText existing) = .code
    · -- the import is found where it is written
      have hfound : ∀ y, importsFrom false .code (onLines [materialImport.toList] ++ y) = true := by
        intro y
        have himport : importsMaterial (onLines [materialImport.toList] ++ y) = true := rfl
        obtain ⟨rest, hrest⟩ : ∃ rest, onLines [materialImport.toList] ++ y = 'i' :: rest := ⟨_, rfl⟩
        rw [hrest] at himport ⊢
        rw [importsFrom, himport]
        rfl
      simp [hcode, hfound, MentionsMaterial, hmention]
    · have hquiet : Quiet (onLines [materialImport.toList]) :=
        quiet_onLines fun l hl => List.mem_singleton.mp hl ▸ quiet_materialImport
      rw [importsFrom_append (Text.isWhole_onLines _) (by simp [hquiet.after_eq hsteady, hcode]),
        importsFrom_materialImport hsteady, hquiet.after_eq hsteady, htable,
        importsFrom_append hleading (by simp [hcode])]
      simp [hcode]

/-- A file that exports the material library and does not import it. -/
def materialExport : Text :=
  ("export 'package:flutter/material.dart';\n" ++
    "final Map<String, WidgetBuilder> r = \x7b\x7d;\n").toList

/-- The file with a line feed in the table. -/
def materialExportPatched : Text :=
  ("export 'package:flutter/material.dart';\n\n" ++
    "final Map<String, WidgetBuilder> r = \x7b\n\x7d;\n").toList

/-- Patching such a file does not make it import the library. -/
theorem importsMaterial_patched_iff_materialExport :
    patchPages materialExport [] = .ok materialExportPatched ∧
    (parse materialExport).MentionsMaterial ∧ ¬ ImportsMaterial materialExportPatched := by
  have hpatched : patchPages materialExport [] = .ok materialExportPatched := by rfl
  have hmention : (parse materialExport).MentionsMaterial := by rfl
  refine ⟨hpatched, hmention, ?_⟩
  obtain ⟨kept, hkept, hiff⟩ := importsMaterial_patched_iff hpatched
  obtain rfl : materialExportPatched = kept := Option.some.inj (Eq.trans (by rfl) hkept)
  rw [hiff, importsMaterial_iff]
  rintro (hfound | ⟨-, hmissing⟩)
  · exact absurd hfound (by decide +kernel)
  · exact hmissing hmention

end CanvasFlutter
