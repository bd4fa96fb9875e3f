import CanvasFlutter.Proofs.RouteTable.Section

namespace CanvasFlutter

/-!
# `CanvasFlutter.Proofs.RouteTable.Render` — a document that is written is read again

An entry is kept as its trimmed lines, so written on lines of its own it is read as the same entry.
A document whose body begins no further entry is therefore read again as it was written, whatever
imports of pages were written with it.

## Contents
- **Entries.** `Tidy` entries are read as they are written: `tidy_of_mem_entriesOf`,
  `readDirectives_onLines`.
- **Documents.** `RouteDocument.Ordered`: what every document has that was read (`ordered_parse`).
- **Round trip.** `parse_render`.
-/

open Section

/-! ## Entries -/

theorem RouteDocument.onLines_append (a b : List Text) :
    onLines (a ++ b) = onLines a ++ onLines b :=
  List.flatMap_append

theorem RouteDocument.onLines_cons_append (s : Text) (texts : List Text) (t : Text) :
    onLines (s :: texts) ++ t = s ++ '\n' :: (onLines texts ++ t) := by
  simp [onLines]

namespace Section

/-- The stretch with each line made of the trimmed line and a line feed. -/
def Stretch.neat : Stretch → Stretch
  | blank line => blank (Text.trim line ++ ['\n'])
  | comment line => comment (Text.trim line ++ ['\n'])
  | statement first more =>
      statement (Text.trim first ++ ['\n']) (more.map fun line => Text.trim line ++ ['\n'])

theorem trim_neat_line (line : Text) : Text.trim (Text.trim line ++ ['\n']) = Text.trim line := by
  rw [Text.trim_append_blank (by decide), Text.trim_trim]

theorem Stretch.Valid.neat {s : Stretch} (h : s.Valid) : s.neat.Valid := by
  cases s with
  | blank line =>
      have hb : Text.isBlank line = true := h
      simp [Stretch.neat, Stretch.Valid, Text.trim_of_isBlank hb]
      decide
  | comment line =>
      obtain ⟨hb, hs, hc⟩ := h
      refine ⟨?_, by rwa [trim_neat_line], by rwa [trim_neat_line]⟩
      rw [← isEmpty_trim, trim_neat_line, isEmpty_trim]
      exact hb
  | statement first more =>
      obtain ⟨hs, open', last, hlines, hlast, hopen⟩ := h
      refine ⟨by rwa [trim_neat_line], open'.map (fun line => Text.trim line ++ ['\n']),
        Text.trim last ++ ['\n'], ?_, by rwa [trim_neat_line], ?_⟩
      · simpa using congrArg (List.map fun line => Text.trim line ++ ['\n']) hlines
      · intro line hline
        obtain ⟨l, hl, rfl⟩ := List.mem_map.mp hline
        rw [trim_neat_line]
        exact hopen l hl

theorem Stretch.directive?_neat (s : Stretch) : s.neat.directive? = s.directive? := by
  cases s with
  | blank line => rfl
  | comment line => rw [neat, directive?, trim_neat_line, directive?]
  | statement first more =>
      simp only [neat, directive?, trim_neat_line, List.flatMap_map]

/-- An entry whose text, on lines of its own, is read as that entry. -/
def Tidy (e : Directive) : Prop :=
  ∃ s : Stretch, s.Valid ∧ s.directive? = some e ∧
    ∀ t, Text.pieces (e.text ++ '\n' :: t) = s.lines ++ Text.pieces t

/-- Trimmed lines with line feeds between them are cut into these lines. -/
theorem pieces_trimmed_lines {first : Text} {more : List Text}
    (h : ∀ line ∈ first :: more, '\n' ∉ Text.trim line) (t : Text) :
    Text.pieces (Text.trim first ++ more.flatMap (fun line => '\n' :: Text.trim line) ++ '\n' :: t)
      = (first :: more).map (fun line => Text.trim line ++ ['\n']) ++ Text.pieces t := by
  induction more generalizing first with
  | nil => simp [Text.pieces_line_append (h first (by simp))]
  | cons line more ih =>
      have hrest := ih fun l hl => h l (by simp only [List.mem_cons] at hl ⊢; exact .inr hl)
      rw [List.flatMap_cons, List.cons_append, List.append_assoc, List.cons_append,
        Text.pieces_line_append (h first (by simp)), hrest]
      rfl

/-- The text of an entry, on lines of its own, is cut into the trimmed lines of its stretch. -/
theorem pieces_entry {s : Stretch} {e : Directive} (he : s.directive? = some e)
    (hl : ∀ line ∈ s.lines, '\n' ∉ Text.trim line) (t : Text) :
    Text.pieces (e.text ++ '\n' :: t) = s.neat.lines ++ Text.pieces t := by
  cases s with
  | blank line => simp [Stretch.directive?] at he
  | comment line =>
      obtain rfl := Option.some.inj he
      exact Text.pieces_line_append (hl line (by simp [Stretch.lines])) t
  | statement first more =>
      obtain rfl := Option.some.inj he
      exact pieces_trimmed_lines hl t

/-- The entry of a stretch is tidy. -/
theorem tidy_of_valid {s : Stretch} {e : Directive} (hs : s.Valid) (he : s.directive? = some e)
    (hl : ∀ line ∈ s.lines, '\n' ∉ Text.trim line) : Tidy e :=
  ⟨s.neat, hs.neat, s.directive?_neat ▸ he, pieces_entry he hl⟩

/-- A statement on a single line is tidy. -/
theorem tidy_statement {line : Text} (ht : Text.Trimmed line) (hn : '\n' ∉ line)
    (hs : isDirectiveStart line = true) (he : endsStatement line = true) :
    Tidy (.statement line) := by
  have hvalid : (Stretch.statement line []).Valid :=
    ⟨by rwa [ht], [], line, rfl, by rwa [ht], by simp⟩
  refine tidy_of_valid hvalid (by simp [Stretch.directive?, ht.eq]) fun l hl => ?_
  obtain rfl : l = line := by simpa [Stretch.lines] using hl
  rwa [ht]

/-- Whatever is read of a text is tidy. -/
theorem tidy_of_mem_entriesOf {t : Text} (c : Cut (Text.pieces t)) {e : Directive}
    (h : e ∈ entriesOf c.stretches) : Tidy e := by
  obtain ⟨s, hs, he⟩ := List.mem_filterMap.mp h
  refine tidy_of_valid (c.valid s hs) he fun line hline => Text.newline_not_mem_trim (t := t) ?_
  rw [c.lines_eq]
  exact List.mem_append_left _ (List.mem_flatMap.mpr ⟨s, hs, hline⟩)

/-- Tidy entries on lines of their own are stretches. -/
theorem exists_stretches {entries : List Directive} (h : ∀ e ∈ entries, Tidy e) :
    ∃ stretches : List Stretch, (∀ s ∈ stretches, s.Valid) ∧
      stretches.map Stretch.directive? = entries.map some ∧
      ∀ t, Text.pieces (RouteDocument.onLines (entries.map Directive.text) ++ t)
        = linesOf stretches ++ Text.pieces t := by
  induction entries with
  | nil => exact ⟨[], by simp, rfl, fun t => rfl⟩
  | cons e entries ih =>
      obtain ⟨s, hs, he, hlines⟩ := h e (by simp)
      obtain ⟨stretches, hvalid, hentries, hpieces⟩ := ih fun e' he' => h e' (by simp [he'])
      refine ⟨s :: stretches, List.forall_mem_cons.mpr ⟨hs, hvalid⟩, by simp [he, hentries],
        fun t => ?_⟩
      rw [List.map_cons, RouteDocument.onLines_cons_append, hlines, hpieces, linesOf_cons,
        List.append_assoc]

theorem Stretch.isStatement_of_directive? {s : Stretch} {e : Directive} (h : s.directive? = some e)
    (he : e.isComment = false) : s.isStatement = true := by
  cases s with
  | blank line => simp [directive?] at h
  | comment line =>
      obtain rfl := Option.some.inj h
      simp [Directive.isComment] at he
  | statement first more => rfl

end Section

/-- Entries that end with a statement are read again, and what is read after them as well. -/
theorem readDirectives_onLines {entries : List Directive} (tidy : ∀ e ∈ entries, Tidy e)
    (closed : ∀ e ∈ entries.getLast?, e.isComment = false) (t : Text) :
    readDirectives none (Text.pieces (RouteDocument.onLines (entries.map Directive.text) ++ t)) =
      (entries ++ (readDirectives none (Text.pieces t)).1,
        (readDirectives none (Text.pieces t)).2) := by
  obtain ⟨stretches, hvalid, hentries, hpieces⟩ := exists_stretches tidy
  obtain ⟨c⟩ := exists_cut (Text.pieces t)
  have hof : entriesOf stretches = entries := by
    have := congrArg (List.filterMap id) hentries
    simpa [entriesOf, List.filterMap_map] using this
  rw [hpieces, readDirectives_of_cut c]
  -- The stretches of the entries and those of the cut are the stretches of one section.
  conv => lhs; rw [c.lines_eq, ← List.append_assoc, ← linesOf_append]
  rw [readDirectives_linesOf _ _ c.ended, entriesOf_append, hof]
  · intro s hs
    rcases List.mem_append.mp hs with hs | hs
    · exact hvalid s hs
    · exact c.valid s hs
  · intro s hs
    by_cases hne : c.stretches = []
    · rw [hne, List.append_nil] at hs
      -- Nothing is read after the entries, so the last of them closes the section.
      obtain ⟨e, he, hse⟩ : ∃ e ∈ entries.getLast?, s.directive? = some e := by
        have := congrArg List.getLast? hentries
        rw [List.getLast?_map, List.getLast?_map, Option.mem_def.mp hs] at this
        obtain ⟨e, he, hse⟩ := Option.map_eq_some_iff.mp this.symm
        exact ⟨e, he, hse.symm⟩
      exact Stretch.isStatement_of_directive? hse (closed e he)
    · exact c.closed s (Text.getLast?_append_right stretches hne ▸ hs)

/-! ## Documents -/

namespace RouteDocument

/-- What every document has that was read: tidy entries, comments ahead of the directives but not
before or after them, no imports of pages, and a body that does not begin with a blank line. -/
structure Ordered (d : RouteDocument) : Prop where
  leading_tidy : ∀ e ∈ d.leading, Tidy e
  leading_comment : ∀ e ∈ d.leading, e.isComment = true
  directives_tidy : ∀ e ∈ d.directives, Tidy e
  first_statement : ∀ e ∈ d.directives.head?, e.isComment = false
  last_statement : ∀ e ∈ d.directives.getLast?, e.isComment = false
  no_page_import : ∀ e ∈ d.directives, e.isPageImport = false
  body_visible : ∀ line ∈ (Text.pieces d.body).head?, Text.isBlank line = false

/-- The document with these entries kept, and these lines after them. -/
def ofEntries (kept : List Directive) (after : List Text) : RouteDocument :=
  let rest := kept.dropWhile Directive.isComment
  { leading := kept.takeWhile Directive.isComment
    directives := (rest.reverse.dropWhile Directive.isComment).reverse
    body := onLines ((rest.reverse.takeWhile Directive.isComment).reverse.map Directive.text)
      ++ (after.dropWhile Text.isBlank).flatten }

theorem parse_eq_ofEntries (source : Text) :
    parse source = ofEntries
      ((readDirectives none (Text.pieces source)).1.filter fun e => !e.isPageImport)
      (readDirectives none (Text.pieces source)).2 := rfl

/-- The first of what is left after dropping was not to be dropped. -/
theorem head?_dropWhile_eq_false {α : Type} {p : α → Bool} {l : List α} {a : α}
    (h : a ∈ (l.dropWhile p).head?) : p a = false := by
  have := List.head?_dropWhile_not p l
  rwa [Option.mem_def.mp h] at this

/-- Nothing is dropped where the first is not to be dropped. -/
theorem dropWhile_eq_self {α : Type} {p : α → Bool} {l : List α}
    (h : ∀ a ∈ l.head?, p a = false) : l.dropWhile p = l ∧ l.takeWhile p = [] := by
  cases l with
  | nil => exact ⟨rfl, rfl⟩
  | cons a l =>
      have ha := h a (by simp)
      simp [ha]

/-- Any entries are comments at the end, and before them none or some that end with a statement. -/
theorem exists_trailing_comments (entries : List Directive) :
    ∃ front comments, entries = front ++ comments ∧
      (∀ e ∈ front.getLast?, e.isComment = false) ∧ ∀ e ∈ comments, e.isComment = true := by
  refine ⟨(entries.reverse.dropWhile Directive.isComment).reverse,
    (entries.reverse.takeWhile Directive.isComment).reverse, ?_, fun e he => ?_,
    fun e he => List.all_eq_true.mp List.all_takeWhile e (List.mem_reverse.mp he)⟩
  · rw [← List.reverse_append, List.takeWhile_append_dropWhile, List.reverse_reverse]
  · rw [List.getLast?_reverse] at he
    exact head?_dropWhile_eq_false he

/-- Comments, directives that begin and end with statements, and comments are put into their three
places. -/
theorem ofEntries_append {leading directives moved : List Directive} {after : List Text}
    (hleading : ∀ e ∈ leading, e.isComment = true)
    (hfirst : ∀ e ∈ (directives ++ moved).head?, e.isComment = false)
    (hlast : ∀ e ∈ directives.getLast?, e.isComment = false)
    (hmoved : ∀ e ∈ moved, e.isComment = true) :
    ofEntries (leading ++ (directives ++ moved)) after =
      { leading, directives
        body := onLines (moved.map Directive.text) ++ (after.dropWhile Text.isBlank).flatten } := by
  obtain ⟨hdrop, htake⟩ := dropWhile_eq_self hfirst
  obtain ⟨hdrop', htake'⟩ := dropWhile_eq_self (p := Directive.isComment) (l := directives.reverse)
    (by simpa using hlast)
  have hmoved' : ∀ e ∈ moved.reverse, e.isComment = true := by simpa using hmoved
  rw [ofEntries, List.dropWhile_append_of_pos hleading, List.takeWhile_append_of_pos hleading,
    hdrop, htake, List.reverse_append, List.dropWhile_append_of_pos hmoved',
    List.takeWhile_append_of_pos hmoved', hdrop', htake']
  simp

/-- A document that was read, in terms of the cut: the kept entries are in order the comments ahead
of the directives, the directives and the comments moved to the body. -/
theorem parse_of_cut {source : Text} (c : Cut (Text.pieces source)) :
    ∃ moved : List Directive,
      (entriesOf c.stretches).filter (fun e => !e.isPageImport)
        = (parse source).leading ++ ((parse source).directives ++ moved) ∧
      (∀ e ∈ (parse source).leading, e.isComment = true) ∧
      (∀ e ∈ (parse source).directives.head?, e.isComment = false) ∧
      (∀ e ∈ (parse source).directives.getLast?, e.isComment = false) ∧
      (∀ e ∈ moved, e.isComment = true) ∧
      (parse source).body
        = onLines (moved.map Directive.text) ++ (c.after.dropWhile Text.isBlank).flatten := by
  rw [parse_eq_ofEntries, readDirectives_of_cut c]
  generalize (entriesOf c.stretches).filter (fun e => !e.isPageImport) = kept
  obtain ⟨directives, moved, hrest, hlast, hmoved⟩ :=
    exists_trailing_comments (kept.dropWhile Directive.isComment)
  have hleading : ∀ e ∈ kept.takeWhile Directive.isComment, e.isComment = true :=
    fun e he => List.all_eq_true.mp List.all_takeWhile e he
  have hfirst : ∀ e ∈ (directives ++ moved).head?, e.isComment = false :=
    fun e he => head?_dropWhile_eq_false (hrest ▸ he)
  have hkept : kept = kept.takeWhile Directive.isComment ++ (directives ++ moved) := by
    rw [← hrest, List.takeWhile_append_dropWhile]
  rw [hkept, ofEntries_append hleading hfirst hlast hmoved]
  refine ⟨moved, rfl, hleading, fun e he => hfirst e ?_, hlast, hmoved, rfl⟩
  rw [List.head?_append, Option.mem_def.mp he]
  rfl

/-- The body of a document that was read begins with the comments moved to it, and then with a line
that is not blank. -/
theorem pieces_body {source : Text} (c : Cut (Text.pieces source)) :
    ∃ comments : List Stretch, (∀ s ∈ comments, s.Valid ∧ ∃ line, s = .comment line) ∧
      Text.pieces (parse source).body = linesOf comments ++ c.after.dropWhile Text.isBlank := by
  obtain ⟨moved, hkept, -, -, -, hmoved, hbody⟩ := parse_of_cut c
  have htidy : ∀ e ∈ moved, Tidy e := fun e he => by
    have : e ∈ (entriesOf c.stretches).filter (fun e => !e.isPageImport) := by simp [hkept, he]
    exact tidy_of_mem_entriesOf c (List.mem_filter.mp this).1
  obtain ⟨comments, hvalid, hentries, hpieces⟩ := exists_stretches htidy
  refine ⟨comments, fun s hs => ⟨hvalid s hs, ?_⟩, ?_⟩
  · obtain ⟨e, he, hse⟩ : ∃ e ∈ moved, s.directive? = some e := by
      have : s.directive? ∈ moved.map some := hentries ▸ List.mem_map_of_mem hs
      obtain ⟨e, he, hse⟩ := List.mem_map.mp this
      exact ⟨e, he, hse.symm⟩
    cases s with
    | blank line => simp [Stretch.directive?] at hse
    | comment line => exact ⟨line, rfl⟩
    | statement first more =>
        obtain rfl := Option.some.inj hse
        simpa [Directive.isComment] using hmoved _ he
  · have hafter : Text.pieces source = linesOf c.stretches ++ c.after.takeWhile Text.isBlank
        ++ c.after.dropWhile Text.isBlank := by
      rw [List.append_assoc, List.takeWhile_append_dropWhile, ← c.lines_eq]
    rw [hbody, hpieces, Text.pieces_flatten_of_eq_append hafter]

/-- Comments end no statement, and the reader is between statements after them. -/
theorem noneEnds_comments {comments : List Stretch}
    (h : ∀ s ∈ comments, s.Valid ∧ ∃ line, s = .comment line) (lines : List Text) :
    noneEnds .between (linesOf comments ++ lines) = noneEnds .between lines := by
  induction comments with
  | nil => rfl
  | cons s comments ih =>
      obtain ⟨hs, line, rfl⟩ := h s (by simp)
      obtain ⟨hb, hd, hc⟩ := hs
      simp only [linesOf_cons, Stretch.lines, List.cons_append, noneEnds, Reading.ends,
        Reading.next, hb, hd, hc]
      simpa using ih fun t ht => h t (by simp [ht])

theorem noneEnds_dropWhile_isBlank (lines : List Text) :
    noneEnds .between (lines.dropWhile Text.isBlank) = noneEnds .between lines := by
  induction lines with
  | nil => rfl
  | cons line lines ih =>
      by_cases hb : Text.isBlank line = true
      · simp [hb, ih, noneEnds, Reading.ends, Reading.next, Text.trim_of_isBlank hb,
          isDirectiveStart]
      · simp [hb]

/-- No statement ends in the body of a document that was read. -/
theorem noneEnds_parse_body (source : Text) :
    noneEnds .between (Text.pieces (parse source).body) = true := by
  obtain ⟨c⟩ := exists_cut (Text.pieces source)
  obtain ⟨comments, hcomments, hpieces⟩ := pieces_body c
  rw [hpieces, noneEnds_comments hcomments, noneEnds_dropWhile_isBlank]
  exact c.ended

/-- The reader ends within a statement in the body exactly if it does in the whole text. -/
theorem leavesInside_parse_body (source : Text) :
    leavesInside (Text.pieces (parse source).body) = leavesInside (Text.pieces source) := by
  obtain ⟨c⟩ := exists_cut (Text.pieces source)
  obtain ⟨comments, hcomments, hpieces⟩ := pieces_body c
  have hsource : (Text.pieces source).foldl Reading.next .between
      = c.after.foldl Reading.next .between := by
    conv => lhs; rw [c.lines_eq]
    rw [List.foldl_append, foldl_next_linesOf c.valid]
  rw [leavesInside, leavesInside, hsource, hpieces, List.foldl_append,
    foldl_next_linesOf fun s hs => (hcomments s hs).1, foldl_next_dropWhile_isBlank]

theorem ordered_parse (source : Text) : (parse source).Ordered := by
  obtain ⟨c⟩ := exists_cut (Text.pieces source)
  obtain ⟨moved, hkept, hleading, hfirst, hlast, -, -⟩ := parse_of_cut c
  -- All that is kept was read, and is no import of a page.
  have hmem : ∀ e ∈ (parse source).leading ++ ((parse source).directives ++ moved),
      Tidy e ∧ e.isPageImport = false := by
    intro e he
    rw [← hkept, List.mem_filter] at he
    exact ⟨tidy_of_mem_entriesOf c he.1, by simpa using he.2⟩
  refine ⟨fun e he => (hmem e (by simp [he])).1, hleading, fun e he => (hmem e (by simp [he])).1,
    hfirst, hlast, fun e he => (hmem e (by simp [he])).2, ?_⟩
  obtain ⟨comments, hcomments, hpieces⟩ := pieces_body c
  rw [hpieces]
  cases comments with
  | nil => exact fun line hline => head?_dropWhile_eq_false hline
  | cons s comments =>
      obtain ⟨hs, line, rfl⟩ := hcomments s (by simp)
      obtain ⟨hb, -, -⟩ := hs
      intro line' hline
      obtain rfl : line = line' := by simpa [Stretch.lines] using hline
      exact hb

/-! ## Round trip -/

theorem withMaterialImport_leading (d : RouteDocument) :
    d.withMaterialImport.leading = d.leading := by
  rw [withMaterialImport]
  split <;> rfl

theorem withMaterialImport_body (d : RouteDocument) : d.withMaterialImport.body = d.body := by
  rw [withMaterialImport]
  split <;> rfl

theorem tidy_materialImport : Tidy (.statement materialImport.toList) :=
  tidy_statement (by decide) (by decide) (by decide) (by decide)

theorem Ordered.withMaterialImport {d : RouteDocument} (h : d.Ordered) :
    d.withMaterialImport.Ordered := by
  rw [RouteDocument.withMaterialImport]
  split
  · exact h
  · refine ⟨h.leading_tidy, h.leading_comment, ?_, ?_, ?_, ?_, h.body_visible⟩
    · exact List.forall_mem_cons.mpr ⟨tidy_materialImport, h.directives_tidy⟩
    · intro e he
      obtain rfl : _ = e := Option.some.inj he
      rfl
    · intro e he
      by_cases hd : d.directives = []
      · obtain rfl : _ = e := by simpa [hd] using he
        rfl
      · exact h.last_statement e (by rwa [List.getLast?_cons_of_ne_nil hd] at he)
    · exact List.forall_mem_cons.mpr ⟨by decide, h.no_page_import⟩

/-- Whether a directive of a document mentions the material library. -/
def MentionsMaterial (d : RouteDocument) : Prop :=
  d.directives.any Directive.isMaterialImport = true

theorem mentionsMaterial_withMaterialImport (d : RouteDocument) :
    d.withMaterialImport.MentionsMaterial := by
  rw [withMaterialImport]
  split
  · assumption
  · have : (Directive.statement materialImport.toList).isMaterialImport = true := by decide
    simp [MentionsMaterial, this]

theorem MentionsMaterial.withMaterialImport_eq {d : RouteDocument} (h : d.MentionsMaterial) :
    d.withMaterialImport = d := if_pos h

theorem MentionsMaterial.directives_ne_nil {d : RouteDocument} (h : d.MentionsMaterial) :
    d.directives ≠ [] := by
  intro hnil
  simp [MentionsMaterial, hnil] at h

/-- A line that imports a page. -/
structure PageImport (line : Text) : Prop where
  trimmed : Text.Trimmed line
  oneLine : '\n' ∉ line
  start : isDirectiveStart line = true
  ends : endsStatement line = true
  page : (Directive.statement line).isPageImport = true

theorem PageImport.ne_nil {line : Text} (h : PageImport line) : line ≠ [] := by
  rintro rfl
  exact absurd h.start (by decide)

theorem render_eq {d : RouteDocument} {imports : List Text} (h : ∀ i ∈ imports, PageImport i) :
    d.render imports = onLines ((d.leading ++ (imports.map Directive.statement ++ d.directives)).map
      Directive.text) ++ '\n' :: d.body := by
  have htrim : (imports.map Text.trim).filter (fun line => !line.isEmpty) = imports := by
    rw [List.map_congr_left (g := id) fun i hi => (h i hi).trimmed, List.map_id,
      List.filter_eq_self]
    intro i hi
    simpa using (h i hi).ne_nil
  have hmap : (imports.map Directive.statement).map Directive.text = imports := by
    rw [List.map_map]
    exact List.map_id imports
  rw [render, htrim]
  simp [onLines_append, hmap]

/-- **Entries of a written document.** Reading gives its comments, the imports of pages, its
directives and whatever entries its body begins with. -/
theorem readDirectives_render {d : RouteDocument} (h : d.Ordered) (hm : d.MentionsMaterial)
    {imports : List Text} (hi : ∀ i ∈ imports, PageImport i) :
    readDirectives none (Text.pieces (d.render imports)) =
      let read := readDirectives none (['\n'] :: Text.pieces d.body)
      (d.leading ++ (imports.map Directive.statement ++ d.directives) ++ read.1, read.2) := by
  have htidy : ∀ e ∈ d.leading ++ (imports.map Directive.statement ++ d.directives), Tidy e := by
    intro e he
    simp only [List.mem_append, List.mem_map] at he
    rcases he with he | ⟨i, hmem, rfl⟩ | he
    · exact h.leading_tidy e he
    · have himport := hi i hmem
      exact tidy_statement himport.trimmed himport.oneLine himport.start himport.ends
    · exact h.directives_tidy e he
  have hne := hm.directives_ne_nil
  have hlast : ∀ e ∈ (d.leading ++ (imports.map Directive.statement ++ d.directives)).getLast?,
      e.isComment = false := by
    intro e he
    rw [Text.getLast?_append_right _ (by simp [hne]), Text.getLast?_append_right _ hne] at he
    exact h.last_statement e he
  rw [render_eq hi, readDirectives_onLines htidy hlast,
    show Text.pieces ('\n' :: d.body) = ['\n'] :: Text.pieces d.body from
      Text.pieces_line_append (l := []) (by simp) d.body]

theorem Directive.isPageImport_of_isComment {e : Directive} (h : e.isComment = true) :
    e.isPageImport = false := by
  cases e with
  | comment t => rfl
  | statement t => simp [Directive.isComment] at h

/-- Of a written document all is kept but the imports of pages. -/
theorem filter_rendered {d : RouteDocument} (h : d.Ordered) {imports : List Text}
    (hi : ∀ i ∈ imports, PageImport i) (extra : List Directive) :
    (d.leading ++ (imports.map Directive.statement ++ d.directives) ++ extra).filter
        (fun e => !e.isPageImport)
      = d.leading ++ (d.directives ++ extra.filter fun e => !e.isPageImport) := by
  have hleading : d.leading.filter (fun e => !e.isPageImport) = d.leading :=
    List.filter_eq_self.mpr fun e he => by
      simp [Directive.isPageImport_of_isComment (h.leading_comment e he)]
  have himports : (imports.map Directive.statement).filter (fun e => !e.isPageImport) = [] := by
    rw [List.filter_eq_nil_iff]
    intro e he
    obtain ⟨i, hmem, rfl⟩ := List.mem_map.mp he
    simp [(hi i hmem).page]
  have hdirectives : d.directives.filter (fun e => !e.isPageImport) = d.directives :=
    List.filter_eq_self.mpr fun e he => by simp [h.no_page_import e he]
  simp [hleading, himports, hdirectives]

/-- A written document is read with the further entries that its body begins with; the comments at
their end go to the body again. -/
theorem parse_render_entries {d : RouteDocument} (h : d.Ordered) (hm : d.MentionsMaterial)
    {imports : List Text} (hi : ∀ i ∈ imports, PageImport i)
    {entries front comments : List Directive} {after : List Text}
    (hread : readDirectives none (['\n'] :: Text.pieces d.body) = (entries, after))
    (hkept : entries.filter (fun e => !e.isPageImport) = front ++ comments)
    (hfront : ∀ e ∈ front.getLast?, e.isComment = false)
    (hcomments : ∀ e ∈ comments, e.isComment = true) :
    parse (d.render imports) =
      { leading := d.leading
        directives := d.directives ++ front
        body := onLines (comments.map Directive.text)
          ++ (after.dropWhile Text.isBlank).flatten } := by
  -- There is a directive, so what was read after the directives is not taken for comments ahead of
  -- them.
  have hfirst : ∀ e ∈ (d.directives ++ front ++ comments).head?, e.isComment = false := by
    intro e he
    rw [List.append_assoc, List.head?_append] at he
    cases hhead : d.directives.head? with
    | none => exact absurd (List.head?_eq_none_iff.mp hhead) hm.directives_ne_nil
    | some first => exact h.first_statement e (by simpa [hhead] using he)
  have hlast : ∀ e ∈ (d.directives ++ front).getLast?, e.isComment = false := by
    intro e he
    by_cases hne : front = []
    · rw [hne, List.append_nil] at he
      exact h.last_statement e he
    · exact hfront e (Text.getLast?_append_right _ hne ▸ he)
  rw [parse_eq_ofEntries, readDirectives_render h hm hi, hread]
  simp only
  rw [filter_rendered h hi, hkept, ← List.append_assoc d.directives,
    ofEntries_append h.leading_comment hfirst hlast hcomments]

/-- **Round trip.** A document whose body holds no further statement is read as it was written. -/
theorem parse_render {d : RouteDocument} (h : d.Ordered) (hm : d.MentionsMaterial)
    (hbody : noneEnds .between (Text.pieces d.body) = true)
    {imports : List Text} (hi : ∀ i ∈ imports, PageImport i) :
    parse (d.render imports) = d := by
  have hread : readDirectives none (['\n'] :: Text.pieces d.body)
      = ([], ['\n'] :: Text.pieces d.body) := readDirectives_of_noneEnds hbody
  have hvisible : (['\n'] :: Text.pieces d.body).dropWhile Text.isBlank = Text.pieces d.body := by
    rw [List.dropWhile_cons_of_pos (by decide)]
    exact (dropWhile_eq_self h.body_visible).1
  have hkept : ([] : List Directive).filter (fun e => !e.isPageImport) = [] ++ [] := rfl
  rw [parse_render_entries h hm hi hread hkept (by simp) (by simp), hvisible, Text.flatten_pieces,
    List.append_nil]
  rfl

end RouteDocument

end CanvasFlutter
