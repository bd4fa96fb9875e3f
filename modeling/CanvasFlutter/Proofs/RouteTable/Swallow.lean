import CanvasFlutter.Proofs.RouteTable.Rerun

namespace CanvasFlutter

/-!
# `CanvasFlutter.Proofs.RouteTable.Swallow` — a swallowed table is not written again

Where a statement that was open in front of the table swallows it, the next run takes the table's
lines for directives. It then finds no table, or writes an entry ahead of the body, or a body with
fewer visible characters. So these files, and no others, are changed by a second run.

## Contents
- **Ink.** `Text.ink` counts visible characters; trimming and taking out entries add none.
- **Swallowed lines.** `exists_swallowing`: the statement that holds the table.
- **Fixed points.** `patchPages_swallowed`; `patchPages_fixed_iff`.
-/

open Section RouteDocument

/-! ## Ink -/

namespace Text

/-- How many visible characters a text has. -/
def ink (t : Text) : Nat := t.countP fun c => !isWhite c

@[simp] theorem ink_nil : ink [] = 0 := rfl

@[simp] theorem ink_append (s t : Text) : ink (s ++ t) = ink s + ink t := List.countP_append

theorem ink_cons (c : Char) (t : Text) : ink (c :: t) = ink [c] + ink t :=
  ink_append [c] t

theorem ink_of_isBlank {t : Text} (h : isBlank t = true) : ink t = 0 := by
  rw [ink, List.countP_eq_zero]
  simpa [isBlank] using h

theorem ink_trim (t : Text) : ink (trim t) = ink t := by
  obtain ⟨a, b, ha, hb, ht⟩ := exists_eq_trim t
  conv => rhs; rw [ht]
  simp [ink_of_isBlank ha, ink_of_isBlank hb]

theorem ink_flatten_dropWhile_isBlank (lines : List Text) :
    ink (lines.dropWhile isBlank).flatten = ink lines.flatten := by
  induction lines with
  | nil => rfl
  | cons line lines ih =>
      by_cases hb : isBlank line = true
      · simpa [hb, ink_of_isBlank hb] using ih
      · simp [hb]

end Text

namespace Section

theorem ink_trimmed_lines (lines : List Text) :
    Text.ink (lines.flatMap fun line => '\n' :: Text.trim line) = Text.ink lines.flatten := by
  induction lines with
  | nil => rfl
  | cons line lines ih =>
      have hnewline : Text.ink ['\n'] = 0 := by decide
      rw [List.flatMap_cons, List.cons_append, Text.ink_cons, Text.ink_append, Text.ink_trim, ih,
        hnewline, List.flatten_cons, Text.ink_append, Nat.zero_add]

/-- An entry has the visible characters of its lines. -/
theorem ink_entry {s : Stretch} {e : Directive} (h : s.directive? = some e) :
    Text.ink e.text = Text.ink s.lines.flatten := by
  cases s with
  | blank line => simp [Stretch.directive?] at h
  | comment line =>
      obtain rfl := Option.some.inj h
      simp [Directive.text, Stretch.lines, Text.ink_trim]
  | statement first more =>
      obtain rfl := Option.some.inj h
      rw [Directive.text, Stretch.lines, List.flatten_cons, Text.ink_append, Text.ink_append,
        Text.ink_trim, ink_trimmed_lines]

/-- Entries that are kept have no more visible characters than the lines of them all. -/
theorem ink_kept_le (stretches : List Stretch) (keep : Directive → Bool) :
    Text.ink (onLines (((entriesOf stretches).filter keep).map Directive.text))
      ≤ Text.ink (linesOf stretches).flatten := by
  induction stretches with
  | nil => exact Nat.le_refl 0
  | cons s stretches ih =>
      have hs : Text.ink (onLines ((s.directive?.toList.filter keep).map Directive.text))
          ≤ Text.ink s.lines.flatten := by
        cases he : s.directive? with
        | none => exact Nat.zero_le _
        | some e =>
            have hnewline : Text.ink ['\n'] = 0 := by decide
            by_cases hk : keep e = true
            · simp [hk, onLines, ink_entry he, hnewline]
            · simp [hk, onLines]
      rw [entriesOf_cons, List.filter_append, List.map_append, onLines_append, linesOf_cons,
        List.flatten_append, Text.ink_append, Text.ink_append]
      exact Nat.add_le_add hs ih

end Section

/-! ## Swallowed lines -/

theorem foldl_next_past (lines : List Text) : lines.foldl Reading.next .past = .past := by
  induction lines with
  | nil => rfl
  | cons line lines ih => exact ih

/-- Lines in which no statement ends and that end within one: stretches that are no statements, and
the lines of the one that is open. -/
theorem exists_open_statement {lines : List Text} (hnone : noneEnds .between lines = true)
    (hin : leavesInside lines = true) :
    ∃ stretches first more, (∀ s ∈ stretches, s.Valid) ∧
      lines = linesOf stretches ++ first :: more ∧ isDirectiveStart (Text.trim first) = true ∧
      ∀ line ∈ first :: more, endsStatement (Text.trim line) = false := by
  induction lines with
  | nil => exact absurd hin (by decide)
  | cons line lines ih =>
      -- A stretch that is no statement leaves the reader between statements.
      have skip : ∀ s : Stretch, s.lines = [line] → s.Valid →
          Reading.between.next line = .between → ∃ stretches first more,
            (∀ s ∈ stretches, s.Valid) ∧ line :: lines = linesOf stretches ++ first :: more ∧
            isDirectiveStart (Text.trim first) = true ∧
            ∀ line ∈ first :: more, endsStatement (Text.trim line) = false := by
        intro s hlines hs hnext
        rw [noneEnds, hnext, Bool.and_eq_true] at hnone
        rw [leavesInside, List.foldl_cons, hnext] at hin
        obtain ⟨stretches, first, more, hvalid, rfl, hfirst⟩ := ih hnone.2 hin
        exact ⟨s :: stretches, first, more, List.forall_mem_cons.mpr ⟨hs, hvalid⟩,
          by simp [hlines], hfirst⟩
      by_cases hb : Text.isBlank line = true
      · exact skip (.blank line) rfl hb (by simp [Reading.next, hb])
      · by_cases hd : isDirectiveStart (Text.trim line) = true
        · simp only [noneEnds, Reading.ends, Reading.next, hb, hd, Bool.and_eq_true,
            Bool.not_eq_true', Bool.true_and, if_true, Bool.false_eq_true, if_false] at hnone
          obtain ⟨he, hrest⟩ := hnone
          rw [he] at hrest
          exact ⟨[], line, lines, by simp, rfl, hd,
            List.forall_mem_cons.mpr ⟨he, (noneEnds_inside_iff lines).mp hrest⟩⟩
        · by_cases hc : isComment (Text.trim line) = true
          · exact skip (.comment line) rfl ⟨by simpa using hb, by simpa using hd, hc⟩
              (by simp [Reading.next, hb, hd, hc])
          · have hpast : Reading.between.next line = .past := by simp [Reading.next, hb, hd, hc]
            rw [leavesInside, List.foldl_cons, hpast, foldl_next_past] at hin
            exact absurd hin (by decide)

/-- A cut of more lines, with stretches and a statement before it. -/
theorem exists_cut_append {rest : List Text} (c : Cut rest) {before : List Stretch}
    (hbefore : ∀ s ∈ before, s.Valid) {first : Text} {more : List Text}
    (hs : (Stretch.statement first more).Valid) :
    ∃ c' : Cut (linesOf before ++ (first :: more ++ rest)),
      c'.stretches = before ++ .statement first more :: c.stretches := by
  have hvalid := (c.consStatement hs).valid
  have hclosed := (c.consStatement hs).closed
  refine ⟨{
      stretches := before ++ .statement first more :: c.stretches
      after := c.after
      lines_eq := ?_
      valid := fun t ht => (List.mem_append.mp ht).elim (hbefore t) (hvalid t)
      closed := ?_
      ended := c.ended }, rfl⟩
  · rw [linesOf_append, List.append_assoc]
    exact congrArg _ (c.consStatement hs).lines_eq
  · rw [Text.getLast?_append_right _ (by simp)]
    exact hclosed

/-- An open statement runs on through entries, up to a line that ends one. -/
theorem valid_statement_entries {first : Text} {held entries : List Text} {last : Text}
    (hfirst : isDirectiveStart (Text.trim first) = true)
    (hheld : ∀ line ∈ first :: held, endsStatement (Text.trim line) = false)
    (he : ∀ e ∈ entries, TableEntry e) (hlast : endsStatement (Text.trim last) = true) :
    (Stretch.statement first (held ++ (entries.map entryLine ++ [last]))).Valid := by
  refine ⟨hfirst, first :: held ++ entries.map entryLine, last, by simp, hlast, ?_⟩
  intro line hline
  rcases List.mem_append.mp hline with hline | hline
  · exact hheld line hline
  · obtain ⟨e, hmem, rfl⟩ := List.mem_map.mp hline
    rw [trim_entryLine (he e hmem)]
    exact (he e hmem).goesOn

theorem ink_tableBody {entries : List Text} (he : ∀ e ∈ entries, TableEntry e) :
    Text.ink (tableBody entries) = Text.ink (entries.map entryLine).flatten := by
  have hnewline : Text.ink ['\n'] = 0 := by decide
  rw [tableBody_eq he, Text.ink_cons, hnewline, Nat.zero_add, List.flatMap_def]

/-- A statement that is open at an opening brace is open behind the line that is cut there. -/
theorem exists_open_statement_brace {before : List Text} {l v : Text}
    (hbefore : noneEnds .between before = true)
    (hopen : (before.foldl Reading.next .between).ends (l ++ '{' :: v) = false)
    (hin : (before.foldl Reading.next .between).next (l ++ '{' :: v) = .inside) :
    ∃ stretches first held, (∀ s ∈ stretches, s.Valid) ∧
      before ++ [l ++ '{' :: ['\n']] = linesOf stretches ++ first :: held ∧
      isDirectiveStart (Text.trim first) = true ∧
      ∀ line ∈ first :: held, endsStatement (Text.trim line) = false := by
  obtain ⟨hends, hnext⟩ := read_cut_brace hopen (w := ['\n']) (by decide)
  refine exists_open_statement ?_ ?_
  · rw [noneEnds_append, hbefore, noneEnds, hends]
    rfl
  · rw [leavesInside, List.foldl_append, List.foldl_cons, List.foldl_nil, hnext, hin]
    rfl

/-- The statement that swallows a table holds all of its entries and the closing brace. -/
theorem exists_swallowing {body front inner back : Text}
    (h : tableParts? body = some (front, inner, back))
    (hbody : noneEnds .between (Text.pieces body) = true) (hs : swallows front back = true)
    {entries : List Text} (he : ∀ e ∈ entries, TableEntry e) :
    ∃ (c : Cut (Text.pieces (front ++ (tableBody entries ++ back))))
      (before : List Stretch) (s : Stretch) (after : List Stretch),
      c.stretches = before ++ s :: after ∧ s.isStatement = true ∧
      Text.ink (tableBody entries) < Text.ink s.lines.flatten := by
  obtain ⟨q, l, v, t, more, rest, rfl, hl, hq, hpieces, hback, -⟩ := exists_table_lines h
  have hbrace : '\n' ∉ l ++ ['{'] := by simp [hl]
  rw [hpieces, noneEnds_append, noneEnds, Bool.and_eq_true, Bool.and_eq_true,
    Bool.not_eq_true'] at hbody
  obtain ⟨hq', hopen, -⟩ := hbody
  rw [swallows, leavesInside_cut_brace hl hq hopen, hback, Bool.and_eq_true,
    decide_eq_true_eq] at hs
  obtain ⟨hin, hclose⟩ := hs
  have hclose : endsStatement (Text.trim ('}' :: t)) = true := hclose
  obtain ⟨before, first, held, hvalid, hlines, hfirst, hheld⟩ :=
    exists_open_statement_brace hq' hopen hin
  obtain ⟨c⟩ := exists_cut rest
  have hstatement := valid_statement_entries hfirst hheld he hclose
  obtain ⟨c', hstretches⟩ := exists_cut_append c hvalid hstatement
  have hall : Text.pieces (q ++ (l ++ ['{']) ++ (tableBody entries ++ back))
      = linesOf before ++ (first :: (held ++ (entries.map entryLine ++ ['}' :: t])) ++ rest) := by
    have hopening : l ++ ['{'] ++ ['\n'] = l ++ '{' :: ['\n'] := by simp
    rw [List.append_assoc, hq, pieces_tableBody he hbrace, hback, hopening,
      List.append_cons (Text.pieces q), hlines]
    simp
  rw [hall]
  refine ⟨c', before, _, c.stretches, hstretches, rfl, ?_⟩
  -- The closing brace is visible and stands on the statement's last line, behind the entries.
  have hbrace' : Text.ink ['}'] = 1 := by decide
  rw [ink_tableBody he, Stretch.lines, List.flatten_cons, List.flatten_append, List.flatten_append,
    List.flatten_singleton, Text.ink_append, Text.ink_append, Text.ink_append, Text.ink_cons,
    hbrace']
  omega

/-! ## Fixed points -/

/-- An entry that was read does not begin with a line feed. -/
theorem Section.Tidy.text_ne {e : Directive} (h : Tidy e) (t u : Text) :
    e.text ++ '\n' :: t ≠ '\n' :: u := by
  obtain ⟨s, hs, he, hlines⟩ := h
  intro heq
  have hpieces := hlines t
  rw [heq, show Text.pieces ('\n' :: u) = ['\n'] :: Text.pieces u from
    Text.pieces_line_append (l := []) (by simp) u] at hpieces
  cases s with
  | blank line => simp [Stretch.directive?] at he
  | comment line =>
      obtain ⟨hb, -, -⟩ := hs
      obtain ⟨rfl, -⟩ := List.cons.inj hpieces
      exact absurd hb (by decide)
  | statement first more =>
      obtain ⟨hd, -⟩ := hs
      obtain ⟨rfl, -⟩ := List.cons.inj hpieces
      exact absurd hd (by decide)

/-- Two written documents are the same text only if the further directives of the one stand where
the other has its body. -/
theorem eq_body_of_render_eq {d d' : RouteDocument} {front : List Directive} {imports : List Text}
    (hi : ∀ i ∈ imports, PageImport i) (h : d'.render imports = d.render imports)
    (hleading : d'.leading = d.leading) (hdirectives : d'.directives = d.directives ++ front) :
    onLines (front.map Directive.text) ++ '\n' :: d'.body = '\n' :: d.body := by
  rw [render_eq hi, render_eq hi, hleading, hdirectives] at h
  simp only [List.map_append, onLines_append, List.append_assoc, List.append_cancel_left_eq] at h
  exact h

/-- Where of a section only comments are kept, the lines of its statements are lost. -/
theorem ink_comments_add_le {lines : List Text} (c : Cut lines) {before after : List Stretch}
    {s : Stretch} (hstretches : c.stretches = before ++ s :: after) (hs : s.isStatement = true)
    {keep : Directive → Bool}
    (hcomments : ∀ e ∈ (entriesOf c.stretches).filter keep, e.isComment = true) :
    Text.ink (onLines (((entriesOf c.stretches).filter keep).map Directive.text)
        ++ (c.after.dropWhile Text.isBlank).flatten) + Text.ink s.lines.flatten
      ≤ Text.ink lines.flatten := by
  rw [hstretches, entriesOf_append, entriesOf_cons, List.filter_append, List.filter_append]
    at hcomments ⊢
  -- The statement is no comment, so its lines are among those that are lost.
  have hnone : s.directive?.toList.filter keep = [] := by
    rw [List.filter_eq_nil_iff]
    intro e he hk
    have hcomment := hcomments e (by simp [List.mem_filter, he, hk])
    cases s with
    | blank line => simp [Stretch.isStatement] at hs
    | comment line => simp [Stretch.isStatement] at hs
    | statement first more =>
        simp only [Stretch.directive?, Option.toList_some, List.mem_singleton] at he
        simp [he, Directive.isComment] at hcomment
  have hbefore := ink_kept_le before keep
  have hafter := ink_kept_le after keep
  conv => rhs; rw [c.lines_eq, hstretches]
  simp only [hnone, List.nil_append, List.map_append, onLines_append, linesOf_append, linesOf_cons,
    List.flatten_append, Text.ink_append, Text.ink_flatten_dropWhile_isBlank]
  omega

/-- **A swallowed table.** Where a statement swallows the table, a second run with the same pages
fails or writes another file. -/
theorem patchPages_swallowed {existing front inner back : Text}
    (h : tableParts? (parse existing).body = some (front, inner, back))
    (hs : swallows front back = true) (pages : List Page) :
    patchPages (((parse existing).filled front back pages).render (importLines pages)) pages
      ≠ .ok (((parse existing).filled front back pages).render (importLines pages)) := by
  have himports : ∀ i ∈ importLines pages, PageImport i := fun _ hi => pageImport_of_mem hi
  have hentries : ∀ e ∈ tableEntries pages, TableEntry e := fun _ he => tableEntry_of_mem he
  have hmaterial := mentionsMaterial_filled (parse existing) front back pages
  obtain ⟨c, before, s, after, hstretches, hstatement, hink⟩ :=
    exists_swallowing h (noneEnds_parse_body existing) hs hentries
  have hread : readDirectives none
      (['\n'] :: Text.pieces ((parse existing).filled front back pages).body)
        = (entriesOf c.stretches, c.after) := by
    have hne := entriesOf_ne_nil (by simp [hstretches]) c.closed
    rw [readDirectives_none, filled, readDirectives_of_cut c, if_pos (by decide)]
    simp [hne]
  obtain ⟨directives, comments, hkept, hlast, hcomments⟩ := exists_trailing_comments
    ((entriesOf c.stretches).filter fun e => !e.isPageImport)
  have hparse := parse_render_entries (Ordered.filled h pages) hmaterial himports hread hkept hlast
    hcomments
  intro hfixed
  obtain ⟨front', inner', back', hparts, hpatched⟩ := patchPages_eq_ok_iff.mp hfixed
  have hsecond : (parse (((parse existing).filled front back pages).render
      (importLines pages))).MentionsMaterial := by
    rw [hparse, MentionsMaterial, List.any_append, hmaterial, Bool.true_or]
  have hfilled : ∀ d : RouteDocument, d.MentionsMaterial → d.filled front' back' pages
      = { d with body := front' ++ (tableBody (tableEntries pages) ++ back') } := fun d hd => by
    rw [filled, hd.withMaterialImport_eq]
  rw [hfilled _ hsecond, hparse] at hpatched
  -- Both files begin with the same directives and imports, so they differ from there on only.
  have hbody := eq_body_of_render_eq himports hpatched.symm rfl rfl
  -- No directive is written ahead of the body, so of the further entries only comments are kept.
  cases directives with
  | cons e directives =>
      have hmem : e ∈ (entriesOf c.stretches).filter fun e => !e.isPageImport := by simp [hkept]
      rw [List.map_cons, onLines_cons_append] at hbody
      exact (tidy_of_mem_entriesOf c (List.mem_filter.mp hmem).1).text_ne _ _ hbody
  | nil =>
      have hle := ink_comments_add_le c hstretches hstatement (by rw [hkept]; exact hcomments)
      rw [hparse] at hparts
      have hparts' := congrArg Text.ink (tableParts?_eq_some hparts).1
      have hink' := congrArg Text.ink (List.cons.inj hbody).2
      rw [hkept, List.nil_append, Text.flatten_pieces] at hle
      simp only [filled, Text.ink_append] at hle hparts' hink'
      omega

/-- Whether a statement that is open in front of the table swallows it when it is filled. -/
def swallowsTable (existing : Text) : Bool :=
  (tableParts? (parse existing).body).any fun (front, _, back) => swallows front back

/-- **Fixed points.** What is written is a fixed point of the patcher exactly if no statement
swallows the table. -/
theorem patchPages_fixed_iff {existing patched : Text} {pages : List Page}
    (h : patchPages existing pages = .ok patched) :
    patchPages patched pages = .ok patched ↔ swallowsTable existing = false := by
  obtain ⟨front, inner, back, hparts, rfl⟩ := patchPages_eq_ok_iff.mp h
  have hswallows : swallowsTable existing = swallows front back := by
    rw [swallowsTable, hparts, Option.any_some]
  rw [hswallows]
  cases hs : swallows front back with
  | false => simp [patchPages_patched hparts hs, h]
  | true => simpa using patchPages_swallowed hparts hs pages

/-- A file whose import has a comment in front of its semicolon, and whose table holds a comment. -/
def openImport : Text :=
  "import 'a' /* b */ ;\nfinal Map<String, WidgetBuilder> routes = \x7b /* c */ \x7d;\n".toList

/-- The file with nothing in the table. -/
def openImportPatched : Text :=
  ("import 'package:flutter/material.dart';\n\nimport 'a' /* b */ ;\n" ++
    "final Map<String, WidgetBuilder> routes = \x7b\n\x7d;\n").toList

/-- The import runs on through the table: the patched file is no fixed point. -/
theorem patchPages_fixed_iff_openImport : patchPages openImport [] = .ok openImportPatched ∧
    swallowsTable openImport = true ∧ patchPages openImportPatched [] ≠ .ok openImportPatched :=
  have h : patchPages openImport [] = .ok openImportPatched := by rfl
  have hs : swallowsTable openImport = true := by decide
  ⟨h, hs, fun hfixed => absurd ((patchPages_fixed_iff h).mp hfixed) (by simp [hs])⟩

end CanvasFlutter
