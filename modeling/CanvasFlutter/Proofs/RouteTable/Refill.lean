import CanvasFlutter.Proofs.RouteTable.CodePart
import CanvasFlutter.Proofs.RouteTable.Header
import CanvasFlutter.Proofs.RouteTable.Render

namespace CanvasFlutter

/-!
# `CanvasFlutter.Proofs.RouteTable.Refill` — what the entries of a table do to the lines around it

Entries stand on lines of their own, so a table that is filled again begins and ends with other
lines than before. The line of the opening brace is cut after the brace, and that of the closing
brace now begins with it. A statement that is open where the table begins runs on through the
entries, and may end with the line of the closing brace: then the table belongs to the section of
directives.

## Contents
- **Entries.** `TableEntry`; `tableBody_eq`, `neutral_tableBody`.
- **Brace lines.** `read_cut_brace`: the cut line is read like the whole one.
- **Swallowing.** `swallows`; `noneEnds_refill`: a statement ends in the body filled again exactly
  if it swallows the table.
-/

open Section

/-! ## Entries -/

/-- A line that holds an entry of a table. -/
structure TableEntry (entry : Text) : Prop where
  trimmed : Text.Trimmed entry
  oneLine : '\n' ∉ entry
  quoted : ∃ s, entry = '\'' :: s
  goesOn : endsStatement entry = false
  neutral : Scanner.Neutral entry

/-- An entry on its line in the table. -/
def entryLine (entry : Text) : Text := ' ' :: ' ' :: (entry ++ ['\n'])

theorem trim_entryLine {entry : Text} (h : TableEntry entry) :
    Text.trim (entryLine entry) = entry := by
  have hblank : Text.isBlank [' ', ' '] = true := by decide
  have heq : entryLine entry = [' ', ' '] ++ entry ++ ['\n'] := by simp [entryLine]
  rw [heq, Text.trim_append_blank (by decide), Text.trim_blank_append hblank, h.trimmed.eq]

namespace RouteDocument

theorem tableBody_eq {entries : List Text} (h : ∀ e ∈ entries, TableEntry e) :
    tableBody entries = '\n' :: entries.flatMap entryLine := by
  have htrim : (entries.map Text.trim).filter (fun entry => !entry.isEmpty) = entries := by
    rw [List.map_congr_left (g := id) fun e he => (h e he).trimmed, List.map_id,
      List.filter_eq_self]
    intro e he
    obtain ⟨s, rfl⟩ := (h e he).quoted
    rfl
  rw [tableBody, htrim]
  rfl

theorem neutral_tableBody {entries : List Text} (h : ∀ e ∈ entries, TableEntry e) :
    Scanner.Neutral (tableBody entries) := by
  have hspace : Scanner.Neutral [' '] := Scanner.neutral_of_isPlain (by decide)
  have hnewline : Scanner.Neutral ['\n'] := Scanner.neutral_of_isPlain (by decide)
  rw [tableBody_eq h]
  exact hnewline.append <| Scanner.Neutral.flatMap fun e he =>
    hspace.append (hspace.append ((h e he).neutral.append hnewline))

/-- The entries of a table stand on lines of their own. -/
theorem pieces_tableBody {entries : List Text} (h : ∀ e ∈ entries, TableEntry e) {l : Text}
    (hl : '\n' ∉ l) (t : Text) : Text.pieces (l ++ (tableBody entries ++ t))
      = (l ++ ['\n']) :: (entries.map entryLine ++ Text.pieces t) := by
  rw [tableBody_eq h, List.cons_append, Text.pieces_line_append hl]
  congr 1
  induction entries with
  | nil => rfl
  | cons e entries ih =>
      have hline : '\n' ∉ ' ' :: ' ' :: e := by
        simpa using (h e (by simp)).oneLine
      have heq : entryLine e = ' ' :: ' ' :: e ++ ['\n'] := rfl
      rw [List.flatMap_cons, List.map_cons, List.append_assoc, heq, List.append_assoc,
        List.singleton_append, Text.pieces_line_append hline, ih fun e' he' => h e' (by simp [he'])]
      rfl

end RouteDocument

/-! ## Brace lines -/

/-- Whether a text begins with another that lacks a character is decided up to that character. -/
theorem isPrefixOf_append_cons {s : Text} {d : Char} (hs : d ∉ s) (u v : Text) :
    s.isPrefixOf (u ++ d :: v) = s.isPrefixOf (u ++ [d]) := by
  induction s generalizing u with
  | nil => rfl
  | cons c s ih =>
      simp only [List.mem_cons, not_or] at hs
      have hc : (c == d) = false := by simpa using Ne.symm hs.1
      cases u with
      | nil => simp [List.isPrefixOf, hc]
      | cons e u => simp [List.isPrefixOf, ih hs.2]

theorem any_isPrefixOf_append_brace {starts : List String} (h : ∀ s ∈ starts, '{' ∉ s.toList)
    (u v : Text) : starts.any (fun s => s.toList.isPrefixOf (u ++ '{' :: v))
      = starts.any fun s => s.toList.isPrefixOf (u ++ ['{']) := by
  induction starts with
  | nil => rfl
  | cons s starts ih =>
      rw [List.any_cons, List.any_cons, isPrefixOf_append_cons (h s (by simp)),
        ih fun s' hs' => h s' (by simp [hs'])]

theorem isDirectiveStart_append_brace (u v : Text) :
    isDirectiveStart (u ++ '{' :: v) = isDirectiveStart (u ++ ['{']) :=
  any_isPrefixOf_append_brace (by decide) u v

theorem isComment_append_brace (u v : Text) :
    isComment (u ++ '{' :: v) = isComment (u ++ ['{']) :=
  any_isPrefixOf_append_brace (by decide) u v

theorem trim_append_brace (l v : Text) :
    Text.trim (l ++ '{' :: v) = Text.trimStart l ++ '{' :: Text.trimEnd v :=
  Text.trim_append_visible l (by decide) v

/-- A line cut after its opening brace is read like the whole line. -/
theorem read_cut_brace {r : Reading} {l v : Text} (h : r.ends (l ++ '{' :: v) = false) {w : Text}
    (hw : Text.isBlank w = true) :
    r.ends (l ++ '{' :: w) = false ∧ r.next (l ++ '{' :: w) = r.next (l ++ '{' :: v) := by
  have htrim : Text.trim (l ++ '{' :: w) = Text.trimStart l ++ ['{'] := by
    rw [trim_append_brace, ← List.nil_append w, Text.trimEnd_append_blank hw]
    rfl
  have hvisible : ∀ v, Text.isBlank (l ++ '{' :: v) = false := fun v => by
    have : Text.isWhite '{' = false := by decide
    simp [this]
  have hends : endsStatement (Text.trim (l ++ '{' :: v)) = false →
      endsStatement (Text.trim (l ++ '{' :: w)) = false := by
    rw [htrim, trim_append_brace, ← Bool.not_eq_true, ← Bool.not_eq_true]
    exact mt fun hcut => endsStatement_of_brace hcut _
  -- No test of how a line begins looks past its first brace.
  have hstart : isDirectiveStart (Text.trim (l ++ '{' :: w))
      = isDirectiveStart (Text.trim (l ++ '{' :: v)) := by
    rw [htrim, trim_append_brace]
    exact (isDirectiveStart_append_brace ..).symm
  have hcomment : isComment (Text.trim (l ++ '{' :: w))
      = isComment (Text.trim (l ++ '{' :: v)) := by
    rw [htrim, trim_append_brace]
    exact (isComment_append_brace ..).symm
  cases r with
  | past => exact ⟨rfl, rfl⟩
  | inside =>
      have hv : endsStatement (Text.trim (l ++ '{' :: v)) = false := h
      simp [Reading.ends, Reading.next, hv, hends hv]
  | between =>
      simp only [Reading.ends, Reading.next, hstart, hcomment, hvisible] at h ⊢
      cases hd : isDirectiveStart (Text.trim (l ++ '{' :: v)) with
      | false => simp
      | true =>
          have hv : endsStatement (Text.trim (l ++ '{' :: v)) = false := by simpa [hd] using h
          simp [hv, hends hv]

/-- Between statements, a line that begins like no directive and no comment ends the section. -/
theorem read_foreign {line : Text} (hb : Text.isBlank line = false)
    (hd : isDirectiveStart (Text.trim line) = false) (hc : isComment (Text.trim line) = false) :
    Reading.between.ends line = false ∧ Reading.between.next line = .past := by
  simp [Reading.ends, Reading.next, hb, hd, hc]

theorem read_entryLine {entry : Text} (h : TableEntry entry) :
    Reading.between.ends (entryLine entry) = false ∧
      Reading.between.next (entryLine entry) = .past := by
  have htrim := trim_entryLine h
  obtain ⟨s, rfl⟩ := h.quoted
  exact read_foreign (by rw [← isEmpty_trim, htrim]; rfl) (by rw [htrim]; rfl) (by rw [htrim]; rfl)

theorem read_closing (t : Text) :
    Reading.between.ends ('}' :: t) = false ∧ Reading.between.next ('}' :: t) = .past := by
  have htrim : Text.trim ('}' :: t) = '}' :: Text.trimEnd t :=
    Text.trim_append_visible [] (by decide) t
  exact read_foreign rfl (by rw [htrim]; rfl) (by rw [htrim]; rfl)

/-! ## Swallowing -/

/-- Whether the reader of the section is within a statement where the table opens and the line that
begins with the closing brace ends that statement. -/
def swallows (front back : Text) : Bool :=
  leavesInside (Text.pieces front) &&
    (Text.pieces back).head?.any fun line => endsStatement (Text.trim line)

/-- In the lines of a table filled again a statement ends only if the table lies in one. -/
theorem noneEnds_entryLines {entries : List Text} (h : ∀ e ∈ entries, TableEntry e) (t : Text)
    (more : List Text) (r : Reading) :
    noneEnds r (entries.map entryLine ++ ('}' :: t) :: more) =
      (r != .inside || noneEnds .inside (('}' :: t) :: more)) := by
  cases r with
  | past => simp
  | between =>
      -- The first line after the brace is no directive, so the section is over.
      cases entries with
      | nil => simp [noneEnds, read_closing t]
      | cons e entries => simp [noneEnds, read_entryLine (h e (by simp))]
  | inside =>
      induction entries with
      | nil => simp
      | cons e entries ih =>
          have he := h e (by simp)
          have hends : endsStatement (Text.trim (entryLine e)) = false := by
            rw [trim_entryLine he]
            exact he.goesOn
          simpa [noneEnds, Reading.ends, Reading.next, hends] using
            ih fun e' he' => h e' (by simp [he'])

/-- The lines of a text around its table: some whole lines and the line of the opening brace, before
and after the table is filled again, and the line that then begins with the closing brace. -/
theorem exists_table_lines {body front inner back : Text}
    (h : RouteDocument.tableParts? body = some (front, inner, back)) :
    ∃ q l v t more rest, front = q ++ (l ++ ['{']) ∧ '\n' ∉ l ∧
      (∀ s, Text.pieces (q ++ s) = Text.pieces q ++ Text.pieces s) ∧
      Text.pieces body = Text.pieces q ++ (l ++ '{' :: v) :: more ∧
      Text.pieces back = ('}' :: t) :: rest ∧ ∀ line ∈ rest, line ∈ more := by
  obtain ⟨rfl, ⟨u, rfl⟩, z, rfl⟩ := RouteDocument.tableParts?_eq_some h
  obtain ⟨q, l, rfl, hl, hq⟩ := Text.exists_lastLine u
  have hbrace : '\n' ∉ l ++ ['{'] := by simp [hl]
  obtain ⟨t, rest, hback⟩ := Text.exists_pieces_cons (c := '}') (by decide) z
  obtain ⟨a, m, hinner⟩ := Text.exists_pieces_append inner hback
  obtain ⟨v, more, hafter⟩ : ∃ v more, Text.pieces (inner ++ '}' :: z) = v :: more := by
    rw [hinner]
    cases a <;> simp
  -- The line of the opening brace goes on with the first line of what followed the brace.
  refine ⟨q, l, v, t, more, rest, by simp, hl, hq, ?_, hback, ?_⟩
  · have hopen := Text.pieces_append_of_not_mem hbrace hafter
    rw [List.append_assoc, List.append_assoc, hq, ← List.append_assoc l, hopen]
    simp
  · intro line hline
    rw [hinner] at hafter
    -- Where both braces stand on one line, what follows it is the same lines.
    cases a with
    | nil =>
        obtain ⟨-, rfl⟩ := List.cons.inj hafter
        exact hline
    | cons p a =>
        obtain ⟨-, rfl⟩ := List.cons.inj hafter
        simp [hline]

/-- The cut line of an opening brace leaves the reader where the whole line did. -/
theorem leavesInside_cut_brace {q l v : Text} (hl : '\n' ∉ l)
    (hq : ∀ s, Text.pieces (q ++ s) = Text.pieces q ++ Text.pieces s)
    (hopen : ((Text.pieces q).foldl Reading.next .between).ends (l ++ '{' :: v) = false) :
    leavesInside (Text.pieces (q ++ (l ++ ['{'])))
      = decide (((Text.pieces q).foldl Reading.next .between).next (l ++ '{' :: v) = .inside) := by
  have hbrace : '\n' ∉ l ++ ['{'] := by simp [hl]
  obtain ⟨-, hnext⟩ := read_cut_brace hopen (w := []) (by decide)
  rw [leavesInside, hq, Text.pieces_of_not_mem hbrace (by simp), List.foldl_append,
    List.foldl_cons, List.foldl_nil, hnext]

/-- **Swallowing.** A statement ends in a body whose table is filled again exactly if it swallows
the table, provided that no statement ended in the body before. -/
theorem noneEnds_refill {body front inner back : Text}
    (h : RouteDocument.tableParts? body = some (front, inner, back))
    (hbody : noneEnds .between (Text.pieces body) = true)
    {entries : List Text} (he : ∀ e ∈ entries, TableEntry e) :
    noneEnds .between (Text.pieces (front ++ (RouteDocument.tableBody entries ++ back)))
      = !swallows front back := by
  obtain ⟨q, l, v, t, more, rest, rfl, hl, hq, hpieces, hback, hrest⟩ := exists_table_lines h
  have hbrace : '\n' ∉ l ++ ['{'] := by simp [hl]
  rw [hpieces, noneEnds_append, Bool.and_eq_true] at hbody
  obtain ⟨hq', hbody⟩ := hbody
  rw [noneEnds, Bool.and_eq_true, Bool.not_eq_true'] at hbody
  obtain ⟨hopen, hmore⟩ := hbody
  obtain ⟨hends, hnext⟩ := read_cut_brace hopen (w := ['\n']) (by decide)
  rw [swallows, leavesInside_cut_brace hl hq hopen, hback, List.append_assoc, hq,
    RouteDocument.pieces_tableBody he hbrace, hback, noneEnds_append, hq', noneEnds,
    List.append_assoc, List.singleton_append, hends, hnext, noneEnds_entryLines he]
  cases hr : ((Text.pieces q).foldl Reading.next .between).next (l ++ '{' :: v) with
  | between => rfl
  | past => rfl
  | inside =>
      -- After the closing brace no line ends a statement, for none did before.
      rw [hr, noneEnds_inside_iff] at hmore
      have hafter : noneEnds .inside rest = true :=
        (noneEnds_inside_iff rest).mpr fun line hline => hmore line (hrest line hline)
      cases hclose : endsStatement (Text.trim ('}' :: t)) <;>
        simp [noneEnds, Reading.ends, Reading.next, hclose, hafter]

/-- A statement that swallows the table is not ended in the body before. -/
theorem leavesInside_of_swallows {body front inner back : Text}
    (h : RouteDocument.tableParts? body = some (front, inner, back))
    (hbody : noneEnds .between (Text.pieces body) = true) (hs : swallows front back = true) :
    leavesInside (Text.pieces body) = true := by
  obtain ⟨q, l, v, t, more, rest, rfl, hl, hq, hpieces, -, -⟩ := exists_table_lines h
  rw [hpieces, noneEnds_append, noneEnds, Bool.and_eq_true, Bool.and_eq_true,
    Bool.not_eq_true'] at hbody
  obtain ⟨-, hopen, hmore⟩ := hbody
  rw [swallows, leavesInside_cut_brace hl hq hopen, Bool.and_eq_true, decide_eq_true_eq] at hs
  obtain ⟨hinside, -⟩ := hs
  rw [hinside, noneEnds_inside_iff] at hmore
  rw [leavesInside, hpieces, List.foldl_append, List.foldl_cons, hinside, foldl_next_inside hmore]
  rfl

end CanvasFlutter
