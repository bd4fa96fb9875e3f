import CanvasFlutter.Proofs.RouteTable.Rerun
import CanvasFlutter.Proofs.RouteTable.Search

namespace CanvasFlutter

/-!
# `CanvasFlutter.Proofs.RouteTable.Failure` — when there is no table

The table is looked for in the body of a document, and the first header there decides: patching
fails if there is none, or if its brace is not closed. Where the section of directives stands apart
from the table, this is the first header of the file itself.

## Contents
- **Tables.** `ClosedTable`, `refilled`.
- **Apart.** `Apart` says that the section does not reach into the code that follows it.
- **Failure.** `patchPages_fails_without_table`.
-/

open Section RouteDocument Pattern

/-! ## Tables -/

/-- The first place at which such a header ends, and how many characters stand between its brace and
the brace that closes it. -/
def ClosedTable (header : Nat → Prop) (t : Text) (n k : Nat) : Prop :=
  First header n ∧ Scanner.closingBrace? (t.drop n) = some k

/-- A text with the entries of pages in place of so many characters. -/
def refilled (t : Text) (n k : Nat) (pages : List Page) : Text :=
  t.take n ++ (tableBody (tableEntries pages) ++ t.drop (n + k))

/-- The braces that are found are those of the first header of the body. -/
theorem patchPages_eq_ok_iff_closedTable {existing patched : Text} {pages : List Page} :
    patchPages existing pages = .ok patched ↔ ∃ n k,
      ClosedTable (LeftmostCodeHeader .code (parse existing).body) (parse existing).body n k ∧
      patched = { (parse existing).withMaterialImport with
        body := refilled (parse existing).body n k pages }.render (importLines pages) := by
  rw [patchPages_eq_ok_iff]
  constructor
  · rintro ⟨front, inner, back, hparts, rfl⟩
    obtain ⟨hbody, hopen, hclose⟩ := tableParts?_eq_some_iff.mp hparts
    refine ⟨front.length, inner.length, ⟨findTable?_eq_some_iff.mp hopen, ?_⟩, ?_⟩
    · rw [hbody, List.drop_left]
      exact hclose
    · rw [refilled, hbody, List.take_left, ← List.drop_drop, List.drop_left, List.drop_left, filled]
  · rintro ⟨n, k, ⟨hfirst, hclose⟩, rfl⟩
    refine ⟨(parse existing).body.take n, ((parse existing).body.drop n).take k,
      ((parse existing).body.drop n).drop k, ?_, ?_⟩
    · rw [tableParts?, findTable?_eq_some_iff.mpr hfirst, Option.bind_eq_bind, Option.bind_some,
        hclose]
      rfl
    · rw [refilled, filled, List.drop_drop]

/-! ## Apart -/

/-- What follows the section of a file, without the blank lines in front. -/
def afterSection (existing : Text) : Text :=
  ((readDirectives none (Text.pieces existing)).2.dropWhile Text.isBlank).flatten

/-- How many characters the section of a file and the blank lines after it have. -/
def sectionLength (existing : Text) : Nat := existing.length - (afterSection existing).length

/-- How many characters of the body are comments that were in the section. -/
def movedLength (existing : Text) : Nat :=
  (parse existing).body.length - (afterSection existing).length

/-- The section stands apart from the code that follows it. -/
structure Apart (existing : Text) : Prop where
  /-- What follows the section is in code in the body where it is in the file. -/
  marks : (Scanner.mark .code existing).drop (sectionLength existing)
    = (Scanner.mark .code (parse existing).body).drop (movedLength existing)
  /-- No header begins in code in the section. -/
  inSection : ∀ start < sectionLength existing, isCodeAt existing start = true →
    headerEnd? existing start = none
  /-- No header begins in code in the comments that go to the body. -/
  inMoved : ∀ start < movedLength existing, isCodeAt (parse existing).body start = true →
    headerEnd? (parse existing).body start = none
  /-- No header begins out of code and runs into one that begins in code. -/
  leftmost : ∀ start < (parse existing).body.length, isCodeAt (parse existing).body start = true →
    headerEnd? (parse existing).body start ≠ none → ∀ earlier < start,
      headerEnd? (parse existing).body earlier = headerEnd? (parse existing).body start →
        isCodeAt (parse existing).body earlier = true

theorem suffix_existing (existing : Text) : afterSection existing <:+ existing := by
  obtain ⟨c⟩ := exists_cut (Text.pieces existing)
  refine ⟨(linesOf c.stretches ++ c.after.takeWhile Text.isBlank).flatten, ?_⟩
  rw [afterSection, readDirectives_of_cut c, ← List.flatten_append, List.append_assoc,
    List.takeWhile_append_dropWhile, ← c.lines_eq, Text.flatten_pieces]

theorem suffix_body (existing : Text) : afterSection existing <:+ (parse existing).body :=
  List.suffix_append _ _

/-- Behind the section the file is what the body is behind the comments. -/
theorem drop_existing (existing : Text) (k : Nat) :
    existing.drop (sectionLength existing + k)
      = (parse existing).body.drop (movedLength existing + k) := by
  have h := List.suffix_iff_eq_drop.mp (suffix_existing existing)
  have h' := List.suffix_iff_eq_drop.mp (suffix_body existing)
  rw [← List.drop_drop, sectionLength, ← h, ← List.drop_drop, movedLength, ← h']

theorem headerEnd?_existing (existing : Text) (start k : Nat) :
    headerEnd? existing (sectionLength existing + start) = some (sectionLength existing + k)
      ↔ headerEnd? (parse existing).body (movedLength existing + start)
        = some (movedLength existing + k) := by
  have h := headerEnd?_suffix (suffix_existing existing) start
  have h' := headerEnd?_suffix (suffix_body existing) start
  rw [← sectionLength] at h
  rw [← movedLength] at h'
  simp [h, h']

theorem Apart.isCodeAt_existing {existing : Text} (h : Apart existing) (place : Nat) :
    isCodeAt existing (sectionLength existing + place)
      = isCodeAt (parse existing).body (movedLength existing + place) := by
  rw [isCodeAt, isCodeFrom, ← List.getElem?_drop, h.marks, List.getElem?_drop]
  rfl

/-- A header that begins in code ends behind the place before which none begins in code. -/
theorem exists_start_add {t : Text} {a n start : Nat}
    (h : ∀ start < a, isCodeAt t start = true → headerEnd? t start = none)
    (hend : headerEnd? t start = some n) (hcode : isCodeAt t start = true) :
    ∃ p k, start = a + p ∧ n = a + k := by
  have hle : a ≤ start := Nat.le_of_not_lt fun hlt => by simp [h start hlt hcode] at hend
  have hlt := headerEnd?_pos hend
  exact ⟨start - a, n - a, by omega, by omega⟩

theorem Apart.codeHeader_iff {existing : Text} (h : Apart existing) (k : Nat) :
    CodeHeader .code existing (sectionLength existing + k)
      ↔ CodeHeader .code (parse existing).body (movedLength existing + k) := by
  constructor
  · rintro ⟨start, hend, hcode⟩
    obtain ⟨p, -, rfl, -⟩ := exists_start_add h.inSection hend hcode
    exact ⟨_, (headerEnd?_existing existing p k).mp hend, (h.isCodeAt_existing p).symm.trans hcode⟩
  · rintro ⟨start, hend, hcode⟩
    obtain ⟨p, -, rfl, -⟩ := exists_start_add h.inMoved hend hcode
    exact ⟨_, (headerEnd?_existing existing p k).mpr hend, (h.isCodeAt_existing p).trans hcode⟩

/-- The leftmost of the headers that end at a place begins in code if any of them does. -/
theorem Apart.leftmostCodeHeader_iff {existing : Text} (h : Apart existing) (n : Nat) :
    LeftmostCodeHeader .code (parse existing).body n
      ↔ CodeHeader .code (parse existing).body n := by
  refine ⟨LeftmostCodeHeader.codeHeader, ?_⟩
  rintro ⟨start, hend, hcode⟩
  -- The search looks at the leftmost header that ends here.
  obtain ⟨first, hfirst, hmin⟩ :=
    exists_first (p := fun s => headerEnd? (parse existing).body s = some n) hend
  refine ⟨first, hfirst, ?_, fun earlier hlt => hmin earlier hlt⟩
  have hstart : start < (parse existing).body.length := by
    obtain ⟨u, -, hdrop, -⟩ := headerEnd?_eq_some hend
    have := congrArg List.length hdrop
    simp only [List.length_drop, List.length_append, List.length_cons] at this
    omega
  rcases Nat.lt_trichotomy first start with hlt | rfl | hlt
  · exact h.leftmost start hstart hcode (by simp [hend]) first hlt (hfirst.trans hend.symm)
  · exact hcode
  · exact absurd hend (hmin start hlt)

theorem Apart.sectionLength_le {existing : Text} (h : Apart existing) {n : Nat}
    (hn : CodeHeader .code existing n) : sectionLength existing ≤ n := by
  obtain ⟨start, hend, hcode⟩ := hn
  obtain ⟨p, k, -, rfl⟩ := exists_start_add h.inSection hend hcode
  exact Nat.le_add_right ..

theorem Apart.movedLength_le {existing : Text} (h : Apart existing) {n : Nat}
    (hn : CodeHeader .code (parse existing).body n) : movedLength existing ≤ n := by
  obtain ⟨start, hend, hcode⟩ := hn
  obtain ⟨p, k, -, rfl⟩ := exists_start_add h.inMoved hend hcode
  exact Nat.le_add_right ..

/-- In a file whose section stands apart, the table of the body is the table of the file. -/
theorem Apart.closedTable_iff {existing : Text} (h : Apart existing) (n k : Nat) :
    ClosedTable (LeftmostCodeHeader .code (parse existing).body) (parse existing).body
        (movedLength existing + n) k
      ↔ ClosedTable (CodeHeader .code existing) existing (sectionLength existing + n) k := by
  have hleftmost : LeftmostCodeHeader .code (parse existing).body
      = CodeHeader .code (parse existing).body :=
    funext fun n => propext (h.leftmostCodeHeader_iff n)
  rw [ClosedTable, ClosedTable, hleftmost, ← first_add_iff (fun _ => h.sectionLength_le)
    (fun _ => h.movedLength_le) h.codeHeader_iff, drop_existing]

theorem drop_refilled {t : Text} {a : Nat} (h : a ≤ t.length) (n k : Nat) (pages : List Page) :
    (refilled t (a + n) k pages).drop a = refilled (t.drop a) n k pages := by
  have hle : a ≤ (t.take (a + n)).length := by
    rw [List.length_take]
    omega
  rw [refilled, refilled, List.drop_append_of_le_length hle, List.drop_take, List.drop_drop,
    Nat.add_sub_cancel_left, Nat.add_assoc]

/-- What follows the section is the same in both, but for what the table holds. -/
theorem drop_refilled_existing (existing : Text) (n k : Nat) (pages : List Page) :
    (refilled (parse existing).body (movedLength existing + n) k pages).drop (movedLength existing)
      = (refilled existing (sectionLength existing + n) k pages).drop (sectionLength existing) := by
  have h := drop_existing existing 0
  rw [Nat.add_zero, Nat.add_zero] at h
  have hmoved : movedLength existing ≤ (parse existing).body.length := Nat.sub_le ..
  have hsection : sectionLength existing ≤ existing.length := Nat.sub_le ..
  rw [drop_refilled hmoved, drop_refilled hsection, h]

theorem exists_render_eq (d : RouteDocument) (imports : List Text) :
    ∃ intro, d.render imports = intro ++ d.body :=
  ⟨_ ++ ['\n'], by rw [render, List.append_assoc _ ['\n']]; rfl⟩

/-! ## Failure -/

theorem routeTableNotFound_of_error {existing : Text} {pages : List Page} {e : ExportError}
    (h : patchPages existing pages = .error e) : e = .routeTableNotFound := by
  rw [patchPages_eq] at h
  cases hparts : tableParts? (parse existing).body with
  | none => simpa [hparts] using h.symm
  | some parts => simp [hparts] at h

/-- What is written of a file whose section stands apart ends like the file with its first table
filled. -/
theorem Apart.exists_closedTable {existing patched : Text} {pages : List Page}
    (h : Apart existing) (hpatched : patchPages existing pages = .ok patched) :
    ∃ n k intro, ClosedTable (CodeHeader .code existing) existing n k ∧
      sectionLength existing ≤ n ∧
      patched = intro ++ (refilled existing n k pages).drop (sectionLength existing) := by
  obtain ⟨n, k, htable, rfl⟩ := patchPages_eq_ok_iff_closedTable.mp hpatched
  -- The table stands behind the comments that go to the body.
  obtain ⟨i, rfl⟩ := Nat.exists_eq_add_of_le (h.movedLength_le htable.1.1.codeHeader)
  obtain ⟨intro, hrender⟩ := exists_render_eq { (parse existing).withMaterialImport with
    body := refilled (parse existing).body (movedLength existing + i) k pages } (importLines pages)
  refine ⟨sectionLength existing + i, k,
    intro ++ (refilled (parse existing).body (movedLength existing + i) k pages).take
      (movedLength existing), (h.closedTable_iff i k).mp htable, Nat.le_add_right .., ?_⟩
  rw [← drop_refilled_existing, List.append_assoc, List.take_append_drop]
  exact hrender

theorem Apart.exists_patched {existing : Text} (h : Apart existing) {n k : Nat}
    (htable : ClosedTable (CodeHeader .code existing) existing n k) (pages : List Page) :
    ∃ patched, patchPages existing pages = .ok patched := by
  obtain ⟨i, rfl⟩ := Nat.exists_eq_add_of_le (h.sectionLength_le htable.1.1)
  exact ⟨_, patchPages_eq_ok_iff_closedTable.mpr
    ⟨_, k, (h.closedTable_iff i k).mpr htable, rfl⟩⟩

/-- **Failure.** Patching fails only because there is no table, and exactly if the first brace of
the body whose leftmost header begins in code is missing or not closed; else what stands between
these braces is replaced. If the section stands apart, this is so for the first header of the file
that begins in code. -/
theorem patchPages_fails_without_table (existing : Text) (pages : List Page) :
    (∀ e, patchPages existing pages = .error e → e = .routeTableNotFound) ∧
    (∀ patched, patchPages existing pages = .ok patched ↔ ∃ n k,
      ClosedTable (LeftmostCodeHeader .code (parse existing).body) (parse existing).body n k ∧
      patched = { (parse existing).withMaterialImport with
        body := refilled (parse existing).body n k pages }.render (importLines pages)) ∧
    (Apart existing →
      ((∃ patched, patchPages existing pages = .ok patched) ↔
        ∃ n k, ClosedTable (CodeHeader .code existing) existing n k) ∧
      ∀ patched, patchPages existing pages = .ok patched → ∃ n k intro,
        ClosedTable (CodeHeader .code existing) existing n k ∧ sectionLength existing ≤ n ∧
        patched = intro ++ (refilled existing n k pages).drop (sectionLength existing)) := by
  refine ⟨fun e => routeTableNotFound_of_error, fun patched => patchPages_eq_ok_iff_closedTable,
    fun h => ⟨⟨?_, ?_⟩, fun patched => h.exists_closedTable⟩⟩
  · rintro ⟨patched, hpatched⟩
    obtain ⟨n, k, -, htable, -⟩ := h.exists_closedTable hpatched
    exact ⟨n, k, htable⟩
  · rintro ⟨n, k, htable⟩
    exact h.exists_patched htable pages

theorem apart_emptyTable : Apart emptyTable :=
  ⟨by decide, by decide, by decide, by decide⟩

/-- The section of a file with one import stands apart from its table. -/
theorem patchPages_fails_without_table_emptyTable : Apart emptyTable ∧
    ((∃ patched, patchPages emptyTable [] = .ok patched) ↔
      ∃ n k, ClosedTable (CodeHeader .code emptyTable) emptyTable n k) :=
  ⟨apart_emptyTable,
    ((patchPages_fails_without_table emptyTable []).2.2 apart_emptyTable).1⟩

/-- A file whose first table is not closed, and whose second one is. -/
def unclosedTable : Text :=
  ("final Map<String, WidgetBuilder> a = \x7b\n" ++
    "final Map<String, WidgetBuilder> b = \x7b\x7d;\n").toList

/-- The first table decides: a table behind one that is not closed is not looked for. -/
theorem patchPages_unclosedTable :
    CodeHeader .code unclosedTable 77 ∧ Scanner.closingBrace? (unclosedTable.drop 77) = some 0 ∧
    patchPages unclosedTable [] = .error .routeTableNotFound :=
  ⟨⟨45, by decide, by decide⟩, by decide, by rfl⟩

end CanvasFlutter
