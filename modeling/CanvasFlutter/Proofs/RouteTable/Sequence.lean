import CanvasFlutter.Proofs.RouteTable.Frame
import CanvasFlutter.Proofs.RouteTable.Swallow

namespace CanvasFlutter

/-!
# `CanvasFlutter.Proofs.RouteTable.Sequence` — the sequence of directives

A Dart file names its library first, then come imports and exports, then parts. The patcher puts
imports ahead of all directives that it keeps. That keeps the sequence unless the file names its
library: then the first import stands before the name.

## Contents
- **Kinds.** `DirectiveKind`, `Directive.kind?`; `InSequence`.
- **Sections.** `sectionKinds`; `sectionKinds_patched`.
- **Patching.** `inSequence_patched_iff`.
-/

open Section RouteDocument

/-! ## Kinds -/

/-- What a directive does. -/
inductive DirectiveKind where
  /-- It names the library. -/
  | library
  /-- It imports or exports another library. -/
  | dependency
  /-- It takes a part in, or is one. -/
  | part
  deriving DecidableEq, Repr

namespace DirectiveKind

/-- Whether a directive may stand somewhere before another one. -/
def mayPrecede : DirectiveKind → DirectiveKind → Bool
  | _, library => false
  | part, dependency => false
  | _, _ => true

end DirectiveKind

/-- The kind of an entry, by the word it begins with. -/
def Directive.kind? : Directive → Option DirectiveKind
  | comment _ => none
  | statement t =>
      if "library ".toList.isPrefixOf t then some .library
      else if "part ".toList.isPrefixOf t then some .part
      else some .dependency

/-- Kinds of directives in the sequence that the language asks for. -/
def InSequence (kinds : List DirectiveKind) : Prop :=
  kinds.Pairwise fun first second => first.mayPrecede second = true

instance (kinds : List DirectiveKind) : Decidable (InSequence kinds) :=
  inferInstanceAs (Decidable (List.Pairwise _ kinds))

theorem InSequence.sublist {a b : List DirectiveKind} (h : InSequence b) (hab : a.Sublist b) :
    InSequence a := List.Pairwise.sublist hab h

/-- Dependencies may stand ahead of directives in sequence exactly if none of these names the
library. -/
theorem inSequence_dependencies_append {n : Nat} {kinds : List DirectiveKind}
    (h : InSequence kinds) :
    InSequence (List.replicate n .dependency ++ kinds) ↔ n = 0 ∨ .library ∉ kinds := by
  constructor
  · intro hall
    obtain ⟨-, -, hbefore⟩ := List.pairwise_append.mp hall
    cases n with
    | zero => exact .inl rfl
    | succ n =>
        refine .inr fun hlibrary => ?_
        exact absurd (hbefore .dependency (by simp) .library hlibrary) (by decide)
  · rintro (rfl | hlibrary)
    · exact h
    · refine List.pairwise_append.mpr ⟨?_, h, ?_⟩
      · exact List.pairwise_replicate.mpr (.inr rfl)
      · intro first hfirst second hsecond
        obtain rfl := List.eq_of_mem_replicate hfirst
        cases second with
        | library => exact absurd hsecond hlibrary
        | dependency => rfl
        | part => rfl

/-! ## Sections -/

/-- The kinds of the directives in the section of a file. -/
def sectionKinds (t : Text) : List DirectiveKind :=
  (readDirectives none (Text.pieces t)).1.filterMap Directive.kind?

theorem head?_dropLineEnd {c : Char} (hc : Text.isWhite c = false) (p : Text) :
    (Text.dropLineEnd (c :: p)).head? = some c := by
  -- the line end is white space, so it does not reach the first character
  have hkeep : ∀ (rest lineEnd : Text), c :: p = rest.reverse ++ lineEnd →
      (∀ d ∈ lineEnd, Text.isWhite d = true) → rest.reverse.head? = some c := by
    intro rest lineEnd heq hwhite
    cases hrest : rest.reverse with
    | nil =>
        rw [hrest, List.nil_append] at heq
        have := hwhite c (by simp [← heq])
        rw [hc] at this
        cases this
    | cons d rest =>
        rw [hrest, List.cons_append] at heq
        rw [(List.cons.inj heq).1]
        rfl
  unfold Text.dropLineEnd
  split
  · next rest h =>
      exact hkeep rest ['\r', '\n'] (by simpa using congrArg List.reverse h)
        (Text.forall_of_all (by decide))
  · next rest _ h =>
      exact hkeep rest ['\n'] (by simpa using congrArg List.reverse h)
        (Text.forall_of_all (by decide))
  · rfl

/-- A statement that does not begin like an import imports no page. -/
theorem isPageImport_statement_cons {c : Char} (hc : Scanner.isPlain c = true)
    (hvisible : Text.isWhite c = false) (hi : c ≠ 'i') (t : Text) :
    (Directive.statement (c :: t)).isPageImport = false := by
  have hnewline : c ≠ '\n' := by
    rintro rfl
    exact absurd hvisible (by decide)
  obtain ⟨p, ps, hpieces⟩ := Text.exists_pieces_cons hnewline t
  obtain ⟨l, hl⟩ : ∃ l, Text.dropLineEnd (c :: p) = c :: l := by
    have hhead := head?_dropLineEnd hvisible p
    cases hline : Text.dropLineEnd (c :: p) with
    | nil => simp [hline] at hhead
    | cons d l =>
        rw [hline] at hhead
        exact ⟨l, by rw [Option.some.inj hhead]⟩
  have hcode : codePart (c :: l) = c :: Text.trimEnd (beforeComment .code l) := by
    have hbefore := uncommented_of_isPlain hc l
    rw [List.singleton_append] at hbefore
    rw [codePart, hbefore]
    exact Text.trim_append_visible [] hvisible _
  rw [Directive.isPageImport, Text.lines, hpieces, List.map_cons, List.map_cons, hl, hcode,
    List.filter_cons_of_pos (by simp)]
  generalize ((ps.map Text.dropLineEnd).map codePart).filter (fun part => !part.isEmpty) = parts
  obtain ⟨rest, hjoin⟩ : ∃ rest, Text.joinWith [' ']
      ((c :: Text.trimEnd (beforeComment .code l)) :: parts) = c :: rest := by
    cases parts <;> exact ⟨_, rfl⟩
  have hstart : Text.after? "import".toList (c :: rest) = none := by
    have hne : ('i' == c) = false := by simpa using Ne.symm hi
    rw [Text.after?, if_neg]
    simp [List.isPrefixOf, hne]
  rw [hjoin, Pattern.isPageImport, hstart]
  rfl

theorem isPageImport_of_library {e : Directive} (h : e.kind? = some .library) :
    e.isPageImport = false := by
  cases e with
  | comment t => rfl
  | statement t =>
      by_cases hstart : "library ".toList.isPrefixOf t = true
      · obtain ⟨rest, rfl⟩ := List.isPrefixOf_iff_prefix.mp hstart
        exact isPageImport_statement_cons (by decide) (by decide) (by decide) _
      · rw [Directive.kind?, if_neg hstart] at h
        split at h <;> cases h

theorem kinds_comments {entries : List Directive} (h : ∀ e ∈ entries, e.isComment = true) :
    entries.filterMap Directive.kind? = [] := by
  rw [List.filterMap_eq_nil_iff]
  intro e he
  cases e with
  | comment t => rfl
  | statement t => cases h _ he

theorem kinds_importLines (pages : List Page) :
    ((importLines pages).map Directive.statement).filterMap Directive.kind?
      = List.replicate (importLines pages).length .dependency := by
  have hkind : ∀ i ∈ importLines pages, (Directive.statement i).kind? = some .dependency := by
    intro i hi
    obtain ⟨r, -, rfl⟩ := List.mem_map.mp hi
    rw [Route.toList_importLine]
    rfl
  generalize importLines pages = imports at hkind ⊢
  induction imports with
  | nil => rfl
  | cons i imports ih =>
      rw [List.map_cons, List.filterMap_cons_some (hkind i (by simp)),
        ih fun j hj => hkind j (by simp [hj]), List.length_cons, List.replicate_succ]

/-- What is kept of a section: all kinds in their sequence, but for some dependencies. -/
theorem kinds_directives (existing : Text) :
    ((parse existing).directives.filterMap Directive.kind?).Sublist (sectionKinds existing) ∧
    (.library ∈ (parse existing).directives.filterMap Directive.kind?
      ↔ .library ∈ sectionKinds existing) := by
  obtain ⟨c⟩ := exists_cut (Text.pieces existing)
  obtain ⟨moved, hkept, hleading, -, -, hmoved, -⟩ := parse_of_cut c
  have hkinds : (parse existing).directives.filterMap Directive.kind?
      = ((entriesOf c.stretches).filter fun e => !e.isPageImport).filterMap Directive.kind? := by
    rw [hkept, List.filterMap_append, List.filterMap_append, kinds_comments hleading,
      kinds_comments hmoved,
      List.nil_append, List.append_nil]
  rw [sectionKinds, readDirectives_of_cut c, hkinds]
  refine ⟨List.filter_sublist.filterMap _, ?_⟩
  simp only [List.mem_filterMap, List.mem_filter]
  constructor
  · rintro ⟨e, ⟨he, -⟩, hkind⟩
    exact ⟨e, he, hkind⟩
  · rintro ⟨e, he, hkind⟩
    exact ⟨e, ⟨he, by simp [isPageImport_of_library hkind]⟩, hkind⟩

/-- The written imports, and then the directives that are kept. -/
theorem sectionKinds_patched {existing patched : Text} {pages : List Page}
    (h : patchPages existing pages = .ok patched) (hs : swallowsTable existing = false) :
    sectionKinds patched = List.replicate (importLines pages).length .dependency
      ++ (parse existing).withMaterialImport.directives.filterMap Directive.kind? := by
  obtain ⟨front, inner, back, hparts, rfl⟩ := patchPages_eq_ok_iff.mp h
  have hswallows : swallows front back = false := by
    rwa [swallowsTable, hparts, Option.any_some] at hs
  have hbody := noneEnds_refill hparts (noneEnds_parse_body existing)
    (fun e he => tableEntry_of_mem he : ∀ e ∈ tableEntries pages, TableEntry e)
  rw [hswallows] at hbody
  -- nothing of the body is read for a directive
  have hread : readDirectives none (['\n'] :: Text.pieces
      ((parse existing).filled front back pages).body)
        = ([], ['\n'] :: Text.pieces ((parse existing).filled front back pages).body) :=
    readDirectives_of_noneEnds hbody
  have hordered := Ordered.filled hparts pages
  rw [sectionKinds, readDirectives_render hordered (mentionsMaterial_filled ..)
    fun i hi => pageImport_of_mem hi, hread]
  simp only [List.append_nil, List.filterMap_append, kinds_comments hordered.leading_comment,
    kinds_importLines, List.nil_append]
  rfl

/-- The import of the material library goes ahead of the directives where none mentions it. -/
theorem kinds_withMaterialImport (existing : Text) :
    (parse existing).withMaterialImport.directives.filterMap Directive.kind?
      = List.replicate (if (parse existing).directives.any Directive.isMaterialImport then 0 else 1)
          .dependency ++ (parse existing).directives.filterMap Directive.kind? := by
  rw [withMaterialImport]
  split <;> rfl

/-! ## Patching -/

/-- **The sequence of directives.** Where no statement swallows the table, a section in sequence is
in sequence in the patched file exactly if it does not name the library, or if nothing is put ahead
of it: there are no pages, and a directive mentions the material library. -/
theorem inSequence_patched_iff {existing patched : Text} {pages : List Page}
    (h : patchPages existing pages = .ok patched) (hs : swallowsTable existing = false)
    (hsequence : InSequence (sectionKinds existing)) :
    InSequence (sectionKinds patched) ↔ .library ∉ sectionKinds existing ∨
      (pages = [] ∧ (parse existing).MentionsMaterial) := by
  obtain ⟨hkept, hlibrary⟩ := kinds_directives existing
  have hlength : (importLines pages).length = pages.length := by
    rw [importLines, List.length_map, length_planRoutes]
  rw [sectionKinds_patched h hs, kinds_withMaterialImport, ← List.append_assoc,
    List.replicate_append_replicate, inSequence_dependencies_append (hsequence.sublist hkept),
    hlibrary, hlength, or_comm, Nat.add_eq_zero_iff, List.length_eq_zero_iff, MentionsMaterial]
  simp

/-- A file that names its library. -/
def namedLibrary : Text :=
  "library app;\n\nfinal Map<String, WidgetBuilder> routes = \x7b\x7d;\n".toList

/-- The file with the import of the material library. -/
def namedLibraryPatched : Text :=
  ("import 'package:flutter/material.dart';\nlibrary app;\n\n" ++
    "final Map<String, WidgetBuilder> routes = \x7b\n\x7d;\n").toList

/-- The sequence of imports, exports and parts is kept where a page takes the place of another. -/
theorem inSequence_patched_iff_olderRoutes :
    patchPages olderRoutes [⟨"Home", []⟩] = .ok olderRoutesPatched ∧
    swallowsTable olderRoutes = false ∧
    sectionKinds olderRoutes = [.dependency, .dependency, .dependency, .part] ∧
    InSequence (sectionKinds olderRoutes) ∧ InSequence (sectionKinds olderRoutesPatched) := by
  have hswallows : swallowsTable olderRoutes = false := by decide +kernel
  have hkinds : sectionKinds olderRoutes = [.dependency, .dependency, .dependency, .part] := by
    decide +kernel
  have hsequence : InSequence (sectionKinds olderRoutes) := by
    rw [hkinds]
    decide
  refine ⟨patchPages_olderRoutes, hswallows, hkinds, hsequence, ?_⟩
  refine (inSequence_patched_iff patchPages_olderRoutes hswallows hsequence).mpr (.inl ?_)
  rw [hkinds]
  decide

/-- A file that names its library has no sequence after patching. -/
theorem not_inSequence_namedLibrary :
    patchPages namedLibrary [] = .ok namedLibraryPatched ∧
    InSequence (sectionKinds namedLibrary) ∧ ¬ InSequence (sectionKinds namedLibraryPatched) :=
  ⟨by rfl, by decide, by decide⟩

end CanvasFlutter
