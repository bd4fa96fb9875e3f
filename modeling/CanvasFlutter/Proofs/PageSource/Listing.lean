import Mathlib.Data.List.Nodup
import CanvasFlutter.Proofs.PageSource.Project
import CanvasFlutter.Proofs.Text.Letters

namespace CanvasFlutter

/-!
# `CanvasFlutter.Proofs.PageSource.Listing` — listing some pages agrees with listing all

Pages are selected after all of them have been compiled, so that a page gets its names from the
whole canvas and its block is the same in every listing. A block begins with a comment that names
its file, and no page holds a comment of its own, so a listing shows the blocks that were put into
it and no other, whatever stands in the texts of its pages.

## Contents
- **Comments.** `read_comment`, `not_comment_infix`: what can be read as tokens holds no line that
  ends in a comment.
- **Lines.** `infix_line`: what ends with its line stands within one line.
- **Blocks.** `heading`; `block_infix_listing_iff`.
- **Words.** `AsksFor` says which pages a word asks for; `selects_iff_asksFor`.
- **Selection.** `exists_chosen`; `Asked`, `compileSource_agrees`.
-/

open Dart Lexer

/-! ## Comments -/

namespace Dart.Lexer

/-- A slash stands in a string, or else in the sign `~/`. -/
theorem step?_slash {mode next : Mode} {ended : List Token}
    (h : mode.step? '/' = some (ended, next)) :
    (∃ source, next = .quoted source) ∨ next = .mark "~/".toList := by
  have hsign : ∀ s ∈ operators, s.getLast? = some '/' → s = "~/".toList := by decide
  have hbegin : begin? '/' = none := by decide
  have hgo : ∃ moved, mode.goOn? '/' = some moved := by
    cases hgo : mode.goOn? '/' with
    | some moved => exact ⟨moved, rfl⟩
    | none =>
        rw [Mode.step?, hgo, hbegin] at h
        cases mode.tokens? <;> simp at h
  obtain ⟨moved, hmoved⟩ := hgo
  obtain rfl : moved = next := by
    rw [Mode.step?, hmoved] at h
    exact congrArg Prod.snd (Option.some.inj h)
  cases mode with
  | between => simp [Mode.goOn?] at hmoved
  | word source => simp [Mode.goOn?, show isWordChar '/' = false by decide] at hmoved
  | number stage source =>
      have hstage : stage.next? '/' = none := by cases stage <;> decide
      rw [Mode.goOn?, hstage] at hmoved
      simp at hmoved
  | quoted source => exact .inl ⟨_, (Option.some.inj hmoved).symm⟩
  | escaped source => exact .inl ⟨_, (Option.some.inj hmoved).symm⟩
  | closed source => simp [Mode.goOn?] at hmoved
  | mark source =>
      right
      have hdigit : ¬ (source = ['.'] ∧ '/'.isDigit = true) := fun h => absurd h.2 (by decide)
      rw [Mode.goOn?, if_neg hdigit] at hmoved
      split at hmoved
      · next hmem =>
          obtain rfl := Option.some.inj hmoved
          rw [hsign _ hmem (by simp)]
      · simp at hmoved

theorem run_verbatim {l : Text} (h : ∀ c ∈ l, IsVerbatim c) (source : Text) :
    ∃ after, run (.quoted source) l = some ([], .quoted after) := by
  induction l generalizing source with
  | nil => exact ⟨source, rfl⟩
  | cons c l ih =>
      obtain ⟨hc, hl⟩ := List.forall_mem_cons.mp h
      obtain ⟨after, hafter⟩ := ih hl (source ++ [c])
      have hrun := run_escape source c l
      rw [show Literal.escape c = [c] from hc, List.singleton_append] at hrun
      exact ⟨after, hrun.trans hafter⟩

/-- A string does not go on beyond the end of a line. -/
theorem read_quoted_line {l u : Text} (hl : ∀ c ∈ l, IsVerbatim c) (hu : ∀ c ∈ u.head?, c = '\n')
    (source : Text) : read (.quoted source) (l ++ u) = none := by
  obtain ⟨after, hafter⟩ := run_verbatim hl source
  rw [read_append, hafter, Option.bind_some, Option.map_eq_none_iff]
  cases u with
  | nil => rfl
  | cons c u =>
      obtain rfl := hu c rfl
      rw [read_cons]
      rfl

/-- A line that ends in a comment is not read: two slashes stand side by side only in a string, and
a string ends before its line does. -/
theorem read_comment {l u : Text} (hl : ∀ c ∈ l, IsVerbatim c) (hu : ∀ c ∈ u.head?, c = '\n')
    (mode : Mode) : read mode ('/' :: '/' :: (l ++ u)) = none := by
  rw [read_cons]
  cases hfirst : mode.step? '/' with
  | none => rfl
  | some first =>
      rw [Option.bind_some, Option.map_eq_none_iff]
      obtain ⟨source, hsource⟩ | hmark := step?_slash hfirst
      · have hslash : ∀ c ∈ '/' :: l, IsVerbatim c := List.forall_mem_cons.mpr ⟨by decide, hl⟩
        rw [hsource]
        exact read_quoted_line hslash hu source
      · have hstep : (Mode.mark "~/".toList).step? '/' = none := by decide
        rw [hmark, read_cons, hstep]
        rfl

/-- What can be read as tokens holds no line that ends in a comment. -/
theorem not_comment_infix {t l : Text} {ts : List Token} (h : tokens? t = some ts)
    (hl : ∀ c ∈ l, IsVerbatim c) : ¬ '/' :: '/' :: l ++ ['\n'] <:+: t ++ ['\n'] := by
  have hnone : ∀ before u, (∀ c ∈ u.head?, c = '\n') → t ≠ before ++ '/' :: '/' :: (l ++ u) := by
    rintro before u hu rfl
    rw [tokens?, read_append] at h
    cases hrun : run .between before with
    | none => simp [hrun] at h
    | some ended => simp [hrun, read_comment hl hu] at h
  rintro ⟨before, after, heq⟩
  obtain rfl | ⟨after, last, rfl⟩ := List.eq_nil_or_concat after
  · rw [List.append_nil, ← List.append_assoc] at heq
    have hinit := List.append_inj_left' heq rfl
    exact hnone before [] (by simp) (by simp [← hinit])
  · rw [List.concat_eq_append, ← List.append_assoc] at heq
    have hinit := List.append_inj_left' heq rfl
    exact hnone before ('\n' :: after) (by simp) (by simp [← hinit])

end Dart.Lexer

/-! ## Lines -/

namespace Text

/-- A line at the start of a text is no longer than the first line of the text. -/
theorem prefix_line {l s t : Text} (hl : '\n' ∉ l) (h : l ++ ['\n'] <+: s ++ '\n' :: t) :
    l ++ ['\n'] <+: s ++ ['\n'] := by
  have hs : s ++ ['\n'] <+: s ++ '\n' :: t := ⟨t, by simp⟩
  rcases List.prefix_or_prefix_of_prefix h hs with h | h
  · exact h
  · rcases List.prefix_concat_iff.mp h with heq | hstart
    · exact heq ▸ List.prefix_rfl
    · exact absurd (hstart.mem (by simp)) hl

/-- What ends with its line stands within one line. -/
theorem infix_line {l s t : Text} (hl : '\n' ∉ l) (h : l ++ ['\n'] <:+: s ++ '\n' :: t) :
    l ++ ['\n'] <:+: s ++ ['\n'] ∨ l ++ ['\n'] <:+: t := by
  induction s with
  | nil =>
      rcases List.infix_cons_iff.mp h with hstart | hinfix
      · exact .inl (prefix_line (s := []) hl hstart).isInfix
      · exact .inr hinfix
  | cons c s ih =>
      rcases List.infix_cons_iff.mp h with hstart | hinfix
      · exact .inl (prefix_line (s := c :: s) hl hstart).isInfix
      · exact (ih hinfix).imp_left List.infix_cons

/-- What ends with the only line of a text is the end of it. -/
theorem suffix_of_infix_line {l s : Text} (hs : '\n' ∉ s) (h : l ++ ['\n'] <:+: s ++ ['\n']) :
    l <:+ s := by
  obtain ⟨before, after, heq⟩ := h
  obtain rfl | ⟨after, last, rfl⟩ := List.eq_nil_or_concat after
  · rw [List.append_nil, ← List.append_assoc] at heq
    exact ⟨before, List.append_inj_left' heq rfl⟩
  · rw [List.concat_eq_append, ← List.append_assoc] at heq
    have hinit := List.append_inj_left' heq rfl
    exact absurd (by simp [← hinit]) hs

theorem trim_of_visible {t : Text} (h : ∀ c ∈ t, isWhite c = false) : trim t = t := by
  obtain ⟨a, b, ha, hb, ht⟩ := exists_eq_trim t
  have hnil : ∀ s : Text, isBlank s = true → (∀ c ∈ s, c ∈ t) → s = [] := by
    intro s hs hmem
    refine List.eq_nil_iff_forall_not_mem.mpr fun c hc => ?_
    have hwhite := List.all_eq_true.mp hs c hc
    rw [h c (hmem c hc)] at hwhite
    exact Bool.noConfusion hwhite
  have hbefore : a = [] := hnil a ha fun c hc => by rw [ht]; simp [hc]
  have hafter : b = [] := hnil b hb fun c hc => by rw [ht]; simp [hc]
  rw [hbefore, hafter] at ht
  simpa using ht.symm

end Text

/-! ## Blocks -/

/-- The comment with the file of a page. -/
def GeneratedPage.heading (page : GeneratedPage) : Text :=
  "// ".toList ++ page.route.file.toList

theorem GeneratedPage.block_eq (page : GeneratedPage) :
    page.block = page.heading ++ '\n' :: page.source := rfl

theorem Route.Named.isVerbatim_file {r : Route} (h : r.Named) :
    ∀ c ∈ r.file.toList, IsVerbatim c ∧ c ≠ ' ' := by
  have hfile : r.file.toList = "lib/pages".toList ++ ("/".toList ++ r.importedPath) := by
    rw [importedPath]
    exact toList_append_five ..
  have hfixed : ∀ t : Text, t.all (fun c => decide (IsVerbatim c ∧ c ≠ ' ')) = true →
      ∀ c ∈ t, IsVerbatim c ∧ c ≠ ' ' := fun _ => Text.forall_of_all
  have hpath := h.forall_importedPath (p := fun c => IsVerbatim c ∧ c ≠ ' ')
    (fun t ht c hc => ⟨isVerbatim_of_isName ht c hc, fun hspace => by
      subst hspace
      exact absurd (ht _ hc) (by decide)⟩) (by decide) (by decide)
  rw [hfile]
  exact List.forall_mem_append.mpr
    ⟨hfixed _ (by decide), List.forall_mem_append.mpr ⟨hfixed _ (by decide), hpath⟩⟩

variable {pages : List Page} {g other : GeneratedPage}

theorem named_of_mem_compilePages (hg : g ∈ compilePages pages) : g.route.Named :=
  named_of_mem_planRoutes (mem_planRoutes hg)

theorem isVerbatim_heading (hg : g ∈ compilePages pages) :
    ∃ l, g.heading = '/' :: '/' :: l ∧ ∀ c ∈ l, IsVerbatim c :=
  ⟨' ' :: g.route.file.toList, rfl, List.forall_mem_cons.mpr
    ⟨by decide, fun c hc => ((named_of_mem_compilePages hg).isVerbatim_file c hc).1⟩⟩

theorem newline_not_mem_heading (hg : g ∈ compilePages pages) : '\n' ∉ g.heading := by
  obtain ⟨l, hheading, hl⟩ := isVerbatim_heading hg
  rw [hheading]
  intro hmem
  have hverbatim : ∀ c ∈ '/' :: '/' :: l, IsVerbatim c :=
    List.forall_mem_cons.mpr ⟨by decide, List.forall_mem_cons.mpr ⟨by decide, hl⟩⟩
  exact absurd (hverbatim _ hmem) (by decide)

/-- The heading of a page stands nowhere in the source of a page. -/
theorem not_heading_infix_source (hg : g ∈ compilePages pages)
    (hother : other ∈ compilePages pages) :
    ¬ g.heading ++ ['\n'] <:+: other.source ++ ['\n'] := by
  obtain ⟨l, hheading, hl⟩ := isVerbatim_heading hg
  obtain ⟨nodes, htokens⟩ := tokens?_source hother
  rw [hheading]
  exact not_comment_infix htokens hl

/-- Generated pages of one canvas are told apart by their slugs. -/
theorem eq_of_slug (hg : g ∈ compilePages pages) (hother : other ∈ compilePages pages)
    (h : g.route.slug = other.route.slug) : g = other :=
  List.inj_on_of_nodup_map (nodup_routes (f := (·.slug)) (fun _ _ h => h) pages) hg hother h

/-- The heading of a page stands in no other heading. -/
theorem eq_of_heading_infix (hg : g ∈ compilePages pages) (hother : other ∈ compilePages pages)
    (h : g.heading ++ ['\n'] <:+: other.heading ++ ['\n']) : g = other := by
  have hspace : ∀ x ∈ compilePages pages, ' ' ∉ x.route.file.toList := fun x hx hmem =>
    ((named_of_mem_compilePages hx).isVerbatim_file _ hmem).2 rfl
  have hfile : ∀ x : GeneratedPage, ' ' :: x.route.file.toList <:+ x.heading := fun x =>
    ⟨"//".toList, rfl⟩
  have hsuffix := (hfile g).trans
    (Text.suffix_of_infix_line (newline_not_mem_heading hother) h)
  -- Both files are what follows the last space.
  have heq : g.route.file.toList = other.route.file.toList := by
    rcases List.suffix_or_suffix_of_suffix hsuffix (hfile other) with h | h
    · rcases List.suffix_cons_iff.mp h with heq | hlater
      · exact (List.cons.inj heq).2
      · exact absurd (hlater.mem List.mem_cons_self) (hspace other hother)
    · rcases List.suffix_cons_iff.mp h with heq | hlater
      · exact (List.cons.inj heq).2.symm
      · exact absurd (hlater.mem List.mem_cons_self) (hspace g hg)
  exact eq_of_slug hg hother (Route.file_inj (String.toList_inj.mp heq))

theorem listing_singleton (g : GeneratedPage) : listing [g] = g.block := rfl

theorem listing_cons (g next : GeneratedPage) (gs : List GeneratedPage) :
    listing (g :: next :: gs) = g.block ++ '\n' :: listing (next :: gs) := by
  show g.block ++ ['\n'] ++ listing (next :: gs) = _
  rw [List.append_assoc]
  rfl

/-- A heading in a listing is the heading of a page that is listed. -/
theorem mem_of_heading_infix {gs : List GeneratedPage} (hgs : ∀ x ∈ gs, x ∈ compilePages pages)
    (hg : g ∈ compilePages pages) (h : g.heading ++ ['\n'] <:+: listing gs) : g ∈ gs := by
  have hline := newline_not_mem_heading hg
  induction gs with
  | nil =>
      have hlength := h.length_le
      simp [listing, Text.joinWith] at hlength
  | cons x gs ih =>
      obtain ⟨hx, hrest⟩ := List.forall_mem_cons.mp hgs
      have hsource := not_heading_infix_source hg hx
      cases gs with
      | nil =>
          rw [listing_singleton, GeneratedPage.block_eq] at h
          rcases Text.infix_line hline h with hhere | hthere
          · exact eq_of_heading_infix hg hx hhere ▸ List.mem_cons_self
          · exact absurd (hthere.trans (List.prefix_append _ _).isInfix) hsource
      | cons next gs =>
          rw [listing_cons, GeneratedPage.block_eq, List.append_assoc, List.cons_append] at h
          rcases Text.infix_line hline h with hhere | hthere
          · exact eq_of_heading_infix hg hx hhere ▸ List.mem_cons_self
          · rcases Text.infix_line hline hthere with hinside | hlater
            · exact absurd hinside hsource
            · exact List.mem_cons_of_mem x (ih hrest hlater)

/-- **A listing shows the blocks that were put into it and no other.** -/
theorem block_infix_listing_iff {gs : List GeneratedPage} (hgs : ∀ x ∈ gs, x ∈ compilePages pages)
    (hg : g ∈ compilePages pages) : g.block <:+: listing gs ↔ g ∈ gs := by
  constructor
  · intro h
    have hheading : g.heading ++ ['\n'] <+: g.block := ⟨g.source, by simp [GeneratedPage.block_eq]⟩
    exact mem_of_heading_infix hgs hg (hheading.isInfix.trans h)
  · intro h
    clear hgs
    induction gs with
    | nil => exact absurd h List.not_mem_nil
    | cons x gs ih =>
        cases gs with
        | nil =>
            obtain rfl := List.mem_singleton.mp h
            exact (listing_singleton g).symm ▸ List.infix_rfl
        | cons next gs =>
            rw [listing_cons]
            rcases List.mem_cons.mp h with rfl | h
            · exact (List.prefix_append _ _).isInfix
            · exact (ih h).trans ⟨x.block ++ ['\n'], [], by simp⟩

/-! ## Words -/

/-- A word asks for a page by its name, up to white space at the ends and the case of ASCII letters,
or by its slug or its path. -/
def AsksFor (word : Text) (page : Page) (route : Route) : Prop :=
  Text.SameName page.name.toList word ∨ route.slug.toList = Text.trim word
    ∨ route.path.toList = Text.trim word

theorem selects_iff_asksFor {word : Text} {page : Page} {route : Route} :
    selects (Text.trim word) page route = true ↔ AsksFor word page route := by
  rw [selects, Bool.or_eq_true, Bool.or_eq_true, Text.equalsIgnoringCase_trim_iff, beq_iff_eq,
    beq_iff_eq, AsksFor, or_assoc]

theorem toList_path (r : Route) : r.path.toList = '/' :: r.slug.toList := by
  rw [Route.path, String.toList_append]
  rfl

theorem Route.Named.trim_path {r : Route} (h : r.Named) :
    Text.trim r.path.toList = r.path.toList := by
  refine Text.trim_of_visible fun c hc => ?_
  rw [toList_path] at hc
  rcases List.mem_cons.mp hc with rfl | hc
  · decide
  · exact Text.forall_isAsciiWord (p := fun c => Text.isWhite c = false) (by decide) (h.slug c hc)

/-- The path of a page asks for the page with its slug, and for pages that are called like it. -/
theorem asksFor_path_iff {r other : Route} (h : r.Named) (hother : other.Named) {page : Page} :
    AsksFor r.path.toList page other
      ↔ other.slug = r.slug ∨ Text.SameName page.name.toList r.path.toList := by
  have hslug : other.slug.toList ≠ r.path.toList := fun heq => by
    have hmem : '/' ∈ other.slug.toList := by
      rw [heq, toList_path]
      exact List.mem_cons_self
    exact absurd (hother.slug _ hmem) (by decide)
  have hpath : other.path.toList = r.path.toList ↔ other.slug = r.slug :=
    ⟨fun heq => Route.path_inj (String.toList_inj.mp heq), fun heq => by
      rw [toList_path, toList_path, heq]⟩
  rw [AsksFor, h.trim_path, hpath]
  constructor
  · rintro (hname | heq | heq)
    · exact .inr hname
    · exact absurd heq hslug
    · exact .inl heq
  · rintro (heq | hname)
    · exact .inr (.inr heq)
    · exact .inl hname

/-! ## Selection -/

/-- What is kept of a list are the members at certain places, in order. -/
theorem exists_chosen {α : Type} (p : α → Bool) (l : List α) : ∃ chosen : List Nat,
    chosen.Pairwise (· < ·) ∧ (∀ i, i ∈ chosen ↔ ∃ a, l[i]? = some a ∧ p a = true)
      ∧ List.Forall₂ (fun i a => l[i]? = some a) chosen (l.filter p) := by
  induction l with
  | nil => exact ⟨[], .nil, by simp, .nil⟩
  | cons a l ih =>
      -- What is kept behind the first member stands one place further on.
      obtain ⟨chosen, hordered, hmem, hkept⟩ := ih
      have hordered' : (chosen.map (· + 1)).Pairwise (· < ·) :=
        List.pairwise_map.mpr (hordered.imp fun h => Nat.succ_lt_succ h)
      have hkept' : List.Forall₂ (fun i b => (a :: l)[i]? = some b) (chosen.map (· + 1))
          (l.filter p) := List.forall₂_map_left_iff.mpr hkept
      have hmem' : ∀ i,
          i + 1 ∈ chosen.map (· + 1) ↔ ∃ b, (a :: l)[i + 1]? = some b ∧ p b = true := by
        intro i
        rw [List.getElem?_cons_succ, ← hmem]
        simp
      by_cases ha : p a = true
      · have hfirst : (0 :: chosen.map (· + 1)).Pairwise (· < ·) :=
          List.pairwise_cons.mpr ⟨by simp, hordered'⟩
        refine ⟨0 :: chosen.map (· + 1), hfirst, fun i => ?_, ?_⟩
        · cases i with
          | zero => simp [ha]
          | succ i => simpa using hmem' i
        · rw [List.filter_cons_of_pos ha]
          exact .cons rfl hkept'
      · refine ⟨chosen.map (· + 1), hordered', fun i => ?_, ?_⟩
        · cases i with
          | zero => simp [ha]
          | succ i => exact hmem' i
        · rwa [List.filter_cons_of_neg ha]

/-- A word asks for the page at a place. -/
def Asked (pages : List Page) (word : Text) (i : Nat) : Prop :=
  ∃ page g, pages[i]? = some page ∧ (compilePages pages)[i]? = some g ∧ AsksFor word page g.route

theorem selectPages_eq (wanted : Text) (pages : List Page) :
    selectPages wanted pages = (((compilePages pages).zip pages).filter fun pair =>
      selects wanted pair.2 pair.1.route).map Prod.fst := by
  rw [selectPages, ← List.filterMap_eq_map, List.filterMap_filter]
  rfl

/-- The pages that are selected are those that the word asks for, in page order. -/
theorem exists_selected (pages : List Page) (word : Text) : ∃ chosen : List Nat,
    chosen.Pairwise (· < ·) ∧ (∀ i, i ∈ chosen ↔ Asked pages word i)
      ∧ List.Forall₂ (fun i g => (compilePages pages)[i]? = some g) chosen
        (selectPages (Text.trim word) pages) := by
  obtain ⟨chosen, hordered, hmem, hkept⟩ := exists_chosen
    (fun pair : GeneratedPage × Page => selects (Text.trim word) pair.2 pair.1.route)
    ((compilePages pages).zip pages)
  refine ⟨chosen, hordered, fun i => ?_, ?_⟩
  · rw [hmem, Asked]
    constructor
    · rintro ⟨⟨g, page⟩, hpair, hselects⟩
      obtain ⟨hg, hpage⟩ := List.getElem?_zip_eq_some.mp hpair
      exact ⟨page, g, hpage, hg, selects_iff_asksFor.mp hselects⟩
    · rintro ⟨page, g, hpage, hg, hasks⟩
      exact ⟨(g, page), List.getElem?_zip_eq_some.mpr ⟨hg, hpage⟩, selects_iff_asksFor.mpr hasks⟩
  · rw [selectPages_eq, List.forall₂_map_right_iff]
    exact hkept.imp fun _ _ hpair => (List.getElem?_zip_eq_some.mp hpair).1

theorem mem_selectPages_iff {word : Text} {i : Nat} {page : Page} (hpage : pages[i]? = some page)
    (hg : (compilePages pages)[i]? = some g) :
    g ∈ selectPages (Text.trim word) pages ↔ AsksFor word page g.route := by
  rw [selectPages_eq, List.mem_map]
  constructor
  · rintro ⟨⟨found, called⟩, hmem, rfl⟩
    obtain ⟨hpair, hselects⟩ := List.mem_filter.mp hmem
    obtain ⟨j, hj⟩ := List.mem_iff_getElem?.mp hpair
    obtain ⟨hfound, hcalled⟩ := List.getElem?_zip_eq_some.mp hj
    have hnodup : (compilePages pages).Nodup :=
      (nodup_routes (f := (·.slug)) (fun _ _ h => h) pages).of_map
    obtain rfl : i = j :=
      (List.getElem?_inj (List.getElem?_eq_some_iff.mp hg).1 hnodup).mp (hg.trans hfound.symm)
    obtain rfl : called = page := Option.some.inj (hcalled.symm.trans hpage)
    exact selects_iff_asksFor.mp hselects
  · intro hasks
    have hj : ((compilePages pages).zip pages)[i]? = some (g, page) :=
      List.getElem?_zip_eq_some.mpr ⟨hg, hpage⟩
    exact ⟨(g, page), List.mem_filter.mpr
      ⟨List.mem_of_getElem? hj, selects_iff_asksFor.mpr hasks⟩, rfl⟩

/-- The block of every page, in page order. -/
def blocks (pages : List Page) : List Text := (compilePages pages).map GeneratedPage.block

theorem compileSource_some {canvas : String} (h : parsePages canvas = .ok pages) (word : String) :
    compileSource canvas (some word) =
      if selectPages (Text.trim word.toList) pages = [] then
        .error (.noPage (String.ofList (Text.trim word.toList)))
      else .ok (listing (selectPages (Text.trim word.toList) pages)) := by
  rw [compileSource, h]
  cases hselected : selectPages (Text.trim word.toList) pages with
  | nil => simp [hselected]
  | cons g gs => simp [hselected]

theorem selectPages_eq_nil_iff {word : Text} :
    selectPages (Text.trim word) pages = [] ↔ ∀ i, ¬ Asked pages word i := by
  obtain ⟨chosen, -, hmem, hkept⟩ := exists_selected pages word
  have hchosen : selectPages (Text.trim word) pages = [] ↔ chosen = [] := by
    rw [← List.length_eq_zero_iff, ← hkept.length_eq, List.length_eq_zero_iff]
  rw [hchosen, List.eq_nil_iff_forall_not_mem]
  exact forall_congr' fun i => not_congr (hmem i)

theorem compileSource_eq_error_iff {canvas : String} (h : parsePages canvas = .ok pages)
    (word : String) :
    (∃ e, compileSource canvas (some word) = .error e) ↔ ∀ i, ¬ Asked pages word.toList i := by
  rw [compileSource_some h, ← selectPages_eq_nil_iff]
  split
  · next hnil => exact ⟨fun _ => hnil, fun _ => ⟨_, rfl⟩⟩
  · next hne =>
      refine ⟨?_, fun hnil => absurd hnil hne⟩
      rintro ⟨e, he⟩
      exact absurd he (by simp)

/-- What a word shows are the blocks of the pages that it asks for. -/
theorem exists_shown {canvas : String} (h : parsePages canvas = .ok pages) {word : String}
    (hasked : ∃ i, Asked pages word.toList i) : ∃ (chosen : List Nat) (shown : List Text),
      chosen.Pairwise (· < ·) ∧ (∀ i, i ∈ chosen ↔ Asked pages word.toList i)
        ∧ List.Forall₂ (fun i block => (blocks pages)[i]? = some block) chosen shown
        ∧ compileSource canvas (some word) = .ok (Text.joinWith ['\n'] shown) := by
  obtain ⟨chosen, hordered, hmem, hkept⟩ := exists_selected pages word.toList
  have hne : ¬ selectPages (Text.trim word.toList) pages = [] := fun hnil =>
    hasked.elim fun i hi => selectPages_eq_nil_iff.mp hnil i hi
  refine ⟨chosen, (selectPages (Text.trim word.toList) pages).map GeneratedPage.block, hordered,
    hmem, List.forall₂_map_right_iff.mpr (hkept.imp fun i g hg => ?_), ?_⟩
  · rw [blocks, List.getElem?_map, hg]
    rfl
  · rw [compileSource_some h, if_neg hne]
    rfl

/-- The path of a page shows it, and besides it only pages that are called like the path. -/
theorem exists_text_of_path {canvas : String} (h : parsePages canvas = .ok pages) {i : Nat}
    (hg : (compilePages pages)[i]? = some g) : ∃ text,
      compileSource canvas (some g.route.path) = .ok text ∧ g.block <:+: text
        ∧ ∀ (j : Nat) (page : Page) (other : GeneratedPage), pages[j]? = some page →
          (compilePages pages)[j]? = some other →
            (other.block <:+: text ↔ other.route.slug = g.route.slug
              ∨ Text.SameName page.name.toList g.route.path.toList) := by
  have hlisted : ∀ x ∈ selectPages (Text.trim g.route.path.toList) pages,
      x ∈ compilePages pages := by
    intro x hx
    rw [selectPages_eq] at hx
    obtain ⟨pair, hpair, rfl⟩ := List.mem_map.mp hx
    exact (List.of_mem_zip (List.mem_of_mem_filter hpair)).1
  have hshown : ∀ (j : Nat) (page : Page) (other : GeneratedPage), pages[j]? = some page →
      (compilePages pages)[j]? = some other →
        (other.block <:+: listing (selectPages (Text.trim g.route.path.toList) pages)
          ↔ other.route.slug = g.route.slug
            ∨ Text.SameName page.name.toList g.route.path.toList) := by
    intro j page other hpage hother
    have hmem := List.mem_of_getElem? hother
    rw [block_infix_listing_iff hlisted hmem, mem_selectPages_iff hpage hother,
      asksFor_path_iff (named_of_mem_compilePages (List.mem_of_getElem? hg))
        (named_of_mem_compilePages hmem)]
  have hlt : i < pages.length := by
    rw [← length_compilePages]
    exact (List.getElem?_eq_some_iff.mp hg).1
  have hpage : pages[i]? = some pages[i] := List.getElem?_eq_getElem hlt
  have hown : g ∈ selectPages (Text.trim g.route.path.toList) pages :=
    (mem_selectPages_iff hpage hg).mpr
      ((asksFor_path_iff (named_of_mem_compilePages (List.mem_of_getElem? hg))
        (named_of_mem_compilePages (List.mem_of_getElem? hg))).mpr (.inl rfl))
  refine ⟨_, ?_, (hshown i pages[i] g hpage hg).mpr (.inl rfl), hshown⟩
  rw [compileSource_some h, if_neg (List.ne_nil_of_mem hown)]

/-- **Listing some pages agrees with listing all.** The listing of all pages is their blocks. A word
that asks for no page is refused; otherwise the listing is the blocks of the pages that it asks for,
in page order, each as in the listing of all. The path of a page asks for it, and the listing shows
no block of another page unless that is called like the path. -/
theorem compileSource_agrees {canvas : String} (h : parsePages canvas = .ok pages) :
    compileSource canvas none = .ok (Text.joinWith ['\n'] (blocks pages))
      ∧ (∀ word : String,
        ((∃ e, compileSource canvas (some word) = .error e) ↔ ∀ i, ¬ Asked pages word.toList i)
          ∧ ((∃ i, Asked pages word.toList i) → ∃ (chosen : List Nat) (shown : List Text),
            chosen.Pairwise (· < ·) ∧ (∀ i, i ∈ chosen ↔ Asked pages word.toList i)
              ∧ List.Forall₂ (fun i block => (blocks pages)[i]? = some block) chosen shown
              ∧ compileSource canvas (some word) = .ok (Text.joinWith ['\n'] shown)))
      ∧ ∀ (i : Nat) (g : GeneratedPage), (compilePages pages)[i]? = some g → ∃ text,
        compileSource canvas (some g.route.path) = .ok text ∧ g.block <:+: text
          ∧ ∀ (j : Nat) (page : Page) (other : GeneratedPage), pages[j]? = some page →
            (compilePages pages)[j]? = some other →
              (other.block <:+: text ↔ other.route.slug = g.route.slug
                ∨ Text.SameName page.name.toList g.route.path.toList) := by
  refine ⟨?_, fun word => ⟨compileSource_eq_error_iff h word, exists_shown h⟩,
    fun i g hg => exists_text_of_path h hg⟩
  rw [compileSource, h]
  rfl

/-- Two pages, the second called like the path of the first. -/
def calledLikePath : String :=
  "[\x7b\"name\":\"Home\"\x7d,\x7b\"name\":\" /HOME \"\x7d]"

/-- The pages of `calledLikePath`. -/
def calledLikePathPages : List Page := [⟨"Home", []⟩, ⟨" /HOME ", []⟩]

theorem compileSource_agrees_calledLikePath :
    parsePages calledLikePath = .ok calledLikePathPages
      ∧ ∃ home other, compilePages calledLikePathPages = [home, other]
        ∧ home.route.slug = "home" ∧ other.route.slug = "home_2"
        ∧ ∃ text, compileSource calledLikePath (some "/home") = .ok text
          ∧ home.block <:+: text ∧ other.block <:+: text := by
  have hpages : parsePages calledLikePath = .ok calledLikePathPages := by rfl
  obtain ⟨home, other, hcompiled⟩ : ∃ home other,
      compilePages calledLikePathPages = [home, other] := ⟨_, _, rfl⟩
  have hslugs : (compilePages calledLikePathPages).map (·.route.slug) = ["home", "home_2"] := by
    decide +kernel
  rw [hcompiled] at hslugs
  obtain ⟨hhome, hother⟩ := List.cons.inj hslugs
  have hpath : home.route.path = "/home" := congrArg ("/" ++ ·) hhome
  have hname : Text.SameName " /HOME ".toList home.route.path.toList := by
    rw [hpath]
    exact Text.equalsIgnoringCase_trim_iff.mp (by decide)
  obtain ⟨text, htext, hown, hshows⟩ :=
    (compileSource_agrees hpages).2.2 0 home (by rw [hcompiled]; rfl)
  rw [hpath] at htext
  exact ⟨hpages, home, other, hcompiled, hhome, (List.cons.inj hother).1, text, htext, hown,
    (hshows 1 _ other rfl (by rw [hcompiled]; rfl)).mpr (.inr hname)⟩

end CanvasFlutter
