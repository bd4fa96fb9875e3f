import CanvasFlutter.Proofs.RouteTable.Refill
import CanvasFlutter.Route.Plan

namespace CanvasFlutter

/-!
# `CanvasFlutter.Proofs.Route.Lines` — the lines that a route gives

Whatever a page is called, its slug and its class consist of ASCII letters, digits and underscores.
So the import of a page is read again as the import of a page, and the entry of a page never closes
the table that it stands in nor ends a statement.

## Contents
- **Names.** `Text.IsName`; `Route.Named`, which all planned routes are.
- **Imports.** `Named.pageImport_importLine`.
- **Entries.** `Named.tableEntry_tableEntry`.
-/

/-! ## Names -/

namespace Text

/-- A text of ASCII letters, digits and underscores. -/
def IsName (t : Text) : Prop := ∀ c ∈ t, isAsciiWord c = true

instance (t : Text) : Decidable (IsName t) := List.decidableBAll _ t

theorem isName_nil : IsName [] := by simp [IsName]

theorem isName_append {s t : Text} : IsName (s ++ t) ↔ IsName s ∧ IsName t := by
  simp [IsName, or_imp, forall_and]

theorem isName_cons {c : Char} {t : Text} :
    IsName (c :: t) ↔ isAsciiWord c = true ∧ IsName t := by
  simp [IsName]

theorem isAsciiWord_of_isAlphanum {c : Char} (h : c.isAlphanum = true) : isAsciiWord c = true := by
  simp [isAsciiWord, h]

theorem isName_of_isAlphanum {t : Text} (h : ∀ c ∈ t, c.isAlphanum = true) : IsName t :=
  fun c hc => isAsciiWord_of_isAlphanum (h c hc)

theorem isName_digits (n : Nat) : IsName (toString n).toList := by
  refine isName_of_isAlphanum fun c hc => ?_
  have hdigit : c.isDigit = true :=
    Nat.isDigit_of_mem_toDigits (b := 10) (by decide) (by decide) (by simpa using hc)
  simp [Char.isAlphanum, hdigit]

/-- The characters of a name are ASCII characters. -/
theorem toNat_lt_of_isAsciiWord {c : Char} (h : isAsciiWord c = true) : c.toNat < 128 := by
  have hle : ∀ d : Char, c.val ≤ d.val → d.toNat < 128 → c.toNat < 128 :=
    fun _ h hd => Nat.lt_of_le_of_lt h hd
  have hupper : c.isUpper = true → c.toNat < 128 := fun h =>
    hle 'Z' (of_decide_eq_true h).2 (by decide)
  have hlower : c.isLower = true → c.toNat < 128 := fun h =>
    hle 'z' (of_decide_eq_true (Bool.and_eq_true_iff.mp h).2) (by decide)
  have hdigit : c.isDigit = true → c.toNat < 128 := fun h =>
    hle '9' (of_decide_eq_true (Bool.and_eq_true_iff.mp h).2) (by decide)
  have halpha : c.isAlpha = true → c.toNat < 128 := fun h =>
    (Bool.or_eq_true_iff.mp h).elim hupper hlower
  have halphanum : c.isAlphanum = true → c.toNat < 128 := fun h =>
    (Bool.or_eq_true_iff.mp h).elim halpha hdigit
  refine (Bool.or_eq_true_iff.mp h).elim halphanum fun hunderscore => ?_
  rw [beq_iff_eq.mp hunderscore]
  decide

/-- What holds of every ASCII word character holds of the characters of names. -/
theorem forall_isAsciiWord {p : Char → Prop}
    (h : ∀ n < 128, isAsciiWord (Char.ofNat n) = true → p (Char.ofNat n)) {c : Char}
    (hc : isAsciiWord c = true) : p c := by
  have := h c.toNat (toNat_lt_of_isAsciiWord hc)
  rw [Char.ofNat_toNat] at this
  exact this hc

theorem isAlphanum_toUpper {c : Char} (h : c.isAlphanum = true) : c.toUpper.isAlphanum = true :=
  forall_isAsciiWord (p := fun c => c.isAlphanum = true → c.toUpper.isAlphanum = true) (by decide)
    (isAsciiWord_of_isAlphanum h) h

end Text

namespace PageName

theorem isName_slug (name : Text) : Text.IsName (slug name) :=
  fun _ hc => (List.mem_filter.mp hc).2

theorem isName_capitalized (word : Text) : Text.IsName (capitalized word) := by
  have hword : ∀ c ∈ word.filter Char.isAlphanum, c.isAlphanum = true :=
    fun c hc => (List.mem_filter.mp hc).2
  rw [capitalized]
  split
  · exact Text.isName_nil
  · next first rest h =>
      rw [h] at hword
      have hfirst := Text.isAlphanum_toUpper (hword first (by simp))
      exact Text.isName_cons.mpr ⟨Text.isAsciiWord_of_isAlphanum hfirst,
        Text.isName_of_isAlphanum fun c hc => hword c (by simp [hc])⟩

theorem isName_pascalCase (name : Text) : Text.IsName (pascalCase name) := by
  intro c hc
  obtain ⟨word, -, hword⟩ := List.mem_flatMap.mp hc
  exact isName_capitalized word c hword

end PageName

namespace Route

/-- A route whose slug and class are names. -/
structure Named (r : Route) : Prop where
  slug : Text.IsName r.slug.toList
  className : Text.IsName r.className.toList

theorem isName_baseSlug (name : Text) (index : Nat) : Text.IsName (baseSlug name index) := by
  rw [baseSlug]
  split
  · exact Text.isName_append.mpr ⟨by decide, Text.isName_digits _⟩
  · exact PageName.isName_slug name

theorem isName_baseClass (name : Text) (index : Nat) : Text.IsName (baseClass name index) := by
  have hbase : Text.IsName (if (PageName.pascalCase name).isEmpty then
      PageName.pascalCase (baseSlug name index) else PageName.pascalCase name) := by
    split <;> exact PageName.isName_pascalCase _
  rw [baseClass]
  split
  · next first rest h =>
      split
      · exact Text.isName_append.mpr ⟨by decide, hbase⟩
      · exact hbase
  · exact Text.isName_nil

theorem named_candidate (name : Text) (index number : Nat) :
    (candidate name index number).Named := by
  have hslug := isName_baseSlug name index
  have hclass := isName_baseClass name index
  have hdigits := Text.isName_digits number
  have hpage : Text.IsName "Page".toList := by decide
  rw [candidate]
  split
  · exact ⟨by simpa using hslug, by simpa [Text.isName_append] using ⟨hclass, hpage⟩⟩
  · rw [Nat.toString_eq_ofList_toDigits, String.toList_ofList] at hdigits
    exact ⟨by simpa [Text.isName_append, Text.isName_cons] using ⟨hslug, by decide, hdigits⟩,
      by simpa [Text.isName_append] using ⟨hclass, hdigits, hpage⟩⟩

theorem named_of_mem_planAfter {before : List Route} {names : List String} {r : Route}
    (h : r ∈ planAfter before names) : r.Named := by
  induction names generalizing before with
  | nil => simp [planAfter] at h
  | cons name rest ih =>
      rcases List.mem_cons.mp h with rfl | h
      · exact named_candidate ..
      · exact ih h

end Route

theorem named_of_mem_planRoutes {pages : List Page} {r : Route} (h : r ∈ planRoutes pages) :
    r.Named := Route.named_of_mem_planAfter h

/-! ## Imports -/

namespace Text

/-- The characters of a name are no part of the syntax around it. -/
theorem IsName.isPlain {t : Text} (h : IsName t) : ∀ c ∈ t, Scanner.isPlain c = true :=
  fun _ hc => forall_isAsciiWord (p := fun c => Scanner.isPlain c = true) (by decide) (h _ hc)

theorem IsName.newline_not_mem {t : Text} (h : IsName t) : '\n' ∉ t := fun hc =>
  absurd (h _ hc) (by decide)

/-- A name may stand in a string. -/
theorem IsName.inString {t : Text} (h : IsName t) : ∀ c ∈ t, c ≠ '\'' ∧ c ≠ '\\' :=
  fun _ hc => forall_isAsciiWord (p := fun c => c ≠ '\'' ∧ c ≠ '\\') (by decide) (h _ hc)

theorem IsName.isQuote {t : Text} (h : IsName t) : ∀ c ∈ t, Pattern.isQuote c = false :=
  fun _ hc => forall_isAsciiWord (p := fun c => Pattern.isQuote c = false) (by decide) (h _ hc)

end Text

namespace Pattern

/-- An import of a file in the folder of pages, whatever it is called. -/
theorem isPageImport_of_path {path : Text} (h : ∀ c ∈ path, isQuote c = false) :
    isPageImport ("import '../pages/".toList ++ (path ++ ['\'', ';'])) = true := by
  have hword : Text.after? "import".toList ("import '../pages/".toList ++ (path ++ ['\'', ';']))
      = some (" '../pages/".toList ++ (path ++ ['\'', ';'])) := rfl
  have hblanks : blanks? (" '../pages/".toList ++ (path ++ ['\'', ';']))
      = some ('\'' :: ("../pages/".toList ++ (path ++ ['\'', ';']))) := rfl
  have hquote : isQuote '\'' = true := rfl
  have hfolder : pagesFolder? ("../pages/".toList ++ (path ++ ['\'', ';']))
      = some (path ++ ['\'', ';']) := rfl
  have hpath : (path ++ ['\'', ';']).dropWhile (fun c => !isQuote c) = ['\'', ';'] := by
    rw [List.dropWhile_append_of_pos (by simpa using h)]
    rfl
  have hend : Text.after? [';'] (blanks [';']) = some [] := rfl
  simp only [isPageImport, hword, hblanks, hquote, hfolder, hpath, hend, Option.bind_eq_bind,
    Option.bind_some, if_true]
  rfl

end Pattern

theorem toList_append_five (a b c d e : String) : (a ++ b ++ c ++ d ++ e).toList
    = a.toList ++ (b.toList ++ (c.toList ++ (d.toList ++ e.toList))) := by
  simp only [String.toList_append, List.append_assoc]

namespace Route

/-- The path in an import after the folder of pages. -/
def importedPath (r : Route) : Text :=
  r.slug.toList ++ ("/".toList ++ (r.slug.toList ++ "_page.dart".toList))

theorem toList_importLine (r : Route) :
    r.importLine.toList = "import '../pages/".toList ++ (r.importedPath ++ ['\'', ';']) := by
  have hend : "_page.dart';".toList = "_page.dart".toList ++ ['\'', ';'] := rfl
  rw [importedPath, List.append_assoc, List.append_assoc, List.append_assoc, ← hend]
  exact toList_append_five ..

/-- What holds of the characters of names, of a slash and of the ending holds of a path. -/
theorem Named.forall_importedPath {r : Route} (h : r.Named) {p : Char → Prop} [DecidablePred p]
    (hname : ∀ t : Text, Text.IsName t → ∀ c ∈ t, p c)
    (hslash : "/".toList.all (fun c => decide (p c)) = true)
    (hend : "_page.dart".toList.all (fun c => decide (p c)) = true) :
    ∀ c ∈ r.importedPath, p c := by
  have hslug := hname _ h.slug
  intro c hc
  rw [importedPath, List.mem_append, List.mem_append, List.mem_append] at hc
  rcases hc with hc | hc | hc | hc
  · exact hslug c hc
  · exact Text.forall_of_all hslash c hc
  · exact hslug c hc
  · exact Text.forall_of_all hend c hc

theorem Named.uncommented_importLine {r : Route} (h : r.Named) :
    Uncommented r.importLine.toList := by
  have hsplit : r.importLine.toList = "import ".toList
      ++ ('\'' :: (("../pages/".toList ++ r.importedPath) ++ ['\'']) ++ [';']) := by
    have hopen : "import '../pages/".toList = "import ".toList ++ '\'' :: "../pages/".toList := rfl
    rw [toList_importLine, hopen]
    simp only [List.append_assoc, List.cons_append, List.nil_append]
  have hstring : ∀ c ∈ "../pages/".toList ++ r.importedPath, c ≠ '\'' ∧ c ≠ '\\' := by
    intro c hc
    rcases List.mem_append.mp hc with hc | hc
    · exact Text.forall_of_all (p := fun c => c ≠ '\'' ∧ c ≠ '\\') (by decide) c hc
    · exact h.forall_importedPath (fun _ ht => ht.inString) (by decide) (by decide) c hc
  rw [hsplit]
  exact (uncommented_of_all_isPlain (Text.forall_of_all (by decide))).append <|
    (uncommented_string hstring).append (uncommented_of_isPlain (by decide))

/-- The import of a route is an import of a page on a single line. -/
theorem Named.pageImport_importLine {r : Route} (h : r.Named) :
    RouteDocument.PageImport r.importLine.toList := by
  have hcode := h.uncommented_importLine
  have htrimmed : Text.Trimmed r.importLine.toList := by
    rw [toList_importLine]
    exact Text.trimmed_enclosed ⟨'i', by decide, by decide⟩ ⟨';', rfl, by decide⟩ _
  have hline : '\n' ∉ r.importLine.toList := by
    have hpath := h.forall_importedPath (p := (· ≠ '\n'))
      (fun _ ht _ hc hn => ht.newline_not_mem (hn ▸ hc)) (by decide) (by decide)
    rw [toList_importLine, List.mem_append, List.mem_append]
    rintro (hc | hc | hc)
    · exact absurd hc (by decide)
    · exact hpath _ hc rfl
    · exact absurd hc (by decide)
  refine ⟨htrimmed, hline, ?_, ?_, ?_⟩
  · rw [toList_importLine]
    rfl
  · rw [endsStatement_of_uncommented hcode htrimmed, toList_importLine, ← List.append_assoc,
      Text.endsWith_append _ _ (by simp)]
    rfl
  · have hne : r.importLine.toList ≠ [] := by
      rw [toList_importLine]
      simp
    rw [isPageImport_of_oneLine hline hne hcode htrimmed, toList_importLine]
    exact Pattern.isPageImport_of_path
      (h.forall_importedPath (fun _ ht => ht.isQuote) (by decide) (by decide))

/-! ## Entries -/

/-- What stands in an entry between its path and its class. -/
def builderOpening : Text := ": (context) => const ".toList

/-- What stands in an entry after its class. -/
def builderClosing : Text := "(),".toList

/-- What stands in an entry after its path. -/
def builder (r : Route) : Text := builderOpening ++ (r.className.toList ++ builderClosing)

theorem toList_tableEntry (r : Route) :
    r.tableEntry.toList = '\'' :: (('/' :: r.slug.toList) ++ ['\'']) ++ r.builder := by
  have hmiddle : "': (context) => const ".toList = '\'' :: builderOpening := rfl
  have hparts := toList_append_five "'" r.path "': (context) => const " r.className "(),"
  rw [hmiddle, show "'".toList = ['\''] from rfl, show "(),".toList = builderClosing from rfl,
    show r.path.toList = '/' :: r.slug.toList from String.toList_append] at hparts
  rw [tableEntry, hparts, builder]
  simp only [List.cons_append, List.nil_append, List.append_assoc]

theorem Named.isPlain_builder {r : Route} (h : r.Named) :
    ∀ c ∈ r.builder, Scanner.isPlain c = true := by
  have hopen : ∀ c ∈ builderOpening, Scanner.isPlain c = true := Text.forall_of_all (by decide)
  have hclose : ∀ c ∈ builderClosing, Scanner.isPlain c = true := Text.forall_of_all (by decide)
  intro c hc
  rw [builder, List.mem_append, List.mem_append] at hc
  rcases hc with hc | hc | hc
  · exact hopen c hc
  · exact h.className.isPlain c hc
  · exact hclose c hc

/-- The entry of a route is an entry of a table. -/
theorem Named.tableEntry_tableEntry {r : Route} (h : r.Named) : TableEntry r.tableEntry.toList := by
  have hpath : ∀ c ∈ '/' :: r.slug.toList, c ≠ '\'' ∧ c ≠ '\\' :=
    List.forall_mem_cons.mpr ⟨by decide, h.slug.inString⟩
  have hsplit : r.tableEntry.toList = ['\''] ++ ((('/' :: r.slug.toList) ++ '\'' ::
      (builderOpening ++ r.className.toList)) ++ builderClosing) := by
    rw [toList_tableEntry, builder]
    simp only [List.cons_append, List.nil_append, List.append_assoc]
  have htrimmed : Text.Trimmed r.tableEntry.toList := by
    rw [hsplit]
    exact Text.trimmed_enclosed ⟨'\'', rfl, by decide⟩ ⟨',', by decide, by decide⟩ _
  have hcode : Uncommented r.tableEntry.toList := by
    rw [toList_tableEntry]
    exact (uncommented_string hpath).append (uncommented_of_all_isPlain h.isPlain_builder)
  refine ⟨htrimmed, ?_, ⟨_, toList_tableEntry r⟩, ?_, ?_⟩
  · have hopen : '\n' ∉ builderOpening := by decide
    have hclose : '\n' ∉ builderClosing := by decide
    simp [toList_tableEntry, builder, hopen, hclose, h.slug.newline_not_mem,
      h.className.newline_not_mem]
  · rw [endsStatement_of_uncommented hcode htrimmed, hsplit, ← List.append_assoc,
      Text.endsWith_append _ _ (by decide)]
    decide
  · rw [toList_tableEntry]
    exact (Scanner.neutral_string hpath).append (Scanner.neutral_of_all_isPlain h.isPlain_builder)

end Route

end CanvasFlutter
