import CanvasFlutter.Proofs.Route.ClassName
import CanvasFlutter.Proofs.Route.Least

namespace CanvasFlutter

/-!
# `CanvasFlutter.Proofs.Route.Legal` — which planned names are legal

Whatever pages are called, each slug is a legal name. A class begins with a capital as long as
something of the page's name, or of its slug, goes into it. Nothing does if the name has an
underscore and nothing else for a slug: the first such page gets the bare ending for its class, and
every later one the number that tells it apart, with no letter in front.

## Contents
- **Names.** `IsSlug`, `IsLegalClass`, `IsUnderscored`.
- **Words.** `mem_words_iff`, `pascalCase_eq_nil_iff`: what goes into a class.
- **Candidates.** `baseClass_eq_nil_iff`, `isLegalClass_candidate_iff`.
- **Plan.** `available_bare_iff`; `isLegalClass_planRoutes_iff`.
-/

/-! ## Names -/

/-- A name for folders and files: some small ASCII letters, digits and underscores. -/
structure IsSlug (t : Text) : Prop where
  ne_nil : t ≠ []
  small : ∀ c ∈ t, c.isLower = true ∨ c.isDigit = true ∨ c = '_'

/-- A legal name for a class of a page: an ASCII capital, then ASCII letters and digits, the last of
which are the ending. -/
structure IsLegalClass (t : Text) : Prop where
  capital : ∃ c ∈ t.head?, c.isUpper = true
  alphanum : ∀ c ∈ t, c.isAlphanum = true
  ending : "Page".toList <:+ t

/-- A page name with an underscore and, in small letters, without any ASCII letter or digit. -/
def IsUnderscored (name : Text) : Prop :=
  '_' ∈ name ∧ ∀ c ∈ name, (PageName.smallAscii c).isAlphanum = false

instance (name : Text) : Decidable (IsUnderscored name) :=
  @instDecidableAnd _ _ inferInstance (List.decidableBAll _ name)

/-! ## Words -/

namespace PageName

theorem isAlphanum_smallAscii {c : Char} (h : c.isAlphanum = true) :
    (smallAscii c).isAlphanum = true :=
  Text.forall_isAsciiWord
    (p := fun c => c.isAlphanum = true → (smallAscii c).isAlphanum = true) (by decide)
    (Text.isAsciiWord_of_isAlphanum h) h

theorem isWordBreak_of_isAlphanum {c : Char} (h : c.isAlphanum = true) : isWordBreak c = false :=
  Text.forall_isAsciiWord (p := fun c => c.isAlphanum = true → isWordBreak c = false) (by decide)
    (Text.isAsciiWord_of_isAlphanum h) h

theorem toLower_of_not_isUpper {c : Char} (h : c.isUpper = false) : c.toLower = c :=
  dif_neg (of_decide_eq_false h)

theorem isAlphanum_of_isUpper {c : Char} (h : c.isUpper = true) : c.isAlphanum = true := by
  show (c.isUpper || c.isLower || c.isDigit) = true
  rw [h]
  rfl

/-- No small form is a capital. -/
theorem isUpper_smallAscii (c : Char) : (smallAscii c).isUpper = false := by
  unfold smallAscii
  split
  · decide
  · split
    · decide
    · by_cases hupper : c.isUpper = true
      · have hname : Text.isAsciiWord c = true :=
          Text.isAsciiWord_of_isAlphanum (isAlphanum_of_isUpper hupper)
        exact Text.forall_isAsciiWord (p := fun c => c.toLower.isUpper = false) (by decide) hname
      · rw [toLower_of_not_isUpper (by simpa using hupper)]
        simpa using hupper

/-- Only an underscore has an underscore for its small form. -/
theorem smallAscii_eq_underscore_iff {c : Char} : smallAscii c = '_' ↔ c = '_' := by
  constructor
  · intro h
    unfold smallAscii at h
    split at h
    · exact absurd h (by decide)
    · split at h
      · exact absurd h (by decide)
      · -- no capital has an underscore for its small letter
        by_cases hupper : c.isUpper = true
        · have hname : Text.isAsciiWord c = true :=
            Text.isAsciiWord_of_isAlphanum (isAlphanum_of_isUpper hupper)
          exact absurd h (Text.forall_isAsciiWord
            (p := fun c => c.isUpper = true → c.toLower ≠ '_') (by decide) hname hupper)
        · rwa [toLower_of_not_isUpper (by simpa using hupper)] at h
  · rintro rfl
    decide

/-- The characters of the words of a name are those of the name that are no breaks. -/
theorem mem_words_iff {c : Char} {name : Text} :
    (∃ word ∈ words name, c ∈ word) ↔ c ∈ name ∧ isWordBreak c = false := by
  unfold words
  induction name with
  | nil => simp
  | cons d rest ih =>
      rw [List.splitOnP_cons_eq_if_modifyHead]
      split
      · next hbreak =>
          have hnil : (∃ word ∈ [] :: rest.splitOnP isWordBreak, c ∈ word)
              ↔ ∃ word ∈ rest.splitOnP isWordBreak, c ∈ word := by simp
          rw [hnil, ih, List.mem_cons]
          constructor
          · exact fun h => ⟨.inr h.1, h.2⟩
          · rintro ⟨rfl | hmem, hc⟩
            · rw [hbreak] at hc
              cases hc
            · exact ⟨hmem, hc⟩
      · next hbreak =>
          obtain ⟨word, more, hsplit⟩ :=
            List.exists_cons_of_ne_nil (List.splitOnP_ne_nil isWordBreak rest)
          have hfirst : (∃ w ∈ (d :: word) :: more, c ∈ w) ↔ c = d ∨ ∃ w ∈ word :: more, c ∈ w := by
            simp [or_assoc]
          rw [hsplit] at ih ⊢
          rw [List.modifyHead_cons, hfirst, ih, List.mem_cons, or_and_right]
          apply or_congr_left
          constructor
          · rintro rfl
            exact ⟨rfl, by simpa using hbreak⟩
          · exact And.left

theorem capitalized_eq_nil_iff (word : Text) :
    capitalized word = [] ↔ ∀ c ∈ word, c.isAlphanum = false := by
  have hfilter : word.filter Char.isAlphanum = [] ↔ ∀ c ∈ word, c.isAlphanum = false := by
    simp
  rw [← hfilter]
  unfold capitalized
  cases word.filter Char.isAlphanum with
  | nil => simp
  | cons first rest => simp

/-- Nothing of a name goes into a class exactly if it has no ASCII letter or digit. -/
theorem pascalCase_eq_nil_iff (name : Text) :
    pascalCase name = [] ↔ ∀ c ∈ name, c.isAlphanum = false := by
  unfold pascalCase
  rw [List.flatMap_eq_nil_iff]
  constructor
  · intro h c hc
    by_cases halnum : c.isAlphanum = true
    · obtain ⟨word, hword, hmem⟩ := mem_words_iff.mpr ⟨hc, isWordBreak_of_isAlphanum halnum⟩
      exact (capitalized_eq_nil_iff word).mp (h word hword) c hmem
    · simpa using halnum
  · intro h word hword
    refine (capitalized_eq_nil_iff word).mpr fun c hc => h c ?_
    exact (mem_words_iff.mp ⟨word, hword, hc⟩).1

/-- What a class begins with is a letter or digit of the name, made a capital. -/
theorem exists_toUpper_of_pascalCase {name : Text} {c : Char} {rest : Text}
    (h : pascalCase name = c :: rest) : ∃ d : Char, d.isAlphanum = true ∧ c = d.toUpper := by
  unfold pascalCase at h
  generalize words name = parts at h
  induction parts with
  | nil => simp at h
  | cons word more ih =>
      rw [List.flatMap_cons] at h
      cases hfilter : word.filter Char.isAlphanum with
      | nil =>
          have hempty : capitalized word = [] := by
            unfold capitalized
            rw [hfilter]
          rw [hempty, List.nil_append] at h
          exact ih h
      | cons first others =>
          have hword : capitalized word = first.toUpper :: others := by
            unfold capitalized
            rw [hfilter]
          rw [hword, List.cons_append] at h
          have hfirst : first ∈ word.filter Char.isAlphanum := by simp [hfilter]
          exact ⟨first, (List.mem_filter.mp hfirst).2, (List.cons.inj h).1.symm⟩

end PageName

/-! ## Candidates -/

namespace Route

theorem isSlug_page (n : Nat) : IsSlug ("page".toList ++ (toString n).toList) := by
  refine ⟨by simp, fun c hc => ?_⟩
  rcases List.mem_append.mp hc with hc | hc
  · exact Text.forall_of_all
      (p := fun c => c.isLower = true ∨ c.isDigit = true ∨ c = '_') (by decide) c hc
  · exact .inr (.inl (Nat.isDigit_of_mem_toDigits (b := 10) (by decide) (by decide)
      (by simpa using hc)))

/-- A small form that may stand in a slug is a small letter, a digit or an underscore. -/
theorem small_of_mem_slug {name : Text} {c : Char} (h : c ∈ PageName.slug name) :
    c.isLower = true ∨ c.isDigit = true ∨ c = '_' := by
  obtain ⟨hmem, hword⟩ := List.mem_filter.mp h
  obtain ⟨d, -, rfl⟩ := List.mem_map.mp hmem
  have hcases : ∀ c : Char, Text.isAsciiWord c = true → c.isUpper = false →
      c.isLower = true ∨ c.isDigit = true ∨ c = '_' := fun c hc =>
    Text.forall_isAsciiWord (p := fun c => c.isUpper = false →
      c.isLower = true ∨ c.isDigit = true ∨ c = '_') (by decide) hc
  exact hcases _ hword (PageName.isUpper_smallAscii d)

theorem isSlug_baseSlug (name : Text) (index : Nat) : IsSlug (baseSlug name index) := by
  unfold baseSlug
  dsimp only
  split
  · exact isSlug_page (index + 1)
  · next hne => exact ⟨by simpa using hne, fun c hc => small_of_mem_slug hc⟩

theorem isSlug_candidate (name : Text) (index number : Nat) :
    IsSlug (candidate name index number).slug.toList := by
  have hbase := isSlug_baseSlug name index
  rw [toList_slug_candidate]
  refine ⟨by simp [hbase.ne_nil], fun c hc => ?_⟩
  rcases List.mem_append.mp hc with hc | hc
  · exact hbase.small c hc
  · unfold slugMark at hc
    split at hc
    · cases hc
    · rcases List.mem_cons.mp hc with rfl | hc
      · exact .inr (.inr rfl)
      · exact .inr (.inl (Nat.isDigit_of_mem_toDigits (b := 10) (by decide) (by decide)
          (by simpa using hc)))

/-- A slug without letters and digits is that of a name with an underscore and neither. -/
theorem forall_baseSlug_iff (name : Text) (index : Nat) :
    (∀ c ∈ baseSlug name index, c.isAlphanum = false) ↔ IsUnderscored name := by
  -- a slug holds the small forms that are letters or digits, and the underscores
  have hslug : ∀ c ∈ name, (PageName.smallAscii c).isAlphanum = true →
      PageName.smallAscii c ∈ PageName.slug name := fun c hc halnum =>
    List.mem_filter.mpr ⟨List.mem_map_of_mem hc, Text.isAsciiWord_of_isAlphanum halnum⟩
  unfold baseSlug IsUnderscored
  by_cases hempty : PageName.slug name = []
  · have hpage : ¬ ∀ c ∈ "page".toList ++ (toString (index + 1)).toList, c.isAlphanum = false :=
      fun h => absurd (h 'p' (List.mem_append_left _ (by decide))) (by decide)
    have hunder : '_' ∉ name := by
      intro hmem
      have : '_' ∈ PageName.slug name :=
        List.mem_filter.mpr ⟨List.mem_map.mpr ⟨'_', hmem, by decide⟩, by decide⟩
      rw [hempty] at this
      cases this
    simp only [hempty, List.isEmpty_nil, if_true]
    exact ⟨fun h => absurd h hpage, fun h => absurd h.1 hunder⟩
  · simp only [List.isEmpty_eq_false_iff.mpr hempty, Bool.false_eq_true, if_false]
    constructor
    · intro h
      have hnone : ∀ c ∈ name, (PageName.smallAscii c).isAlphanum = false := by
        intro c hc
        by_cases halnum : (PageName.smallAscii c).isAlphanum = true
        · exact h _ (hslug c hc halnum)
        · simpa using halnum
      obtain ⟨c, rest, hcons⟩ := List.exists_cons_of_ne_nil hempty
      have hc : c ∈ PageName.slug name := by simp [hcons]
      obtain ⟨hmem, hword⟩ := List.mem_filter.mp hc
      obtain ⟨d, hd, rfl⟩ := List.mem_map.mp hmem
      have hunder : PageName.smallAscii d = '_' := by
        unfold Text.isAsciiWord at hword
        rw [hnone d hd, Bool.false_or, beq_iff_eq] at hword
        exact hword
      exact ⟨PageName.smallAscii_eq_underscore_iff.mp hunder ▸ hd, hnone⟩
    · rintro ⟨-, h⟩ c hc
      obtain ⟨hmem, -⟩ := List.mem_filter.mp hc
      obtain ⟨d, hd, rfl⟩ := List.mem_map.mp hmem
      exact h d hd

/-- Nothing goes into a class exactly if the page's name is underscored. -/
theorem baseClass_eq_nil_iff (name : Text) (index : Nat) :
    baseClass name index = [] ↔ IsUnderscored name := by
  have hbase : baseClass name index = []
      ↔ (if (PageName.pascalCase name).isEmpty then PageName.pascalCase (baseSlug name index)
          else PageName.pascalCase name) = [] := by
    unfold baseClass
    dsimp only
    split
    · next first rest h =>
        rw [h]
        split <;> simp
    · next h => exact ⟨fun _ => h, fun _ => rfl⟩
  rw [hbase]
  constructor
  · intro h
    split at h
    · exact (forall_baseSlug_iff name index).mp ((PageName.pascalCase_eq_nil_iff _).mp h)
    · next hne => exact absurd h (by simpa using hne)
  · intro h
    have hslug := (PageName.pascalCase_eq_nil_iff _).mpr ((forall_baseSlug_iff name index).mpr h)
    split
    · exact hslug
    · next hne =>
        -- a letter or digit of the name would have a small form that is one
        refine (PageName.pascalCase_eq_nil_iff name).mpr fun c hc => ?_
        by_cases halnum : c.isAlphanum = true
        · exact absurd (PageName.isAlphanum_smallAscii halnum) (by simp [h.2 c hc])
        · simpa using halnum

/-- The class of a page without number and ending begins with a capital, if it is not empty. -/
theorem isUpper_baseClass {name : Text} {index : Nat} {c : Char} {rest : Text}
    (h : baseClass name index = c :: rest) : c.isUpper = true := by
  have hcapital : ∀ {text : Text} {first : Char} {more : Text},
      PageName.pascalCase text = first :: more → first.isDigit = false → first.isUpper = true := by
    intro text first more heq hdigit
    obtain ⟨d, hd, rfl⟩ := PageName.exists_toUpper_of_pascalCase heq
    exact Text.forall_isAsciiWord (p := fun c => c.isAlphanum = true →
        c.toUpper.isDigit = false → c.toUpper.isUpper = true) (by decide)
      (Text.isAsciiWord_of_isAlphanum hd) hd hdigit
  unfold baseClass at h
  dsimp only at h
  split at h
  · next first more heq =>
      split at h
      · obtain rfl : 'P' = c := (List.cons.inj h).1
        decide
      · next hdigit =>
          rw [heq] at h
          obtain rfl : first = c := (List.cons.inj h).1
          have hfalse : first.isDigit = false := by simpa using hdigit
          split at heq
          · exact hcapital heq hfalse
          · exact hcapital heq hfalse
  · cases h

/-- The class of a candidate is legal unless a number stands where nothing of the name does. -/
theorem isLegalClass_candidate_iff (name : Text) (index number : Nat) :
    IsLegalClass (candidate name index number).className.toList
      ↔ ¬ (IsUnderscored name ∧ number ≠ 1) := by
  obtain ⟨halnum, -, hending⟩ := isClassName_candidate name index number
  rw [← baseClass_eq_nil_iff name index]
  have hclass := toList_className_candidate name index number
  constructor
  · rintro ⟨⟨c, hhead, hupper⟩, -, -⟩ ⟨hnil, hnumber⟩
    -- the first character is a digit of the number
    obtain ⟨d, digits, hdigits⟩ := List.exists_cons_of_ne_nil (digits_ne_nil number)
    rw [hclass, hnil, List.nil_append, classMark, if_neg hnumber, hdigits] at hhead
    obtain rfl : d = c := Option.some.inj hhead
    have hmem : d ∈ (toString number).toList := by
      rw [hdigits]
      exact List.mem_cons_self
    have hdigit : d.isDigit = true :=
      Nat.isDigit_of_mem_toDigits (b := 10) (by decide) (by decide) (by simpa using hmem)
    exact absurd hdigit (Text.forall_isAsciiWord (p := fun c => c.isUpper = true →
        ¬ c.isDigit = true) (by decide)
      (Text.isAsciiWord_of_isAlphanum (halnum d (by
        rw [hclass, hnil, List.nil_append, classMark, if_neg hnumber]
        exact List.mem_append_left _ hmem))) hupper)
  · intro h
    refine ⟨?_, halnum, hending⟩
    rw [hclass]
    cases hbase : baseClass name index with
    | nil =>
        have hone : number = 1 := by
          by_cases hnumber : number = 1
          · exact hnumber
          · exact absurd ⟨hbase, hnumber⟩ h
        subst hone
        exact ⟨'P', rfl, by decide⟩
    | cons c rest => exact ⟨c, rfl, isUpper_baseClass hbase⟩

/-! ## Plan -/

/-- No other page gets the slug or the class that an underscored one has without a number. -/
theorem separate_bare {name other : Text} (hname : IsUnderscored name)
    (hother : ¬ IsUnderscored other) (index place number : Nat) :
    (candidate other place number).Separate (candidate name index 1) := by
  constructor
  · -- the other slug has a letter or a digit
    intro heq
    have hslug := congrArg String.toList heq
    rw [toList_slug_candidate, toList_slug_candidate] at hslug
    refine hother ((forall_baseSlug_iff other place).mp fun c hc => ?_)
    refine (forall_baseSlug_iff name index).mpr hname c ?_
    have hmem : c ∈ baseSlug name index ++ slugMark 1 := by
      rw [← hslug]
      exact List.mem_append_left _ hc
    simpa [slugMark] using hmem
  · -- the other class has more than the ending
    intro heq
    have hclass := congrArg String.toList heq
    rw [toList_className_candidate, toList_className_candidate,
      (baseClass_eq_nil_iff name index).mpr hname] at hclass
    have hnil := List.append_cancel_right hclass
    have hbase : baseClass other place = [] := by
      have : baseClass other place ++ classMark number = [] := by simpa [classMark] using hnil
      exact (List.append_eq_nil_iff.mp this).1
    exact hother ((baseClass_eq_nil_iff other place).mp hbase)

end Route

open Route

theorem mem_take_iff {α : Type} {l : List α} {i : Nat} {a : α} :
    a ∈ l.take i ↔ ∃ j < i, l[j]? = some a := by
  rw [List.mem_iff_getElem?]
  constructor
  · rintro ⟨j, hj⟩
    rw [List.getElem?_take] at hj
    split at hj
    · next hlt => exact ⟨j, hlt, hj⟩
    · cases hj
  · rintro ⟨j, hlt, hj⟩
    exact ⟨j, by rw [List.getElem?_take, if_pos hlt, hj]⟩

/-- The routes before a page are candidates of the pages before it. -/
theorem exists_candidate_of_mem_take {pages : List Page} {i : Nat} {r : Route}
    (h : r ∈ (planRoutes pages).take i) :
    ∃ page ∈ pages.take i, ∃ place number, r = candidate page.name.toList place number := by
  obtain ⟨place, hlt, hplace⟩ := mem_take_iff.mp h
  have hlength : place < pages.length := by
    rw [← length_planRoutes]
    exact (List.getElem?_eq_some_iff.mp hplace).1
  have hpage : pages[place]? = some pages[place] := List.getElem?_eq_getElem hlength
  rw [getElem?_planRoutes hpage] at hplace
  obtain ⟨number, hchoose, -, -⟩ :=
    exists_settles_choose ((planRoutes pages).take place) pages[place].name.toList place
  exact ⟨_, mem_take_iff.mpr ⟨place, hlt, hpage⟩, place, number,
    (Option.some.inj hplace).symm.trans hchoose⟩

/-- Of the underscored pages before a page one is the first. -/
theorem exists_first_underscored {pages : List Page} {i : Nat}
    (h : ∃ page ∈ pages.take i, IsUnderscored page.name.toList) :
    ∃ j < i, ∃ first, pages[j]? = some first ∧ IsUnderscored first.name.toList
      ∧ ∀ earlier ∈ pages.take j, ¬ IsUnderscored earlier.name.toList := by
  induction i with
  | zero => simp at h
  | succ i ih =>
      by_cases hbefore : ∃ page ∈ pages.take i, IsUnderscored page.name.toList
      · obtain ⟨j, hlt, hfirst⟩ := ih hbefore
        exact ⟨j, by omega, hfirst⟩
      · obtain ⟨page, hmem, hunder⟩ := h
        obtain ⟨j, hlt, hpage⟩ := mem_take_iff.mp hmem
        have hlast : j = i := by
          by_cases hj : j < i
          · exact absurd ⟨page, mem_take_iff.mpr ⟨j, hj, hpage⟩, hunder⟩ hbefore
          · omega
        subst hlast
        exact ⟨j, hlt, page, hpage, hunder, fun earlier hearlier hbad =>
          hbefore ⟨earlier, hearlier, hbad⟩⟩

/-- What the first underscored page would get without a number is free for it. -/
theorem available_bare {pages : List Page} {i : Nat} {page : Page}
    (hunder : IsUnderscored page.name.toList)
    (hnone : ∀ earlier ∈ pages.take i, ¬ IsUnderscored earlier.name.toList) :
    Available ((planRoutes pages).take i) (candidate page.name.toList i 1) := by
  intro r hr
  obtain ⟨earlier, hearlier, place, number, rfl⟩ := exists_candidate_of_mem_take hr
  exact separate_bare hunder (hnone earlier hearlier) i place number

/-- A search that may end with the first number ends there. -/
theorem Route.Settles.eq_one {before : List Route} {name : Text} {index number : Nat}
    (h : Settles before name index 1 number)
    (hbare : Available before (candidate name index 1)) : number = 1 := by
  by_cases hgt : 1 < number
  · exact absurd hbare (h.not_available (Nat.le_refl 1) hgt)
  · have hle := h.le
    omega

/-- The slug and the class that an underscored page has without a number are free for it exactly if
it is the first such page. -/
theorem available_bare_iff {pages : List Page} {i : Nat} {page : Page}
    (hunder : IsUnderscored page.name.toList) :
    Available ((planRoutes pages).take i) (candidate page.name.toList i 1)
      ↔ ∀ earlier ∈ pages.take i, ¬ IsUnderscored earlier.name.toList := by
  refine ⟨fun havailable earlier hearlier hbad => ?_, available_bare hunder⟩
  -- the first underscored page has the class that this one would have without a number
  obtain ⟨j, hlt, first, hfirst, hfirstUnder, hnone⟩ :=
    exists_first_underscored ⟨earlier, hearlier, hbad⟩
  have hroute := getElem?_planRoutes hfirst
  obtain ⟨number, hchoose, hsettles, -⟩ :=
    exists_settles_choose ((planRoutes pages).take j) first.name.toList j
  obtain rfl := hsettles.eq_one (available_bare hfirstUnder hnone)
  rw [hchoose] at hroute
  have htaken : candidate first.name.toList j 1 ∈ (planRoutes pages).take i :=
    mem_take_iff.mpr ⟨j, hlt, hroute⟩
  apply (havailable _ htaken).2
  apply String.toList_inj.mp
  rw [toList_className_candidate, toList_className_candidate,
    (baseClass_eq_nil_iff _ _).mpr hunder, (baseClass_eq_nil_iff _ _).mpr hfirstUnder]

/-- **Which planned names are legal.** Every slug is, and every class has ASCII letters and digits
only and the ending. A class begins with a capital, and so is legal, unless its page and a page
before it have underscored names; then it begins with the number that tells it apart. -/
theorem isLegalClass_planRoutes_iff {pages : List Page} {i : Nat} {page : Page} {r : Route}
    (hpage : pages[i]? = some page) (hroute : (planRoutes pages)[i]? = some r) :
    IsSlug r.slug.toList
      ∧ (∀ c ∈ r.className.toList, c.isAlphanum = true)
      ∧ "Page".toList <:+ r.className.toList
      ∧ (IsLegalClass r.className.toList ↔ ¬ (IsUnderscored page.name.toList
          ∧ ∃ earlier ∈ pages.take i, IsUnderscored earlier.name.toList)) := by
  rw [getElem?_planRoutes hpage] at hroute
  obtain ⟨number, hchoose, hsettles, -⟩ :=
    exists_settles_choose ((planRoutes pages).take i) page.name.toList i
  rw [hchoose] at hroute
  obtain rfl := Option.some.inj hroute
  obtain ⟨halnum, -, hending⟩ := isClassName_candidate page.name.toList i number
  refine ⟨isSlug_candidate _ _ _, halnum, hending, ?_⟩
  rw [isLegalClass_candidate_iff]
  apply not_congr
  apply and_congr_right
  intro hunder
  -- the number is the first one exactly if no page before it is underscored
  have hone : number = 1
      ↔ Available ((planRoutes pages).take i) (candidate page.name.toList i 1) := by
    constructor
    · rintro rfl
      exact hsettles.available
    · exact hsettles.eq_one
  rw [ne_eq, hone, available_bare_iff hunder]
  simp only [Classical.not_forall, Classical.not_not, exists_prop]

/-- Two pages that are called by an underscore: the second class begins with its number. -/
theorem isLegalClass_planRoutes_iff_underscores :
    planRoutes [⟨"_", []⟩, ⟨"_", []⟩] = [⟨"_", "Page"⟩, ⟨"__2", "2Page"⟩]
      ∧ IsUnderscored "_".toList
      ∧ IsSlug "__2".toList
      ∧ ¬ IsLegalClass "2Page".toList := by
  have hplan : planRoutes [⟨"_", []⟩, ⟨"_", []⟩] = [⟨"_", "Page"⟩, ⟨"__2", "2Page"⟩] := by
    decide +kernel
  have hunder : IsUnderscored "_".toList := by decide
  have hroute : (planRoutes [⟨"_", []⟩, ⟨"_", []⟩])[1]? = some ⟨"__2", "2Page"⟩ := by
    rw [hplan]
    rfl
  have hpage : [(⟨"_", []⟩ : Page), ⟨"_", []⟩][1]? = some ⟨"_", []⟩ := rfl
  obtain ⟨hslug, -, -, hiff⟩ := isLegalClass_planRoutes_iff hpage hroute
  refine ⟨hplan, hunder, hslug, fun hlegal => hiff.mp hlegal ⟨hunder, ⟨"_", []⟩, ?_, hunder⟩⟩
  exact List.mem_cons_self

end CanvasFlutter
