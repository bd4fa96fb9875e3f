import CanvasFlutter.Proofs.Dart.Leaf

namespace CanvasFlutter

/-!
# `CanvasFlutter.Proofs.Route.ClassName` — how the class of a page is read

The class of a page is a word of ASCII letters and digits. If its page's name holds none, it may
begin with the number that tells it apart, and is then read as a number and a word.

## Contents
- **Class names.** `IsClassName`, which the classes of all planned routes are.
- **Tokens.** `classTokens`, `stateName`; `phrase_className`.
-/

open Dart Lexer

/-! ## Class names -/

/-- ASCII letters and digits with the ending of class names, the first a letter unless there are
digits before the ending. -/
structure IsClassName (t : Text) : Prop where
  alphanum : ∀ c ∈ t, c.isAlphanum = true
  shape : t.IsIdentifier ∨ ∃ digits, IsDigits digits ∧ t = digits ++ "Page".toList
  ending : "Page".toList <:+ t

theorem PageName.isAlphanum_pascalCase (name : Text) :
    ∀ c ∈ PageName.pascalCase name, c.isAlphanum = true := by
  intro c hc
  obtain ⟨word, -, hword⟩ := List.mem_flatMap.mp hc
  have hfilter : ∀ c ∈ word.filter Char.isAlphanum, c.isAlphanum = true :=
    fun c hc => (List.mem_filter.mp hc).2
  rw [capitalized] at hword
  split at hword
  · simp at hword
  · next first rest h =>
      rw [h, List.forall_mem_cons] at hfilter
      rcases List.mem_cons.mp hword with rfl | hmem
      · exact Text.isAlphanum_toUpper hfilter.1
      · exact hfilter.2 c hmem

namespace Route

theorem isAlphanum_baseClass (name : Text) (index : Nat) :
    ∀ c ∈ baseClass name index, c.isAlphanum = true := by
  have hbase : ∀ c ∈ (if (PageName.pascalCase name).isEmpty then
      PageName.pascalCase (baseSlug name index) else PageName.pascalCase name),
      c.isAlphanum = true := by
    split <;> exact PageName.isAlphanum_pascalCase _
  rw [baseClass]
  split
  · next first rest h =>
      split
      · exact List.forall_mem_append.mpr ⟨Text.forall_of_all (by decide), hbase⟩
      · exact hbase
  · simp

/-- The class of a page without number and ending begins with a letter, if it is not empty. -/
theorem isAlpha_baseClass {name : Text} {index : Nat} {c : Char} {rest : Text}
    (h : baseClass name index = c :: rest) : c.isAlpha = true := by
  have hall := isAlphanum_baseClass name index
  rw [h, List.forall_mem_cons] at hall
  rw [baseClass] at h
  split at h
  · next first more heq =>
      split at h
      · obtain rfl : 'P' = c := (List.cons.inj h).1
        decide
      · next hdigit =>
          rw [heq] at h
          obtain rfl : first = c := (List.cons.inj h).1
          exact (Bool.or_eq_true_iff.mp hall.1).resolve_right hdigit
  · simp at h

theorem isClassName_candidate (name : Text) (index number : Nat) :
    IsClassName (candidate name index number).className.toList := by
  have hbase := isAlphanum_baseClass name index
  have hpage : ∀ c ∈ "Page".toList, c.isAlphanum = true :=
    Text.forall_of_all (by decide)
  have hdigits : IsDigits (toString number).toList := by
    simpa [Decimal.digitsOf] using Decimal.isDigits_digitsOf number
  have hnumber : ∀ c ∈ (toString number).toList, c.isAlphanum = true := fun c hc =>
    Bool.or_eq_true_iff.mpr (.inr (hdigits.2 c hc))
  have hfirst : ∀ {t : Text}, (∀ c ∈ t, c.isAlphanum = true) → ∀ {c rest},
      baseClass name index = c :: rest → (baseClass name index ++ t).IsIdentifier := by
    intro t ht c rest heq
    have hc := isAlpha_baseClass heq
    rw [heq, List.forall_mem_cons] at hbase
    rw [heq]
    exact ⟨Bool.or_eq_true_iff.mpr (.inl hc),
      Text.isName_of_isAlphanum (List.forall_mem_append.mpr ⟨hbase.2, ht⟩)⟩
  rw [candidate]
  split
  · simp only [String.toList_ofList]
    refine ⟨List.forall_mem_append.mpr ⟨hbase, hpage⟩, ?_, List.suffix_append _ _⟩
    cases heq : baseClass name index with
    | nil => exact .inl (by decide)
    | cons c rest => exact .inl (heq ▸ hfirst hpage heq)
  · simp only [String.toList_ofList, List.append_assoc]
    have hrest := List.forall_mem_append.mpr ⟨hnumber, hpage⟩
    refine ⟨List.forall_mem_append.mpr ⟨hbase, hrest⟩, ?_,
      (List.suffix_append _ _).trans (List.suffix_append _ _)⟩
    cases heq : baseClass name index with
    | nil => exact .inr ⟨_, hdigits, rfl⟩
    | cons c rest => exact .inl (heq ▸ hfirst hrest heq)

theorem isClassName_of_mem_planAfter {before : List Route} {names : List String} {r : Route}
    (h : r ∈ planAfter before names) : IsClassName r.className.toList := by
  induction names generalizing before with
  | nil => simp [planAfter] at h
  | cons name rest ih =>
      rcases List.mem_cons.mp h with rfl | h
      · exact isClassName_candidate ..
      · exact ih h

end Route

theorem isClassName_of_mem_planRoutes {pages : List Page} {r : Route} (h : r ∈ planRoutes pages) :
    IsClassName r.className.toList := Route.isClassName_of_mem_planAfter h

/-! ## Tokens -/

/-- The tokens of a class name. -/
def classTokens (name : Text) : List Token := lexed name

/-- The name of the class of a page's state. -/
def stateName (name : Text) : Text := '_' :: (name ++ "State".toList)

namespace IsClassName

variable {name : Text}

theorem isName (h : IsClassName name) : Text.IsName name := Text.isName_of_isAlphanum h.alphanum

theorem isIdentifier_stateName (h : IsClassName name) : (stateName name).IsIdentifier :=
  ⟨by decide, Text.isName_append.mpr ⟨h.isName, by decide⟩⟩

theorem phrase_digits_page {digits : Text} (h : IsDigits digits) :
    Phrase (digits ++ "Page".toList) [.number digits, .word "Page".toList] := by
  obtain ⟨stage, hstage, c, rest, rfl, first, hbegin, hrest⟩ := exists_run_digits h
  have hrun : run .between (c :: rest ++ "Page".toList)
      = some ([.number (c :: rest)], .word "Page".toList) := by
    have hstep : ∀ stage, stage = .zero ∨ stage = .whole →
        run (.number stage (c :: rest)) "Page".toList
          = some ([.number (c :: rest)], .word "Page".toList) := by
      rintro stage (rfl | rfl) <;> rfl
    rw [run_append, run_of_begin? hbegin, run_number hrest, Option.bind_some]
    simp only [List.singleton_append]
    rw [hstep stage hstage]
    rfl
  exact phrase_of_run hrun (isSoft_word _) rfl

/-- The tokens of a class name: the name, or its digits and its ending. -/
theorem classTokens_eq (h : IsClassName name) : classTokens name = [.word name]
    ∨ ∃ digits, IsDigits digits ∧ name = digits ++ "Page".toList
      ∧ classTokens name = [.number digits, .word "Page".toList] := by
  rcases h.shape with hword | ⟨digits, hdigits, rfl⟩
  · exact .inl (phrase_word hword).lexed
  · exact .inr ⟨digits, hdigits, rfl, (phrase_digits_page hdigits).lexed⟩

theorem phrase (h : IsClassName name) : Phrase name (classTokens name) := by
  rcases h.shape with hword | ⟨digits, hdigits, rfl⟩
  · rw [classTokens, (phrase_word hword).lexed]
    exact phrase_word hword
  · rw [classTokens, (phrase_digits_page hdigits).lexed]
    exact phrase_digits_page hdigits

/-- A class name after an opening angle bracket. -/
theorem phrase_after_angle (h : IsClassName name) {s : Text} (before : List Token)
    (hrun : run .between s = some (before, .mark ['<'])) :
    Phrase (s ++ name) (before ++ [.mark ['<']] ++ classTokens name) := by
  have hne : name ≠ [] := by
    rintro rfl
    rcases h.shape with hnil | ⟨digits, -, hnil⟩
    · exact hnil
    · simp at hnil
  obtain ⟨c, rest, rfl⟩ := List.exists_cons_of_ne_nil hne
  have hstop : (Mode.mark ['<']).goOn? c = none :=
    Text.forall_isAsciiWord (p := fun c => (Mode.mark ['<']).goOn? c = none) (by decide)
      (h.isName c (by simp))
  exact h.phrase.after hrun rfl ⟨c, rest, rfl, hstop, rfl⟩

end IsClassName

end CanvasFlutter
