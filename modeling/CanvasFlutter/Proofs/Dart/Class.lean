import CanvasFlutter.Proofs.Dart.Bracket

namespace CanvasFlutter.Dart

/-!
# `CanvasFlutter.Proofs.Dart.Class` — classes and methods among tokens

What a reader of a page looks for: what its first class extends, and what stands in a method.

## Contents
- **Superclass.** `Extends`.
- **Methods.** `enclosed?` reads up to a closing bracket, `methodBody?` finds a method by its name.
-/

variable {ts before parameters body after : List Token}

/-! ## Superclass -/

/-- Whether the first class extends a class of this name: the last words before its brace. -/
def Extends (base : String) (ts : List Token) : Prop :=
  [.word "extends".toList, .word base.toList] <:+ ts.takeWhile (· ≠ .mark ['{'])

theorem takeWhile_brace (h : .mark ['{'] ∉ before) (after : List Token) :
    (before ++ .mark ['{'] :: after).takeWhile (· ≠ .mark ['{']) = before := by
  have hbefore : ∀ t ∈ before, decide (t ≠ .mark ['{']) = true := fun t ht => by
    simpa using fun heq : t = .mark ['{'] => h (heq ▸ ht)
  rw [List.takeWhile_append_of_pos hbefore]
  simp

theorem extends_iff {base : String} {found : Text} (h : .mark ['{'] ∉ before)
    (after : List Token) :
    Extends base (before ++ [.word "extends".toList, .word found] ++ .mark ['{'] :: after)
      ↔ base.toList = found := by
  have hheader : .mark ['{'] ∉ before ++ [.word "extends".toList, .word found] := by simp [h]
  rw [Extends, takeWhile_brace hheader]
  constructor
  · rintro ⟨front, heq⟩
    have hlast := List.append_inj_right' heq rfl
    simpa using hlast
  · rintro rfl
    exact List.suffix_append _ _

/-- A class extends one class only. -/
theorem Extends.unique {base other : String} (h : Extends base ts) (hother : Extends other ts) :
    base = other := by
  have heq := (List.suffix_of_suffix_length_le h hother (by simp)).eq_of_length (by simp)
  simpa [String.toList_inj] using heq

/-! ## Methods -/

/-- The tokens up to the one that closes the outermost of the brackets that are still open. -/
def enclosed? : List Token → List Token → Option (List Token)
  | _, [] => none
  | pending, t :: ts =>
      match nestStep pending t with
      | none => none
      | some [] => some []
      | some (closer :: more) => (enclosed? (closer :: more) ts).map (t :: ·)

/-- The tokens between the braces of the first method of this name. -/
def methodBody? (name : String) (ts : List Token) : Option (List Token) :=
  let method := ts.dropWhile (· ≠ .word name.toList)
  enclosed? [.mark ['}']] (method.dropWhile (· ≠ .mark ['{'])).tail

/-- Tokens whose own brackets match, or that leave some open, stand inside. -/
theorem enclosed?_append {pending inner : List Token} (h : nest pending body = some inner)
    (closer : Token) (after : List Token) :
    enclosed? (pending ++ [closer]) (body ++ after)
      = (enclosed? (inner ++ [closer]) after).map (body ++ ·) := by
  induction body generalizing pending with
  | nil =>
      obtain rfl := Option.some.inj h
      simp
  | cons t body ih =>
      rw [nest, List.foldlM_cons] at h
      obtain ⟨middle, hstep, hrest⟩ := Option.bind_eq_some_iff.mp h
      have hframe := nestStep_append hstep [closer]
      obtain ⟨first, more, hmore⟩ := List.exists_cons_of_ne_nil (l := middle ++ [closer]) (by simp)
      rw [hmore] at hframe
      rw [List.cons_append, enclosed?, hframe]
      simp only
      rw [← hmore, ih hrest, Option.map_map]
      rfl

theorem enclosed?_of_nested (h : Nested body) {opening closer : Token}
    (hpair : (opening, closer) ∈ brackets) (after : List Token) :
    enclosed? [closer] (body ++ closer :: after) = some body := by
  have hpairs : ∀ p ∈ brackets, nestStep [p.2] p.2 = some [] := by decide
  have hclose : enclosed? [closer] (closer :: after) = some [] := by
    rw [enclosed?, hpairs _ hpair]
  rw [show [closer] = [] ++ [closer] from rfl, enclosed?_append h, List.nil_append, hclose]
  simp

/-- A method is found at the first place of its name. -/
theorem methodBody?_eq {name : String} (hname : .word name.toList ∉ before)
    (hparameters : .mark ['{'] ∉ parameters) (hbody : Nested body) (after : List Token) :
    methodBody? name (before ++ .word name.toList
      :: (parameters ++ .mark ['{'] :: (body ++ .mark ['}'] :: after))) = some body := by
  have hbefore : ∀ t ∈ before, decide (t ≠ .word name.toList) = true := fun t ht => by
    simpa using fun heq : t = .word name.toList => hname (heq ▸ ht)
  have hopen : ∀ t ∈ .word name.toList :: parameters, decide (t ≠ .mark ['{']) = true := by
    refine List.forall_mem_cons.mpr ⟨by simp, fun t ht => ?_⟩
    simpa using fun heq : t = .mark ['{'] => hparameters (heq ▸ ht)
  have hmethod : ∀ rest : List Token,
      (.word name.toList :: rest).dropWhile (· ≠ .word name.toList) = .word name.toList :: rest :=
    fun rest => by simp
  rw [methodBody?, List.dropWhile_append_of_pos hbefore, hmethod, ← List.cons_append,
    List.dropWhile_append_of_pos hopen]
  have hpair : (.mark ['{'], .mark ['}']) ∈ brackets := by decide
  simpa using enclosed?_of_nested hbody hpair after

end CanvasFlutter.Dart
