import CanvasFlutter.Proofs.Dart.Place
import CanvasFlutter.Proofs.Widget.Vocabulary

namespace CanvasFlutter.Widget

/-!
# `CanvasFlutter.Proofs.Widget.Reserved` — where the reserved words of a page may stand

In the source of widgets a reserved word is the name of an icon, or an entry of the page's state
with its key behind it, or the call that changes the state. Everything else that is fixed is free of
them, and what a canvas gives stands in literals.

## Contents
- **Places.** `Reference` is what may be at a reserved word; `Keeps` holds of tokens in which
  nothing else is; `Keeps.append`.
- **Widgets.** `Made.keeps`.
-/

open CanvasFlutter.Dart Lexer

/-! ## Places -/

/-- What stands before the name of an icon. -/
def iconPrefix : List Token := [.word "Icons".toList, .mark ['.']]

/-- A key in square brackets. -/
def keyTokens (key : String) : List Token :=
  [.mark ['['], .string (Literal.string key.toList), .mark [']']]

/-- What a reserved word may be, given the tokens before and after it. -/
inductive Reference (scope : Scope) (before : List Token) (t : Token) (after : List Token) :
    Prop where
  | icon (h : iconPrefix <:+ before)
  | entry {map key : String} (hmap : map ∈ stateMaps) (ht : t = .word map.toList)
      (h : scope.entry map key) (hafter : keyTokens key <+: after)
  | setState (ht : t = .word "setState".toList) (h : scope.setState)

variable {scope : Scope} {ts us : List Token}

/-- Each of the reserved words in these tokens is allowed where it stands. -/
def Keeps (scope : Scope) (ts : List Token) : Prop :=
  AtEach (fun before t after => t ∈ reserved → Reference scope before t after) ts

theorem stable_reference :
    Stable fun before t after => t ∈ reserved → Reference scope before t after := by
  intro before t after h left right hreserved
  cases h hreserved with
  | icon hbefore => exact .icon (hbefore.trans (List.suffix_append _ _))
  | entry hmap ht hscope hafter =>
      exact .entry hmap ht hscope (hafter.trans (List.prefix_append _ _))
  | setState ht hscope => exact .setState ht hscope

theorem Keeps.append (hs : Keeps scope ts) (ht : Keeps scope us) : Keeps scope (ts ++ us) :=
  AtEach.append stable_reference hs ht

theorem Keeps.cons (hs : Keeps scope ts) {t : Token} (ht : Reference scope [] t ts) :
    Keeps scope (t :: ts) := AtEach.cons stable_reference hs fun _ => ht

theorem keeps_flatMap {α : Type} {items : List α} {f : α → List Token}
    (h : ∀ a ∈ items, Keeps scope (f a)) : Keeps scope (items.flatMap f) :=
  atEach_flatMap stable_reference h

/-- Tokens without any reserved word. -/
theorem keeps_of_free (h : ∀ t ∈ ts, t ∉ reserved) : Keeps scope ts :=
  atEach_of_forall fun t ht _ _ hreserved => absurd hreserved (h t ht)

/-- Of these words only names of icons stand in the tokens. -/
def OnlyIcons (words ts : List Token) : Prop :=
  AtEach (fun before t _ => t ∈ words → iconPrefix <:+ before) ts

theorem stable_onlyIcons (words : List Token) :
    Stable fun before t _ => t ∈ words → iconPrefix <:+ before :=
  fun _ _ _ h _ _ hmem => (h hmem).trans (List.suffix_append _ _)

theorem OnlyIcons.append {words : List Token} (s t : List Token) (hs : OnlyIcons words s)
    (ht : OnlyIcons words t) : OnlyIcons words (s ++ t) :=
  AtEach.append (stable_onlyIcons words) hs ht

theorem onlyIcons_of_free {words : List Token} (h : ∀ t ∈ ts, t ∉ words) : OnlyIcons words ts :=
  atEach_of_forall fun t ht _ _ hmem => absurd hmem (h t ht)

/-! ## Widgets -/

theorem free_fixed : ∀ s ∈ fixedSources, ∀ t ∈ lexed s.toList, t ∉ reserved := by
  have hfixed : ∀ {s : String}, isFixed s = true → ∀ t ∈ lexed s.toList, t ∉ reserved := by
    intro s h
    simp only [isFixed, isPlain, Bool.and_eq_true] at h
    simpa using h.1.2
  intro s hs
  simp only [fixedSources, List.mem_append] at hs
  rcases hs with ((((hs | hs) | hs) | hs) | hs) | hs
  · exact hfixed (isFixed_words s hs)
  · exact hfixed (isFixed_callees s hs)
  · exact hfixed (isFixed_argumentNames s hs)
  · exact hfixed (isFixed_methods s hs).1
  · exact hfixed (isFixed_parameterLists s hs)
  · simpa using names_signs s hs

/-- What a number is read as, apart from numerals. -/
def numberSigns : List Token := [.mark ['-'], .word "NaN".toList, .word "inf".toList]

theorem mem_number (x : Float) : ∀ t ∈ lexed (Literal.number x),
    t ∈ numberSigns ∨ ∃ numeral, t = .number numeral := by
  cases h : Decimal.isFinite x with
  | true =>
      obtain ⟨s, hs, heq | heq⟩ := exists_numeral h
      · rw [heq, (phrase_numeral hs).lexed]
        simp
      · rw [heq, (phrase_minus hs).lexed]
        simp [numberSigns]
  | false =>
      obtain ⟨s, hs, heq⟩ := number_of_not_isFinite h
      have hwords : ∀ s ∈ ["NaN", "-inf", "inf"], ∀ t ∈ lexed s.toList, t ∈ numberSigns := by decide
      rw [heq]
      exact fun t ht => .inl (hwords s hs t ht)

theorem free_number {words : List Token} (hsigns : ∀ t ∈ numberSigns, t ∉ words)
    (hnumerals : ∀ numeral, .number numeral ∉ words) (x : Float) :
    ∀ t ∈ lexed (Literal.number x), t ∉ words := by
  intro t ht
  rcases mem_number x t ht with h | ⟨numeral, rfl⟩
  · exact hsigns t h
  · exact hnumerals numeral

theorem onlyIcons_icon {words : List Token} (hicon : ∀ t ∈ iconPrefix, t ∉ words) (name : Text) :
    OnlyIcons words (Piece.icon name).tokens := by
  intro before t after heq hword
  -- the name of the icon is the third of three tokens
  rcases before with _ | ⟨first, _ | ⟨second, _ | ⟨third, before⟩⟩⟩
  all_goals simp only [Piece.tokens, List.cons_append, List.nil_append, List.cons.injEq] at heq
  · exact absurd hword (hicon t (heq.1 ▸ by simp [iconPrefix]))
  · exact absurd hword (hicon t (heq.2.1 ▸ by simp [iconPrefix]))
  · obtain ⟨rfl, rfl, -⟩ := heq
    exact List.suffix_refl _
  · simp at heq

theorem keeps_icon (name : Text) : Keeps scope (Piece.icon name).tokens :=
  (onlyIcons_icon (by decide) name).imp fun _ _ _ h hreserved => .icon (h hreserved)

theorem keeps_entry {map key : String} (hmap : map ∈ stateMaps) (h : scope.entry map key) :
    Keeps scope (Piece.entry map key).tokens := by
  have hkey : Keeps scope (keyTokens key) := keeps_of_free (by simp [keyTokens, reserved])
  exact hkey.cons (.entry hmap rfl h (List.prefix_refl _))

theorem keeps_setState (h : scope.setState) : Keeps scope (Piece.fixed "setState").tokens := by
  have htokens : Piece.tokens (.fixed "setState") = [.word "setState".toList] :=
    (phrase_word isFixed_setState.2.2).lexed
  rw [htokens]
  exact Keeps.cons (keeps_of_free (by simp)) (.setState rfl h)

theorem Allowed.keeps {p : Piece} (h : Allowed scope p) : Keeps scope p.tokens := by
  cases p with
  | fixed source =>
      rcases h with h | ⟨rfl, hscope⟩
      · exact keeps_of_free (free_fixed source h)
      · exact keeps_setState hscope
  | literal text => exact keeps_of_free (by simp [Piece.tokens, reserved])
  | number x => exact keeps_of_free (free_number (by decide) (by simp [reserved]) x)
  | paint p =>
      cases p with
      | transparent => exact keeps_of_free (by decide)
      | color argb =>
          have hnumber : .number (hexText argb) ∉ reserved := by simp [reserved]
          have hsigns : .word "Color".toList ∉ reserved ∧ .mark ['('] ∉ reserved
            ∧ .mark [')'] ∉ reserved := by decide
          exact keeps_of_free (by simpa [Piece.tokens, hnumber] using hsigns)
  | icon name => exact keeps_icon name
  | entry map key => exact keeps_entry h.1 h.2

/-- **The reserved words in a tree are allowed where they stand.** -/
theorem Made.keeps {c : Code} (h : Made scope c) : Keeps scope c.tokens :=
  keeps_flatMap fun p hp => (h.allowed p hp).keeps

end CanvasFlutter.Widget
