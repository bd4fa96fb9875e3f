import CanvasFlutter.Proofs.Decimal.Finite
import CanvasFlutter.Proofs.PageSource.Project
import CanvasFlutter.Proofs.Widget.Reserved

namespace CanvasFlutter

/-!
# `CanvasFlutter.Proofs.PageSource.Vocabulary` — what stands outside the strings of a page

Whatever a canvas holds, the source of its pages is made of a fixed vocabulary. The canvas has its
say in string literals, numerals, colours of eight digits and the names of icons; its page names
have theirs in the names of classes.

## Contents
- **Numbers.** All numbers that reach the source are finite (`admits_finiteScope`).
- **Tokens.** `vocabulary`, `Harmless`.
- **Pages.** `harmless_source`.
-/

open Dart Lexer Widget

/-! ## Numbers -/

namespace Widget

/-- Whether a fallback is no number beyond the finite ones. -/
def Fallback.isFinite : Fallback → Bool
  | .number x => Decimal.isFinite x
  | _ => true

theorem isFinite_shared : ∀ entry ∈ shared, entry.2.isFinite = true := by decide

theorem isFinite_policy (kind : Kind) : ∀ entry ∈ policy kind, entry.2.isFinite = true := by
  cases kind
  case unknown => simp [policy]
  all_goals decide

theorem isFinite_fallback? {kind : Kind} {path : String} {fallback : Fallback}
    (h : fallback? kind path = some fallback) : fallback.isFinite = true := by
  have hlookup : ∀ (table : Table) {found}, table.lookup path = some found →
      ∃ entry ∈ table, entry.2 = found := by
    intro table found htable
    obtain ⟨before, after, rfl, -⟩ := List.lookup_eq_some_iff.mp htable
    exact ⟨_, List.mem_append_right _ List.mem_cons_self, rfl⟩
  rw [fallback?] at h
  cases hown : (policy kind).lookup path with
  | some own =>
      obtain ⟨entry, hentry, hvalue⟩ := hlookup _ hown
      obtain rfl : own = fallback := by simpa [hown] using h
      exact hvalue ▸ isFinite_policy kind entry hentry
  | none =>
      obtain ⟨entry, hentry, rfl⟩ := hlookup shared (by simpa [hown] using h)
      exact isFinite_shared entry hentry

theorem isFinite_number? {node : Node} {path : String} {x : Float}
    (h : node.number? path = some x) : Decimal.isFinite x = true :=
  (Option.filter_eq_some_iff.mp h).2

theorem isFinite_number (a : Attributes) (path : String) :
    Decimal.isFinite (a.number path) = true := by
  have hzero : Decimal.isFinite 0 = true := by decide
  rw [Attributes.number]
  split
  · next h => exact isFinite_number? h
  · split
    · next h => exact isFinite_fallback? h
    · exact hzero

theorem isFinite_tickSize (a : Attributes) : Decimal.isFinite (tickSize a) = true := by
  have hshare : (0.7 : Float).toModel.unpack
      = .finite .positive 6305039478318694 (-(53 : Nat) : Int) (by decide) := rfl
  refine Decimal.isFinite_roundHalfAway (Decimal.isFinite_mul ?_ hshare (by decide))
  split
  · exact isFinite_number a _
  · exact isFinite_number a _

theorem isFinite_maxLength? {a : Attributes} {x : Float} (h : maxLength? a = some x) :
    Decimal.isFinite x = true := by
  unfold maxLength? at h
  split at h
  · next found hfound =>
      split at h
      · cases h
        exact Decimal.isFinite_wholePart (isFinite_number? hfound)
      · simp at h
  · simp at h

/-- What any page may refer to: finite numbers, and all of its state. -/
def finiteScope : Scope where
  number x := Decimal.isFinite x = true
  entry _ _ := True
  setState := True

theorem admits_finiteScope (node : Node) : Admits finiteScope node where
  number _ := isFinite_number _
  tickSize := isFinite_tickSize _
  maxLength _ := isFinite_maxLength?
  ticked _ := ⟨trivial, trivial⟩
  chosen _ := ⟨trivial, trivial⟩

end Widget

/-! ## Tokens -/

/-- Source that stands around what a canvas gives, and the ending of class names. -/
def hingeSources : List String :=
  ["setState", "Icons.", "Color(", ")", "Colors.transparent", "-", "[", "]", "Page"] ++ stateMaps

/-- The tokens of all fixed source. -/
def vocabulary : List Token :=
  (fixedSources ++ classSources ++ methodSources ++ hingeSources).flatMap fixed

/-- What a token of a page may be, given the tokens before it. -/
inductive Harmless (name : Text) (before : List Token) : Token → Prop where
  | listed {t : Token} (h : t ∈ vocabulary) : Harmless name before t
  | string (source : Text) : Harmless name before (.string source)
  | numeral {source : Text} (h : IsNumeral source) : Harmless name before (.number source)
  | color {digits : Text} (hlength : digits.length = 8) (h : ∀ c ∈ digits, isHexDigit c = true) :
      Harmless name before (.number (hexText digits))
  | className : Harmless name before (.word name)
  | stateName : Harmless name before (.word (stateName name))
  | icon {source : Text} (h : source.IsIdentifier) (hbefore : iconPrefix <:+ before) :
      Harmless name before (.word source)

variable {nodes : List Node} {name : Text} {before : List Token}

/-- Every token of a row is harmless where it stands. -/
def AllHarmless (name : Text) (ts : List Token) : Prop :=
  AtEach (fun before t _ => Harmless name before t) ts

theorem stable_harmless : Stable fun before t _ => Harmless name before t := by
  intro before t after h left right
  cases h with
  | listed h => exact .listed h
  | string source => exact .string source
  | numeral h => exact .numeral h
  | color hlength h => exact .color hlength h
  | className => exact .className
  | stateName => exact .stateName
  | icon h hbefore => exact .icon h (hbefore.trans (List.suffix_append _ _))

theorem AllHarmless.append (s t : List Token) (hs : AllHarmless name s) (ht : AllHarmless name t) :
    AllHarmless name (s ++ t) :=
  AtEach.append stable_harmless hs ht

theorem allHarmless_of_listed {ts : List Token} (h : ∀ t ∈ ts, t ∈ vocabulary) :
    AllHarmless name ts :=
  atEach_of_forall fun t ht _ _ => .listed (h t ht)

theorem mem_vocabulary {source : String}
    (h : source ∈ fixedSources ++ classSources ++ methodSources ++ hingeSources) :
    ∀ t ∈ fixed source, t ∈ vocabulary :=
  fun _ ht => List.mem_flatMap.mpr ⟨source, h, ht⟩

/-- What the sources of the hinges are read as. -/
theorem mem_vocabulary_hinge {t : Token} (h : t ∈ hingeSources.flatMap fixed) : t ∈ vocabulary := by
  obtain ⟨source, hsource, ht⟩ := List.mem_flatMap.mp h
  exact mem_vocabulary (List.mem_append_right _ hsource) t ht

theorem allHarmless_hinge {ts : List Token} (h : ∀ t ∈ ts, t ∈ hingeSources.flatMap fixed) :
    AllHarmless name ts :=
  allHarmless_of_listed fun t ht => mem_vocabulary_hinge (h t ht)

theorem allHarmless_number {x : Float} (h : Decimal.isFinite x = true) :
    AllHarmless name (lexed (Literal.number x)) := by
  have hminus : Token.mark ['-'] ∈ hingeSources.flatMap fixed := by decide
  obtain ⟨numeral, hnumeral, heq | heq⟩ := exists_numeral h
  · rw [heq, (phrase_numeral hnumeral).lexed]
    exact atEach_of_forall (by simpa using fun _ => .numeral hnumeral)
  · rw [heq, (phrase_minus hnumeral).lexed]
    refine atEach_of_forall ?_
    simpa using ⟨fun _ => .listed (mem_vocabulary_hinge hminus), fun _ => .numeral hnumeral⟩

theorem allHarmless_paint {p : Paint} (h : HasDigits p) :
    AllHarmless name (Piece.tokens (.paint p)) := by
  cases p with
  | transparent => exact allHarmless_hinge (by decide)
  | color argb =>
      have hopen : ∀ t ∈ [Token.word "Color".toList, .mark ['(']],
          t ∈ hingeSources.flatMap fixed := by decide
      have hclose : ∀ t ∈ [Token.mark [')']], t ∈ hingeSources.flatMap fixed := by decide
      have hdigits : AllHarmless name [Token.number (hexText argb)] :=
        atEach_of_forall (by simpa using fun _ => .color h.1 h.2)
      exact .append _ _ (allHarmless_hinge hopen)
        (.append _ _ hdigits (allHarmless_hinge hclose))

theorem allHarmless_icon {icon : Text} (h : icon.IsIdentifier) :
    AllHarmless name (Piece.tokens (.icon icon)) := by
  have hicons : ∀ t ∈ iconPrefix, t ∈ hingeSources.flatMap fixed := by decide
  intro before t after heq
  -- the name of the icon is the third of three tokens
  rcases before with _ | ⟨first, _ | ⟨second, _ | ⟨third, before⟩⟩⟩
  all_goals simp only [Piece.tokens, List.cons_append, List.nil_append, List.cons.injEq] at heq
  · exact .listed (mem_vocabulary_hinge (hicons t (heq.1 ▸ by simp [iconPrefix])))
  · exact .listed (mem_vocabulary_hinge (hicons t (heq.2.1 ▸ by simp [iconPrefix])))
  · obtain ⟨rfl, rfl, rfl, -⟩ := heq
    exact .icon h (List.suffix_refl _)
  · simp at heq

theorem allHarmless_entry {map : String} (hmap : map ∈ stateMaps) (key : String) :
    AllHarmless name (Piece.tokens (.entry map key)) := by
  have hmaps : ∀ m ∈ stateMaps, ∀ t ∈ [Token.word m.toList, .mark ['[']],
      t ∈ hingeSources.flatMap fixed := by decide
  have hclose : ∀ t ∈ [Token.mark [']']], t ∈ hingeSources.flatMap fixed := by decide
  have hkey : AllHarmless name [Token.string (Literal.string key.toList)] :=
    atEach_of_forall (by simpa using fun _ => .string _)
  exact .append _ _ (allHarmless_hinge (hmaps map hmap))
    (.append _ _ hkey (allHarmless_hinge hclose))

/-- A piece that a tree may hold is harmless. -/
theorem allHarmless_piece {p : Piece} (h : Allowed finiteScope p) :
    AllHarmless name p.tokens := by
  cases p with
  | fixed source =>
      rcases h with h | ⟨rfl, -⟩
      · exact allHarmless_of_listed (mem_vocabulary (by simp [h]))
      · exact allHarmless_of_listed (mem_vocabulary (by simp [hingeSources]))
  | literal text => exact atEach_of_forall (by simpa [Piece.tokens] using fun _ => .string _)
  | number x => exact allHarmless_number h
  | paint p => exact allHarmless_paint h
  | icon name => exact allHarmless_icon h
  | entry map key => exact allHarmless_entry h.1 key

theorem allHarmless_code {c : Code} (h : Made finiteScope c) : AllHarmless name c.tokens :=
  atEach_flatMap stable_harmless fun p hp => allHarmless_piece (h.allowed p hp)

theorem allHarmless_className (h : IsClassName name) : AllHarmless name (classTokens name) := by
  obtain heq | ⟨digits, hdigits, -, heq⟩ := h.classTokens_eq
  · rw [heq]
    exact atEach_of_forall (by simpa using fun _ => .className)
  · have hending : Token.word "Page".toList ∈ hingeSources.flatMap fixed := by decide
    rw [heq]
    refine atEach_of_forall ?_
    simpa using ⟨fun _ => .numeral hdigits.isNumeral,
      fun _ => .listed (mem_vocabulary_hinge hending)⟩

/-! ## Pages -/

/-- A page is harmless, whatever its nodes. -/
theorem allHarmless_tokens {name : String} (hname : IsClassName name.toList) (nodes : List Node) :
    AllHarmless name.toList (PageClass.ofNodes name nodes).tokens := by
  have hadmits : ∀ n ∈ Node.preorderAll nodes, Admits finiteScope n :=
    fun n _ => admits_finiteScope n
  have hmaps : ∀ m ∈ stateMaps, Token.word m.toList ∈ hingeSources.flatMap fixed := by
    decide
  refine tokens_of AllHarmless.append atEach_nil (fun s hs => ?_) (fun m hm => ?_)
    (allHarmless_className hname) (atEach_of_forall (by simpa using fun _ => .stateName))
    (fun seed hseed => allHarmless_code (made_seed hadmits hseed))
    (allHarmless_code (made_scaffold hadmits))
  · refine allHarmless_of_listed (mem_vocabulary ?_)
    simp only [List.mem_append] at hs ⊢
    exact .inl (hs.imp_left .inr)
  · exact allHarmless_hinge (by simpa using hmaps m hm)

/-- **No canvas adds to the vocabulary of a page.** -/
theorem harmless_source {pages : List Page} {g : GeneratedPage} (h : g ∈ compilePages pages) :
    ∃ ts, tokens? g.source = some ts ∧ AllHarmless g.route.className.toList ts := by
  obtain ⟨page, -, hsource⟩ := exists_page h
  have hname := isClassName_of_mem_planRoutes (mem_planRoutes h)
  obtain ⟨hclosed, -⟩ := closed_assemblePage hname fun n _ => admits_finiteScope n
  exact ⟨_, hsource ▸ hclosed.phrase.tokens?, allHarmless_tokens hname page.components⟩

end CanvasFlutter
