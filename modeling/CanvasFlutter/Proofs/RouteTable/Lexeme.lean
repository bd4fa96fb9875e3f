import CanvasFlutter.Proofs.RouteTable.Balanced
import CanvasFlutter.Proofs.RouteTable.Material

namespace CanvasFlutter

/-!
# `CanvasFlutter.Proofs.RouteTable.Lexeme` — tables in the grammar of Dart

Dart has more strings and comments than the scanner knows: raw strings, in which a backslash is a
character like any other, strings between three quotes, code within strings, and comments within
comments. A table whose content is read by Dart's grammar is replaced up to its own closing brace
exactly if the content is balanced for the scanner too; and it is if the scanner reads every string
and comment of it as a whole.

## Contents
- **Lexemes.** `Quotes`, `Lexeme`, `textOf`.
- **Grammar.** `CommentInside`, `Derives`; `IsCode`, the content of a table.
- **Reading.** `Lexeme.IsReadWhole`; `balanced_textOf`.
- **Replacing.** `replaceTable?_iff_balanced`.
-/

open Scanner Pattern

namespace Dart

/-! ## Lexemes -/

/-- The quotes around a string: one of either kind, or three. -/
structure Quotes where
  quote : Char
  triple : Bool
  isQuote : quote = '\'' ∨ quote = '"'

/-- The quotes at either end. -/
def Quotes.text (q : Quotes) : Text :=
  if q.triple then [q.quote, q.quote, q.quote] else [q.quote]

/-- A piece of Dart code, as its lexical grammar cuts it. Names are told apart from the `r` of a raw
string; numbers, operators and white space are taken character by character. -/
inductive Lexeme where
  | other (c : Char)
  | word (name : Text)
  | openingBrace
  | closingBrace
  /-- A comment up to the end of its line. -/
  | lineComment (body ending : Text)
  | blockComment (body : Text)
  | string (raw : Bool) (quotes : Quotes) (body : Text)

def Lexeme.text : Lexeme → Text
  | other c => [c]
  | word name => name
  | openingBrace => ['{']
  | closingBrace => ['}']
  | lineComment body ending => '/' :: '/' :: (body ++ ending)
  | blockComment body => '/' :: '*' :: (body ++ ['*', '/'])
  | string raw quotes body =>
      (if raw then ['r'] else []) ++ (quotes.text ++ (body ++ quotes.text))

/-- The text of some code. -/
def textOf (content : List Lexeme) : Text := content.flatMap Lexeme.text

@[simp] theorem textOf_nil : textOf [] = [] := rfl

@[simp] theorem textOf_cons (l : Lexeme) (content : List Lexeme) :
    textOf (l :: content) = l.text ++ textOf content := rfl

@[simp] theorem textOf_append (a b : List Lexeme) : textOf (a ++ b) = textOf a ++ textOf b :=
  List.flatMap_append

/-! ## Grammar -/

/-- The characters that end a line. -/
def isLineEnd (c : Char) : Bool := c == '\n' || c == '\r'

/-- The inside of a comment that ends with `*/`; comments in it have ends of their own. -/
inductive CommentInside : Text → Prop
  | nil : CommentInside []
  | char {c : Char} {t : Text} (hopen : ¬ ['/', '*'] <+: c :: (t ++ ['*', '/']))
      (hclose : ¬ ['*', '/'] <+: c :: (t ++ ['*', '/'])) (ht : CommentInside t) :
      CommentInside (c :: t)
  | nested {s t : Text} (hs : CommentInside s) (ht : CommentInside t) :
      CommentInside ('/' :: '*' :: (s ++ '*' :: '/' :: t))

/-- The character stands for itself in a string with these quotes, given the rest of the inside:
the closing quotes do not begin with it, and lines end only between three quotes. -/
def Quotes.Allows (q : Quotes) (c : Char) (t : Text) : Prop :=
  ¬ q.text <+: c :: (t ++ q.text) ∧ (q.triple = false → isLineEnd c = false)

instance (q : Quotes) (c : Char) (t : Text) : Decidable (q.Allows c t) :=
  inferInstanceAs (Decidable (_ ∧ (_ → _)))

/-- The inside of a raw string, in which every character stands for itself. -/
inductive RawInside (q : Quotes) : Text → Prop
  | nil : RawInside q []
  | char {c : Char} {t : Text} (hc : q.Allows c t) (ht : RawInside q t) : RawInside q (c :: t)

/-- The closing quotes of an empty string are not taken for three opening ones. -/
def Quotes.StandsApart (q : Quotes) (body following : Text) : Prop :=
  q.triple = false → body = [] → ∀ d ∈ following.head?, d ≠ q.quote

instance (q : Quotes) (body following : Text) : Decidable (q.StandsApart body following) :=
  inferInstanceAs (Decidable (_ → _ → _))

/-- A lexeme without code in it and apart from braces, given the text that follows. A name goes on
as far as it can, and an `r` in front of a quote is no name. -/
def Lexeme.IsToken (following : Text) : Lexeme → Prop
  | other c => c ∉ ['\'', '"', '{', '}'] ∧ (isIdentifierPart c = true → c.isDigit = true)
      ∧ (c = '/' → ∀ d ∈ following.head?, d ≠ '/' ∧ d ≠ '*')
  | word name => (∀ c ∈ name, isIdentifierPart c = true) ∧ (∃ c ∈ name.head?, c.isDigit = false)
      ∧ ∀ d ∈ following.head?, isIdentifierPart d = false ∧ (name = ['r'] → d ≠ '\'' ∧ d ≠ '"')
  | openingBrace => False
  | closingBrace => False
  | lineComment body ending => (∀ c ∈ body, isLineEnd c = false) ∧
      (ending = ['\n'] ∨ ending = ['\r', '\n']
        ∨ ending = ['\r'] ∧ following.head? ≠ some '\n')
  | blockComment body => CommentInside body
  | string raw q body => raw = true ∧ RawInside q body ∧ q.StandsApart body following

/-- What the grammar derives. -/
inductive Symbol where
  /-- The inside of a string that is not raw. -/
  | inside (q : Quotes) (body : Text)
  /-- Code in which every brace has its partner. -/
  | code (content : List Lexeme)

/-- The rules of the grammar. Code may stand in strings and strings in code. -/
inductive Derives : Symbol → Prop
  | done {q : Quotes} : Derives (.inside q [])
  | char {q : Quotes} {c : Char} {t : Text} (hc : c ≠ '\\' ∧ c ≠ '$') (hallowed : q.Allows c t)
      (ht : Derives (.inside q t)) : Derives (.inside q (c :: t))
  | escape {q : Quotes} {c : Char} {t : Text} (hc : q.triple = false → isLineEnd c = false)
      (ht : Derives (.inside q t)) : Derives (.inside q ('\\' :: c :: t))
  /-- The value of a variable, whose name goes on with the characters that follow. -/
  | variableName {q : Quotes} {c : Char} {t : Text} (hc : (c.isAlpha || c == '_') = true)
      (ht : Derives (.inside q (c :: t))) : Derives (.inside q ('$' :: c :: t))
  /-- The value of an expression. -/
  | interpolation {q : Quotes} {content : List Lexeme} {t : Text}
      (hcontent : Derives (.code content)) (ht : Derives (.inside q t)) :
      Derives (.inside q ('$' :: '{' :: (textOf content ++ '}' :: t)))
  | empty : Derives (.code [])
  | token {l : Lexeme} {content : List Lexeme} (hl : l.IsToken (textOf content))
      (hcontent : Derives (.code content)) : Derives (.code (l :: content))
  | string {q : Quotes} {body : Text} {content : List Lexeme} (hbody : Derives (.inside q body))
      (happart : q.StandsApart body (textOf content)) (hcontent : Derives (.code content)) :
      Derives (.code (.string false q body :: content))
  | braces {inner content : List Lexeme} (hinner : Derives (.code inner))
      (hcontent : Derives (.code content)) :
      Derives (.code (.openingBrace :: (inner ++ .closingBrace :: content)))

/-- Dart code in which every brace has its partner, such as the content of a table. -/
def IsCode (content : List Lexeme) : Prop := Derives (.code content)

/-! ## Reading -/

/-- The scanner reads the lexeme as a whole: a comment of one line ends with a line feed, a comment
has none within it, and in a string every quote of its kind has a backslash in front, and the
closing quotes have none. -/
def Lexeme.IsReadWhole : Lexeme → Prop
  | lineComment _ ending => ending ≠ ['\r']
  | blockComment body => ¬ ['*', '/'] <:+: body
  | string _ q body => staysIn q.quote false body = true
  | _ => True

instance : (l : Lexeme) → Decidable l.IsReadWhole
  | .lineComment _ ending => inferInstanceAs (Decidable (ending ≠ ['\r']))
  | .blockComment body => inferInstanceAs (Decidable (¬ ['*', '/'] <:+: body))
  | .string _ q body => inferInstanceAs (Decidable (staysIn q.quote false body = true))
  | .other _ => inferInstanceAs (Decidable True)
  | .word _ => inferInstanceAs (Decidable True)
  | .openingBrace => inferInstanceAs (Decidable True)
  | .closingBrace => inferInstanceAs (Decidable True)

/-- Three quotes are an empty string and a quote. -/
theorem balanced_quotes {q : Quotes} {body t : Text} (hbody : staysIn q.quote false body = true)
    (ht : Balanced t) : Balanced (q.text ++ (body ++ (q.text ++ t))) := by
  have hquoted : ∀ {body t : Text}, staysIn q.quote false body = true → Balanced t →
      Balanced (q.quote :: (body ++ q.quote :: t)) := .string q.isQuote
  cases hq : q.triple with
  | false =>
      have htext : q.text = [q.quote] := by rw [Quotes.text, hq]; rfl
      rw [htext]
      exact hquoted hbody ht
  | true =>
      have htext : q.text = [q.quote, q.quote, q.quote] := by rw [Quotes.text, hq]; rfl
      rw [htext]
      have hempty : ∀ {t : Text}, Balanced t → Balanced (q.quote :: ([] ++ q.quote :: t)) :=
        hquoted rfl
      exact hempty (hquoted hbody (hempty ht))

theorem balanced_string {raw : Bool} {q : Quotes} {body t : Text}
    (hbody : staysIn q.quote false body = true) (ht : Balanced t) :
    Balanced ((Lexeme.string raw q body).text ++ t) := by
  have hquotes := balanced_quotes hbody ht
  cases raw with
  | false =>
      rw [Lexeme.text, List.append_assoc, List.append_assoc, List.append_assoc]
      exact hquotes
  | true =>
      rw [Lexeme.text, List.append_assoc, List.append_assoc, List.append_assoc]
      exact .other (by decide) (fun h => absurd h (by decide)) hquotes

/-- A character of a name is no brace and begins no string or comment. -/
theorem not_special_of_isIdentifierPart {c : Char} (h : isIdentifierPart c = true) :
    c ∉ ['\'', '"', '{', '}'] ∧ c ≠ '/' := by
  have hsplit : ∀ d : Char, isIdentifierPart d = false → c ≠ d := by
    rintro d hd rfl
    rw [h] at hd
    cases hd
  refine ⟨fun hmem => ?_, hsplit '/' (by decide)⟩
  simp only [List.mem_cons, List.not_mem_nil, or_false] at hmem
  rcases hmem with hc | hc | hc | hc <;> exact hsplit _ (by decide) hc

theorem balanced_word {name t : Text} (hname : ∀ c ∈ name, isIdentifierPart c = true)
    (ht : Balanced t) : Balanced (name ++ t) := by
  induction name with
  | nil => exact ht
  | cons c name ih =>
      obtain ⟨hc, hrest⟩ := List.forall_mem_cons.mp hname
      obtain ⟨hother, hslash⟩ := not_special_of_isIdentifierPart hc
      exact .other hother (fun heq => absurd heq hslash) (ih hrest)

theorem newline_not_mem_of_isLineEnd {body : Text} (h : ∀ c ∈ body, isLineEnd c = false) :
    '\n' ∉ body := fun hmem => absurd (h '\n' hmem) (by decide)

theorem balanced_token {l : Lexeme} {t : Text} (hl : l.IsToken t) (hread : l.IsReadWhole)
    (ht : Balanced t) : Balanced (l.text ++ t) := by
  cases l with
  | other c => exact .other hl.1 hl.2.2 ht
  | word name => exact balanced_word hl.1 ht
  | openingBrace => exact hl.elim
  | closingBrace => exact hl.elim
  | lineComment body ending =>
      obtain ⟨hbody, hending⟩ := hl
      have hnewline := newline_not_mem_of_isLineEnd hbody
      rcases hending with rfl | rfl | ⟨rfl, -⟩
      · rw [Lexeme.text, List.cons_append, List.cons_append, List.append_assoc]
        exact .lineComment hnewline ht
      · have hreturn : '\n' ∉ body ++ ['\r'] := by simp [hnewline]
        have hcomment := Balanced.lineComment hreturn ht
        rw [List.append_assoc] at hcomment
        rw [Lexeme.text, List.cons_append, List.cons_append, List.append_assoc]
        exact hcomment
      · exact absurd rfl hread
  | blockComment body =>
      rw [Lexeme.text, List.cons_append, List.cons_append, List.append_assoc]
      exact .blockComment hread ht
  | string raw q body => exact balanced_string hread ht

/-- Code is balanced for the scanner if it reads every string and every comment as a whole. Code
within strings needs no argument of its own: it is part of the string. -/
theorem balanced_textOf {content : List Lexeme} (h : IsCode content)
    (hread : ∀ l ∈ content, l.IsReadWhole) : Balanced (textOf content) := by
  unfold IsCode at h
  generalize hsymbol : Symbol.code content = symbol at h
  induction h generalizing content with
  | done => cases hsymbol
  | char _ _ _ _ => cases hsymbol
  | escape _ _ _ => cases hsymbol
  | variableName _ _ _ => cases hsymbol
  | interpolation _ _ _ _ => cases hsymbol
  | empty =>
      cases hsymbol
      exact .nil
  | token hl _ ih =>
      cases hsymbol
      obtain ⟨hfirst, hrest⟩ := List.forall_mem_cons.mp hread
      exact balanced_token hl hfirst (ih hrest rfl)
  | string _ _ _ _ ih =>
      cases hsymbol
      obtain ⟨hfirst, hrest⟩ := List.forall_mem_cons.mp hread
      exact balanced_string hfirst (ih hrest rfl)
  | braces _ _ ihinner ihcontent =>
      cases hsymbol
      obtain ⟨-, hrest⟩ := List.forall_mem_cons.mp hread
      obtain ⟨hinner, hrest⟩ := List.forall_mem_append.mp hrest
      obtain ⟨-, hcontent⟩ := List.forall_mem_cons.mp hrest
      rw [textOf_cons, textOf_append, textOf_cons]
      exact .braces (ihinner hinner rfl) (ihcontent hcontent rfl)

end Dart

/-! ## Replacing -/

open Dart

theorem closingBrace?_eq_length_iff {s : Text} (rest : Text) :
    closingBrace? (s ++ '}' :: rest) = some s.length ↔ Balanced s := by
  rw [closingBrace?_eq_some_iff]
  constructor
  · rintro ⟨s', rest', heq, hlength, hs⟩
    obtain ⟨rfl, -⟩ := List.append_inj heq hlength.symm
    exact hs
  · intro hs
    exact ⟨s, rest, rfl, rfl, hs⟩

/-- A table is replaced as far as its closing brace is found. -/
theorem replaceTable?_of_findTable? {d : RouteDocument} {front inside : Text}
    (hbody : d.body = front ++ inside) (htable : Pattern.findTable? d.body = some front.length)
    (entries : List Text) :
    d.replaceTable? entries = (closingBrace? inside).map fun length =>
      { d with body := front ++ RouteDocument.tableBody entries ++ inside.drop length } := by
  have htake : d.body.take front.length = front := by rw [hbody, List.take_left]
  have hdrop : d.body.drop front.length = inside := by rw [hbody, List.drop_left]
  simp only [RouteDocument.replaceTable?, htable, Option.bind_eq_bind, Option.bind_some, hdrop,
    htake]
  cases closingBrace? inside with
  | none => rfl
  | some length => rfl

/-- **A table whose content is Dart code is replaced exactly, up to the brace that closes it by
Dart's grammar, if and only if its content is balanced for the scanner**; and it is if the scanner
reads every string and comment of it as a whole. -/
theorem replaceTable?_iff_balanced {d : RouteDocument} {front rest : Text}
    {content : List Lexeme} (hcode : IsCode content)
    (hbody : d.body = front ++ (textOf content ++ '}' :: rest))
    (htable : Pattern.findTable? d.body = some front.length) (entries : List Text) :
    (closingBrace? (textOf content ++ '}' :: rest) = some (textOf content).length
        ↔ Balanced (textOf content))
      ∧ (d.replaceTable? entries
          = some { d with body := front ++ RouteDocument.tableBody entries ++ '}' :: rest }
        ↔ Balanced (textOf content))
      ∧ ((∀ l ∈ content, l.IsReadWhole) → Balanced (textOf content)) := by
  refine ⟨closingBrace?_eq_length_iff rest, ?_, balanced_textOf hcode⟩
  rw [← closingBrace?_eq_length_iff rest, replaceTable?_of_findTable? hbody htable]
  constructor
  · intro h
    obtain ⟨length, hlength, heq⟩ := Option.map_eq_some_iff.mp h
    -- What is left behind the table tells by its length where the table was cut.
    have hdrop : (textOf content ++ '}' :: rest).drop length = '}' :: rest := by
      simpa using congrArg RouteDocument.body heq
    obtain ⟨inner, after, hinner, rfl⟩ := closingBrace?_eq_some hlength
    have hcount := congrArg List.length hdrop
    have htotal := congrArg List.length hinner
    simp only [List.length_drop, List.length_append, List.length_cons] at hcount htotal
    rw [hlength]
    congr 1
    omega
  · intro h
    rw [h, Option.map_some, List.drop_left]

/-- A raw string that ends with a backslash is read on to the next quote of the file. -/
example : closingBrace? "r'\\'\x7d;b='\x7d'".toList = some 9 := by decide

/-- A comment is taken to end where the one within it does. -/
example : closingBrace? "/* /* */ \x7d */ \x7d".toList = some 9 := by decide

/-- The content of a table with braces in a string, in a raw string and in a comment. -/
def literalContent : List Lexeme :=
  [.string false ⟨'\'', false, .inl rfl⟩ ['}'], .other ':', .string true ⟨'"', true, .inr rfl⟩ ['{'],
    .blockComment ['}'], .word ['r'], .openingBrace, .closingBrace]

/-- A document with this content in its table. -/
def literalTable : RouteDocument where
  leading := []
  directives := []
  body := "a = <String, WidgetBuilder>\x7b".toList ++ (textOf literalContent ++ '}' :: [';'])

theorem isCode_literalContent : IsCode literalContent := by
  refine .string (.char (by decide) (by decide) .done) (by decide) ?_
  refine .token ⟨by decide, by decide, fun h => absurd h (by decide)⟩ ?_
  refine .token ⟨rfl, .char (by decide) .nil, by decide⟩ ?_
  refine .token (.char (by decide) (by decide) .nil) (.token ?_ ?_)
  · refine ⟨Text.forall_of_all (by decide), ⟨'r', rfl, by decide⟩, fun d hd => ?_⟩
    obtain rfl : '{' = d := Option.some.inj hd
    decide
  · exact .braces (.empty : IsCode []) .empty

theorem replaceTable?_iff_balanced_literals :
    Pattern.findTable? literalTable.body = some "a = <String, WidgetBuilder>\x7b".toList.length
      ∧ (∀ l ∈ literalContent, l.IsReadWhole)
      ∧ (literalTable.replaceTable? [] = some { literalTable with
          body := "a = <String, WidgetBuilder>\x7b".toList ++ RouteDocument.tableBody []
            ++ '}' :: [';'] }) := by
  have htable : Pattern.findTable? literalTable.body
      = some "a = <String, WidgetBuilder>\x7b".toList.length := by decide +kernel
  have hread : ∀ l ∈ literalContent, l.IsReadWhole := Text.forall_of_all (by decide)
  obtain ⟨-, hreplace, hbalanced⟩ :=
    replaceTable?_iff_balanced isCode_literalContent rfl htable []
  exact ⟨htable, hread, hreplace.mpr (hbalanced hread)⟩

end CanvasFlutter
