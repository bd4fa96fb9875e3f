import CanvasFlutter.Proofs.RouteTable.CodeLine
import CanvasFlutter.Proofs.RouteTable.Failure
import CanvasFlutter.Proofs.RouteTable.Frame

namespace CanvasFlutter

/-!
# `CanvasFlutter.Proofs.RouteTable.Complete` — sections that are complete

Up to its brace a header is made of words, white space and the signs between them, so it does not
run over the semicolon that ends a statement, over a string or over the slash of a comment. Hence
the section of a file stands apart from its table if the statements and the comments in it are
complete and it holds no brace.

## Contents
- **Headers.** `isHeaderChar`, `exists_headerChars`; `isCodeAt_brace`: the brace of a header that
  begins in code is in code.
- **Complete texts.** `Complete`; `Complete.headerEnd?_eq_none`: no header begins in one.
- **Apart.** `Apart.of_complete`; `movedText_eq_nil`: no comment goes to the body unless the section
  ends with the import of a page.
-/

namespace Pattern

open Scanner

/-! ## Headers -/

/-- Whether a character can stand in a header in front of its brace. -/
def isHeaderChar (c : Char) : Bool :=
  Text.isWhite c || Text.isWord c || ['<', '>', ',', '='].contains c

theorem isPlain_of_isHeaderChar {c : Char} (h : isHeaderChar c = true) : isPlain c = true := by
  have hspecial : (['\'', '"', '/', '\x7b', '\x7d'].all fun d => !isHeaderChar d) = true := by decide
  rw [isPlain, Bool.not_eq_true', ← Bool.not_eq_true, List.contains_iff_mem]
  intro hc
  simpa [h] using List.all_eq_true.mp hspecial c hc

/-- Whether a character can stand in a header, its brace included. -/
def isHeaderPart (c : Char) : Bool := c == '\x7b' || isHeaderChar c

theorem isHeaderPart_of_isWhite {c : Char} (h : Text.isWhite c = true) : isHeaderPart c = true := by
  simp [isHeaderPart, isHeaderChar, h]

theorem isHeaderPart_of_isWord {c : Char} (h : Text.isWord c = true) : isHeaderPart c = true := by
  simp [isHeaderPart, isHeaderChar, h]

/-- A part that reads only what can stand in a header. -/
def OfHeader (p : Part) : Prop :=
  ∀ t r, p t = some r → ∃ u, t = u ++ r ∧ ∀ c ∈ u, isHeaderPart c = true

theorem OfHeader.congr {p q : Part} (hp : OfHeader p) (h : ∀ t, q t = p t) : OfHeader q := by
  rwa [funext h]

theorem OfHeader.bind {p q : Part} (hp : OfHeader p) (hq : OfHeader q) :
    OfHeader fun t => p t >>= q := by
  intro t r h
  obtain ⟨s, hs, hr⟩ := Option.bind_eq_some_iff.mp h
  obtain ⟨u, rfl, hu⟩ := hp t s hs
  obtain ⟨v, rfl, hv⟩ := hq s r hr
  refine ⟨u ++ v, (List.append_assoc ..).symm, fun c hc => ?_⟩
  exact (List.mem_append.mp hc).elim (hu c) (hv c)

/-- A part that always succeeds. -/
theorem OfHeader.map {f : Text → Text} {p : Part} (hf : OfHeader fun t => some (f t))
    (hp : OfHeader p) : OfHeader fun t => p (f t) := hf.bind hp

/-- Where a part fails, the text stays. -/
theorem OfHeader.getD {p : Part} (hp : OfHeader p) : OfHeader fun t => some ((p t).getD t) := by
  intro t r h
  obtain rfl := Option.some.inj h
  cases hpt : p t with
  | none => exact ⟨[], rfl, by simp⟩
  | some r => exact hp t r hpt

theorem eq_or_eq_of_orElse {o o' : Option Text} {r : Text} (h : (o <|> o') = some r) :
    o = some r ∨ o' = some r := by
  cases o with
  | none => exact .inr h
  | some s => exact .inl h

theorem OfHeader.orElse {p q : Part} (hp : OfHeader p) (hq : OfHeader q) :
    OfHeader fun t => p t <|> q t := by
  intro t r h
  rcases eq_or_eq_of_orElse h with h | h
  · exact hp t r h
  · exact hq t r h

theorem ofHeader_dropWhile {p : Char → Bool} (hp : ∀ c, p c = true → isHeaderPart c = true) :
    OfHeader fun t => some (t.dropWhile p) := by
  intro t r h
  obtain rfl := Option.some.inj h
  exact ⟨t.takeWhile p, List.takeWhile_append_dropWhile.symm,
    fun c hc => hp c (List.all_eq_true.mp List.all_takeWhile c hc)⟩

theorem ofHeader_one? {p : Char → Bool} (hp : ∀ c, p c = true → isHeaderPart c = true) :
    OfHeader (one? p) := by
  intro t r h
  cases t with
  | nil => cases h
  | cons c t =>
      rw [one?] at h
      split at h
      · next hc =>
          obtain rfl := Option.some.inj h
          exact ⟨[c], rfl, by simpa using hp c hc⟩
      · cases h

theorem ofHeader_after? {s : Text} (hs : s.all isHeaderPart = true) :
    OfHeader (Text.after? s) := by
  induction s with
  | nil => exact fun t r h => ⟨[], Option.some.inj h, by simp⟩
  | cons c s ih =>
      rw [List.all_cons, Bool.and_eq_true] at hs
      have hone : OfHeader (one? (· == c)) := ofHeader_one? fun d hd => by
        rw [beq_iff_eq.mp hd, hs.1]
      exact (hone.bind (ih hs.2)).congr (after?_cons c s)

theorem ofHeader_blanks : OfHeader fun t => some (blanks t) :=
  ofHeader_dropWhile fun _ => isHeaderPart_of_isWhite

theorem ofHeader_blanks? : OfHeader blanks? :=
  ((ofHeader_one? fun _ => isHeaderPart_of_isWhite).bind ofHeader_blanks).congr blanks?_eq

theorem ofHeader_word? : OfHeader word? :=
  ((ofHeader_one? fun _ => isHeaderPart_of_isWord).bind
    (ofHeader_dropWhile fun _ => isHeaderPart_of_isWord)).congr word?_eq

theorem ofHeader_inOrder? {ss : List String} (h : ∀ s ∈ ss, s.toList.all isHeaderPart = true) :
    OfHeader (inOrder? ss) := by
  induction ss with
  | nil => exact ofHeader_after? (s := []) rfl
  | cons s ss ih =>
      obtain ⟨hs, hss⟩ := List.forall_mem_cons.mp h
      exact (ofHeader_after? hs).bind (ofHeader_blanks.map (ih hss))

theorem ofHeader_optionalConst : OfHeader fun t => some (optionalConst t) := by
  have h := ((ofHeader_after? (s := "const".toList) (by decide)).bind ofHeader_blanks?).getD
  refine h.congr fun t => ?_
  rw [optionalConst]
  cases Text.after? "const".toList t <;> rfl

theorem ofHeader_types? : OfHeader types? := ofHeader_inOrder? (by decide)

/-- White space, an equals sign and white space. -/
theorem ofHeader_equals : OfHeader fun t => inOrder? ["="] (blanks t) :=
  ofHeader_blanks.map (ofHeader_inOrder? (by decide))

theorem ofHeader_typedVariable? : OfHeader typedVariable? :=
  have types : OfHeader (inOrder? ["<", "String", ",", "WidgetBuilder"]) :=
    ofHeader_inOrder? (by decide)
  have literal := ofHeader_optionalConst.map (ofHeader_types?.getD)
  (ofHeader_after? (by decide)).bind <| types.bind <| (ofHeader_after? (by decide)).bind <|
    ofHeader_blanks?.bind <| ofHeader_word?.bind <| ofHeader_equals.bind <|
      literal.bind (ofHeader_after? (by decide))

theorem ofHeader_typedLiteral? : OfHeader typedLiteral? :=
  ofHeader_word?.bind <| ofHeader_equals.bind <|
    (ofHeader_optionalConst.map ofHeader_types?).bind (ofHeader_after? (by decide))

theorem ofHeader_tableHeader? : OfHeader tableHeader? :=
  ofHeader_typedVariable?.orElse ofHeader_typedLiteral?

/-- A header begins with a word. -/
theorem isWord_of_tableHeader? {c : Char} {t r : Text} (h : tableHeader? (c :: t) = some r) :
    Text.isWord c = true := by
  rcases eq_or_eq_of_orElse h with h | h
  · obtain ⟨s, hs, -⟩ := Option.bind_eq_some_iff.mp h
    change Text.after? ('M' :: "ap".toList) (c :: t) = some s at hs
    rw [after?_cons] at hs
    obtain ⟨s, hone, -⟩ := Option.bind_eq_some_iff.mp hs
    rw [one?] at hone
    split at hone
    · next hc => exact beq_iff_eq.mp hc ▸ by decide
    · cases hone
  · obtain ⟨s, hs, -⟩ := Option.bind_eq_some_iff.mp h
    rw [word?_eq] at hs
    obtain ⟨s, hone, -⟩ := Option.bind_eq_some_iff.mp hs
    rw [one?] at hone
    split at hone
    · assumption
    · cases hone

/-- The characters of a header in front of its brace. -/
theorem exists_headerChars {t : Text} {start n : Nat} (h : headerEnd? t start = some n) :
    ∃ u, t.drop start = u ++ '\x7b' :: t.drop n ∧ n = start + (u.length + 1) ∧
      (∀ c ∈ u, isHeaderChar c = true) ∧ ∃ c ∈ u.head?, Text.isWord c = true := by
  obtain ⟨u, hbrace, hdrop, rfl⟩ := headerEnd?_eq_some h
  obtain ⟨after, hafter, -⟩ := Option.map_eq_some_iff.mp h
  refine ⟨u, hdrop, rfl, fun c hc => ?_, ?_⟩
  · -- What the parts read is the same text, with the brace.
    obtain ⟨v, hv, hchars⟩ := ofHeader_tableHeader? _ _ hafter
    obtain ⟨w, hw, hw'⟩ := toBrace_tableHeader?.first _ _ hafter
    obtain ⟨rfl, -⟩ := eq_of_append_brace hbrace hw (hdrop.symm.trans hw')
    have hvu : v = u ++ ['\x7b'] := by
      rw [hv, List.append_cons] at hw'
      exact List.append_cancel_right hw'
    have hne : c ≠ '\x7b' := fun hne => hbrace (hne ▸ hc)
    simpa [isHeaderPart, hne] using hchars c (by simp [hvu, hc])
  · cases u with
    | nil =>
        rw [hdrop] at hafter
        exact absurd (isWord_of_tableHeader? hafter) (by decide)
    | cons c u =>
        rw [hdrop] at hafter
        exact ⟨c, rfl, isWord_of_tableHeader? hafter⟩

/-- Behind a place in code the text is marked as from its start. -/
theorem mark_drop {s : State} {t : Text} {place : Nat} (h : isCodeFrom s t place = true) :
    (mark s t).drop place = mark .code (t.drop place) := by
  induction place generalizing s t with
  | zero =>
      cases t with
      | nil => rfl
      | cons c t =>
          rw [isCodeFrom_zero] at h
          rw [of_decide_eq_true h]
          rfl
  | succ place ih =>
      cases t with
      | nil => rfl
      | cons c t => exact ih h

/-- Characters of a header are in code where they begin in code. -/
theorem mark_headerChars {u : Text} (h : ∀ c ∈ u, isHeaderChar c = true) (t : Text) :
    mark .code (u ++ t) = u.map (·, true) ++ mark .code t := by
  induction u with
  | nil => rfl
  | cons c u ih =>
      obtain ⟨hc, hu⟩ := List.forall_mem_cons.mp h
      rw [List.cons_append, mark, next_code_of_isPlain (isPlain_of_isHeaderChar hc), ih hu]
      rfl

/-- The brace of a header that begins in code is in code. -/
theorem isCodeAt_brace {t : Text} {start n : Nat} (hend : headerEnd? t start = some n)
    (hcode : isCodeAt t start = true) : isCodeAt t (n - 1) = true := by
  obtain ⟨u, hdrop, rfl, hchars, -⟩ := exists_headerChars hend
  have hmarks : (mark .code t)[start + u.length]? = some ('\x7b', true) := by
    rw [← List.getElem?_drop, mark_drop hcode, hdrop, mark_headerChars hchars,
      List.getElem?_append_right (by simp)]
    simp [mark]
  have hplace : start + (u.length + 1) - 1 = start + u.length := by omega
  rw [hplace, isCodeAt, isCodeFrom, hmarks]
  rfl

end Pattern

open Scanner Pattern Section RouteDocument

/-! ## Complete texts -/

/-- Whole lines that are complete, as statements and comments are: what follows them is code, and no
header can begin in code in them. -/
structure Complete (s : Text) : Prop where
  whole : Text.IsWhole s
  /-- No string and no comment is open at the end. -/
  closed : State.code.after s = .code
  /-- No brace is opened in code. -/
  braceless : ('\x7b', true) ∉ mark .code s
  /-- No word in code stands behind the last character that cannot stand in a header. -/
  ended : ∀ m ∈ (mark .code s).reverse.takeWhile fun m => m.2 && isHeaderChar m.1,
    Text.isWord m.1 = false

theorem complete_nil : Complete [] := ⟨Text.isWhole_nil, rfl, by simp [mark], by simp [mark]⟩

/-- Complete texts are marked apart from what follows them. -/
theorem Complete.mark_append {s : Text} (h : Complete s) (t : Text) :
    mark .code (s ++ t) = mark .code s ++ mark .code t := by
  rw [Scanner.mark_append h.whole, h.closed]

/-- What stands in code and could go on as a header to the end of a complete text is no word. -/
theorem Complete.isWord_eq_false {s rest : Text} (h : Complete s) {start : Nat} {c : Char}
    (hcode : isCodeAt s start = true) (hrest : s.drop start = c :: rest)
    (hchars : ∀ d ∈ c :: rest, isHeaderChar d = true) : Text.isWord c = false := by
  have hmarks : (mark .code s).drop start = (c :: rest).map (·, true) := by
    rw [mark_drop hcode, hrest]
    simpa [mark] using mark_headerChars hchars []
  have hlast : (mark .code s).reverse
      = ((c :: rest).map (·, true)).reverse ++ ((mark .code s).take start).reverse := by
    rw [← hmarks, ← List.reverse_append, List.take_append_drop]
  have hpass : ∀ m ∈ ((c :: rest).map (·, true)).reverse, (m.2 && isHeaderChar m.1) = true := by
    intro m hm
    obtain ⟨d, hd, rfl⟩ := List.mem_map.mp (List.mem_reverse.mp hm)
    exact hchars d hd
  refine h.ended (c, true) ?_
  rw [hlast, List.takeWhile_append_of_pos hpass]
  simp

/-- **Complete texts.** No header begins in code in a complete text, whatever follows it. -/
theorem Complete.headerEnd?_eq_none {s : Text} (h : Complete s) (t : Text) (start : Nat)
    (hlt : start < s.length) (hcode : isCodeAt (s ++ t) start = true) :
    headerEnd? (s ++ t) start = none := by
  have hcode' : isCodeAt s start = true := by
    rw [isCodeAt, isCodeFrom, h.mark_append, List.getElem?_append_left] at hcode
    · exact hcode
    · rwa [← List.length_map (f := Prod.fst), map_fst_mark]
  cases hend : headerEnd? (s ++ t) start with
  | none => rfl
  | some n =>
      obtain ⟨u, hdrop, -, hchars, c, hc, hword⟩ := exists_headerChars hend
      rw [List.drop_append_of_le_length (Nat.le_of_lt hlt)] at hdrop
      -- The header ends behind the text, or its brace is in the text.
      have hcut : (∃ v, u = s.drop start ++ v) ∨ ∃ v, s.drop start = u ++ '\x7b' :: v := by
        rcases List.append_eq_append_iff.mp hdrop with ⟨v, hu, -⟩ | ⟨v, hs, hv⟩
        · exact .inl ⟨v, hu⟩
        · cases v with
          | nil => exact .inl ⟨[], by rw [List.append_nil, hs, List.append_nil]⟩
          | cons d v =>
              obtain ⟨rfl, -⟩ := List.cons.inj hv
              exact .inr ⟨v, hs⟩
      rcases hcut with ⟨v, rfl⟩ | ⟨v, hs⟩
      · obtain ⟨d, rest, hrest⟩ := List.exists_cons_of_ne_nil (l := s.drop start) (by simpa using hlt)
        obtain rfl : d = c := by simpa [hrest] using hc
        rw [h.isWord_eq_false hcode' hrest fun e he =>
          hchars e (List.mem_append_left v (hrest ▸ he))] at hword
        cases hword
      · refine absurd (List.mem_of_mem_drop (i := start) ?_) h.braceless
        rw [mark_drop hcode', hs, mark_headerChars hchars]
        simp [mark]

/-! ## Apart -/

/-- The section of a file. -/
def sectionText (existing : Text) : Text := existing.take (sectionLength existing)

/-- The comments of the section that go to the body. -/
def movedText (existing : Text) : Text := (parse existing).body.take (movedLength existing)

theorem sectionText_append (existing : Text) :
    sectionText existing ++ afterSection existing = existing :=
  List.suffix_iff_eq_append.mp (suffix_existing existing)

theorem movedText_append (existing : Text) :
    movedText existing ++ afterSection existing = (parse existing).body :=
  List.suffix_iff_eq_append.mp (suffix_body existing)

theorem length_sectionText (existing : Text) :
    (sectionText existing).length = sectionLength existing := by
  rw [sectionText, List.length_take]
  exact Nat.min_eq_left (Nat.sub_le ..)

theorem length_movedText (existing : Text) :
    (movedText existing).length = movedLength existing := by
  rw [movedText, List.length_take]
  exact Nat.min_eq_left (Nat.sub_le ..)

/-- The marks behind a complete text are those of what follows it. -/
theorem Complete.drop_mark {s : Text} (h : Complete s) (t : Text) :
    (mark .code (s ++ t)).drop s.length = mark .code t := by
  have hlength : s.length = (mark .code s).length := by
    rw [← List.length_map (f := Prod.fst), map_fst_mark]
  rw [h.mark_append, hlength, List.drop_left]

/-- **Apart.** The section stands apart from the table if it is complete, if the comments that go to
the body are complete, and if no header whose brace is in code begins in a string or a comment. -/
theorem Apart.of_complete {existing : Text} (hsection : Complete (sectionText existing))
    (hmoved : Complete (movedText existing))
    (hcode : ∀ start < (parse existing).body.length, ∀ n ∈ headerEnd? (parse existing).body start,
      isCodeAt (parse existing).body (n - 1) = true →
        isCodeAt (parse existing).body start = true) : Apart existing where
  marks := by
    have h := hsection.drop_mark (afterSection existing)
    have h' := hmoved.drop_mark (afterSection existing)
    rw [sectionText_append, length_sectionText] at h
    rw [movedText_append, length_movedText] at h'
    rw [h, h']
  inSection start hlt hstart := by
    have h := hsection.headerEnd?_eq_none (afterSection existing) start
    rw [sectionText_append, length_sectionText] at h
    exact h hlt hstart
  inMoved start hlt hstart := by
    have h := hmoved.headerEnd?_eq_none (afterSection existing) start
    rw [movedText_append, length_movedText] at h
    exact h hlt hstart
  leftmost start hlt hstart hne earlier hearlier hsame := by
    obtain ⟨n, hend⟩ := Option.ne_none_iff_exists'.mp hne
    exact hcode earlier (Nat.lt_trans hearlier hlt) n (hsame.trans hend)
      (isCodeAt_brace hend hstart)

/-- The last entry of a section is a statement. -/
theorem isComment_getLast? {lines : List Text} (c : Cut lines) :
    ∀ e ∈ (entriesOf c.stretches).getLast?, e.isComment = false := by
  intro e he
  rcases List.eq_nil_or_concat c.stretches with hnil | ⟨front, last, hlast⟩
  · rw [hnil] at he
    cases he
  · have hclosed := c.closed last (by simp [hlast])
    rw [hlast, List.concat_eq_append, entriesOf_append] at he
    cases last with
    | blank line => cases hclosed
    | comment line => cases hclosed
    | statement first more =>
        obtain rfl : _ = e := by simpa [Stretch.directive?, entriesOf] using he
        rfl

/-- A comment goes to the body only if the section ends with the import of a page. -/
theorem movedText_eq_nil {existing : Text}
    (h : ∀ e ∈ (readDirectives none (Text.pieces existing)).1.getLast?, e.isPageImport = false) :
    movedText existing = [] := by
  obtain ⟨c⟩ := exists_cut (Text.pieces existing)
  obtain ⟨moved, hkept, -, -, -, hmoved, hbody⟩ := parse_of_cut c
  rw [readDirectives_of_cut c] at h
  have hnil : moved = [] := by
    rcases List.eq_nil_or_concat moved with hnil | ⟨front, e, rfl⟩
    · exact hnil
    · have hcomment := isComment_getLast? c
      rcases List.eq_nil_or_concat (entriesOf c.stretches) with hempty | ⟨entries, last, hlast⟩
      · rw [hempty] at hkept
        simp at hkept
      -- The statement at the end is kept, so it would be the last comment.
      · rw [hlast, List.concat_eq_append, List.getLast?_concat] at h hcomment
        have hkeep : [last].filter (fun e => !e.isPageImport) = [last] := by simp [h last rfl]
        rw [hlast, List.concat_eq_append, List.concat_eq_append, List.filter_append, hkeep,
          ← List.append_assoc, ← List.append_assoc] at hkept
        obtain rfl := List.append_singleton_inj.mp hkept |>.2
        exact absurd ((hmoved last (by simp)).symm.trans (hcomment last rfl)) (by decide)
  rw [movedText, movedLength, hbody, hnil, afterSection, readDirectives_of_cut c]
  simp [onLines]

/-- The section of a file with directives of every kind stands apart from its table. -/
example : Apart olderRoutes := by
  have hsection : Complete (sectionText olderRoutes) :=
    ⟨.inr ⟨(sectionText olderRoutes).dropLast, by decide +kernel⟩, by decide +kernel,
      by decide +kernel, by decide +kernel⟩
  have hmoved : movedText olderRoutes = [] := movedText_eq_nil (by decide +kernel)
  exact Apart.of_complete hsection (hmoved ▸ complete_nil) (by decide +kernel)

end CanvasFlutter
