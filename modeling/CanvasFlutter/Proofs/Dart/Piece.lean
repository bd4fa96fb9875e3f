import CanvasFlutter.Dart.Code
import CanvasFlutter.Proofs.Dart.Indent
import CanvasFlutter.Proofs.Dart.Leaf

namespace CanvasFlutter.Dart

/-!
# `CanvasFlutter.Proofs.Dart.Piece` — what a tree says, apart from how it is laid out

A tree is a row of pieces: fixed source, and the places where a canvas has its say. The pieces give
the tokens of the tree. Laid out in one way or another, its source is read as these tokens.

## Contents
- **Pieces.** `Piece`, `Code.pieces`, `Code.tokens`.
- **Forms.** `Form` is a way to lay out what takes a line for each part; `Code.emit`, of which
  printing is one case (`render_eq_emit`).
- **Reading.** One lemma for what stands between brackets (`closed_commas`, `closed_parts`), and
  `Form.Faithful`, which both forms are.
-/

/-! ## Pieces -/

/-- What a tree is made of. -/
inductive Piece where
  | fixed (source : String)
  | literal (text : String)
  | number (x : Float)
  | paint (p : Paint)
  | icon (name : Text)
  | entry (map key : String)

namespace Piece

/-- The tokens of a piece. -/
def tokens : Piece → List Token
  | .fixed source => Lexer.fixed source
  | .literal text => [.string (Literal.string text.toList)]
  | .number x => Lexer.lexed (Literal.number x)
  | .paint .transparent =>
      [.word "Colors".toList, .mark ['.'], .word "transparent".toList]
  | .paint (.color argb) =>
      [.word "Color".toList, .mark ['('], .number (Lexer.hexText argb), .mark [')']]
  | .icon name => [.word "Icons".toList, .mark ['.'], .word name]
  | .entry map key =>
      [.word map.toList, .mark ['['], .string (Literal.string key.toList), .mark [']']]

theorem tokens_fixed (source : String) :
    tokens (.fixed source) = Lexer.lexed source.toList := rfl

/-- The tokens of the fixed pieces that are signs. -/
theorem tokens_sign :
    tokens (.fixed ",") = [.mark [',']] ∧ tokens (.fixed ";") = [.mark [';']]
      ∧ tokens (.fixed "(") = [.mark ['(']] ∧ tokens (.fixed ")") = [.mark [')']]
      ∧ tokens (.fixed "[") = [.mark ['[']] ∧ tokens (.fixed "]") = [.mark [']']]
      ∧ tokens (.fixed "\x7b") = [.mark ['{']] ∧ tokens (.fixed "\x7d") = [.mark ['}']]
      ∧ tokens (.fixed ":") = [.mark [':']] ∧ tokens (.fixed ".") = [.mark ['.']]
      ∧ tokens (.fixed "!") = [.mark ['!']] ∧ tokens (.fixed "?") = [.mark ['?']]
      ∧ tokens (.fixed "=") = [.mark ['=']] ∧ tokens (.fixed "??") = [.mark ['?', '?']] := by
  decide

/-- Rows of pieces with commas between them. -/
def commas : List (List Piece) → List Piece
  | [] => []
  | [row] => row
  | row :: more => row ++ .fixed "," :: commas more

/-- Rows of pieces, each with a sign after it. -/
def parts (sign : String) (rows : List (List Piece)) : List Piece :=
  rows.flatMap (· ++ [.fixed sign])

end Piece

namespace Code

mutual

/-- The pieces of a tree, from left to right. -/
def pieces : Code → List Piece
  | .word source => [.fixed source]
  | .literal text => [.literal text]
  | .number x => [.number x]
  | .paint p => [.paint p]
  | .icon name => [.icon name]
  | .entry map key => [.entry map key]
  | .named name value => .fixed name :: .fixed ":" :: pieces value
  | .strings texts =>
      .fixed "<String>[" :: (Piece.commas (texts.map fun t => [.literal t]) ++ [.fixed "]"])
  | .apply callee args =>
      .fixed callee :: .fixed "(" :: (Piece.commas (piecesAll args) ++ [.fixed ")"])
  | .method receiver name args =>
      pieces receiver ++ .fixed "." :: .fixed name :: .fixed "("
        :: (Piece.commas (piecesAll args) ++ [.fixed ")"])
  | .orFalse value => .fixed "(" :: (pieces value ++ [.fixed "??", .fixed "false", .fixed ")"])
  | .negated value => .fixed "!" :: pieces value
  | .choice condition yes no =>
      pieces condition ++ .fixed "?" :: (pieces yes ++ .fixed ":" :: pieces no)
  | .assign target value => pieces target ++ .fixed "=" :: pieces value
  | .result value => .fixed "return" :: pieces value
  | .call callee args =>
      .fixed callee :: .fixed "(" :: (Piece.parts "," (piecesAll args) ++ [.fixed ")"])
  | .list items => .fixed "[" :: (Piece.parts "," (piecesAll items) ++ [.fixed "]"])
  | .closure parameters body =>
      .fixed parameters :: .fixed "\x7b" :: (Piece.parts ";" (piecesAll body) ++ [.fixed "\x7d"])

/-- The pieces of each tree. -/
def piecesAll : List Code → List (List Piece)
  | [] => []
  | c :: rest => pieces c :: piecesAll rest

end

theorem piecesAll_eq_map (cs : List Code) : piecesAll cs = cs.map pieces := by
  induction cs with
  | nil => rfl
  | cons c rest ih => simp [piecesAll, ih]

/-- The tokens of a tree. -/
def tokens (c : Code) : List Token := c.pieces.flatMap Piece.tokens

end Code

/-! ## Forms -/

/-- How the three forms that take a line for each part are laid out. -/
structure Form where
  call : Text → List Text → Text
  list : List Text → Text
  closure : Text → List Text → Text

namespace Form

/-- A line for each part. -/
def spread : Form := ⟨Layout.call, Layout.list, Layout.closure⟩

/-- No line breaks and no indentation. -/
def inline : Form where
  call callee args := callee ++ '(' :: (args.flatMap (· ++ [',']) ++ [')'])
  list items := '[' :: (items.flatMap (· ++ [',']) ++ [']'])
  closure parameters body := parameters ++ '{' :: (body.flatMap (· ++ [';']) ++ ['}'])

end Form

namespace Code

mutual

/-- The source of a tree in some form. -/
def emit (form : Form) : Code → Text
  | .word source => source.toList
  | .literal text => Literal.string text.toList
  | .number x => Literal.number x
  | .paint p => p.text
  | .icon name => "Icons.".toList ++ name
  | .entry map key => map.toList ++ '[' :: (Literal.string key.toList ++ [']'])
  | .named name value => Layout.named name.toList (emit form value)
  | .strings texts =>
      "<String>[".toList ++ commas (texts.map fun t => Literal.string t.toList) ++ [']']
  | .apply callee args => callee.toList ++ '(' :: (commas (emitAll form args) ++ [')'])
  | .method receiver name args =>
      emit form receiver ++ '.' :: (name.toList ++ '(' :: (commas (emitAll form args) ++ [')']))
  | .orFalse value => '(' :: (emit form value ++ " ?? false)".toList)
  | .negated value => '!' :: emit form value
  | .choice condition yes no =>
      emit form condition ++ " ? ".toList ++ emit form yes ++ " : ".toList ++ emit form no
  | .assign target value => emit form target ++ " = ".toList ++ emit form value
  | .result value => "return ".toList ++ emit form value
  | .call callee args => form.call callee.toList (emitAll form args)
  | .list items => form.list (emitAll form items)
  | .closure parameters body => form.closure parameters.toList (emitAll form body)

/-- The source of each tree. -/
def emitAll (form : Form) : List Code → List Text
  | [] => []
  | c :: rest => emit form c :: emitAll form rest

end

theorem emitAll_eq_map (form : Form) (cs : List Code) :
    emitAll form cs = cs.map (emit form) := by
  induction cs with
  | nil => rfl
  | cons c rest ih => simp [emitAll, ih]

mutual

/-- Printing takes a line for each part. -/
theorem render_eq_emit (c : Code) : c.render = c.emit .spread := by
  cases c with
  | named name value => exact congrArg (Layout.named name.toList) (render_eq_emit value)
  | apply callee args =>
      exact congrArg (fun ts => callee.toList ++ '(' :: (commas ts ++ [')']))
        (renderAll_eq_emitAll args)
  | method receiver name args =>
      show render receiver ++ '.' :: (name.toList ++ '(' :: (commas (renderAll args) ++ [')'])) = _
      rw [render_eq_emit receiver, renderAll_eq_emitAll args]
      rfl
  | orFalse value =>
      exact congrArg (fun v => '(' :: (v ++ " ?? false)".toList)) (render_eq_emit value)
  | negated value => exact congrArg ('!' :: ·) (render_eq_emit value)
  | choice condition yes no =>
      show render condition ++ " ? ".toList ++ render yes ++ " : ".toList ++ render no = _
      rw [render_eq_emit condition, render_eq_emit yes, render_eq_emit no]
      rfl
  | assign target value =>
      show render target ++ " = ".toList ++ render value = _
      rw [render_eq_emit target, render_eq_emit value]
      rfl
  | result value => exact congrArg ("return ".toList ++ ·) (render_eq_emit value)
  | call callee args =>
      exact congrArg (Layout.call callee.toList) (renderAll_eq_emitAll args)
  | list items => exact congrArg Layout.list (renderAll_eq_emitAll items)
  | closure parameters body =>
      exact congrArg (Layout.closure parameters.toList) (renderAll_eq_emitAll body)
  | _ => rfl

theorem renderAll_eq_emitAll (cs : List Code) : renderAll cs = emitAll .spread cs := by
  cases cs with
  | nil => rfl
  | cons c rest =>
      show render c :: renderAll rest = _
      rw [render_eq_emit c, renderAll_eq_emitAll rest]
      rfl

end

/-- The source of a tree without any line breaks. -/
def inline (c : Code) : Text := c.emit .inline

end Code

/-! ## Reading -/

namespace Lexer

open Layout

/-- A sign with which no longer one begins is a token by itself. -/
theorem closed_sign : ∀ c ∈ loneSigns, Closed [c] [.mark [c]] := by
  have hsigns : ∀ c ∈ loneSigns, isClosed [c] = true ∧ lexed [c] = [.mark [c]] :=
    Text.forall_of_all (by decide)
  intro c hc
  obtain ⟨hclosed, hlexed⟩ := hsigns c hc
  exact hlexed ▸ closed_lexed hclosed

theorem Closed.sign {s : Text} {ts : List Token} (h : Closed s ts) {c : Char}
    (hc : c ∈ loneSigns) : Closed (c :: s) (.mark [c] :: ts) :=
  (closed_sign c hc).append h

theorem Phrase.sign {s : Text} {ts : List Token} (h : Phrase s ts) {c : Char}
    (hc : c ∈ loneSigns) : Phrase (c :: s) (.mark [c] :: ts) :=
  (closed_sign c hc).append_phrase h

theorem closed_newline : Closed ['\n'] [] := fun t => by
  rw [List.singleton_append, read_between_newline]
  cases read .between t <;> simp

theorem closed_spaces (n : Nat) : Closed (List.replicate n ' ') [] := fun t => by
  rw [read_between_spaces]
  cases read .between t <;> simp

theorem closed_space : Closed [' '] [] := closed_spaces 1

section Parts

variable {α : Type} {text : α → Text} {pieces : α → List Piece}

/-- Phrases with commas between them and a bracket at the end. -/
theorem closed_commas {items : List α}
    (h : ∀ a ∈ items, Phrase (text a) ((pieces a).flatMap Piece.tokens)) (close : Char)
    (hsign : close ∈ loneSigns) (hdelimiter : close ∈ delimiters) :
    Closed (Code.commas (items.map text) ++ [close])
      ((Piece.commas (items.map pieces)).flatMap Piece.tokens ++ [.mark [close]]) := by
  have hclose := closed_sign close hsign
  induction items with
  | nil => exact hclose
  | cons a items ih =>
      have ha := h a (by simp)
      cases items with
      | nil => exact ha.append_closed hdelimiter hclose
      | cons b items =>
          have hrest := (closed_space.append (ih fun c hc => h c (by simp [hc]))).sign
            (c := ',') (by decide)
          have hcons := ha.append_closed (by decide) hrest
          simpa [Code.commas, Text.joinWith, Piece.commas, Piece.tokens_sign] using hcons

/-- Phrases with a sign after each, however a part is set. -/
theorem closed_parts {items : List α} {set : Text → Text} {sign : String}
    (h : ∀ a ∈ items,
      Closed (set (text a)) ((pieces a).flatMap Piece.tokens ++ Piece.tokens (.fixed sign))) :
    Closed (items.flatMap fun a => set (text a))
      ((Piece.parts sign (items.map pieces)).flatMap Piece.tokens) := by
  induction items with
  | nil => exact closed_nil
  | cons a items ih =>
      have hcons := (h a (by simp)).append (ih fun b hb => h b (by simp [hb]))
      simpa [Piece.parts] using hcons

end Parts

/-- A text that is read as a row of pieces and can be moved to the right. -/
structure Reads (s : Text) (row : List Piece) : Prop where
  phrase : Phrase s (row.flatMap Piece.tokens)
  block : Block s

section Reads

variable {s t u : Text} {row more rest : List Piece}

/-- What follows a phrase begins with a delimiter. -/
theorem Reads.before (h : Reads s row) {c : Char} {tokens : List Token} (hc : c ∈ delimiters)
    (ht : Phrase (c :: t) tokens) (hblock : Block (c :: t))
    (hmore : more.flatMap Piece.tokens = tokens) : Reads (s ++ c :: t) (row ++ more) :=
  ⟨by rw [List.flatMap_append, hmore]; exact h.phrase.append hc ht, h.block.append hblock⟩

theorem block_commas {texts : List Text} (h : ∀ t ∈ texts, Block t) :
    Block (Code.commas texts) := by
  induction texts with
  | nil => exact block_nil
  | cons t texts ih =>
      have ht := h t (by simp)
      cases texts with
      | nil => exact ht
      | cons u texts =>
          have hrest := ((ih fun v hv => h v (by simp [hv])).cons (c := ' ') (by decide)
            (by decide)).cons (c := ',') (by decide) (by decide)
          simpa [Code.commas, Text.joinWith] using ht.append hrest

theorem Reads.named {name : String} (hn : Reads name.toList [.fixed name]) (ht : Reads t row) :
    Reads (Layout.named name.toList t) (.fixed name :: .fixed ":" :: row) := by
  have hrest := (closed_space.append_phrase ht.phrase).sign (c := ':') (by decide)
  have hblock := (ht.block.cons (c := ' ') (by decide) (by decide)).cons (c := ':') (by decide)
    (by decide)
  rw [Layout.named, List.append_assoc]
  exact hn.before (by decide) hrest hblock (by simp [Piece.tokens_sign])

/-- What is passed to a function, on one line. -/
theorem reads_arguments {α : Type} {text : α → Text} {pieces : α → List Piece} {items : List α}
    (h : ∀ a ∈ items, Reads (text a) (pieces a)) :
    Closed ('(' :: (Code.commas (items.map text) ++ [')']))
        ((.fixed "(" :: (Piece.commas (items.map pieces) ++ [.fixed ")"])).flatMap Piece.tokens)
      ∧ Block ('(' :: (Code.commas (items.map text) ++ [')'])) := by
  have hclosed := (closed_commas (fun a ha => (h a ha).phrase) ')' (by decide)
    (by decide)).sign (c := '(') (by decide)
  refine ⟨?_, (Block.append (block_commas ?_) (block_of_isUnbroken (by decide))).cons (by decide)
    (by decide)⟩
  · simpa [Piece.tokens_sign] using hclosed
  · intro t ht
    obtain ⟨a, ha, rfl⟩ := List.mem_map.mp ht
    exact (h a ha).block

theorem Reads.apply {α : Type} {text : α → Text} {pieces : α → List Piece} {items : List α}
    {callee : String} (hc : Reads callee.toList [.fixed callee])
    (h : ∀ a ∈ items, Reads (text a) (pieces a)) :
    Reads (callee.toList ++ '(' :: (Code.commas (items.map text) ++ [')']))
      (.fixed callee :: .fixed "(" :: (Piece.commas (items.map pieces) ++ [.fixed ")"])) :=
  hc.before (by decide) (reads_arguments h).1.phrase (reads_arguments h).2 rfl

/-! ### Leaves -/

/-- An identifier after a point. -/
theorem phrase_after_point {before : List Token} (h : run .between s = some (before, .mark ['.']))
    (ht : Text.IsIdentifier t) : Phrase (s ++ t) (before ++ [.mark ['.'], .word t]) := by
  cases t with
  | nil => exact ht.elim
  | cons c t =>
      have hstop : (Mode.mark ['.']).goOn? c = none :=
        Text.forall_first (p := fun c => (Mode.mark ['.']).goOn? c = none) (by decide) ht.1
      simpa using (phrase_word ht).after h rfl ⟨c, t, rfl, hstop, rfl⟩

theorem block_of_isName (h : Text.IsName t) : Block t :=
  block_of_noBreak fun c hc => by
    constructor
    all_goals
      rintro rfl
      exact absurd (h _ hc) (by decide)

theorem block_string (t : Text) : Block (Literal.string t) := by
  refine block_of_noBreak fun c hc => ?_
  have hescape : ∀ d, c ∈ Literal.escape d → c ≠ '\n' ∧ c ≠ '\r' := by
    intro d hd
    rw [Literal.escape.eq_def] at hd
    split at hd <;> simp_all <;> (try rcases hd with rfl | rfl <;> simp)
  rw [Literal.string, List.mem_cons, List.mem_append] at hc
  rcases hc with rfl | hc | hc
  · decide
  · obtain ⟨d, -, hd⟩ := List.mem_flatMap.mp hc
    exact hescape d hd
  · obtain rfl := List.mem_singleton.mp hc
    decide

theorem reads_literal (text : String) : Reads (Literal.string text.toList) [.literal text] :=
  ⟨phrase_string _, block_string _⟩

theorem reads_number (x : Float) : Reads (Literal.number x) [.number x] := by
  refine ⟨by simpa [Piece.tokens] using phrase_number x, block_of_noBreak fun c hc => ?_⟩
  have hshow := noBreak_number x c hc
  exact hshow

theorem reads_icon {name : Text} (h : Text.IsIdentifier name) :
    Reads ("Icons.".toList ++ name) [.icon name] := by
  have hrun : run .between "Icons.".toList = some ([.word "Icons".toList], .mark ['.']) := by
    decide
  exact ⟨by simpa [Piece.tokens] using phrase_after_point hrun h,
    Block.append (block_of_isUnbroken (by decide)) (block_of_isName h.isName)⟩

theorem reads_color {argb : Text} (hne : argb ≠ []) (h : ∀ c ∈ argb, isHexDigit c = true) :
    Reads (Paint.colorText argb) [.paint (.color argb)] := by
  have hopen : Closed "Color(".toList [.word "Color".toList, .mark ['(']] :=
    closed_of_lexed (by decide) (by decide)
  have hclosed := hopen.append
    ((phrase_hex hne h).append_closed (by decide) (closed_sign ')' (by decide)))
  have hphrase : Phrase ("Color(0x".toList ++ argb ++ [')'])
      ([Piece.paint (.color argb)].flatMap Piece.tokens) := by
    simpa [Piece.tokens, hexText] using hclosed.phrase
  refine ⟨hphrase, ?_⟩
  have hbreaks : ∀ c ∈ argb, c ≠ '\n' ∧ c ≠ '\r' := by
    refine fun c hc => ⟨?_, ?_⟩
    all_goals
      rintro rfl
      exact absurd (h _ hc) (by decide)
  exact Block.append (Block.append (block_of_isUnbroken (by decide)) (block_of_noBreak hbreaks))
    (block_of_isUnbroken (by decide))

theorem reads_entry {map : String} (hmap : Text.IsIdentifier map.toList) (key : String) :
    Reads (map.toList ++ '[' :: (Literal.string key.toList ++ [']'])) [.entry map key] := by
  have hkey := ((phrase_string key.toList).append_closed (by decide)
    (closed_sign ']' (by decide))).sign (c := '[') (by decide)
  refine ⟨by simpa [Piece.tokens] using
    ((phrase_word hmap).append_closed (by decide) hkey).phrase, ?_⟩
  exact (block_of_isName hmap.isName).append
    (((block_string _).append (block_of_isUnbroken (by decide))).cons (by decide) (by decide))

/-! ### Inline forms -/

/-- A method of what ends in a bracket, so that its point is no part of a number. -/
theorem reads_method {α : Type} {text : α → Text} {pieces : α → List Piece} {items : List α}
    {name : String} (hs : Closed s (row.flatMap Piece.tokens)) (hblock : Block s)
    (hname : Text.IsIdentifier name.toList) (h : ∀ a ∈ items, Reads (text a) (pieces a)) :
    Closed (s ++ '.' :: (name.toList ++ '(' :: (Code.commas (items.map text) ++ [')'])))
        (List.flatMap Piece.tokens (row ++ .fixed "." :: .fixed name
          :: .fixed "(" :: (Piece.commas (items.map pieces) ++ [.fixed ")"])))
      ∧ Block (s ++ '.' :: (name.toList ++ '(' :: (Code.commas (items.map text) ++ [')']))) := by
  have hrun : run .between ['.'] = some ([], .mark ['.']) := rfl
  have hpoint : Phrase ('.' :: name.toList) [.mark ['.'], .word name.toList] :=
    phrase_after_point hrun hname
  have hrest := hpoint.append_closed (by decide) (reads_arguments h).1
  refine ⟨?_, hblock.append (Block.cons ((block_of_isName hname.isName).append
    (reads_arguments h).2) (by decide) (by decide))⟩
  have hlexed : Piece.tokens (.fixed name) = [.word name.toList] := (phrase_word hname).lexed
  simpa [Piece.tokens_sign, hlexed] using hs.append hrest

theorem Reads.orFalse (h : Reads s row) :
    Reads ('(' :: (s ++ " ?? false)".toList))
      (.fixed "(" :: (row ++ [.fixed "??", .fixed "false", .fixed ")"])) := by
  have hrest : Closed " ?? false)".toList
      ([Piece.fixed "??", .fixed "false", .fixed ")"].flatMap Piece.tokens) :=
    closed_of_lexed (by decide) (by decide)
  have hclosed := (h.phrase.then_closed hrest (by decide)).sign (c := '(') (by decide)
  exact ⟨by simpa [Piece.tokens_sign] using hclosed.phrase,
    (h.block.append (block_of_isUnbroken (by decide))).cons (by decide) (by decide)⟩

/-- An exclamation mark before a bracket. -/
theorem Reads.negated (h : Reads ('(' :: s) row) :
    Reads ('!' :: '(' :: s) (.fixed "!" :: row) := by
  refine ⟨?_, h.block.cons (by decide) (by decide)⟩
  have hrun : run .between ['!'] = some ([], .mark ['!']) := rfl
  have hafter := h.phrase.after hrun rfl ⟨'(', s, rfl, by decide, rfl⟩
  simpa [Piece.tokens_sign] using hafter

theorem Reads.choice (hs : Reads s row) (ht : Reads t more) (hu : Reads u rest) :
    Reads (s ++ " ? ".toList ++ t ++ " : ".toList ++ u)
      (row ++ .fixed "?" :: (more ++ .fixed ":" :: rest)) := by
  have hquestion : Closed " ? ".toList (Piece.tokens (.fixed "?")) :=
    closed_of_lexed (by decide) (by decide)
  have hcolon : Closed " : ".toList (Piece.tokens (.fixed ":")) :=
    closed_of_lexed (by decide) (by decide)
  have hyes := hs.phrase.then_closed hquestion (by decide)
  have hno := ht.phrase.then_closed hcolon (by decide)
  have hblock := ht.block.append ((block_of_isUnbroken (t := " : ".toList) (by decide)).append hu.block)
  refine ⟨?_, ?_⟩
  · simpa using (hyes.append hno).append_phrase hu.phrase
  · simpa using hs.block.append ((block_of_isUnbroken (t := " ? ".toList) (by decide)).append hblock)

theorem Reads.assign (hs : Reads s row) (ht : Reads t more) :
    Reads (s ++ " = ".toList ++ t) (row ++ .fixed "=" :: more) := by
  have hequals : Closed " = ".toList (Piece.tokens (.fixed "=")) :=
    closed_of_lexed (by decide) (by decide)
  refine ⟨?_, ?_⟩
  · simpa using (hs.phrase.then_closed hequals (by decide)).append_phrase ht.phrase
  · simpa using hs.block.append ((block_of_isUnbroken (t := " = ".toList) (by decide)).append ht.block)

theorem Reads.result (ht : Reads t row) :
    Reads ("return ".toList ++ t) (.fixed "return" :: row) := by
  have hreturn : Closed "return ".toList (Piece.tokens (.fixed "return")) :=
    closed_of_lexed (by decide) (by decide)
  exact ⟨by simpa using hreturn.append_phrase ht.phrase,
    Block.append (block_of_isUnbroken (by decide)) ht.block⟩

theorem reads_strings (texts : List String) :
    Closed ("<String>[".toList ++ Code.commas (texts.map fun t => Literal.string t.toList) ++ [']'])
        ((.fixed "<String>[" :: (Piece.commas (texts.map fun t => [.literal t])
          ++ [.fixed "]"])).flatMap Piece.tokens)
      ∧ Block ("<String>[".toList ++ Code.commas (texts.map fun t => Literal.string t.toList)
          ++ [']']) := by
  have hitem : ∀ t ∈ texts, Phrase (Literal.string t.toList)
      ([Piece.literal t].flatMap Piece.tokens) := fun t _ => (reads_literal t).phrase
  have hitems := closed_commas hitem ']' (by decide) (by decide)
  have hopen : Closed "<String>[".toList (Piece.tokens (.fixed "<String>[")) := by
    rw [Piece.tokens_fixed]
    exact closed_lexed (by decide)
  constructor
  · simpa [Piece.tokens_sign] using hopen.append hitems
  · refine Block.append (Block.append (block_of_isUnbroken (by decide)) (block_commas ?_))
      (block_of_isUnbroken (by decide))
    intro t ht
    obtain ⟨s, -, rfl⟩ := List.mem_map.mp ht
    exact block_string _

/-! ### Forms with a line for each part -/

/-- Whether a text begins with a delimiter and is read as a fixed piece. -/
def isSign (t : Text) (source : String) : Bool :=
  isClosed t && lexed t == Piece.tokens (.fixed source) && t.head?.any (· ∈ delimiters)
    && t.all (· != '\r')

theorem of_isSign {source : String} (h : isSign t source = true) :
    Closed t (Piece.tokens (.fixed source)) ∧ t.head?.any (· ∈ delimiters) = true ∧ '\r' ∉ t := by
  simp only [isSign, Bool.and_eq_true, beq_iff_eq] at h
  obtain ⟨⟨⟨hclosed, hlexed⟩, hfirst⟩, hreturn⟩ := h
  exact ⟨closed_of_lexed hclosed hlexed, hfirst, fun hr => by
    simpa using List.all_eq_true.mp hreturn _ hr⟩

/-- A part with a margin before it and a sign after it. -/
theorem Reads.set (h : Reads s row) {margin ending : Text} {sign : String}
    (hmargin : Closed margin [] ∧ '\r' ∉ margin) (hending : isSign ending sign = true) :
    Closed (margin ++ s ++ ending) (row.flatMap Piece.tokens ++ Piece.tokens (.fixed sign))
      ∧ '\r' ∉ margin ++ s ++ ending := by
  obtain ⟨hclosed, hfirst, hreturn⟩ := of_isSign hending
  have hset := hmargin.1.append (h.phrase.then_closed hclosed hfirst)
  exact ⟨by simpa using hset, by simp [hmargin.2, h.block.noReturn, hreturn]⟩

/-- Parts in brackets behind a text, each set in some way that ends with a sign. -/
theorem Reads.bracketed (hs : Reads s row) (parts : List (Text × List Piece))
    (set : Text → Text) (inner : Text) (opening close sign : String)
    (hopen : isSign inner opening = true) (hclose : isSign close.toList close = true)
    (hlast : close.toList.getLast?.any (· != '\n') = true)
    (hset : ∀ i ∈ parts, Closed (set i.1) (i.2.flatMap Piece.tokens ++ Piece.tokens (.fixed sign))
      ∧ '\r' ∉ set i.1) :
    Reads (s ++ inner ++ (parts.map Prod.fst).flatMap set ++ close.toList)
      (row ++ .fixed opening :: (Piece.parts sign (parts.map Prod.snd) ++ [.fixed close])) := by
  obtain ⟨hinner, hfirst, hreturn⟩ := of_isSign hopen
  obtain ⟨hclosed, -, hcloseReturn⟩ := of_isSign hclose
  have hparts : Closed ((parts.map Prod.fst).flatMap set)
      ((Piece.parts sign (parts.map Prod.snd)).flatMap Piece.tokens) := by
    rw [List.flatMap_map]
    exact closed_parts fun i hi => (hset i hi).1
  have hbrackets := (hs.phrase.then_closed hinner hfirst).append (hparts.append hclosed)
  refine ⟨by simpa using hbrackets.phrase, ?_⟩
  refine Block.prepend ⟨hcloseReturn, fun h => ?_⟩ (fun h => ?_) ?_
  · simp [h] at hlast
  · simp [h] at hlast
  · simp only [List.mem_append, List.mem_flatMap, List.mem_map, not_or]
    refine ⟨⟨hs.block.noReturn, hreturn⟩, ?_⟩
    rintro ⟨-, ⟨i, hi, rfl⟩, hr⟩
    exact (hset i hi).2 hr

theorem Reads.indentTail (h : Reads s row) (n : Nat) : Reads (indentTail s n) row :=
  ⟨h.phrase.indentTail h.block n, h.block.indentTail n⟩

theorem Reads.indent (h : Reads s row) (n : Nat) : Reads (indent s n) row :=
  ⟨h.phrase.indent h.block n, h.block.indent n⟩

theorem closed_margin : Closed "  ".toList [] ∧ '\r' ∉ "  ".toList :=
  ⟨closed_spaces 2, by decide⟩

end Reads

end Lexer

/-- A form that says what the pieces of its parts say. -/
structure Form.Faithful (form : Form) : Prop where
  call : ∀ {callee : String} {args : List (Text × List Piece)},
    Lexer.Reads callee.toList [.fixed callee] → (∀ a ∈ args, Lexer.Reads a.1 a.2) →
    Lexer.Reads (form.call callee.toList (args.map Prod.fst))
      (.fixed callee :: .fixed "(" :: (Piece.parts "," (args.map Prod.snd) ++ [.fixed ")"]))
  list : ∀ {items : List (Text × List Piece)}, (∀ a ∈ items, Lexer.Reads a.1 a.2) →
    Lexer.Reads (form.list (items.map Prod.fst))
      (.fixed "[" :: (Piece.parts "," (items.map Prod.snd) ++ [.fixed "]"]))
  closure : ∀ {parameters : String} {body : List (Text × List Piece)},
    Lexer.Reads parameters.toList [.fixed parameters] → (∀ a ∈ body, Lexer.Reads a.1 a.2) →
    Lexer.Reads (form.closure parameters.toList (body.map Prod.fst))
      (.fixed parameters :: .fixed "\x7b"
        :: (Piece.parts ";" (body.map Prod.snd) ++ [.fixed "\x7d"]))

namespace Form

open Lexer Layout

theorem reads_nil : Reads [] [] := ⟨by simpa using closed_nil.phrase, block_nil⟩

theorem faithful_spread : spread.Faithful where
  call {callee args} hcallee hargs := by
    cases args with
    | nil =>
        have hnone := hcallee.bracketed [] id "(".toList "(" ")" "," (by decide) (by decide) (by decide) (by simp)
        show Reads (callee.toList ++ "()".toList) _
        simpa using hnone
    | cons a args =>
        show Reads (callee.toList ++ "(\n".toList
          ++ ((a :: args).map Prod.fst).flatMap
            (fun arg => "  ".toList ++ indentTail arg 2 ++ ",\n".toList) ++ ")".toList) _
        exact hcallee.bracketed _ _ _ _ _ _ (by decide) (by decide) (by decide) fun i hi =>
          ((hargs i hi).indentTail 2).set closed_margin (by decide)
  list {items} hitems := by
    cases items with
    | nil =>
        exact reads_nil.bracketed [] id "[".toList "[" "]" "," (by decide) (by decide) (by decide) (by simp)
    | cons a items =>
        show Reads ([] ++ "[\n".toList
          ++ ((a :: items).map Prod.fst).flatMap
            (fun item => [] ++ indent item 2 ++ ",\n".toList) ++ "]".toList) _
        exact reads_nil.bracketed _ _ _ _ _ _ (by decide) (by decide) (by decide) fun i hi =>
          ((hitems i hi).indent 2).set ⟨closed_nil, by simp⟩ (by decide)
  closure {parameters body} hparameters hbody := by
    cases body with
    | nil =>
        have hnone := hparameters.bracketed [] id " \x7b".toList "\x7b" "\x7d" ";" (by decide) (by decide)
          (by decide) (by simp)
        show Reads (parameters.toList ++ [' ', '{'] ++ ['}']) _
        simpa using hnone
    | cons a body =>
        have hsome := hparameters.bracketed (a :: body)
          (fun statement => "  ".toList ++ indentTail statement 2 ++ ";\n".toList)
          " \x7b\n".toList "\x7b" "\x7d" ";"
          (by decide) (by decide) (by decide) fun i hi =>
            ((hbody i hi).indentTail 2).set closed_margin (by decide)
        show Reads (parameters.toList ++ [' ', '{'] ++ ['\n']
          ++ ((a :: body).map Prod.fst).flatMap
            (fun statement => "  ".toList ++ indentTail statement 2 ++ ";\n".toList) ++ ['}']) _
        simpa using hsome

theorem faithful_inline : inline.Faithful where
  call {callee args} hcallee hargs := by
    have hsome := hcallee.bracketed args (fun arg => [] ++ arg ++ ",".toList) "(".toList "(" ")" ","
      (by decide)
      (by decide) (by decide) fun i hi => (hargs i hi).set ⟨closed_nil, by simp⟩ (by decide)
    show Reads (callee.toList ++ '(' :: ((args.map Prod.fst).flatMap (· ++ [',']) ++ [')'])) _
    simpa using hsome
  list {items} hitems := by
    have hsome := reads_nil.bracketed items (fun item => [] ++ item ++ ",".toList) "[".toList "[" "]" ","
      (by decide)
      (by decide) (by decide) fun i hi => (hitems i hi).set ⟨closed_nil, by simp⟩ (by decide)
    show Reads ('[' :: ((items.map Prod.fst).flatMap (· ++ [',']) ++ [']'])) _
    simpa using hsome
  closure {parameters body} hparameters hbody := by
    have hsome := hparameters.bracketed body (fun statement => [] ++ statement ++ ";".toList)
      "\x7b".toList "\x7b" "\x7d" ";" (by decide) (by decide) (by decide)
      fun i hi => (hbody i hi).set ⟨closed_nil, by simp⟩ (by decide)
    show Reads
      (parameters.toList ++ '{' :: ((body.map Prod.fst).flatMap (· ++ [';']) ++ ['}'])) _
    simpa using hsome

end Form

end CanvasFlutter.Dart
