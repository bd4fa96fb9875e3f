import CanvasFlutter.Proofs.Dart.Bracket
import CanvasFlutter.Widget.Lower

namespace CanvasFlutter.Widget

/-!
# `CanvasFlutter.Proofs.Widget.Vocabulary` — trees that say nothing but what is listed

Widgets are made of a short list of names and constants. What comes from a canvas stands in string
literals, numbers, colours, icon names and state entries. A tree that keeps to this is read back
whatever the form it is laid out in, and its brackets match.

## Contents
- **Fixed source.** `words`, `callees`, `argumentNames`, `methods`, `parameterLists`, `signs`; each
  is read alike wherever it stands and names no state (`isFixed`).
- **Trees.** `Scope` says what a tree may refer to, `Made` which trees keep to it.
- **Consequences.** `Made.reads`, `Made.nested`, `Made.pieces`.
-/

open CanvasFlutter.Dart Lexer

/-! ## Fixed source -/

/-- Constants and other source that stands by itself. -/
def words : List String :=
  ["Alignment.topLeft", "Alignment.topCenter", "Alignment.topRight", "Alignment.centerLeft",
    "Alignment.center", "Alignment.centerRight", "Alignment.bottomLeft", "Alignment.bottomCenter",
    "Alignment.bottomRight", "TextAlign.left", "TextAlign.right", "TextAlign.center",
    "TextAlign.justify", "TextAlign.start", "TextAlign.end", "FontWeight.bold", "FontWeight.w100",
    "FontWeight.w200", "FontWeight.w300", "FontWeight.w500", "FontWeight.w600", "FontWeight.w800",
    "FontWeight.w900", "TextInputType.number", "TextInputType.emailAddress",
    "TextInputType.phone", "TextInputType.multiline", "TextInputType.text", "true", "false", "null",
    "0", "1", "8", "context", "value", "newValue", "if (newValue == null) return", "Icons.check",
    "BorderSide.none", "BoxShape.circle", "EdgeInsets.zero", "MainAxisSize.min",
    "TextOverflow.ellipsis", "TextOverflow.visible"]

/-- What is called; `setState` apart, which only a page with state has. -/
def callees : List String :=
  ["Align", "AppBar", "Border.all", "BorderRadius.circular", "BorderSide", "BoxDecoration",
    "Center", "Column", "Container", "DropdownButton<String>", "DropdownButtonHideUnderline",
    "DropdownMenuItem<String>", "EdgeInsets.symmetric", "GestureDetector", "Icon", "IconButton",
    "InputDecoration", "Navigator.pushNamed", "OutlineInputBorder", "Positioned",
    "RoundedRectangleBorder", "Row", "Scaffold", "SizedBox", "Stack", "Text", "TextButton",
    "TextButton.styleFrom", "TextField", "TextStyle", "Transform.scale", "UnderlineInputBorder",
    "const Text"]

/-- The names of arguments. -/
def argumentNames : List String :=
  ["alignment", "appBar", "backgroundColor", "body", "border", "borderRadius", "borderSide",
    "centerTitle", "child", "children", "color", "decoration", "dropdownColor", "elevation",
    "enabled", "enabledBorder", "expands", "fillColor", "filled", "fontFamily", "fontSize",
    "fontWeight", "height", "hint", "hintStyle", "hintText", "horizontal", "icon", "isExpanded",
    "items", "keyboardType", "labelStyle", "labelText", "left", "mainAxisSize", "maxLength",
    "maxLines", "obscureText", "onChanged", "onPressed", "onTap", "overflow", "padding", "scale",
    "shape", "side", "size", "softWrap", "style", "textAlign", "title", "tooltip", "top", "value",
    "width"]

/-- The methods of lists. -/
def methods : List String := ["contains", "map", "toList"]

/-- The parameters of functions. -/
def parameterLists : List String := ["()", "(value)", "(String value)", "(String? newValue)"]

/-- What the forms of trees put around and between their parts. -/
def signs : List String :=
  [":", ",", ";", "(", ")", "[", "]", "\x7b", "\x7d", ".", "!", "?", "??", "=", "false", "return",
    "<String>["]

/-- All fixed source of trees, but for what refers to a page's state. -/
def fixedSources : List String :=
  words ++ callees ++ argumentNames ++ methods ++ parameterLists ++ signs

/-- The maps of a page's state. -/
def stateMaps : List String := [dropdownState, checkboxState]

/-- The words that only the frame of a page and its state need. -/
def reserved : List Token :=
  ["class", "setState", "dropdownValues", "checkboxStates"].map fun s => .word s.toList

/-- Whether a text is read alike before any delimiter, and names nothing reserved. -/
def isPlain (s : String) : Bool :=
  isPhrase s.toList && s.toList.all (fun c => c != '\n' && c != '\r')
    && (lexed s.toList).all (· ∉ reserved)

/-- Whether also its brackets match. -/
def isFixed (s : String) : Bool := isPlain s && decide (Nested (lexed s.toList))

theorem isFixed_listed : ∀ s ∈ words ++ callees ++ argumentNames ++ methods ++ parameterLists,
    isFixed s = true := by decide +kernel

-- A reserved word is not fixed source, nor is a bracket by itself.
example : isFixed "class" = false ∧ isFixed "(" = false := by decide +kernel

theorem isFixed_words : ∀ s ∈ words, isFixed s = true :=
  fun s h => isFixed_listed s (by simp [h])

theorem isFixed_callees : ∀ s ∈ callees, isFixed s = true :=
  fun s h => isFixed_listed s (by simp [h])

theorem isFixed_argumentNames : ∀ s ∈ argumentNames, isFixed s = true :=
  fun s h => isFixed_listed s (by simp [h])

theorem isFixed_methods : ∀ s ∈ methods, isFixed s = true ∧ Text.IsIdentifier s.toList := by
  have hidentifier : ∀ s ∈ methods, Text.IsIdentifier s.toList := by decide
  exact fun s h => ⟨isFixed_listed s (by simp [h]), hidentifier s h⟩

theorem isFixed_parameterLists : ∀ s ∈ parameterLists, isFixed s = true :=
  fun s h => isFixed_listed s (by simp [h])

theorem isFixed_setState : isPhrase "setState".toList = true
    ∧ Nested (lexed "setState".toList) ∧ Text.IsIdentifier "setState".toList := by decide +kernel

theorem names_signs : ∀ s ∈ signs, (lexed s.toList).all (· ∉ reserved) = true := by decide +kernel

theorem isIdentifier_stateMaps : ∀ s ∈ stateMaps, Text.IsIdentifier s.toList := by decide +kernel

theorem reads_fixed {s : String} (h : isFixed s = true) : Reads s.toList [.fixed s] := by
  simp only [isFixed, isPlain, Bool.and_eq_true] at h
  obtain ⟨⟨⟨hphrase, hbreak⟩, -⟩, -⟩ := h
  refine ⟨?_, Layout.block_of_noBreak fun c hc => ?_⟩
  · simpa [Piece.tokens_fixed] using phrase_lexed hphrase
  · simpa using List.all_eq_true.mp hbreak c hc

theorem nested_fixed {s : String} (h : isFixed s = true) : Nested (Piece.tokens (.fixed s)) :=
  of_decide_eq_true (Bool.and_eq_true_iff.mp h).2

/-! ## Trees -/

/-- What generated source may refer to. -/
structure Scope where
  number : Float → Prop
  /-- The entries of the page's state, by map and key. -/
  entry : String → String → Prop
  /-- Whether the page's state may be changed. -/
  setState : Prop

/-- A colour has eight hexadecimal digits. -/
def HasDigits : Paint → Prop
  | .transparent => True
  | .color argb => argb.length = 8 ∧ ∀ c ∈ argb, isHexDigit c = true

/-- The forms that end in a bracket, of which a method may be called. -/
def EndsInBracket : Code → Prop
  | .strings _ => True
  | .method _ _ _ => True
  | _ => False

/-- A tree of listed source that refers to nothing out of scope. -/
inductive Made (scope : Scope) : Code → Prop where
  | word {source : String} (h : source ∈ words := by simp [words]) : Made scope (.word source)
  | literal (text : String) : Made scope (.literal text)
  | number {x : Float} (h : scope.number x) : Made scope (.number x)
  | paint {p : Paint} (h : HasDigits p) : Made scope (.paint p)
  | icon {name : Text} (h : name.IsIdentifier) : Made scope (.icon name)
  | entry {map key : String} (h : scope.entry map key)
      (hmap : map ∈ stateMaps := by simp [stateMaps]) : Made scope (.entry map key)
  | named {name : String} {value : Code} (h : Made scope value)
      (hname : name ∈ argumentNames := by simp [argumentNames]) : Made scope (.named name value)
  | strings (texts : List String) : Made scope (.strings texts)
  | apply {callee : String} {args : List Code} (h : ∀ a ∈ args, Made scope a)
      (hcallee : callee ∈ callees := by simp [callees]) : Made scope (.apply callee args)
  | setState {args : List Code} (hscope : scope.setState) (h : ∀ a ∈ args, Made scope a) :
      Made scope (.apply "setState" args)
  | method {receiver : Code} {name : String} {args : List Code} (hbracket : EndsInBracket receiver)
      (hreceiver : Made scope receiver) (h : ∀ a ∈ args, Made scope a)
      (hname : name ∈ methods := by simp [methods]) : Made scope (.method receiver name args)
  | orFalse {value : Code} (h : Made scope value) : Made scope (.orFalse value)
  | negated {value : Code} (h : Made scope (.orFalse value)) :
      Made scope (.negated (.orFalse value))
  | choice {condition yes no : Code} (hcondition : Made scope condition) (hyes : Made scope yes)
      (hno : Made scope no) : Made scope (.choice condition yes no)
  | assign {target value : Code} (htarget : Made scope target) (h : Made scope value) :
      Made scope (.assign target value)
  | result {value : Code} (h : Made scope value) : Made scope (.result value)
  | call {callee : String} {args : List Code} (h : ∀ a ∈ args, Made scope a)
      (hcallee : callee ∈ callees := by simp [callees]) : Made scope (.call callee args)
  | list {items : List Code} (h : ∀ a ∈ items, Made scope a) : Made scope (.list items)
  | closure {parameters : String} {body : List Code} (h : ∀ a ∈ body, Made scope a)
      (hparameters : parameters ∈ parameterLists := by simp [parameterLists]) :
      Made scope (.closure parameters body)

variable {scope : Scope} {form : Form} {c : Code}

/-! ## Consequences -/

theorem reads_paint {p : Paint} (h : HasDigits p) : Reads p.text [.paint p] := by
  cases p with
  | transparent =>
      have hlexed : lexed "Colors.transparent".toList = Piece.tokens (.paint .transparent) := by
        decide
      have hphrase := phrase_lexed (s := "Colors.transparent".toList) (by decide)
      show Reads "Colors.transparent".toList _
      refine ⟨?_, Layout.block_of_isUnbroken (by decide)⟩
      rwa [List.flatMap_singleton, ← hlexed]
  | color argb =>
      exact reads_color (fun hnil => by simp [hnil, HasDigits] at h) h.2

/-- The sources and the pieces of trees, side by side. -/
def readings (form : Form) (cs : List Code) : List (Text × List Piece) :=
  cs.map fun c => (c.emit form, c.pieces)

theorem map_fst_readings (form : Form) (cs : List Code) :
    (readings form cs).map Prod.fst = Code.emitAll form cs := by
  simp [readings, Code.emitAll_eq_map]

theorem map_snd_readings (form : Form) (cs : List Code) :
    (readings form cs).map Prod.snd = Code.piecesAll cs := by
  simp [readings, Code.piecesAll_eq_map]

theorem forall_readings {cs : List Code} (h : ∀ c ∈ cs, Reads (c.emit form) c.pieces) :
    ∀ r ∈ readings form cs, Reads r.1 r.2 := by
  simpa [readings] using h

/-- What a tree is printed as is read as its pieces. -/
theorem Made.reads_and_closed (hform : form.Faithful) (h : Made scope c) :
    Reads (c.emit form) c.pieces
      ∧ (EndsInBracket c → Closed (c.emit form) (c.pieces.flatMap Piece.tokens)) := by
  induction h with
  | word h => exact ⟨reads_fixed (isFixed_words _ h), False.elim⟩
  | literal text => exact ⟨reads_literal text, False.elim⟩
  | number _ => exact ⟨reads_number _, False.elim⟩
  | paint h => exact ⟨reads_paint h, False.elim⟩
  | icon h => exact ⟨reads_icon h, False.elim⟩
  | entry _ hmap => exact ⟨reads_entry (isIdentifier_stateMaps _ hmap) _, False.elim⟩
  | named _ hname ih => exact ⟨(reads_fixed (isFixed_argumentNames _ hname)).named ih.1, False.elim⟩
  | strings texts =>
      obtain ⟨hclosed, hblock⟩ := reads_strings texts
      exact ⟨⟨hclosed.phrase, hblock⟩, fun _ => hclosed⟩
  | @apply callee args _ hcallee ih =>
      have happly := (reads_fixed (isFixed_callees _ hcallee)).apply fun a ha => (ih a ha).1
      rw [← Code.emitAll_eq_map, ← Code.piecesAll_eq_map] at happly
      exact ⟨happly, False.elim⟩
  | @setState args _ _ ih =>
      have hname : Reads "setState".toList [.fixed "setState"] := by
        refine ⟨?_, block_of_isName isFixed_setState.2.2.isName⟩
        simpa [Piece.tokens_fixed] using phrase_lexed isFixed_setState.1
      have happly := hname.apply fun a ha => (ih a ha).1
      rw [← Code.emitAll_eq_map, ← Code.piecesAll_eq_map] at happly
      exact ⟨happly, False.elim⟩
  | @method receiver name args hbracket _ _ hname ihreceiver ih =>
      obtain ⟨hclosed, hblock⟩ := reads_method (ihreceiver.2 hbracket) ihreceiver.1.block
        (isFixed_methods _ hname).2 fun a ha => (ih a ha).1
      rw [← Code.emitAll_eq_map, ← Code.piecesAll_eq_map] at hclosed
      rw [← Code.emitAll_eq_map] at hblock
      exact ⟨⟨hclosed.phrase, hblock⟩, fun _ => hclosed⟩
  | orFalse _ ih => exact ⟨ih.1.orFalse, False.elim⟩
  | negated _ ih => exact ⟨ih.1.negated, False.elim⟩
  | choice _ _ _ ihcondition ihyes ihno =>
      exact ⟨ihcondition.1.choice ihyes.1 ihno.1, False.elim⟩
  | assign _ _ ihtarget ih => exact ⟨ihtarget.1.assign ih.1, False.elim⟩
  | result _ ih => exact ⟨ih.1.result, False.elim⟩
  | @call callee args _ hcallee ih =>
      have hcall := hform.call (reads_fixed (isFixed_callees _ hcallee))
        (forall_readings fun a ha => (ih a ha).1)
      rw [map_fst_readings, map_snd_readings] at hcall
      exact ⟨hcall, False.elim⟩
  | @list items _ ih =>
      have hlist := hform.list (forall_readings fun a ha => (ih a ha).1)
      rw [map_fst_readings, map_snd_readings] at hlist
      exact ⟨hlist, False.elim⟩
  | @closure parameters body _ hparameters ih =>
      have hclosure := hform.closure (reads_fixed (isFixed_parameterLists _ hparameters))
        (forall_readings fun a ha => (ih a ha).1)
      rw [map_fst_readings, map_snd_readings] at hclosure
      exact ⟨hclosure, False.elim⟩

theorem Made.reads (h : Made scope c) (hform : form.Faithful) : Reads (c.emit form) c.pieces :=
  (h.reads_and_closed hform).1

/-- **A tree is printed as its pieces say**, on as many lines as it takes. -/
theorem Made.reads_render (h : Made scope c) : Reads c.render c.pieces :=
  c.render_eq_emit ▸ h.reads Form.faithful_spread

/-- The brackets of a tree match. -/
theorem Made.nestedRow (h : Made scope c) : NestedRow c.pieces := by
  have hcommas : ∀ {cs : List Code}, (∀ c ∈ cs, NestedRow c.pieces) →
      NestedRow (Piece.commas (Code.piecesAll cs)) := fun h =>
    nestedRow_commas (by simpa [Code.piecesAll_eq_map] using h)
  have hparts : ∀ {sign : String} {cs : List Code}, sign ∈ [",", ";"] →
      (∀ c ∈ cs, NestedRow c.pieces) → NestedRow (Piece.parts sign (Code.piecesAll cs)) :=
    fun hsign h => nestedRow_parts (nested_sign _ (List.mem_append_left _ hsign))
      (by simpa [Code.piecesAll_eq_map] using h)
  induction h with
  | word h => exact nestedRow_singleton (nested_fixed (isFixed_words _ h))
  | literal text => exact nestedRow_singleton (nested_string _)
  | number _ => exact nestedRow_singleton (nested_number _)
  | paint _ => exact nestedRow_singleton (nested_paint _)
  | icon _ => exact nestedRow_singleton (nested_icon _)
  | entry _ _ => exact nestedRow_singleton (nested_entry _ _)
  | named _ hname ih =>
      exact (ih.cons (nested_sign ":" (by simp))).cons (nested_fixed (isFixed_argumentNames _ hname))
  | strings texts =>
      have htype : Piece.tokens (.fixed "<String>[")
          = Piece.tokens (.fixed "<String>") ++ Piece.tokens (.fixed "[") := by decide
      have hitems : NestedRow (Piece.commas (texts.map fun t => [.literal t])) := by
        refine nestedRow_commas fun row hrow => ?_
        obtain ⟨t, -, rfl⟩ := List.mem_map.mp hrow
        exact nestedRow_singleton (nested_string _)
      have hlist := (hitems.enclosed (o := "[") (c := "]") (by simp)).cons
        (p := .fixed "<String>") (by decide)
      show NestedRow (.fixed "<String>[" :: (Piece.commas (texts.map fun t => [.literal t])
        ++ [.fixed "]"]))
      simpa [NestedRow, htype] using hlist
  | apply _ hcallee ih =>
      exact ((hcommas ih).enclosed (by simp)).cons (nested_fixed (isFixed_callees _ hcallee))
  | setState _ _ ih =>
      exact ((hcommas ih).enclosed (by simp)).cons isFixed_setState.2.1
  | method _ _ _ hname ihreceiver ih =>
      exact ihreceiver.append (((((hcommas ih).enclosed (by simp)).cons
        (nested_fixed (isFixed_methods _ hname).1))).cons (nested_sign "." (by simp)))
  | orFalse _ ih =>
      have hdefault := ih.append ((nestedRow_singleton (nested_sign "false" (by simp))).cons
        (nested_sign "??" (by simp)))
      simpa [Code.pieces] using hdefault.enclosed (o := "(") (c := ")") (by simp)
  | negated _ ih => exact ih.cons (nested_sign "!" (by simp))
  | choice _ _ _ ihcondition ihyes ihno =>
      exact ihcondition.append ((ihyes.append (ihno.cons (nested_sign ":" (by simp)))).cons
        (nested_sign "?" (by simp)))
  | assign _ _ ihtarget ih => exact ihtarget.append (ih.cons (nested_sign "=" (by simp)))
  | result _ ih => exact ih.cons (nested_sign "return" (by simp))
  | call _ hcallee ih =>
      exact ((hparts (by simp) ih).enclosed (by simp)).cons
        (nested_fixed (isFixed_callees _ hcallee))
  | list _ ih => exact (hparts (by simp) ih).enclosed (by simp)
  | closure _ hparameters ih =>
      exact ((hparts (by simp) ih).enclosed (by simp)).cons
        (nested_fixed (isFixed_parameterLists _ hparameters))

theorem Made.nested (h : Made scope c) : Nested c.tokens := h.nestedRow

/-- A piece of listed source or of a place where a canvas has its say, within the scope. -/
def Allowed (scope : Scope) : Piece → Prop
  | .fixed source => source ∈ fixedSources ∨ source = "setState" ∧ scope.setState
  | .literal _ => True
  | .number x => scope.number x
  | .paint p => HasDigits p
  | .icon name => name.IsIdentifier
  | .entry map key => map ∈ stateMaps ∧ scope.entry map key

theorem allowed_sign {s : String} (h : s ∈ signs) : Allowed scope (.fixed s) :=
  .inl (List.mem_append_right _ h)

theorem mem_commas {p : Piece} {rows : List (List Piece)} (h : p ∈ Piece.commas rows) :
    p = .fixed "," ∨ ∃ row ∈ rows, p ∈ row := by
  induction rows with
  | nil => simp [Piece.commas] at h
  | cons row rows ih =>
      cases rows with
      | nil => exact .inr ⟨row, by simp, h⟩
      | cons next rows =>
          rcases List.mem_append.mp h with h | h
          · exact .inr ⟨row, by simp, h⟩
          · rcases List.mem_cons.mp h with rfl | h
            · exact .inl rfl
            · rcases ih h with hcomma | ⟨r, hr, hp⟩
              · exact .inl hcomma
              · exact .inr ⟨r, by simp_all, hp⟩

section Rows

variable {P : Piece → Prop} {row : List Piece} {rows : List (List Piece)}

/-- What holds of a comma and of all pieces of some rows holds of the rows with commas between. -/
theorem forall_commas (hsign : P (.fixed ",")) (h : ∀ row ∈ rows, ∀ p ∈ row, P p) :
    ∀ p ∈ Piece.commas rows, P p := by
  intro p hp
  rcases mem_commas hp with rfl | ⟨row, hrow, hp⟩
  · exact hsign
  · exact h row hrow p hp

theorem forall_parts {sign : String} (hsign : P (.fixed sign))
    (h : ∀ row ∈ rows, ∀ p ∈ row, P p) : ∀ p ∈ Piece.parts sign rows, P p := by
  intro p hp
  obtain ⟨row, hrow, hp⟩ := List.mem_flatMap.mp hp
  rcases List.mem_append.mp hp with hp | hp
  · exact h row hrow p hp
  · exact List.mem_singleton.mp hp ▸ hsign

theorem forall_enclosed {o close : String} (ho : P (.fixed o)) (hclose : P (.fixed close))
    (h : ∀ p ∈ row, P p) : ∀ p ∈ .fixed o :: (row ++ [.fixed close]), P p := by
  simp only [List.forall_mem_cons, List.forall_mem_append]
  exact ⟨ho, h, hclose, by simp⟩

end Rows

/-- **A tree holds nothing but listed source and what the scope allows.** -/
theorem Made.allowed (h : Made scope c) : ∀ p ∈ c.pieces, Allowed scope p := by
  have hcommas : ∀ {cs : List Code}, (∀ c ∈ cs, ∀ p ∈ c.pieces, Allowed scope p) →
      ∀ p ∈ Piece.commas (Code.piecesAll cs), Allowed scope p := fun h =>
    forall_commas (allowed_sign (by simp [signs])) (by simpa [Code.piecesAll_eq_map] using h)
  have hparts : ∀ {sign : String} {cs : List Code}, sign ∈ signs →
      (∀ c ∈ cs, ∀ p ∈ c.pieces, Allowed scope p) →
      ∀ p ∈ Piece.parts sign (Code.piecesAll cs), Allowed scope p :=
    fun hsign h =>
      forall_parts (allowed_sign hsign) (by simpa [Code.piecesAll_eq_map] using h)
  have hsign : ∀ {s : String}, s ∈ signs → Allowed scope (.fixed s) := allowed_sign
  induction h with
  | word h => simpa [Code.pieces, Allowed] using .inl (by simp [fixedSources, h])
  | literal text => simp [Code.pieces, Allowed]
  | number h => simpa [Code.pieces, Allowed] using h
  | paint h => simpa [Code.pieces, Allowed] using h
  | icon h => simpa [Code.pieces, Allowed] using h
  | entry h hmap => simpa [Code.pieces, Allowed] using ⟨hmap, h⟩
  | named _ hname ih =>
      exact List.forall_mem_cons.mpr ⟨.inl (by simp [fixedSources, hname]),
        List.forall_mem_cons.mpr ⟨hsign (by simp [signs]), ih⟩⟩
  | strings texts =>
      refine forall_enclosed (hsign (by simp [signs])) (hsign (by simp [signs]))
        (forall_commas (hsign (by simp [signs])) ?_)
      simp [Allowed]
  | apply _ hcallee ih =>
      exact List.forall_mem_cons.mpr ⟨.inl (by simp [fixedSources, hcallee]),
        forall_enclosed (hsign (by simp [signs])) (hsign (by simp [signs])) (hcommas ih)⟩
  | setState hscope _ ih =>
      exact List.forall_mem_cons.mpr ⟨.inr ⟨rfl, hscope⟩,
        forall_enclosed (hsign (by simp [signs])) (hsign (by simp [signs])) (hcommas ih)⟩
  | method _ _ _ hname ihreceiver ih =>
      exact List.forall_mem_append.mpr ⟨ihreceiver, List.forall_mem_cons.mpr
        ⟨hsign (by simp [signs]), List.forall_mem_cons.mpr ⟨.inl (by simp [fixedSources, hname]),
          forall_enclosed (hsign (by simp [signs])) (hsign (by simp [signs])) (hcommas ih)⟩⟩⟩
  | orFalse _ ih =>
      refine List.forall_mem_cons.mpr ⟨hsign (by simp [signs]), List.forall_mem_append.mpr ⟨ih, ?_⟩⟩
      simpa only [List.forall_mem_cons] using
        ⟨hsign (by simp [signs]), hsign (by simp [signs]), hsign (by simp [signs]), by simp⟩
  | negated _ ih => exact List.forall_mem_cons.mpr ⟨hsign (by simp [signs]), ih⟩
  | choice _ _ _ ihcondition ihyes ihno =>
      exact List.forall_mem_append.mpr ⟨ihcondition, List.forall_mem_cons.mpr
        ⟨hsign (by simp [signs]), List.forall_mem_append.mpr ⟨ihyes, List.forall_mem_cons.mpr
          ⟨hsign (by simp [signs]), ihno⟩⟩⟩⟩
  | assign _ _ ihtarget ih =>
      exact List.forall_mem_append.mpr
        ⟨ihtarget, List.forall_mem_cons.mpr ⟨hsign (by simp [signs]), ih⟩⟩
  | result _ ih => exact List.forall_mem_cons.mpr ⟨hsign (by simp [signs]), ih⟩
  | call _ hcallee ih =>
      exact List.forall_mem_cons.mpr ⟨.inl (by simp [fixedSources, hcallee]),
        forall_enclosed (hsign (by simp [signs])) (hsign (by simp [signs])) (hparts (by simp [signs]) ih)⟩
  | list _ ih =>
      exact forall_enclosed (hsign (by simp [signs])) (hsign (by simp [signs])) (hparts (by simp [signs]) ih)
  | closure _ hparameters ih =>
      exact List.forall_mem_cons.mpr ⟨.inl (by simp [fixedSources, hparameters]),
        forall_enclosed (hsign (by simp [signs])) (hsign (by simp [signs])) (hparts (by simp [signs]) ih)⟩

end CanvasFlutter.Widget
