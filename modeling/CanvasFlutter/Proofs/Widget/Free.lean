import CanvasFlutter.Proofs.Widget.Reserved

namespace CanvasFlutter.Widget

/-!
# `CanvasFlutter.Proofs.Widget.Free` — what a widget is made of without its place

A widget is placed by one of two calls around it. Its own tree calls neither, but for a panel and a
button with an icon, which hold other widgets; so among its tokens the names of the two calls are
names of icons.

## Contents
- **Trees.** `placeNames`, `IsFree`; `Made.onlyIcons`.
- **Widgets.** One lemma for each part that holds no other widget.
-/

open CanvasFlutter.Dart Lexer

/-! ## Trees -/

/-- What is called to give a widget its place. -/
def placeNames : List String := ["Align", "Positioned"]

mutual

/-- Nothing in this tree is given a place. -/
@[simp] def IsFree : Code → Prop
  | .named _ value => IsFree value
  | .apply callee args => callee ∉ placeNames ∧ AllFree args
  | .method receiver _ args => IsFree receiver ∧ AllFree args
  | .orFalse value => IsFree value
  | .negated value => IsFree value
  | .choice condition yes no => IsFree condition ∧ IsFree yes ∧ IsFree no
  | .assign target value => IsFree target ∧ IsFree value
  | .result value => IsFree value
  | .call callee args => callee ∉ placeNames ∧ AllFree args
  | .list items => AllFree items
  | .closure _ body => AllFree body
  | _ => True

/-- Nothing in these trees is given a place. -/
@[simp] def AllFree : List Code → Prop
  | [] => True
  | c :: rest => IsFree c ∧ AllFree rest

end

variable {scope : Scope} {c : Code} {a : Attributes}

theorem allFree_iff (cs : List Code) : AllFree cs ↔ ∀ c ∈ cs, IsFree c := by
  induction cs with
  | nil => simp
  | cons c rest ih => simp [ih]

@[simp] theorem allFree_append (cs ds : List Code) :
    AllFree (cs ++ ds) ↔ AllFree cs ∧ AllFree ds := by
  simp only [allFree_iff, List.forall_mem_append]

@[simp] theorem allFree_namedIfAny (name : String) (value : Option Code) :
    AllFree (Code.namedIfAny name value) ↔ ∀ v ∈ value, IsFree v := by
  cases value <;> simp [Code.namedIfAny]

/-- A tree of listed source names the two in calls only. -/
theorem Made.ne_of_mem_pieces (h : Made scope c) (hfree : IsFree c) :
    ∀ p ∈ c.pieces, ∀ name ∈ placeNames, p ≠ .fixed name := by
  let P : Piece → Prop := fun p => ∀ name ∈ placeNames, p ≠ .fixed name
  have hlisted : ∀ s ∈ words ++ argumentNames ++ methods ++ parameterLists ++ signs,
      s ∉ placeNames := by decide +kernel
  have hfixed : ∀ {s : String}, s ∉ placeNames → P (.fixed s) := by
    rintro s hs name hname heq
    cases heq
    exact hs hname
  have hname : ∀ {s}, s ∈ argumentNames → P (.fixed s) := fun h => hfixed (hlisted _ (by simp [h]))
  have hsign : ∀ {s}, s ∈ signs → P (.fixed s) := fun h => hfixed (hlisted _ (by simp [h]))
  have hrow : ∀ {cs : List Code}, (∀ c ∈ cs, IsFree c → ∀ p ∈ c.pieces, P p) → AllFree cs →
      ∀ row ∈ Code.piecesAll cs, ∀ p ∈ row, P p := by
    intro cs h hfree
    rw [allFree_iff] at hfree
    rw [Code.piecesAll_eq_map, List.forall_mem_map]
    exact fun c hc => h c hc (hfree c hc)
  show ∀ p ∈ c.pieces, P p
  induction h with
  | word h => simpa [Code.pieces] using hfixed (hlisted _ (by simp [h]))
  | literal | number | paint | icon | entry => simp [Code.pieces, P]
  | named _ hargument ih =>
      exact List.forall_mem_cons.mpr ⟨hname hargument,
        List.forall_mem_cons.mpr ⟨hsign (by simp [signs]), ih hfree⟩⟩
  | strings texts =>
      refine forall_enclosed (hsign (by simp [signs])) (hsign (by simp [signs]))
        (forall_commas (hsign (by simp [signs])) ?_)
      simp [P]
  | apply _ hcallee ih =>
      exact List.forall_mem_cons.mpr ⟨hfixed hfree.1,
        forall_enclosed (hsign (by simp [signs])) (hsign (by simp [signs]))
          (forall_commas (hsign (by simp [signs])) (hrow ih hfree.2))⟩
  | setState _ _ ih =>
      exact List.forall_mem_cons.mpr ⟨hfixed hfree.1,
        forall_enclosed (hsign (by simp [signs])) (hsign (by simp [signs]))
          (forall_commas (hsign (by simp [signs])) (hrow ih hfree.2))⟩
  | method _ _ _ hmethod ihreceiver ih =>
      exact List.forall_mem_append.mpr ⟨ihreceiver hfree.1, List.forall_mem_cons.mpr
        ⟨hsign (by simp [signs]), List.forall_mem_cons.mpr ⟨hfixed (hlisted _ (by simp [hmethod])),
          forall_enclosed (hsign (by simp [signs])) (hsign (by simp [signs]))
            (forall_commas (hsign (by simp [signs])) (hrow ih hfree.2))⟩⟩⟩
  | orFalse _ ih =>
      refine List.forall_mem_cons.mpr
        ⟨hsign (by simp [signs]), List.forall_mem_append.mpr ⟨ih hfree, ?_⟩⟩
      simpa only [List.forall_mem_cons] using
        ⟨hsign (by simp [signs]), hsign (by simp [signs]), hsign (by simp [signs]), by simp⟩
  | negated _ ih => exact List.forall_mem_cons.mpr ⟨hsign (by simp [signs]), ih hfree⟩
  | choice _ _ _ ihcondition ihyes ihno =>
      exact List.forall_mem_append.mpr ⟨ihcondition hfree.1, List.forall_mem_cons.mpr
        ⟨hsign (by simp [signs]), List.forall_mem_append.mpr ⟨ihyes hfree.2.1,
          List.forall_mem_cons.mpr ⟨hsign (by simp [signs]), ihno hfree.2.2⟩⟩⟩⟩
  | assign _ _ ihtarget ih =>
      exact List.forall_mem_append.mpr
        ⟨ihtarget hfree.1, List.forall_mem_cons.mpr ⟨hsign (by simp [signs]), ih hfree.2⟩⟩
  | result _ ih => exact List.forall_mem_cons.mpr ⟨hsign (by simp [signs]), ih hfree⟩
  | call _ hcallee ih =>
      exact List.forall_mem_cons.mpr ⟨hfixed hfree.1,
        forall_enclosed (hsign (by simp [signs])) (hsign (by simp [signs]))
          (forall_parts (hsign (by simp [signs])) (hrow ih hfree.2))⟩
  | list _ ih =>
      exact forall_enclosed (hsign (by simp [signs])) (hsign (by simp [signs]))
        (forall_parts (hsign (by simp [signs])) (hrow ih hfree))
  | closure _ hparameters ih =>
      exact List.forall_mem_cons.mpr ⟨hfixed (hlisted _ (by simp [hparameters])),
        forall_enclosed (hsign (by simp [signs])) (hsign (by simp [signs]))
          (forall_parts (hsign (by simp [signs])) (hrow ih hfree))⟩

/-- The two names, as they are read. -/
def placeWords : List Token := placeNames.map fun name => .word name.toList

theorem onlyIcons_fixed : ∀ s ∈ "setState" :: fixedSources, s ∉ placeNames →
    OnlyIcons placeWords (fixed s) := by
  have hfree : ∀ s ∈ "setState" :: fixedSources, s ∉ placeNames →
      ∀ t ∈ lexed s.toList, t ∉ placeWords := by decide +kernel
  exact fun s hs hname => onlyIcons_of_free (hfree s hs hname)

theorem Allowed.onlyIcons {p : Piece} (h : Allowed scope p)
    (hne : ∀ name ∈ placeNames, p ≠ .fixed name) : OnlyIcons placeWords p.tokens := by
  cases p with
  | fixed source =>
      refine onlyIcons_fixed source ?_ fun hname => hne source hname rfl
      rcases h with h | ⟨rfl, -⟩
      · exact List.mem_cons_of_mem _ h
      · exact List.mem_cons_self
  | literal text => exact onlyIcons_of_free (by simp [Piece.tokens, placeWords])
  | number x => exact onlyIcons_of_free (free_number (by decide) (by simp [placeWords]) x)
  | paint p =>
      cases p with
      | transparent => exact onlyIcons_of_free (by decide)
      | color argb =>
          have hsigns : ∀ t ∈ [Token.word "Color".toList, .mark ['('], .mark [')']],
              t ∉ placeWords := by decide
          have hnumber : .number (hexText argb) ∉ placeWords := by simp [placeWords]
          simp only [List.forall_mem_cons] at hsigns
          exact onlyIcons_of_free (by simpa [Piece.tokens, hnumber] using hsigns)
  | icon name => exact onlyIcons_icon (by decide) name
  | entry map key =>
      have hmaps : ∀ map ∈ stateMaps, Token.word map.toList ∉ placeWords := by decide
      have hsigns : .mark ['['] ∉ placeWords ∧ .mark [']'] ∉ placeWords := by decide
      have hkey : .string (Literal.string key.toList) ∉ placeWords := by simp [placeWords]
      exact onlyIcons_of_free (by simpa [Piece.tokens, hkey] using ⟨hmaps map h.1, hsigns⟩)

/-- **Where nothing is placed, the names of the two calls are names of icons.** -/
theorem Made.onlyIcons (h : Made scope c) (hfree : IsFree c) : OnlyIcons placeWords c.tokens :=
  atEach_flatMap (stable_onlyIcons placeWords) fun p hp =>
    (h.allowed p hp).onlyIcons (h.ne_of_mem_pieces hfree p hp)

/-! ## Widgets -/

theorem isFree_borderSide (a : Attributes) : IsFree (borderSide a) := by
  rw [borderSide]
  split <;> simp [BorderLine.args, numberArg, placeNames]

theorem isFree_border (line : BorderLine) : IsFree line.border := by
  simp [BorderLine.border, BorderLine.args, numberArg, placeNames]

theorem isFree_boxDecoration? (a : Attributes) : ∀ c ∈ boxDecoration? a, IsFree c := by
  intro c hc
  rw [boxDecoration?, decoration?] at hc
  split at hc
  · simp at hc
  · obtain rfl := Option.some.inj hc
    simp only [IsFree, allFree_append, allFree_namedIfAny]
    refine ⟨by decide, ⟨?_, by simpa using fun line _ => isFree_border line⟩, ?_⟩
    · split <;> simp
    · split <;> simp [corners, placeNames]

theorem allFree_sizeArgs (a : Attributes) : AllFree (sizeArgs a) := by simp [sizeArgs, numberArg]

theorem isFree_container (a : Attributes) {child : Option Code} (h : ∀ c ∈ child, IsFree c) :
    IsFree (container a (boxDecoration? a) child) := by
  simp only [container, IsFree, allFree_append, allFree_namedIfAny]
  exact ⟨by decide, ⟨allFree_sizeArgs a, isFree_boxDecoration? a⟩, h⟩

theorem isFree_style (style : TextStyle) : IsFree style.code := by
  simp only [TextStyle.code, IsFree, allFree_append, allFree_namedIfAny]
  exact ⟨by decide, ⟨by simp [numberArg], by simp⟩, by simp⟩

theorem isFree_textWidget (content : String) (style : TextStyle) {more : List Code}
    (h : AllFree more) : IsFree (textWidget content style more) := by
  simp [textWidget, placeNames, h, isFree_style]

theorem isFree_label (a : Attributes) : IsFree (label a) := by
  have hcontent : IsFree (textWidget (a.text "text") (TextStyle.of a "fontSize" "color")
      [wordArg "textAlign" (Name.textAlign (a.text "textAlign").toList "TextAlign.start")]) :=
    isFree_textWidget _ _ (by simp [wordArg])
  rw [label]
  split
  · exact isFree_container a (by simpa [center, placeNames] using hcontent)
  · exact hcontent

theorem isFree_navigate (route : String) : IsFree (navigate route) := by
  simp [navigate, placeNames]

theorem isFree_textAction (a : Attributes) : IsFree (textAction a) := by
  unfold textAction
  extract_lets shape style onPressed align content button
  have hpressed : IsFree onPressed := by
    simp only [onPressed]
    split
    · exact isFree_navigate _
    · simp
  have hcontent : IsFree content := isFree_textWidget _ _ (by simp [wordArg])
  simp [button, style, shape, hpressed, hcontent, isFree_borderSide, allFree_sizeArgs, corners,
    wordArg, placeNames]

theorem isFree_inputDecoration (a : Attributes) : IsFree (inputDecoration a) := by
  have hborder : IsFree (inputBorder a) := by
    rw [inputBorder]
    split <;> simp [isFree_borderSide, corners, placeNames]
  unfold inputDecoration
  extract_lets colorStyle border fillArgs
  have hfill : AllFree fillArgs := by
    simp only [fillArgs]
    split <;> simp [wordArg]
  simp [hborder, border, hfill, colorStyle, placeNames]

theorem isFree_textInput (a : Attributes) : IsFree (textInput a) := by
  unfold textInput
  extract_lets inputType multiline linesArgs field heightArg
  have hlines : ∀ c ∈ linesArgs, IsFree c := by
    simp only [linesArgs]
    split <;> simp [wordArg, flagArg]
  have hheight : ∀ c ∈ heightArg, IsFree c := by
    simp only [heightArg]
    split <;> simp [numberArg]
  rw [← allFree_iff] at hlines hheight
  simp [field, hlines, hheight, isFree_style, isFree_inputDecoration, numberArg, wordArg, flagArg,
    placeNames]

theorem isFree_toggleBox (a : Attributes) : IsFree (toggleBox a) := by
  unfold toggleBox
  extract_lets entry value radius shapeArg fill decoration tick box content detector scale
  have hshape : IsFree shapeArg := by
    simp only [shapeArg]
    split <;> simp [wordArg, corners, placeNames]
  have hbox : IsFree box := by
    simp [box, decoration, fill, value, entry, tick, hshape, isFree_border, allFree_sizeArgs,
      numberArg, placeNames]
  have hcontent : IsFree content := by
    simp only [content]
    split
    · exact hbox
    · next text _ =>
        have htext : IsFree (textWidget text (TextStyle.of a "labelFontSize" "labelColor") []) :=
          isFree_textWidget _ _ (by simp)
        simp only [beside]
        split <;> simp [hbox, htext, wordArg, numberArg, placeNames]
  have hdetector : IsFree detector := by
    simp [detector, hcontent, setState, entry, value, placeNames]
  split
  · simp [hdetector, numberArg, wordArg, placeNames]
  · exact hdetector

theorem isFree_choiceDropdown (a : Attributes) : IsFree (choiceDropdown a) := by
  unfold choiceDropdown
  extract_lets current options item items onChanged hint dropdown
  have hdropdown : IsFree dropdown := by
    simp [dropdown, current, options, item, items, onChanged, hint, setState, isFree_style,
      wordArg, placeNames]
  simpa [hdropdown, allFree_sizeArgs, wordArg, placeNames] using isFree_boxDecoration? a

end CanvasFlutter.Widget
