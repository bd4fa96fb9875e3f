import CanvasFlutter.Proofs.PageSource.Frame
import CanvasFlutter.Proofs.Widget.Reserved

namespace CanvasFlutter

/-!
# `CanvasFlutter.Proofs.PageSource.Declaration` — the classes that a page declares

A page declares its own class, with a constant constructor, and at most the class of its state. The
word that begins a declaration stands nowhere else but for names of icons.

## Contents
- **Declarations.** `Declares`, `DeclaresConst`.
- **Heads.** `OnlyDeclares` says which classes may be declared in tokens; `OnlyDeclares.append`.
- **Pages.** `declaresConst_tokens`, `name_eq_of_declares`.
-/

open Dart Lexer Widget

variable {nodes : List Node} {name other : Text} {ts us : List Token}
  {classes : List (List Token)}

/-! ## Declarations -/

/-- The word that begins a declaration. -/
def classWord : Token := .word "class".toList

/-- The beginning of the declaration of a class that extends another one. -/
def classHead (name : List Token) : List Token := classWord :: (name ++ [.word "extends".toList])

/-- Whether a class of this name is declared; the name of an icon declares nothing. -/
def Declares (name : Text) (ts : List Token) : Prop :=
  ∃ before after, ts = before ++ (classHead (classTokens name) ++ after) ∧ ¬ iconPrefix <:+ before

/-- The tokens of a constant constructor that takes a key only. -/
def constConstructor (name : Text) : List Token :=
  fixed "const" ++ (classTokens name ++ fixed "(\x7bsuper.key\x7d);")

/-- Whether a class of this name is declared and begins with a constant constructor. -/
def DeclaresConst (name : Text) (ts : List Token) : Prop :=
  ∃ before base after, ts = before ++ (classHead (classTokens name)
      ++ (.word base :: .mark ['{'] :: (constConstructor name ++ after)))
    ∧ ¬ iconPrefix <:+ before

/-! ## Heads -/

/-- What may follow the word that begins a declaration: one of these names, if it is no icon. -/
def ClassPlace (classes : List (List Token)) (before : List Token) (t : Token)
    (after : List Token) : Prop :=
  t = classWord → iconPrefix <:+ before ∨ ∃ c ∈ classes, c ++ [.word "extends".toList] <+: after

/-- Whether only classes of these names are declared. -/
def OnlyDeclares (classes : List (List Token)) (ts : List Token) : Prop :=
  AtEach (ClassPlace classes) ts

theorem stable_classPlace (classes : List (List Token)) : Stable (ClassPlace classes) := by
  intro before t after h left right ht
  rcases h ht with hicon | ⟨c, hc, hprefix⟩
  · exact .inl (hicon.trans (List.suffix_append _ _))
  · exact .inr ⟨c, hc, hprefix.trans (List.prefix_append _ _)⟩

theorem OnlyDeclares.append (s t : List Token) (hs : OnlyDeclares classes s)
    (ht : OnlyDeclares classes t) : OnlyDeclares classes (s ++ t) :=
  AtEach.append (stable_classPlace classes) hs ht

theorem onlyDeclares_of_free (h : ∀ t ∈ ts, t ≠ classWord) : OnlyDeclares classes ts :=
  atEach_of_forall fun t ht _ _ heq => absurd heq (h t ht)

theorem onlyDeclares_classHead {c : List Token} (hc : c ∈ classes) (hfree : ∀ t ∈ c, t ≠ classWord)
    : OnlyDeclares classes (classHead c) := by
  have hextends : OnlyDeclares classes [.word "extends".toList] :=
    onlyDeclares_of_free (by decide)
  exact AtEach.cons (stable_classPlace classes) ((onlyDeclares_of_free hfree).append _ _ hextends)
    fun _ => .inr ⟨c, hc, List.prefix_refl _⟩

/-- A class that is declared has one of the names. -/
theorem OnlyDeclares.exists_start (h : OnlyDeclares classes ts) (hname : Declares name ts) :
    ∃ c ∈ classes, ∃ after,
      c ++ [.word "extends".toList] <+: classTokens name ++ .word "extends".toList :: after := by
  obtain ⟨before, after, rfl, hicon⟩ := hname
  rcases h before classWord (classTokens name ++ .word "extends".toList :: after)
    (by simp [classHead]) rfl with hprefix | ⟨c, hc, hprefix⟩
  · exact absurd hprefix hicon
  · exact ⟨c, hc, after, hprefix⟩

/-! ## Pages -/

/-- The classes of a page. -/
def pageClasses (name : Text) : List (List Token) := [classTokens name, [.word (stateName name)]]

/-- Only its frame begins declarations of a page. -/
theorem classWord_ne : (∀ s ∈ memberSources ++ methodSources,
    ∀ t ∈ fixed s, t ≠ classWord) ∧ (∀ m ∈ stateMaps, Token.word m.toList ≠ classWord) := by
  decide +kernel

theorem classWord_not_mem_classTokens (hname : IsClassName name) :
    ∀ t ∈ classTokens name, t ≠ classWord := by
  refine hname.forall_tokens (fun w hw heq => ?_) (by simp [classWord])
  have hending : ¬ "Page".toList <:+ "class".toList := by decide
  exact hending (Token.word.inj heq ▸ hw)

theorem stateName_ne_classWord (name : Text) : Token.word (stateName name) ≠ classWord := by
  simp [stateName, classWord]

theorem onlyDeclares_classTokens (hname : IsClassName name) :
    OnlyDeclares classes (classTokens name) :=
  onlyDeclares_of_free (classWord_not_mem_classTokens hname)

/-- Widgets and seeds name icons only. -/
theorem onlyDeclares_of_made {scope : Scope} {c : Code} (h : Made scope c) :
    OnlyDeclares classes c.tokens := by
  refine h.keeps.imp fun before t after hreference ht => .inl ?_
  have hreserved : classWord ∈ reserved := by decide
  cases hreference (ht ▸ hreserved) with
  | icon hicon => exact hicon
  | entry hmap hword _ _ => exact absurd (hword ▸ ht) (classWord_ne.2 _ hmap)
  | setState hword _ =>
      have hne : Token.word "setState".toList ≠ classWord := by decide
      exact absurd (hword ▸ ht) hne

/-- What stands in a page with state between the constructor of its class and the class of its
state. -/
def stateCreation (name : Text) : List Token :=
  [fixed "@override", fixed "State", [.mark ['<']], classTokens name, fixed "> createState() =>",
    [.word (stateName name)], fixed "();", fixed "\x7d"].flatten

/-- The class of a page's state, from what it extends to its seeds. -/
def stateFields (name : Text) : List Token :=
  [[.word "State".toList, .mark ['<']], classTokens name, fixed "> \x7b",
    fixed "final Map<String, String>", [.word dropdownState.toList], fixed "= \x7b\x7d;",
    fixed "final Map<String, bool>", [.word checkboxState.toList], fixed "= \x7b\x7d;",
    fixed "@override", fixed "void initState() \x7b", fixed "super.initState();"].flatten

theorem fixed_class : fixed "class" = [classWord] := by decide

theorem statelessTokens_eq (name : Text) (build : List Token) : statelessTokens name build
    = fixed materialImport ++ (classHead (classTokens name) ++ (.word "StatelessWidget".toList
      :: .mark ['{'] :: (constConstructor name ++ (build ++ fixed "\x7d")))) := by
  have hextends : fixed "extends StatelessWidget \x7b"
      = [.word "extends".toList, .word "StatelessWidget".toList, .mark ['{']] := by decide +kernel
  simp [statelessTokens, classHead, constConstructor, fixed_class, hextends]

theorem statefulTokens_eq (name : Text) (seeds : List Seed) (build : List Token) :
    statefulTokens name seeds build
      = fixed materialImport ++ (classHead (classTokens name) ++ (.word "StatefulWidget".toList
        :: .mark ['{'] :: (constConstructor name ++ (stateCreation name
          ++ (classHead [.word (stateName name)] ++ (stateFields name
            ++ (seeds.flatMap Seed.tokens ++ (fixed "\x7d" ++ (build ++ fixed "\x7d"))))))))) := by
  have hextends : fixed "extends StatefulWidget \x7b"
      = [.word "extends".toList, .word "StatefulWidget".toList, .mark ['{']] := by decide +kernel
  have hstate : fixed "extends State" = [.word "extends".toList, .word "State".toList] := by
    decide +kernel
  simp [statefulTokens, statefulHead, statefulFrame, classHead, constConstructor, stateCreation,
    stateFields, fixed_class, hextends, hstate]

theorem onlyDeclares_fixed (classes : List (List Token)) :
    ∀ s ∈ memberSources ++ methodSources, OnlyDeclares classes (fixed s) :=
  fun s hs => onlyDeclares_of_free (classWord_ne.1 s hs)

theorem onlyDeclares_constConstructor (hname : IsClassName name) :
    OnlyDeclares classes (constConstructor name) := by
  have hfixed := onlyDeclares_fixed classes
  exact .append _ _ (hfixed _ (by simp [memberSources])) <|
    (onlyDeclares_classTokens hname).append _ _ (hfixed _ (by simp [memberSources]))

theorem onlyDeclares_word {w : Text} (h : .word w ≠ classWord) :
    OnlyDeclares classes [.word w] := onlyDeclares_of_free (by simpa using h)

theorem onlyDeclares_stateCreation (hname : IsClassName name) :
    OnlyDeclares classes (stateCreation name) := by
  have hfixed := onlyDeclares_fixed classes
  simp only [memberSources, List.forall_mem_append, List.forall_mem_cons] at hfixed
  have hangle : OnlyDeclares classes [.mark ['<']] := onlyDeclares_of_free (by decide)
  refine flatten_of OnlyDeclares.append atEach_nil ?_
  simp only [List.forall_mem_cons, hfixed, hangle, onlyDeclares_classTokens hname,
    onlyDeclares_word (stateName_ne_classWord name), true_and]
  simp

theorem onlyDeclares_stateFields (hname : IsClassName name) :
    OnlyDeclares classes (stateFields name) := by
  have hfixed := onlyDeclares_fixed classes
  have hmaps : ∀ m ∈ stateMaps, OnlyDeclares classes [.word m.toList] :=
    fun m hm => onlyDeclares_word (classWord_ne.2 m hm)
  simp only [memberSources, methodSources, List.forall_mem_append, List.forall_mem_cons] at hfixed
  simp only [stateMaps, List.forall_mem_cons] at hmaps
  have hangle : OnlyDeclares classes [.word "State".toList, .mark ['<']] :=
    onlyDeclares_of_free (by decide)
  refine flatten_of OnlyDeclares.append atEach_nil ?_
  simp only [List.forall_mem_cons, hfixed, hmaps, hangle, onlyDeclares_classTokens hname, true_and]
  simp

/-- What a class extends, and its constructor. -/
theorem onlyDeclares_pageClass (hname : IsClassName name) {base : Text}
    (hbase : .word base ≠ classWord) (hrest : OnlyDeclares (pageClasses name) ts) :
    OnlyDeclares (pageClasses name) (fixed materialImport ++ (classHead (classTokens name)
      ++ (.word base :: .mark ['{'] :: (constConstructor name ++ ts)))) := by
  have himport := onlyDeclares_fixed (pageClasses name) materialImport
    (by simp [memberSources])
  have hhead := onlyDeclares_classHead (show classTokens name ∈ pageClasses name by
    simp [pageClasses]) (classWord_not_mem_classTokens hname)
  have hopen : OnlyDeclares (pageClasses name) [.word base, .mark ['{']] :=
    onlyDeclares_of_free (by simpa [classWord] using hbase)
  exact himport.append _ _ (hhead.append _ _ (hopen.append [.word base, .mark ['{']] _
    ((onlyDeclares_constConstructor hname).append _ _ hrest)))

/-- A page declares no classes but its own and that of its state. -/
theorem onlyDeclares_tokens {name : String} (hname : IsClassName name.toList) {scope : Scope}
    (h : ∀ n ∈ Node.preorderAll nodes, Admits scope n) :
    OnlyDeclares (pageClasses name.toList) (PageClass.ofNodes name nodes).tokens := by
  have hfixed := onlyDeclares_fixed (pageClasses name.toList)
  have hmethods : ∀ s ∈ methodSources, OnlyDeclares (pageClasses name.toList) (fixed s) :=
    fun s hs => hfixed s (List.mem_append_right _ hs)
  have hclose : OnlyDeclares (pageClasses name.toList) (fixed "\x7d") :=
    hfixed _ (by simp [memberSources])
  have hbuild := buildTokens_of OnlyDeclares.append hmethods (onlyDeclares_of_made (made_scaffold h))
  have hend := hbuild.append _ _ hclose
  simp only [PageClass.tokens, PageClass.ofNodes]
  cases isStateful nodes with
  | true =>
      have hseeds : OnlyDeclares (pageClasses name.toList) ((seeds nodes).flatMap Seed.tokens) :=
        atEach_flatMap (stable_classPlace _) fun seed hseed =>
          (onlyDeclares_of_made (made_seed h hseed)).append _ _
            (hmethods ";" (by simp [methodSources]))
      have hmem : [.word (stateName name.toList)] ∈ pageClasses name.toList := by
        simp [pageClasses]
      have hstate := onlyDeclares_classHead hmem (by simpa using stateName_ne_classWord _)
      simp only [if_true]
      rw [statefulTokens_eq]
      exact onlyDeclares_pageClass hname (by decide) <|
        (onlyDeclares_stateCreation hname).append _ _ <| hstate.append _ _ <|
          (onlyDeclares_stateFields hname).append _ _ <| hseeds.append _ _ <|
            hclose.append _ _ hend
  | false =>
      simp only [Bool.false_eq_true, if_false]
      rw [statelessTokens_eq]
      exact onlyDeclares_pageClass hname (by decide) hend

/-- **A page declares its class**, and begins it with a constant constructor. -/
theorem declaresConst_tokens (name : String) (nodes : List Node) :
    DeclaresConst name.toList (PageClass.ofNodes name nodes).tokens := by
  have hicon : ¬ iconPrefix <:+ fixed materialImport := by decide +kernel
  simp only [PageClass.tokens, PageClass.ofNodes]
  cases isStateful nodes with
  | true => exact ⟨_, _, _, statefulTokens_eq _ _ _, hicon⟩
  | false => exact ⟨_, _, _, statelessTokens_eq _ _, hicon⟩

/-- A class name is read off the tokens up to what the class extends. -/
theorem eq_of_starts (hname : IsClassName name) (hother : IsClassName other) {after : List Token}
    (h : classTokens other ++ [.word "extends".toList]
      <+: classTokens name ++ .word "extends".toList :: after) : name = other := by
  obtain heq | ⟨digits, -, rfl, heq⟩ := hname.classTokens_eq <;>
    obtain heq' | ⟨digits', -, rfl, heq'⟩ := hother.classTokens_eq <;>
      obtain ⟨rest, hrest⟩ := h <;> simp_all

theorem stateName_not_start (hname : IsClassName name) {after : List Token} :
    ¬ [.word (stateName other)] ++ [.word "extends".toList]
      <+: classTokens name ++ .word "extends".toList :: after := by
  rintro ⟨rest, hrest⟩
  obtain heq | ⟨digits, -, -, heq⟩ := hname.classTokens_eq
  · have hunderscore : name = stateName other := by simp_all
    have hfirst := hname.alphanum '_' (by simp [hunderscore, stateName])
    exact absurd hfirst (by decide)
  · simp_all

/-- **A page declares no class of another page.** -/
theorem name_eq_of_declares {name other : String} (hname : IsClassName name.toList)
    (hother : IsClassName other.toList) {scope : Scope}
    (h : ∀ n ∈ Node.preorderAll nodes, Admits scope n)
    (hdeclares : Declares name.toList (PageClass.ofNodes other nodes).tokens) : name = other := by
  obtain ⟨c, hc, after, hstart⟩ := (onlyDeclares_tokens hother h).exists_start hdeclares
  simp only [pageClasses, List.mem_cons, List.not_mem_nil, or_false] at hc
  rcases hc with rfl | rfl
  · exact String.toList_inj.mp (eq_of_starts hname hother hstart)
  · exact absurd hstart (stateName_not_start hname)

end CanvasFlutter
