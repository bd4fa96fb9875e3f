import CanvasFlutter.Proofs.Canvas.Node
import CanvasFlutter.Proofs.PageSource.Frame
import CanvasFlutter.Proofs.PageSource.Layout
import CanvasFlutter.Proofs.Widget.Reserved

namespace CanvasFlutter

/-!
# `CanvasFlutter.Proofs.PageSource.State` — the state of a page is declared and seeded

The nodes that carry state decide the class of a page, its seeds and what its widgets may refer to.
The three are found by three recursions over the forest; here they are brought together.

## Contents
- **Seeds.** `stateNodes`, `stateMap?`, and the statement of each node (`flatMap_seeds`).
- **Scope.** `stateScope` holds the entries that are seeded; it admits every node.
- **Methods.** The bodies of `initState` and `build`.
- **Pages.** `state_of_compilePages`.
-/

open Dart Lexer Widget

variable {nodes : List Node} {name : Text}

/-! ## Seeds -/

/-- The map that holds the values of a kind. -/
def stateMap? : Kind → Option String
  | .toggleBox => some checkboxState
  | .choiceDropdown => some dropdownState
  | _ => none

theorem isSome_stateMap? (k : Kind) : (stateMap? k).isSome = k.carriesState := by
  cases k <;> rfl

/-- The nodes of a forest that carry state, in document order. -/
def stateNodes (nodes : List Node) : List Node :=
  (Node.preorderAll nodes).filter (·.kind.carriesState)

/-- The token of the value that a node starts with. -/
def startToken (node : Node) : Token :=
  match node.kind with
  | .choiceDropdown => .string (Literal.string (initialChoice node).toList)
  | _ => .word (if (Attributes.of node).flag "checked" then "true" else "false").toList

/-- The statement that sets the entry of a node in the map of its kind. -/
def seedStatement (node : Node) : List Token :=
  match stateMap? node.kind with
  | some map =>
      .word map.toList :: (keyTokens node.stateKey ++ [.mark ['='], startToken node, .mark [';']])
  | none => []

/-- The nodes that carry state have a key. -/
def HasKeys (nodes : List Node) : Prop :=
  ∀ node ∈ Node.preorderAll nodes, node.kind.carriesState = true → node.id.isSome = true

theorem id_of_hasKeys (h : HasKeys nodes) {node : Node} (hnode : node ∈ Node.preorderAll nodes)
    (hstate : node.kind.carriesState = true) : node.id = some node.stateKey := by
  obtain ⟨key, hkey⟩ := Option.isSome_iff_exists.mp (h node hnode hstate)
  simp [Node.stateKey, hkey]

/-- The tokens of an assignment of one token to an entry. -/
theorem tokens_assign {value : Code} {t : Token} (h : value.tokens = [t]) (map key : String) :
    (Code.assign (.entry map key) value).tokens ++ fixed ";"
      = .word map.toList :: (keyTokens key ++ [.mark ['='], t, .mark [';']]) := by
  have hequals : Piece.tokens (.fixed "=") = [.mark ['=']] := by decide
  have hend : fixed ";" = [.mark [';']] := by decide
  have hvalue : value.pieces.flatMap Piece.tokens = [t] := h
  simp only [Code.tokens, Code.pieces, List.flatMap_append, List.flatMap_cons, List.flatMap_nil,
    hvalue, hequals, hend]
  rfl

theorem tokens_seed {node : Node} {seed : Seed} (h : Seed.ofNode? node = some seed) :
    seed.tokens = seedStatement node := by
  unfold Seed.ofNode? at h
  unfold seedStatement startToken
  split at h
  · next hkind =>
      obtain rfl := Option.some.inj h
      rw [hkind]
      exact tokens_assign rfl _ _
  · next hkind =>
      obtain rfl := Option.some.inj h
      rw [hkind]
      have hvalue : ∀ b : Bool, (Code.word (if b then "true" else "false")).tokens
          = [.word (if b then "true" else "false").toList] := by decide
      exact tokens_assign (hvalue _) _ _
  · simp at h

theorem Seed.ofNode?_eq_none_iff {node : Node} :
    Seed.ofNode? node = none ↔ node.kind.carriesState = false := by
  rw [← Seed.isSome_ofNode?]
  cases Seed.ofNode? node <;> simp

/-- The seeds of a forest are the statements of its nodes that carry state, in their order. -/
theorem flatMap_seeds (nodes : List Node) :
    (seeds nodes).flatMap Seed.tokens = (stateNodes nodes).flatMap seedStatement := by
  rw [seeds, stateNodes]
  induction Node.preorderAll nodes with
  | nil => rfl
  | cons node rest ih =>
      cases hseed : Seed.ofNode? node with
      | none => simp [hseed, Seed.ofNode?_eq_none_iff.mp hseed, ih]
      | some seed =>
          have hstate : node.kind.carriesState = true := by
            rw [← Seed.isSome_ofNode?, hseed]
            rfl
          simp [hseed, hstate, ih, tokens_seed hseed]

/-! ## Scope -/

/-- What a page with these nodes may refer to: the entries that it seeds. -/
def stateScope (nodes : List Node) : Scope where
  number _ := True
  entry map key := ∃ node ∈ stateNodes nodes, stateMap? node.kind = some map ∧ node.id = some key
  setState := isStateful nodes = true

theorem mem_stateNodes {node : Node} : node ∈ stateNodes nodes
    ↔ node ∈ Node.preorderAll nodes ∧ node.kind.carriesState = true := by
  simp [stateNodes]

theorem isStateful_of_mem {node : Node} (h : node ∈ stateNodes nodes) :
    isStateful nodes = true := by
  obtain ⟨hnode, hstate⟩ := mem_stateNodes.mp h
  exact List.any_eq_true.mpr ⟨node, hnode, hstate⟩

/-- Whatever is drawn refers to seeded entries only. -/
theorem admits_stateScope (h : HasKeys nodes) {node : Node} (hnode : node ∈ Node.preorderAll nodes) :
    Admits (stateScope nodes) node := by
  have hcarries : ∀ {map}, stateMap? node.kind = some map →
      (stateScope nodes).setState ∧ (stateScope nodes).entry map node.stateKey := by
    intro map hmap
    have hstate : node.kind.carriesState = true := by rw [← isSome_stateMap?, hmap]; rfl
    have hmem := mem_stateNodes.mpr ⟨hnode, hstate⟩
    exact ⟨isStateful_of_mem hmem, node, hmem, hmap, id_of_hasKeys h hnode hstate⟩
  exact ⟨fun _ _ => trivial, trivial, fun _ _ => trivial,
    fun hkind => hcarries (by rw [hkind, stateMap?]), fun hkind => hcarries (by rw [hkind, stateMap?])⟩

/-! ## Methods -/

/-- The names of the methods of a page with state. -/
def methodNames : List Token := [.word "initState".toList, .word "build".toList]

/-- The names of the methods stand in no part before them. -/
theorem not_mem_statefulFrame (hname : IsClassName name) {t : Token} (ht : t ∈ methodNames) :
    t ∉ statefulFrame name := by
  have hfixed : ∀ s ∈ classSources, ∀ u ∈ fixed s, u ∉ methodNames := by decide +kernel
  have hmaps : ∀ m ∈ stateMaps, .word m.toList ∉ methodNames := by decide
  have hstate : .word (stateName name) ∉ methodNames := by simp [methodNames, stateName]
  have hclass : ∀ u ∈ classTokens name, u ∉ methodNames := by
    have hending : ∀ u ∈ methodNames, ∀ w, u = .word w → ¬ "Page".toList <:+ w := by
      simp only [methodNames, List.forall_mem_cons, Token.word.injEq]
      refine ⟨?_, ?_, by simp⟩ <;> rintro w rfl <;> decide
    exact hname.forall_tokens (fun w hw hmem => hending _ hmem w rfl hw) (by simp [methodNames])
  have hfree : ∀ u ∈ statefulFrame name, u ∉ methodNames :=
    statefulFrame_of (Q := fun ts => ∀ u ∈ ts, u ∉ methodNames)
      (fun s t hs ht => List.forall_mem_append.mpr ⟨hs, ht⟩) (by simp) hfixed (by simpa using hmaps)
      hclass (by simpa using hstate)
  exact fun hmem => hfree t hmem ht

theorem tokens_close : fixed "\x7d" = [.mark ['}']] := by decide

theorem methodBody?_initState (hname : IsClassName name) {seeds : List Seed}
    (hseeds : Nested (seeds.flatMap Seed.tokens)) (build : List Token) :
    methodBody? "initState" (statefulTokens name seeds build)
      = some (fixed "super.initState();" ++ seeds.flatMap Seed.tokens) := by
  have hinit : fixed "void initState() \x7b" = [.word "void".toList, .word "initState".toList,
      .mark ['('], .mark [')'], .mark ['{']] := by decide +kernel
  have hsuper : Nested (fixed "super.initState();") := by decide +kernel
  have hbefore : .word "initState".toList ∉ statefulFrame name ++ [.word "void".toList] := by
    have hframe := not_mem_statefulFrame hname (t := .word "initState".toList) (by decide)
    have hvoid : .word "initState".toList ∉ [Token.word "void".toList] := by decide
    simp only [List.mem_append, not_or]
    exact ⟨hframe, hvoid⟩
  have hparameters : .mark ['{'] ∉ [Token.mark ['('], .mark [')']] := by decide
  rw [← methodBody?_eq hbefore hparameters (hsuper.append hseeds) (build ++ fixed "\x7d")]
  simp [statefulTokens, statefulHead, hinit, tokens_close]

/-- What the method that builds a page holds. -/
def buildBody (scaffold : Code) : List Token :=
  .word "return".toList :: (scaffold.tokens ++ [.mark [';']])

theorem nested_buildBody {scaffold : Code} (h : Nested scaffold.tokens) :
    Nested (buildBody scaffold) :=
  (nested_word _).append (h.append (nested_singleton (t := .mark [';']) (by decide) (by decide)))

theorem build_not_mem_seedStatement (node : Node) :
    .word "build".toList ∉ seedStatement node := by
  have hmaps : ∀ m ∈ stateMaps, "build".toList ≠ m.toList := by decide
  have hbool : ∀ b : Bool, "build".toList ≠ (if b then "true" else "false").toList := by decide
  have hvalue : .word "build".toList ≠ startToken node := by
    unfold startToken
    split
    · simp
    · exact fun heq => hbool _ (Token.word.inj heq)
  unfold seedStatement
  split
  · next map hmap =>
      have hmem : map ∈ stateMaps := by
        unfold stateMap? at hmap
        split at hmap <;> simp_all [stateMaps]
      have hword : .word "build".toList ≠ Token.word map.toList := fun heq =>
        hmaps map hmem (Token.word.inj heq)
      simp only [keyTokens, List.mem_cons, List.mem_append, hvalue, hword, List.not_mem_nil,
        reduceCtorEq, or_self, not_false_eq_true]
  · simp

theorem methodBody?_build (hname : IsClassName name) (nodes : List Node) {scaffold : Code}
    (hscaffold : Nested scaffold.tokens) :
    methodBody? "build" (statefulTokens name (seeds nodes) (buildTokens scaffold))
      = some (buildBody scaffold) := by
  have hopen : fixed "@override Widget build(BuildContext context) \x7b return"
      = [.mark ['@'], .word "override".toList, .word "Widget".toList, .word "build".toList,
        .mark ['('], .word "BuildContext".toList, .word "context".toList, .mark [')'], .mark ['{'],
        .word "return".toList] := by decide +kernel
  have hend : fixed "; \x7d" = [.mark [';'], .mark ['}']] := by decide
  have hframe := not_mem_statefulFrame hname (t := .word "build".toList) (by decide)
  have hfixed : ∀ s ∈ ["void initState() \x7b", "super.initState();", "\x7d", "@override Widget"],
      .word "build".toList ∉ fixed s := by decide +kernel
  have hseeds : .word "build".toList ∉ (seeds nodes).flatMap Seed.tokens := by
    rw [flatMap_seeds, List.mem_flatMap]
    exact fun ⟨node, _, hmem⟩ => build_not_mem_seedStatement node hmem
  have hwidget : fixed "@override Widget"
      = [.mark ['@'], .word "override".toList, .word "Widget".toList] := by decide
  have hbefore : .word "build".toList ∉ statefulHead name ++ (seeds nodes).flatMap Seed.tokens
      ++ fixed "\x7d" ++ fixed "@override Widget" := by
    simp only [List.forall_mem_cons] at hfixed
    simp only [statefulHead, List.mem_append, hframe, hseeds, hfixed, or_self, not_false_eq_true]
  have hparameters : .mark ['{'] ∉ [Token.mark ['('], .word "BuildContext".toList,
      .word "context".toList, .mark [')']] := by decide
  rw [← methodBody?_eq hbefore hparameters (nested_buildBody hscaffold) (fixed "\x7d")]
  simp [statefulTokens, buildTokens, buildBody, hopen, hend, hwidget]

/-! ## Pages -/

/-- Each access to the state of a page with these nodes is to an entry that is seeded: the map of a
node of its own kind, under the key of that node. The name of an icon is no access. -/
def ReadsSeeds (nodes : List Node) (body : List Token) : Prop :=
  ∀ before map after, map ∈ stateMaps → body = before ++ .word map.toList :: after →
    iconPrefix <:+ before
      ∨ ∃ node ∈ stateNodes nodes, ∃ key, stateMap? node.kind = some map ∧ node.id = some key
          ∧ keyTokens key <+: after

/-- A page with state seeds the entry of each node that carries state, and reads these only. -/
structure SeedsState (nodes : List Node) (ts : List Token) : Prop where
  extends_stateful : Extends "StatefulWidget" ts
  id_stateNodes : ∀ node ∈ stateNodes nodes, node.id = some node.stateKey
  initState : methodBody? "initState" ts
    = some (fixed "super.initState();" ++ (stateNodes nodes).flatMap seedStatement)
  build : ∃ body, methodBody? "build" ts = some body ∧ ReadsSeeds nodes body

/-- The words of a page's state. -/
def stateWords : List Token :=
  [.word "setState".toList, .word checkboxState.toList, .word dropdownState.toList]

/-- A page without state names nothing of it, but for icons. -/
structure NamesNoState (ts : List Token) : Prop where
  extends_stateless : Extends "StatelessWidget" ts
  names : OnlyIcons stateWords ts

theorem mem_reserved_of_mem_stateMaps : ∀ m ∈ stateMaps, .word m.toList ∈ reserved := by decide

theorem readsSeeds_buildBody {scaffold : Code} (h : Made (stateScope nodes) scaffold) :
    ReadsSeeds nodes (buildBody scaffold) := by
  have hkeeps : Keeps (stateScope nodes) (buildBody scaffold) := by
    have hreturn : ∀ t ∈ [Token.word "return".toList], t ∉ reserved := by decide
    have hend : ∀ t ∈ [Token.mark [';']], t ∉ reserved := by decide
    exact (keeps_of_free hreturn).append (h.keeps.append (keeps_of_free hend))
  intro before map after hmap heq
  have hreference := hkeeps before _ after heq (mem_reserved_of_mem_stateMaps map hmap)
  cases hreference with
  | icon h => exact .inl h
  | @entry found key _ hword hentry hafter =>
      obtain rfl : map = found := String.toList_inj.mp (Token.word.inj hword)
      obtain ⟨node, hnode, hkind, hid⟩ := hentry
      exact .inr ⟨node, hnode, key, hkind, hid, hafter⟩
  | setState hword _ =>
      have hother : ∀ m ∈ stateMaps, m.toList ≠ "setState".toList := by decide
      exact absurd (Token.word.inj hword) (hother map hmap)

theorem seedsState_statefulTokens (hname : IsClassName name) (hkeys : HasKeys nodes)
    {scaffold : Code} (h : Made (stateScope nodes) scaffold) :
    SeedsState nodes (statefulTokens name (seeds nodes) (buildTokens scaffold)) where
  extends_stateful := (extends_statefulTokens hname _ _ _).mpr rfl
  id_stateNodes node hnode := by
    obtain ⟨hmem, hstate⟩ := mem_stateNodes.mp hnode
    exact id_of_hasKeys hkeys hmem hstate
  initState := by
    have hseeds : Nested ((seeds nodes).flatMap Seed.tokens) := nested_flatMap fun seed hseed =>
      nested_seed (made_seed (fun n hn => admits_stateScope hkeys hn) hseed)
    rw [methodBody?_initState hname hseeds, flatMap_seeds]
  build := ⟨_, methodBody?_build hname nodes h.nested, readsSeeds_buildBody h⟩

/-- Without nodes that carry state the scope is empty, and all that is left are icons. -/
theorem iconPrefix_of_reference (hnone : isStateful nodes = false) {before after : List Token}
    {t : Token} (h : Reference (stateScope nodes) before t after) : iconPrefix <:+ before := by
  cases h with
  | icon h => exact h
  | entry _ _ hentry _ =>
      obtain ⟨node, hnode, -⟩ := hentry
      simp [isStateful_of_mem hnode] at hnone
  | setState _ hscope =>
      have hstate : isStateful nodes = true := hscope
      simp [hstate] at hnone

theorem namesNoState_statelessTokens (hname : IsClassName name) (hnone : isStateful nodes = false)
    {scaffold : Code} (h : Made (stateScope nodes) scaffold) :
    NamesNoState (statelessTokens name (buildTokens scaffold)) where
  extends_stateless := (extends_statelessTokens hname _ _).mpr rfl
  names := by
    have hfixed : ∀ s ∈ classSources ++ methodSources, ∀ t ∈ fixed s, t ∉ stateWords := by
      decide +kernel
    have hclass : ∀ t ∈ classTokens name, t ∉ stateWords := by
      have hending : ∀ w ∈ ["setState", checkboxState, dropdownState],
          ¬ "Page".toList <:+ w.toList := by decide +kernel
      refine hname.forall_tokens (fun w hw hmem => ?_) (by simp [stateWords])
      simp only [List.forall_mem_cons] at hending
      simp only [stateWords, List.mem_cons, Token.word.injEq] at hmem
      rcases hmem with rfl | rfl | rfl | hmem
      · exact hending.1 hw
      · exact hending.2.1 hw
      · exact hending.2.2.1 hw
      · simp at hmem
    have hreserved : ∀ t ∈ stateWords, t ∈ reserved := by decide
    have hscaffold : OnlyIcons stateWords scaffold.tokens :=
      h.keeps.imp fun before t after h ht => iconPrefix_of_reference hnone (h (hreserved t ht))
    exact statelessTokens_of OnlyIcons.append atEach_nil
      (fun s hs => onlyIcons_of_free (hfixed s (List.mem_append_left _ hs)))
      (onlyIcons_of_free hclass)
      (buildTokens_of OnlyIcons.append
        (fun s hs => onlyIcons_of_free (hfixed s (List.mem_append_right _ hs))) hscaffold)

/-- A page has the class that its nodes ask for. -/
theorem state_tokens {name : String} (hname : IsClassName name.toList) (hkeys : HasKeys nodes) :
    (isStateful nodes = true → SeedsState nodes (PageClass.ofNodes name nodes).tokens)
      ∧ (isStateful nodes = false → NamesNoState (PageClass.ofNodes name nodes).tokens) := by
  have hscaffold := made_scaffold fun n hn => admits_stateScope hkeys hn
  refine ⟨fun hstate => ?_, fun hnone => ?_⟩
  · simp only [PageClass.tokens, PageClass.ofNodes, hstate, if_true]
    exact seedsState_statefulTokens hname hkeys hscaffold
  · simp only [PageClass.tokens, PageClass.ofNodes, hnone, Bool.false_eq_true, if_false]
    exact namesNoState_statelessTokens hname hnone hscaffold

theorem NamesNoState.not_extends {ts : List Token} (h : NamesNoState ts) :
    ¬ Extends "StatefulWidget" ts := fun hstateful => by
  have heq := hstateful.unique h.extends_stateless
  simp at heq

theorem isStateful_iff (nodes : List Node) : isStateful nodes = true
    ↔ ∃ node ∈ Node.preorderAll nodes, node.kind = .toggleBox ∨ node.kind = .choiceDropdown := by
  have hkind : ∀ k : Kind, k.carriesState = true ↔ k = .toggleBox ∨ k = .choiceDropdown := by
    intro k
    cases k <;> simp [Kind.carriesState]
  simp [isStateful, hkind]

/-- **The state that a page uses is declared and seeded.** The first class of its source is a
stateful widget exactly if a node that carries state stands anywhere in it. Then `initState` seeds
the entry of each such node in document order, and `build` reads no other entries. Otherwise the
class is a stateless widget whose source names no state. -/
theorem state_of_mem_compilePages {canvas : String} {pages : List Page}
    (h : parsePages canvas = .ok pages) {page : Page} {generated : GeneratedPage}
    (hpage : (page, generated) ∈ pages.zip (compilePages pages)) :
    ∃ ts, tokens? generated.source = some ts
      ∧ (Extends "StatefulWidget" ts ↔ ∃ node ∈ Node.preorderAll page.components,
          node.kind = .toggleBox ∨ node.kind = .choiceDropdown)
      ∧ (Extends "StatefulWidget" ts → SeedsState page.components ts)
      ∧ (¬ Extends "StatefulWidget" ts → NamesNoState ts) := by
  obtain ⟨hmem, hroute, hsource⟩ := mem_zip_compilePages hpage
  have hname := isClassName_of_mem_planRoutes hroute
  have hkeys : HasKeys page.components := fun node => isSome_id_of_parsePages h hmem
  obtain ⟨hclosed, -⟩ := closed_assemblePage hname fun n hn => admits_stateScope hkeys hn
  obtain ⟨hstateful, hstateless⟩ := state_tokens hname hkeys
  refine ⟨_, hsource ▸ hclosed.phrase.tokens?, ?_⟩
  rw [← isStateful_iff]
  cases hstate : isStateful page.components with
  | true =>
      have hseeds := hstateful hstate
      exact ⟨iff_of_true hseeds.extends_stateful rfl, fun _ => hseeds,
        fun hnot => absurd hseeds.extends_stateful hnot⟩
  | false =>
      have hnames := hstateless hstate
      exact ⟨iff_of_false hnames.not_extends (by simp), fun hst => absurd hst hnames.not_extends,
        fun _ => hnames⟩

/-- A box to tick in a header bar, where it is not drawn, and a dropdown whose key holds a quote in a
panel. -/
def nestedInputs : String :=
  "[\x7b\"components\":[\x7b\"type\":\"AppBar\",\"children\":[\x7b\"type\":\"Checkbox\"\x7d]\x7d,"
    ++ "\x7b\"type\":\"Container\",\"children\":[\x7b\"type\":\"Dropdown\",\"id\":\"it's\"\x7d]\x7d]\x7d]"

/-- Whether a canvas is one page that carries state in two places. -/
def isTwiceStateful : Except ExportError (List Page) → Bool
  | .ok [page] => (stateNodes page.components).length = 2
  | _ => false

theorem state_of_mem_compilePages_nestedInputs :
    ∃ page generated ts, parsePages nestedInputs = .ok [page]
      ∧ (page, generated) ∈ [page].zip (compilePages [page])
      ∧ (stateNodes page.components).length = 2
      ∧ tokens? generated.source = some ts
      ∧ Extends "StatefulWidget" ts ∧ SeedsState page.components ts := by
  have hcanvas : isTwiceStateful (parsePages nestedInputs) = true := by decide +kernel
  obtain ⟨page, hpages, hlength⟩ : ∃ page, parsePages nestedInputs = .ok [page]
      ∧ (stateNodes page.components).length = 2 := by
    unfold isTwiceStateful at hcanvas
    split at hcanvas
    · next page hpage => exact ⟨page, hpage, by simpa using hcanvas⟩
    · simp at hcanvas
  obtain ⟨generated, hgenerated⟩ : ∃ generated, compilePages [page] = [generated] := ⟨_, rfl⟩
  have hmem : (page, generated) ∈ [page].zip (compilePages [page]) := by simp [hgenerated]
  obtain ⟨ts, hts, hiff, hseeds, -⟩ := state_of_mem_compilePages hpages hmem
  obtain ⟨node, hnode⟩ := List.exists_mem_of_length_pos (l := stateNodes page.components)
    (by omega)
  have hextends := hiff.mpr ((isStateful_iff _).mp (isStateful_of_mem hnode))
  exact ⟨page, generated, ts, hpages, hmem, hlength, hts, hextends, hseeds hextends⟩

end CanvasFlutter
