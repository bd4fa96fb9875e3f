import CanvasFlutter.PageSource.Compile
import CanvasFlutter.Proofs.Dart.Class
import CanvasFlutter.Proofs.PageSource.Tokens

namespace CanvasFlutter

/-!
# `CanvasFlutter.Proofs.PageSource.Frame` — what a page's frame is made of

Around its seeds and its scaffold a page is fixed source and the names of its classes. What holds of
these holds of every token of the frame.

## Contents
- **Words.** `memberSources`, `classSources`, `methodSources`; `forall_statefulFrame` and the like.
- **Classes and methods.** What the first class of a page extends, and the bodies of its methods.
- **Pages.** `mem_zip_compilePages`.
-/

open Dart Lexer Widget

variable {nodes : List Node} {name : Text} {Q : List Token → Prop}

/-! ## Words -/

/-- The fixed source around the methods of a page's classes, but for the word that begins them. -/
def memberSources : List String :=
  [materialImport, "extends StatelessWidget \x7b", "extends StatefulWidget \x7b", "const",
    "(\x7bsuper.key\x7d);", "@override", "State", "<", "> createState() =>", "();", "\x7d",
    "extends State", "> \x7b", "final Map<String, String>", "= \x7b\x7d;",
    "final Map<String, bool>"]

/-- The fixed source around the methods of a page's classes. -/
def classSources : List String := "class" :: memberSources

/-- The fixed source of its methods. -/
def methodSources : List String :=
  ["void initState() \x7b", "super.initState();", ";",
    "@override Widget build(BuildContext context) \x7b return", "; \x7d"]

/-- What holds of rows, and of two rows put together, holds of all rows put together. -/
theorem flatten_of (happend : ∀ s t, Q s → Q t → Q (s ++ t)) (hnil : Q []) {rows : List (List Token)}
    (h : ∀ row ∈ rows, Q row) : Q rows.flatten := by
  induction rows with
  | nil => exact hnil
  | cons row rows ih => exact happend _ _ (h row (by simp)) (ih fun r hr => h r (by simp [hr]))

/-- What holds of the parts of a page with state up to its methods holds of all of it. -/
theorem statefulFrame_of (happend : ∀ s t, Q s → Q t → Q (s ++ t)) (hnil : Q [])
    (hfixed : ∀ s ∈ classSources, Q (fixed s)) (hmaps : ∀ m ∈ stateMaps, Q [.word m.toList])
    (hclass : Q (classTokens name)) (hstate : Q [.word (stateName name)]) :
    Q (statefulFrame name) := by
  have hangle : Q [.mark ['<']] :=
    show fixed "<" = [.mark ['<']] by decide ▸ hfixed "<" (by simp [classSources, memberSources])
  simp only [classSources, memberSources, List.forall_mem_cons] at hfixed
  simp only [stateMaps, List.forall_mem_cons] at hmaps
  refine flatten_of happend hnil ?_
  simp only [List.forall_mem_cons, hfixed, hmaps, hangle, hclass, hstate, true_and]
  simp

/-- What holds of the parts of a page without state holds of all of it. -/
theorem statelessTokens_of (happend : ∀ s t, Q s → Q t → Q (s ++ t)) (hnil : Q [])
    (hfixed : ∀ s ∈ classSources, Q (fixed s)) (hclass : Q (classTokens name))
    {build : List Token} (hbuild : Q build) : Q (statelessTokens name build) := by
  simp only [classSources, memberSources, List.forall_mem_cons] at hfixed
  refine flatten_of happend hnil ?_
  simp only [List.forall_mem_cons, hfixed, hclass, hbuild, true_and]
  simp

/-- What holds of the method that builds a page. -/
theorem buildTokens_of (happend : ∀ s t, Q s → Q t → Q (s ++ t))
    (hmethods : ∀ s ∈ methodSources, Q (fixed s)) {scaffold : Code} (h : Q scaffold.tokens) :
    Q (buildTokens scaffold) :=
  happend _ _ (happend _ _ (hmethods _ (by simp [methodSources])) h)
    (hmethods _ (by simp [methodSources]))

/-- Around its scaffold a page is made of fixed source, names of classes and seeds. -/
theorem exists_around_scaffold {name : String} (happend : ∀ s t, Q s → Q t → Q (s ++ t))
    (hnil : Q []) (hfixed : ∀ s ∈ classSources ++ methodSources, Q (fixed s))
    (hmaps : ∀ m ∈ stateMaps, Q [.word m.toList]) (hclass : Q (classTokens name.toList))
    (hstate : Q [.word (stateName name.toList)])
    (hseeds : ∀ seed ∈ seeds nodes, Q seed.code.tokens) :
    ∃ front back, Q front ∧ Q back
      ∧ (PageClass.ofNodes name nodes).tokens = front ++ (scaffold nodes).tokens ++ back := by
  have hmethods : ∀ s ∈ methodSources, Q (fixed s) := fun s hs =>
    hfixed s (List.mem_append_right _ hs)
  have hfixed : ∀ s ∈ classSources, Q (fixed s) := fun s hs => hfixed s (List.mem_append_left _ hs)
  have hopen := hmethods "@override Widget build(BuildContext context) \x7b return"
    (by simp [methodSources])
  have hend := hmethods "; \x7d" (by simp [methodSources])
  have hclose : Q (fixed "\x7d") := hfixed _ (by simp [classSources, memberSources])
  simp only [PageClass.tokens, PageClass.ofNodes, buildTokens]
  cases isStateful nodes with
  | true =>
      have hframe := statefulFrame_of happend hnil hfixed hmaps hclass hstate
      have hhead : Q (statefulHead name.toList) :=
        happend _ _ (happend _ _ hframe (hmethods _ (by simp [methodSources])))
          (hmethods _ (by simp [methodSources]))
      have hseeds : Q ((seeds nodes).flatMap Seed.tokens) := by
        refine flatten_of happend hnil fun row hrow => ?_
        obtain ⟨seed, hseed, rfl⟩ := List.mem_map.mp hrow
        exact happend _ _ (hseeds seed hseed) (hmethods ";" (by simp [methodSources]))
      refine ⟨_, _, happend _ _ (happend _ _ (happend _ _ hhead hseeds) hclose) hopen,
        happend _ _ hend hclose, ?_⟩
      simp only [if_true, statefulTokens, List.append_assoc]
  | false =>
      have hhead : Q [fixed materialImport, fixed "class", classTokens name.toList,
          fixed "extends StatelessWidget \x7b", fixed "const", classTokens name.toList,
          fixed "(\x7bsuper.key\x7d);"].flatten := by
        simp only [classSources, memberSources, List.forall_mem_cons] at hfixed
        refine flatten_of happend hnil ?_
        simp only [List.forall_mem_cons, hfixed, hclass, true_and]
        simp
      refine ⟨_, _, happend _ _ hhead hopen, happend _ _ hend hclose, ?_⟩
      simp only [Bool.false_eq_true, if_false, statelessTokens, List.flatten_cons, List.flatten_nil,
        List.append_assoc, List.append_nil]

/-- What holds of the parts of a page, and of rows put together, holds of the page. -/
theorem tokens_of {name : String} (happend : ∀ s t, Q s → Q t → Q (s ++ t)) (hnil : Q [])
    (hfixed : ∀ s ∈ classSources ++ methodSources, Q (fixed s))
    (hmaps : ∀ m ∈ stateMaps, Q [.word m.toList]) (hclass : Q (classTokens name.toList))
    (hstate : Q [.word (stateName name.toList)]) (hseeds : ∀ seed ∈ seeds nodes, Q seed.code.tokens)
    (hscaffold : Q (scaffold nodes).tokens) : Q (PageClass.ofNodes name nodes).tokens := by
  obtain ⟨front, back, hfront, hback, heq⟩ :=
    exists_around_scaffold happend hnil hfixed hmaps hclass hstate hseeds
  exact heq ▸ happend _ _ (happend _ _ hfront hscaffold) hback

/-! ## Classes and methods -/

/-- What a class name holds is no word that lacks the ending of class names, and no sign. -/
theorem IsClassName.forall_tokens {P : Token → Prop} (hname : IsClassName name)
    (hword : ∀ w, "Page".toList <:+ w → P (.word w)) (hnumber : ∀ digits, P (.number digits)) :
    ∀ t ∈ classTokens name, P t := by
  obtain heq | ⟨digits, -, -, heq⟩ := hname.classTokens_eq
  · simpa [heq] using hword name hname.ending
  · simpa [heq] using ⟨hnumber digits, hword _ (List.suffix_refl _)⟩

/-- The tokens of a page up to what its class extends. -/
def classHeader (name : Text) : List Token :=
  fixed materialImport ++ fixed "class" ++ classTokens name

theorem brace_not_mem_classHeader (hname : IsClassName name) :
    .mark ['{'] ∉ classHeader name := by
  have hfixed : .mark ['{'] ∉ fixed materialImport ∧ .mark ['{'] ∉ fixed "class" := by decide
  have hclass := hname.forall_tokens (P := (· ≠ .mark ['{'])) (by simp) (by simp)
  simp only [classHeader, List.mem_append, not_or]
  exact ⟨⟨hfixed.1, hfixed.2⟩, fun h => hclass _ h rfl⟩

theorem extends_statelessTokens (hname : IsClassName name) (build : List Token) (base : String) :
    Extends base (statelessTokens name build) ↔ base.toList = "StatelessWidget".toList := by
  have hextends : fixed "extends StatelessWidget \x7b"
      = [.word "extends".toList, .word "StatelessWidget".toList, .mark ['{']] := by decide
  rw [← extends_iff (brace_not_mem_classHeader hname) (fixed "const" ++ (classTokens name
    ++ (fixed "(\x7bsuper.key\x7d);" ++ (build ++ fixed "\x7d"))))]
  simp [statelessTokens, classHeader, hextends]

theorem extends_statefulTokens (hname : IsClassName name) (seeds : List Seed) (build : List Token)
    (base : String) :
    Extends base (statefulTokens name seeds build) ↔ base.toList = "StatefulWidget".toList := by
  have hextends : fixed "extends StatefulWidget \x7b"
      = [.word "extends".toList, .word "StatefulWidget".toList, .mark ['{']] := by decide
  obtain ⟨after, hafter⟩ : ∃ after, statefulTokens name seeds build = classHeader name
      ++ [.word "extends".toList, .word "StatefulWidget".toList] ++ .mark ['{'] :: after := by
    simp only [statefulTokens, statefulHead, statefulFrame, List.flatten_cons, classHeader, hextends,
      List.append_assoc, List.cons_append, List.nil_append, List.append_cancel_left_eq]
    exact ⟨_, rfl⟩
  rw [hafter, extends_iff (brace_not_mem_classHeader hname)]

/-! ## Pages -/

/-- The page that is generated for a page of a canvas. -/
theorem mem_zip_compilePages {pages : List Page} {page : Page} {generated : GeneratedPage}
    (h : (page, generated) ∈ pages.zip (compilePages pages)) :
    page ∈ pages ∧ generated.route ∈ planRoutes pages
      ∧ generated.source = assemblePage generated.route.className page.components := by
  have hzip : ∀ {routes : List Route} {pages : List Page},
      (page, generated) ∈ pages.zip (List.zipWith
        (fun route page => ⟨route, assemblePage route.className page.components⟩) routes pages) →
      page ∈ pages ∧ generated.route ∈ routes
        ∧ generated.source = assemblePage generated.route.className page.components := by
    intro routes pages h
    induction routes generalizing pages with
    | nil => simp at h
    | cons route routes ih =>
        cases pages with
        | nil => simp at h
        | cons first pages =>
            rw [List.zipWith_cons_cons, List.zip_cons_cons, List.mem_cons] at h
            rcases h with heq | h
            · obtain ⟨rfl, rfl⟩ := Prod.mk.inj heq
              exact ⟨List.mem_cons_self, List.mem_cons_self, rfl⟩
            · obtain ⟨hpage, hroute, hsource⟩ := ih h
              exact ⟨List.mem_cons_of_mem _ hpage, List.mem_cons_of_mem _ hroute, hsource⟩
  exact hzip h

end CanvasFlutter
