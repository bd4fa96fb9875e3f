import CanvasFlutter.PageSource.Seed

/-!
# `CanvasFlutter.PageSource.Assemble` — the Dart source of a page

The first header bar at the top of a page becomes its app bar; all other nodes are stacked in the
body, later header bars as panels. A page without state is one class, a page with state is a class
and the class of its state.

## Contents
- **App bar.** `defaultAppBar`, `appBar`.
- **Body.** `header?`, `body`, `scaffold`.
- **Classes.** `PageClass`, `PageClass.render`, `assemblePage`.
-/

namespace CanvasFlutter

open CanvasFlutter.Dart Widget

/-- The import of the material library, which every page needs. -/
def materialImport : String := "import 'package:flutter/material.dart';"

/-! ## App bar -/

/-- The app bar of a page without a header bar. -/
def defaultAppBar : Code :=
  .call "AppBar"
    [.named "backgroundColor" (.paint (.color "FF2196f3".toList)),
      .named "title" (.apply "const Text" [.literal ""]), wordArg "centerTitle" "true"]

/-- The app bar that a header bar asks for: its fill and the text of its first label. -/
def appBar (header : Node) : Code :=
  let titleLabel := (header.children.find? (·.kind = .label)).map Attributes.of
  let titleText := (titleLabel.map (·.text "text")).getD ""
  let title :=
    match titleLabel.bind (·.ownPaint? "color") with
    | some (.color color) =>
        Code.call "Text"
          [.literal titleText,
            .named "style" (.call "TextStyle" [.named "color" (.paint (.color color))])]
    | _ => Code.apply "const Text" [.literal titleText]
  let fill := (Attributes.of header).paint "decoration.color"
  let elevationArg := if fill = .transparent then [wordArg "elevation" "0"] else []
  .call "AppBar"
    (.named "backgroundColor" (.paint fill) :: elevationArg
      ++ [.named "title" title, wordArg "centerTitle" "true"])

/-! ## Body -/

/-- The first header bar at the top of a page. -/
def header? (nodes : List Node) : Option Node := nodes.find? (·.kind = .headerBar)

/-- The nodes of a page without its first header bar. -/
def withoutHeader : List Node → List Node
  | [] => []
  | node :: rest => if node.kind = .headerBar then rest else node :: withoutHeader rest

/-- The widget of a node at the top of a page, where a header bar is drawn as a panel. -/
def topWidget (node : Node) : Code := (lower node).getD (lowerAsPanel node)

/-- The widgets of a page's body. -/
def body (nodes : List Node) : List Code := (withoutHeader nodes).map topWidget

/-- The scaffold of a page. -/
def scaffold (nodes : List Node) : Code :=
  let bar :=
    match header? nodes with
    | some header => appBar header
    | none => defaultAppBar
  .call "Scaffold" [.named "appBar" bar, .named "body" (stack (body nodes))]

/-! ## Classes -/

/-- The class of a page. -/
structure PageClass where
  name : String
  /-- The seeds of its state; none for a page without state. -/
  seeds : Option (List Seed)
  scaffold : Code

/-- The method that builds a page. -/
def buildMethod (scaffold : Code) : Text :=
  "  @override\n  Widget build(BuildContext context) \x7b\n    return ".toList
    ++ Layout.indentTail scaffold.render 4 ++ ";\n  \x7d\n".toList

/-- A page without state. -/
def statelessSource (name : String) (build : Text) : Text :=
  (materialImport ++ "\n\n"
    ++ "class " ++ name ++ " extends StatelessWidget \x7b\n"
    ++ "  const " ++ name ++ "(\x7bsuper.key\x7d);\n\n").toList
  ++ build ++ "\x7d\n".toList

/-- A page with state, which starts with the given seeds. -/
def statefulSource (name : String) (seeds : List Seed) (build : Text) : Text :=
  (materialImport ++ "\n\n"
    ++ "class " ++ name ++ " extends StatefulWidget \x7b\n"
    ++ "  const " ++ name ++ "(\x7bsuper.key\x7d);\n\n"
    ++ "  @override\n"
    ++ "  State<" ++ name ++ "> createState() => _" ++ name ++ "State();\n"
    ++ "\x7d\n\n"
    ++ "class _" ++ name ++ "State extends State<" ++ name ++ "> \x7b\n"
    ++ "  final Map<String, String> " ++ dropdownState ++ " = \x7b\x7d;\n"
    ++ "  final Map<String, bool> " ++ checkboxState ++ " = \x7b\x7d;\n\n"
    ++ "  @override\n"
    ++ "  void initState() \x7b\n"
    ++ "    super.initState();\n").toList
  ++ seeds.flatMap (fun seed => "    ".toList ++ seed.statement ++ ['\n'])
  ++ "  \x7d\n\n".toList ++ build ++ "\x7d\n".toList

/-- The source of a page's class. -/
def PageClass.render (page : PageClass) : Text :=
  match page.seeds with
  | some seeds => statefulSource page.name seeds (buildMethod page.scaffold)
  | none => statelessSource page.name (buildMethod page.scaffold)

/-- The class of a page with these nodes. -/
def PageClass.ofNodes (name : String) (nodes : List Node) : PageClass where
  name := name
  seeds := if isStateful nodes then some (CanvasFlutter.seeds nodes) else none
  scaffold := CanvasFlutter.scaffold nodes

/-- The complete Dart source of a page. -/
def assemblePage (name : String) (nodes : List Node) : Text :=
  (PageClass.ofNodes name nodes).render

end CanvasFlutter
