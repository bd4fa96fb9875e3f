import CanvasFlutter.Text

/-!
# `CanvasFlutter.Command.Starter` — what a new workspace holds

## Contents
- **Texts.** `lines`, and the text of each file.
- **Files.** `templateFiles`: the template project, by path within its folder.
-/

namespace CanvasFlutter.Starter

/-! ## Texts -/

/-- A text of these lines, each ended by a line feed. -/
def lines (texts : List String) : String := String.join (texts.map (· ++ "\n"))

/-- The configuration of a new workspace. -/
def configText : String := lines [
  "[paths]",
  "template = \"templates/flutter\"",
  "scratch = \"tmp-export\"",
  "canvases = \"canvases\"",
  "",
  "[output]",
  "prefix = \"flutter\"",
  "compression_level = 9"]

/-- What version control leaves out of a new workspace. -/
def ignoreText : String := lines [
  "/tmp-export/"]

/-- The canvas of the room `demo`. -/
def demoCanvas : String := lines [
  "\x7b",
  "  \"pages\": [",
  "    \x7b",
  "      \"name\": \"Home\",",
  "      \"components\": [",
  "        \x7b",
  "          \"type\": \"AppBar\",",
  "          \"decoration\": \x7b \"color\": \"#2196f3\" \x7d,",
  "          \"children\": [\x7b \"type\": \"Text\", \"text\": \"Welcome\", \"color\": \"#ffffff\" \x7d]",
  "        \x7d,",
  "        \x7b",
  "          \"type\": \"Text\",",
  "          \"text\": \"Hello from the canvas\",",
  "          \"top\": 40,",
  "          \"left\": 24,",
  "          \"width\": 240,",
  "          \"height\": 32,",
  "          \"fontSize\": 18",
  "        \x7d,",
  "        \x7b",
  "          \"type\": \"TextButton\",",
  "          \"text\": \"Settings\",",
  "          \"navigateTo\": \"/settings\",",
  "          \"top\": 96,",
  "          \"left\": 24,",
  "          \"width\": 140,",
  "          \"height\": 44,",
  "          \"decoration\": \x7b \"color\": \"#e3f2fd\", \"borderRadius\": 8 \x7d",
  "        \x7d",
  "      ]",
  "    \x7d,",
  "    \x7b",
  "      \"name\": \"Settings\",",
  "      \"components\": [",
  "        \x7b \"type\": \"Checkbox\", \"id\": \"notifications\", \"label\": \"Notifications\", \"top\": 24, \"left\": 24 \x7d,",
  "        \x7b",
  "          \"type\": \"DropdownButton\",",
  "          \"id\": \"theme\",",
  "          \"options\": [\"Light\", \"Dark\"],",
  "          \"top\": 80,",
  "          \"left\": 24,",
  "          \"width\": 160,",
  "          \"height\": 48",
  "        \x7d",
  "      ]",
  "    \x7d",
  "  ]",
  "\x7d"]

/-- The package description of the template project. -/
def pubspecText : String := lines [
  "name: canvas_app",
  "description: Flutter app exported from a canvas.",
  "publish_to: 'none'",
  "version: 1.0.0+1",
  "",
  "environment:",
  "  sdk: '>=3.0.0 <4.0.0'",
  "",
  "dependencies:",
  "  flutter:",
  "    sdk: flutter",
  "",
  "dev_dependencies:",
  "  flutter_test:",
  "    sdk: flutter",
  "  flutter_lints: ^3.0.0",
  "",
  "flutter:",
  "  uses-material-design: true"]

/-- The program of the template project. -/
def mainText : String := lines [
  "import 'package:flutter/material.dart';",
  "",
  "import 'app/routes.dart';",
  "",
  "void main() \x7b",
  "  runApp(const CanvasApp());",
  "\x7d",
  "",
  "class CanvasApp extends StatelessWidget \x7b",
  "  const CanvasApp(\x7bsuper.key\x7d);",
  "",
  "  @override",
  "  Widget build(BuildContext context) \x7b",
  "    return MaterialApp(",
  "      title: 'Canvas App',",
  "      debugShowCheckedModeBanner: false,",
  "      initialRoute: appRoutes.keys.isEmpty ? '/' : appRoutes.keys.first,",
  "      routes: appRoutes,",
  "      onUnknownRoute: (settings) => MaterialPageRoute(",
  "        builder: (context) => const Scaffold(",
  "          body: Center(child: Text('Page not found')),",
  "        ),",
  "      ),",
  "    );",
  "  \x7d",
  "\x7d"]

/-- The routes of the template project, with an empty table. -/
def routesText : String := lines [
  "import 'package:flutter/material.dart';",
  "",
  "final Map<String, WidgetBuilder> appRoutes = \x7b",
  "\x7d;"]

/-! ## Files -/

/-- The files of the template project. -/
def templateFiles : List (String × String) := [
  ("pubspec.yaml", pubspecText),
  ("lib/main.dart", mainText),
  ("lib/app/routes.dart", routesText)]

end CanvasFlutter.Starter
