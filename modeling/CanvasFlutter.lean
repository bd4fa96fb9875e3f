import CanvasFlutter.Main
import CanvasFlutter.Proofs.PageSource.Blank
import CanvasFlutter.Proofs.PageSource.Prune
import CanvasFlutter.Proofs.PageSource.State
import CanvasFlutter.Proofs.RouteTable.Complete
import CanvasFlutter.Proofs.RouteTable.Frame
import CanvasFlutter.Proofs.RouteTable.Swallow
import CanvasFlutter.Proofs.Command.Effect
import CanvasFlutter.Proofs.Command.Fresh
import CanvasFlutter.Proofs.Command.Tasks
import CanvasFlutter.Proofs.Export.Contents
import CanvasFlutter.Proofs.Workspace.Alike
import CanvasFlutter.Proofs.Route.Least
import CanvasFlutter.Proofs.Export.Unseen
import CanvasFlutter.Proofs.Route.Legal
import CanvasFlutter.Proofs.RouteTable.CodeLine
import CanvasFlutter.Proofs.RouteTable.Imports
import CanvasFlutter.Proofs.RouteTable.Material
import CanvasFlutter.Proofs.RouteTable.Sequence
import CanvasFlutter.Proofs.Workspace.Commute
import CanvasFlutter.Proofs.Export.Order
import CanvasFlutter.Proofs.Canvas.Keys
import CanvasFlutter.Proofs.PageSource.HeaderBar
import CanvasFlutter.Proofs.Widget.Role
import CanvasFlutter.Proofs.Widget.Reading
import CanvasFlutter.Proofs.PageSource.Reading
import CanvasFlutter.Proofs.Widget.Free
import CanvasFlutter.Proofs.Widget.Placement
import CanvasFlutter.Proofs.Widget.Malformed
import CanvasFlutter.Proofs.PageSource.Placement
import CanvasFlutter.Proofs.PageSource.Malformed
import CanvasFlutter.Proofs.Canvas.Positions
import CanvasFlutter.Proofs.Dart.Quoted
import CanvasFlutter.Proofs.PageSource.Slots
import CanvasFlutter.Proofs.Decimal.Digits
import CanvasFlutter.Proofs.Widget.Argument
import CanvasFlutter.Proofs.Widget.MaxLength
import CanvasFlutter.Proofs.Dart.Value
import CanvasFlutter.Proofs.Widget.Dropdown
import CanvasFlutter.Proofs.Dart.Colour
import CanvasFlutter.Proofs.RouteTable.Lexeme
import CanvasFlutter.Proofs.Command.Keeping
import CanvasFlutter.Proofs.Export.Unfinished
import CanvasFlutter.Proofs.Dart.Outdent
import CanvasFlutter.Proofs.RouteTable.Span
import CanvasFlutter.Proofs.Text.Letters
import CanvasFlutter.Proofs.PageSource.Listing
