import LabelPress.Binary.Number
import LabelPress.Binary.Shortest
import LabelPress.Clamp
import LabelPress.CommandLine.Argument
import LabelPress.CommandLine.Flag
import LabelPress.CommandLine.Run
import LabelPress.CommandLine.Task
import LabelPress.CommandLine.Usage
import LabelPress.Element.Basic
import LabelPress.Element.Document
import LabelPress.Failure
import LabelPress.Json.Fault
import LabelPress.Json.Field
import LabelPress.Json.Number
import LabelPress.Json.Printer
import LabelPress.Json.Reader
import LabelPress.Json.Record
import LabelPress.Json.Skip
import LabelPress.Json.Text
import LabelPress.Json.Value
import LabelPress.Label.Basic
import LabelPress.Label.Document
import LabelPress.Label.Edit
import LabelPress.Main
import LabelPress.Named
import LabelPress.Output.Device
import LabelPress.Output.FileSystem
import LabelPress.Output.Files
import LabelPress.Output.Path
import LabelPress.Output.Picture
import LabelPress.Output.Session
import LabelPress.Output.Sink
import LabelPress.Position
import LabelPress.Preview.Canvas
import LabelPress.Preview.Drawing
import LabelPress.Preview.Png
import LabelPress.Preview.Render
import LabelPress.Printer.Config
import LabelPress.Printer.Density
import LabelPress.Printer.FontSize
import LabelPress.Proofs.Binary.Operation
import LabelPress.Proofs.Binary.Order
import LabelPress.Proofs.Binary.Rounding
import LabelPress.Proofs.CommandLine.Run
import LabelPress.Proofs.CommandLine.Task
import LabelPress.Proofs.Document.Element
import LabelPress.Proofs.Document.Field
import LabelPress.Proofs.Document.Fielded
import LabelPress.Proofs.Document.Gap
import LabelPress.Proofs.Document.Integer
import LabelPress.Proofs.Document.Label
import LabelPress.Proofs.Document.Listed
import LabelPress.Proofs.Document.Magnification
import LabelPress.Proofs.Document.Meaning
import LabelPress.Proofs.Document.Record
import LabelPress.Proofs.Document.Repetition
import LabelPress.Proofs.Document.Respelled
import LabelPress.Proofs.Document.RoundTrip
import LabelPress.Proofs.Document.Spelling
import LabelPress.Proofs.Document.Tagged
import LabelPress.Proofs.Document.Truncation
import LabelPress.Proofs.Json.Cutting
import LabelPress.Proofs.Json.Integer
import LabelPress.Proofs.Json.Lexeme
import LabelPress.Proofs.Json.Printing
import LabelPress.Proofs.Json.Range
import LabelPress.Proofs.Json.Reading
import LabelPress.Proofs.Json.Skipping
import LabelPress.Proofs.Json.Slot
import LabelPress.Proofs.Json.Tree
import LabelPress.Proofs.Label.Decoding
import LabelPress.Proofs.Label.Editing
import LabelPress.Proofs.Label.Wire
import LabelPress.Proofs.Output.Files
import LabelPress.Proofs.Output.Session
import LabelPress.Proofs.Output.Sink
import LabelPress.Proofs.Preview.Canvas
import LabelPress.Proofs.Preview.Checked
import LabelPress.Proofs.Preview.Enlarging
import LabelPress.Proofs.Preview.Order
import LabelPress.Proofs.Preview.Painting
import LabelPress.Proofs.Preview.Region
import LabelPress.Proofs.Preview.Size
import LabelPress.Proofs.Preview.Symbol
import LabelPress.Proofs.Printer.Density
import LabelPress.Proofs.Printer.FontSize
import LabelPress.Proofs.Qr.Magnification
import LabelPress.Proofs.Qr.Symbol
import LabelPress.Proofs.Text.Decimal
import LabelPress.Proofs.Text.Lowercase
import LabelPress.Proofs.Text.Trim
import LabelPress.Proofs.Units.Error
import LabelPress.Proofs.Units.Order
import LabelPress.Proofs.Units.RoundTrip
import LabelPress.Proofs.Zpl.Parameter
import LabelPress.Proofs.Zpl.Piece
import LabelPress.Proofs.Zpl.Slot
import LabelPress.Qr.Capacity
import LabelPress.Qr.Codeword
import LabelPress.Qr.Grid
import LabelPress.Qr.Segment
import LabelPress.Qr.Symbol
import LabelPress.Text.Blank
import LabelPress.Text.Decimal
import LabelPress.Text.Hidden
import LabelPress.Text.Lowercase
import LabelPress.Text.Quoted
import LabelPress.Text.Split
import LabelPress.Text.Utf8
import LabelPress.Units
import LabelPress.Zpl.Command
import LabelPress.Zpl.Font
import LabelPress.Zpl.QrSetting
import LabelPress.Zpl.Token
