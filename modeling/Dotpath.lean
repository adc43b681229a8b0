import Dotpath.Access
import Dotpath.CommandLine
import Dotpath.Config
import Dotpath.Config.Action
import Dotpath.Config.Edit
import Dotpath.Config.Error
import Dotpath.Decimal
import Dotpath.Decimal.Binary64
import Dotpath.Decimal.Layout
import Dotpath.Decimal.Literal
import Dotpath.Dict
import Dotpath.Env
import Dotpath.Env.Merge
import Dotpath.EnvFile
import Dotpath.EnvFile.Entry
import Dotpath.EnvFile.Line
import Dotpath.EnvFile.Substitution
import Dotpath.EnvFile.Value
import Dotpath.FileName
import Dotpath.Files
import Dotpath.Flat
import Dotpath.Json
import Dotpath.Json.Text
import Dotpath.Node
import Dotpath.Number
import Dotpath.Path
import Dotpath.Path.Grammar
import Dotpath.Startup
import Dotpath.Text.Alphanumeric
import Dotpath.Text.Blank
import Dotpath.Text.Escape
import Dotpath.Text.Ranges
import Dotpath.Text.Split
import Dotpath.Text.Utf8
import Dotpath.Text.Visible
import Dotpath.Typed
import Dotpath.Word
import Dotpath.Yaml
import Dotpath.Yaml.Cursor
import Dotpath.Yaml.Form
import Dotpath.Yaml.Form.Anchors
import Dotpath.Yaml.Form.Grammar
import Dotpath.Yaml.Node
import Dotpath.Yaml.Reading
import Dotpath.Yaml.Scalar
import Dotpath.Yaml.Style
import Dotpath.Yaml.Text
import Dotpath.Yaml.Token
import Dotpath.Yaml.Token.Block
import Dotpath.Yaml.Token.Lexer
import Dotpath.Yaml.Token.Name
import Dotpath.Yaml.Token.Plain
import Dotpath.Yaml.Token.Quoted
import Dotpath.Yaml.Writable
import Dotpath.Yaml.Writing
import Dotpath.Proofs.Access.Faults
import Dotpath.Proofs.Access.Formats
import Dotpath.Proofs.Access.Independent
import Dotpath.Proofs.Access.Overwrite
import Dotpath.Proofs.Access.ReadWrite
import Dotpath.Proofs.Access.Shape
import Dotpath.Proofs.Access.Write
import Dotpath.Proofs.CommandLine.Options
import Dotpath.Proofs.CommandLine.Requests
import Dotpath.Proofs.CommandLine.Spelling
import Dotpath.Proofs.Config.Edits
import Dotpath.Proofs.Config.Outcomes
import Dotpath.Proofs.Config.Persist
import Dotpath.Proofs.Config.RawValue
import Dotpath.Proofs.Decimal.Layout
import Dotpath.Proofs.Decimal.Literal
import Dotpath.Proofs.Decimal.Nearest
import Dotpath.Proofs.Decimal.Rounding
import Dotpath.Proofs.Decimal.Shortest
import Dotpath.Proofs.Decimal.Value
import Dotpath.Proofs.Dict
import Dotpath.Proofs.Env.Merge
import Dotpath.Proofs.Env.SearchList
import Dotpath.Proofs.EnvFile.Alongside
import Dotpath.Proofs.EnvFile.Assignments
import Dotpath.Proofs.EnvFile.Definitions
import Dotpath.Proofs.EnvFile.Expansion
import Dotpath.Proofs.EnvFile.Faults
import Dotpath.Proofs.EnvFile.Isolation
import Dotpath.Proofs.EnvFile.Lines
import Dotpath.Proofs.EnvFile.Literals
import Dotpath.Proofs.EnvFile.Loading
import Dotpath.Proofs.EnvFile.MarkedAssignments
import Dotpath.Proofs.EnvFile.Marking
import Dotpath.Proofs.EnvFile.Marks
import Dotpath.Proofs.EnvFile.Resolution
import Dotpath.Proofs.EnvFile.Scanning
import Dotpath.Proofs.EnvFile.Unchanged
import Dotpath.Proofs.EnvFile.Values
import Dotpath.Proofs.Files
import Dotpath.Proofs.FirstFault
import Dotpath.Proofs.Flat.Guard
import Dotpath.Proofs.Flat.Leaves
import Dotpath.Proofs.Flat.Listing
import Dotpath.Proofs.Flat.Query
import Dotpath.Proofs.Flat.Tags
import Dotpath.Proofs.Flat.Views
import Dotpath.Proofs.Node.Clean
import Dotpath.Proofs.Node.Image
import Dotpath.Proofs.Node.Lawful
import Dotpath.Proofs.Node.Lookup
import Dotpath.Proofs.Node.Maps
import Dotpath.Proofs.Node.Order
import Dotpath.Proofs.Node.Ordered
import Dotpath.Proofs.Node.Slot
import Dotpath.Proofs.Node.Strip
import Dotpath.Proofs.Node.Trees
import Dotpath.Proofs.Path.Grammar
import Dotpath.Proofs.Path.Render
import Dotpath.Proofs.Startup
import Dotpath.Proofs.Text.Utf8
import Dotpath.Proofs.Typed
