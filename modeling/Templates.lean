import Templates.Config.File
import Templates.Engine.Basic
import Templates.Markup.Import
import Templates.Program.Render
import Templates.Proofs.Directive.Template
import Templates.Proofs.Directive.Scan
import Templates.Proofs.Directive.Pairing
import Templates.Proofs.Directive.Pass
import Templates.Proofs.Expr.Delimited
import Templates.Proofs.Expr.Grammar
import Templates.Proofs.Expr.Sound
import Templates.Proofs.Expr.Shape
import Templates.Proofs.Expr.Complete
import Templates.Proofs.Expr.Derivation
import Templates.Proofs.Expr.Opaque
import Templates.Proofs.Program.Pieces
import Templates.Proofs.Program.Page
import Templates.Proofs.Expr.Headers
import Templates.Proofs.Program.Artifact
import Templates.Proofs.Program.Lowered
import Templates.Proofs.Program.Steps
import Templates.Proofs.Program.Read
import Templates.Proofs.Program.Written
import Templates.Proofs.Disk.Walk
import Templates.Proofs.Artifact.Key
import Templates.Proofs.Artifact.Shelf
import Templates.Proofs.Engine.Reuse
import Templates.Proofs.Markup.Edit
import Templates.Proofs.Markup.Copy
import Templates.Proofs.Component.Bound
import Templates.Proofs.Component.Session
import Templates.Proofs.Markup.Outermost
import Templates.Proofs.Component.Site
import Templates.Proofs.Component.Expanded
import Templates.Proofs.Component.Pass
import Templates.Proofs.Markup.RoundTrip
import Templates.Proofs.Component.Kept
import Templates.Proofs.Text.Scan
import Templates.Proofs.Layout.Marker
import Templates.Proofs.Layout.Blocks
import Templates.Proofs.Markup.Verbatim
import Templates.Proofs.Layout.Includes
import Templates.Proofs.Layout.Yields
import Templates.Proofs.Echo.Braces
import Templates.Proofs.Directive.Idle
import Templates.Proofs.Engine.Plain
import Templates.Proofs.Engine.Expression
import Templates.Proofs.Markup.Links
import Templates.Proofs.Markup.History
import Templates.Proofs.Program.Runs
import Templates.Proofs.Program.Variables
import Templates.Proofs.Program.Escaped
import Templates.Proofs.Directive.Respaced
import Templates.Proofs.Echo.Markers
import Templates.Proofs.Engine.Identity
import Templates.Proofs.Engine.Nesting
import Templates.Proofs.Engine.Fallback
import Templates.Proofs.Engine.Stored
import Templates.Proofs.Engine.Settings
import Templates.Proofs.Program.Exposed
import Templates.Proofs.Markup.Cursor.Token
import Templates.Proofs.Expr.Ends
import Templates.Proofs.Program.Quoted
import Templates.Proofs.Program.Limit
import Templates.Proofs.Engine.Decoded
import Templates.Proofs.Program.Counted
import Templates.Proofs.Program.Leaving
import Templates.Proofs.Expr.Coalesce
import Templates.Proofs.Expr.Dotted
import Templates.Proofs.Number.Equal
import Templates.Proofs.Expr.Indexed
import Templates.Proofs.Component.Transfer
import Templates.Proofs.Component.Appended
import Templates.Proofs.Engine.Hidden
import Templates.Proofs.Component.Encoded
import Templates.Proofs.Component.Covered
import Templates.Proofs.Engine.Data
import Templates.Proofs.Component.Spared
import Templates.Proofs.Component.Entity
import Templates.Proofs.Markup.Siblings
import Templates.Proofs.Markup.Import
import Templates.Proofs.Artifact.Encoding
import Templates.Proofs.Directive.Adjacent
import Templates.Proofs.Directive.Cursor.Change
import Templates.Proofs.Markup.Cursor.Loop
import Templates.Proofs.Component.Inside
import Templates.Proofs.Component.Commented
import Templates.Proofs.Component.Registered
import Templates.Proofs.Expr.Located
import Templates.Proofs.Program.Located
import Templates.Proofs.Expr.Lossless
import Templates.Proofs.Markup.Preorder
