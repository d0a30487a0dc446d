import RefCheck.Text.Blank
import RefCheck.Text.Line
import RefCheck.Text.Split
import RefCheck.Text.Word
import RefCheck.Text.Printable
import RefCheck.Text.Digit
import RefCheck.Text.Quoted
import RefCheck.Number.Binary64
import RefCheck.Number.Shortest
import RefCheck.Data.Value
import RefCheck.Data.Display
import RefCheck.Data.Access
import RefCheck.Fault.Basic
import RefCheck.Data.Utf8
import RefCheck.Data.Writer
import RefCheck.Data.Reader
import RefCheck.Comment.Layout
import RefCheck.Reference.Grammar
import RefCheck.Comment.OfValue
import RefCheck.Comment.Mention
import RefCheck.Model.Build
import RefCheck.Model.Origin
import RefCheck.Log.Event
import RefCheck.Trace
import RefCheck.Model.Outline
import RefCheck.Model.OfFile
import RefCheck.Index.Resolve
import RefCheck.Check.Pass
import RefCheck.Settings.Overlay
import RefCheck.Settings.Read
import RefCheck.Yaml.Meaning
import RefCheck.Settings.Sources
import RefCheck.Log.Journal
import RefCheck.Cli.Run
import RefCheck.Main
import RefCheck.Proofs.Model.Tree
import RefCheck.Proofs.Model.Loaded
import RefCheck.Proofs.Model.Embedding
import RefCheck.Proofs.Model.Nodes
import RefCheck.Proofs.Model.Rearranged
import RefCheck.Proofs.Model.Preorder
import RefCheck.Proofs.Model.Readable
import RefCheck.Proofs.Index.Carried
import RefCheck.Proofs.Index.Tables
import RefCheck.Proofs.Index.Distance
import RefCheck.Proofs.Index.Ancestors
import RefCheck.Proofs.Index.Resolution
import RefCheck.Proofs.Reference.Written
import RefCheck.Proofs.Reference.Address
import RefCheck.Proofs.Reference.Forms
import RefCheck.Proofs.Reference.Spelling
import RefCheck.Proofs.Reference.Rendered
import RefCheck.Proofs.Model.Own
import RefCheck.Proofs.Check.Clean
import RefCheck.Proofs.Check.Mentioned
import RefCheck.Proofs.Check.Decides
import RefCheck.Proofs.Check.Verdict
import RefCheck.Proofs.Check.Findings
import RefCheck.Proofs.Check.Accused
import RefCheck.Proofs.Check.Carried
import RefCheck.Proofs.Check.Grown
import RefCheck.Proofs.Check.Reordered
import RefCheck.Proofs.Text.Lines
import RefCheck.Proofs.Comment.Tokens
import RefCheck.Proofs.Comment.Cut
import RefCheck.Proofs.Comment.Sections
import RefCheck.Proofs.Comment.Decorated
import RefCheck.Proofs.Comment.Fences
import RefCheck.Proofs.Comment.Written
import RefCheck.Proofs.Comment.RoundTrip
import RefCheck.Proofs.Comment.Listed
import RefCheck.Proofs.Check.Attribution
import RefCheck.Proofs.Check.Outside
import RefCheck.Proofs.Check.Ending
import RefCheck.Proofs.Check.Labels
import RefCheck.Proofs.Check.Checkable
import RefCheck.Proofs.Check.Composed
import RefCheck.Proofs.Check.Excluding
import RefCheck.Proofs.Model.Misshapen
import RefCheck.Proofs.Model.Blamed
import RefCheck.Proofs.Model.Linked
import RefCheck.Proofs.Index.Shadowed
import RefCheck.Proofs.Check.Fired
import RefCheck.Proofs.Settings.Precedence
import RefCheck.Proofs.Settings.Escapes
import RefCheck.Proofs.Data.Spelled
import RefCheck.Proofs.Cli.Pipeline
import RefCheck.Proofs.Check.Told
import RefCheck.Proofs.Index.Counts
import RefCheck.Proofs.Log.Outputs
import RefCheck.Proofs.Settings.Paths
import RefCheck.Proofs.Settings.Stored
