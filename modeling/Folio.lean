import Folio.Main
import Folio.Proofs.Number.Rounding
import Folio.Proofs.Number.Shortest
import Folio.Proofs.Json.Fields
import Folio.Proofs.Json.Strings
import Folio.Proofs.Json.Reading
import Folio.Proofs.Json.Decimals
import Folio.Proofs.Json.Numbers
import Folio.Proofs.Live.BuiltTrees
import Folio.Proofs.Live.UnknownNames
import Folio.Proofs.Live.ReadBack
import Folio.Proofs.Unit.Lines
import Folio.Proofs.Unit.Execution
import Folio.Proofs.Unit.Mirror
import Folio.Proofs.Document.MarkupNames
import Folio.Proofs.Markdown.Headings
import Folio.Proofs.Markdown.Balance
import Folio.Proofs.Document.TagJoining
import Folio.Proofs.Document.Prelude
import Folio.Proofs.Document.Names
import Folio.Proofs.Document.Execution
import Folio.Proofs.Document.HeadingIds
import Folio.Proofs.Document.Brackets
import Folio.Proofs.Document.Pieces
import Folio.Proofs.Document.Texts
import Folio.Proofs.Document.Nesting
import Folio.Proofs.Document.ErrorLines
import Folio.Proofs.Document.Declarations
import Folio.Proofs.Files.Disk
import Folio.Proofs.Cache.Fingerprint
import Folio.Proofs.Cache.Bucket
import Folio.Proofs.Cache.Session
import Folio.Proofs.Cache.Transparency
import Folio.Proofs.Site.ReadBack
import Folio.Proofs.Live.Reencoding
import Folio.Proofs.Live.Consistency
import Folio.Proofs.Unit.Kinds
import Folio.Proofs.Site.DeclaredNames
import Folio.Proofs.Markdown.FencedCode
import Folio.Proofs.Document.FencedCode
import Folio.Proofs.Files.Below
import Folio.Proofs.Content.Enumeration
import Folio.Proofs.Document.ComponentTags
import Folio.Proofs.Document.Comments
import Folio.Proofs.Cache.Isolation
import Folio.Proofs.Cache.Filling
import Folio.Proofs.Site.Schedule
import Folio.Proofs.Site.Independence
import Folio.Proofs.Tree.Bare
import Folio.Proofs.Unit.Bindings
import Folio.Proofs.Site.Notes
import Folio.Proofs.Files.Parent
import Folio.Proofs.Files.Making
import Folio.Proofs.Content.PayloadFile
import Folio.Proofs.Site.Output
import Folio.Proofs.Unit.History
import Folio.Proofs.Unit.Faults
import Folio.Proofs.Unit.Reach
import Folio.Proofs.Json.Written
import Folio.Proofs.Text.Entities
import Folio.Proofs.Live.TagsAndText
import Folio.Proofs.Document.Entities
import Folio.Proofs.Text.Blank
import Folio.Proofs.Document.Braces
import Folio.Proofs.Document.WrittenTags
import Folio.Proofs.Document.WrittenTokens
import Folio.Proofs.Live.Grouping
import Folio.Proofs.Cache.Storing
import Folio.Proofs.Cache.Writes
import Folio.Proofs.Cache.Healing
import Folio.Proofs.Content.Frontmatter
import Folio.Proofs.Document.Transforms
import Folio.Proofs.Site.Contents
import Folio.Proofs.Settings.Names
import Folio.Proofs.Json.Steps
import Folio.Proofs.Json.StringLists
import Folio.Proofs.Content.Spelling
import Folio.Proofs.Json.Decoding
import Folio.Proofs.Site.PayloadText
import Folio.Proofs.Tree.Written
import Folio.Proofs.Unit.Leaves
import Folio.Proofs.Text.Slugs
import Folio.Proofs.Text.Bytes
import Folio.Proofs.Text.Lines
import Folio.Proofs.Document.JoinedTags
import Folio.Proofs.Document.Segments
