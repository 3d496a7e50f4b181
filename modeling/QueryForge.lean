import QueryForge.AlterTable.Dump
import QueryForge.AlterTable.Random
import QueryForge.Binary64.Layout
import QueryForge.Catalog.Dump
import QueryForge.Draw.Choice
import QueryForge.Draw.Sources
import QueryForge.ErrorRegistry.Catalog
import QueryForge.Expr.Dump
import QueryForge.Json.Form
import QueryForge.Json.Reader
import QueryForge.Json.Writer
import QueryForge.Options.Dump
import QueryForge.Select.Random
import QueryForge.Statement
import QueryForge.Proofs.Draw.Ensures
import QueryForge.Proofs.AlterTable.Actions
import QueryForge.Proofs.AlterTable.Drawn
import QueryForge.Proofs.AlterTable.Legality
import QueryForge.Proofs.AlterTable.Registry
import QueryForge.Proofs.Determined
import QueryForge.Proofs.Draw.Answers
import QueryForge.Proofs.Names
import QueryForge.Proofs.Predicate
import QueryForge.Proofs.References
import QueryForge.Proofs.Binary64.Numeral
import QueryForge.Proofs.Select.Acceptance
import QueryForge.Proofs.Select.Built
import QueryForge.Proofs.Select.ClauseFields
import QueryForge.Proofs.Select.Nesting
import QueryForge.Proofs.Select.ScopeSoundness
import QueryForge.Proofs.Window
import QueryForge.Proofs.Unambiguous
import QueryForge.Proofs.Lexemes
import QueryForge.Proofs.Pieces
import QueryForge.Proofs.Select.SelfContained
import QueryForge.Proofs.Skeleton
import QueryForge.Proofs.Quiet
import QueryForge.Proofs.Select.Skeleton
import QueryForge.Proofs.Json.Numerals
import QueryForge.Proofs.Json.ReadBack
import QueryForge.Proofs.Json.Views
import QueryForge.Proofs.Json.Decoders
import QueryForge.Proofs.Json.Bounds
import QueryForge.Proofs.Documents.Catalog
import QueryForge.Proofs.Documents.Window
import QueryForge.Proofs.Documents.Expr
import QueryForge.Proofs.Documents.Select
import QueryForge.Proofs.Documents.AlterTable
import QueryForge.Proofs.Documents.Statement
import QueryForge.Proofs.Documents.Depth
import QueryForge.Proofs.Select.Expressions
import QueryForge.Proofs.Select.Replay
import QueryForge.Proofs.Generation
import QueryForge.Proofs.Select.CteNames
import QueryForge.Proofs.Select.Locking
import QueryForge.Proofs.Select.Chain
import QueryForge.Proofs.Select.Grouping
import QueryForge.Proofs.Select.Shadowing
import QueryForge.Proofs.Select.Verdict
import QueryForge.Proofs.Select.Attachment
import QueryForge.Proofs.Select.Buildable
import QueryForge.Proofs.Select.Decoded
import QueryForge.Proofs.Select.SetOperations
import QueryForge.Proofs.Predicate.Typing
import QueryForge.Proofs.Select.ShownColumns
import QueryForge.Proofs.Select.CteConsistency
import QueryForge.Proofs.AlterTable.Skipping
import QueryForge.Proofs.AlterTable.Reading
import QueryForge.Proofs.ErrorRegistry.Calls
import QueryForge.Proofs.Select.Drafts
import QueryForge.Proofs.Literal.Accepted
import QueryForge.Proofs.Options.Profile
import QueryForge.Proofs.Select.WindowMap
