import BlockLowering.Decimal.Double
import BlockLowering.Decimal.Notation
import BlockLowering.Decimal.Shortest
import BlockLowering.Diagnostic.Codec
import BlockLowering.Diagnostic.Record
import BlockLowering.IR.Arena
import BlockLowering.IR.Code
import BlockLowering.IR.Listing
import BlockLowering.IR.TypeScope
import BlockLowering.Json.Decode
import BlockLowering.Json.Reader
import BlockLowering.Json.Value
import BlockLowering.Proofs.ArenaGrowth
import BlockLowering.Proofs.Desugaring
import BlockLowering.Proofs.Diagnostics
import BlockLowering.Proofs.EvaluationOrder
import BlockLowering.Proofs.LoopCondition
import BlockLowering.Proofs.Lowering
import BlockLowering.Proofs.LoweringRules
import BlockLowering.Proofs.Moves
import BlockLowering.Proofs.NamesInForce
import BlockLowering.Proofs.Primitives
import BlockLowering.Proofs.ScopeChain
import BlockLowering.Proofs.Scoping
import BlockLowering.Proofs.Verdicts
import BlockLowering.Proofs.WellFormed
import BlockLowering.Proofs.WellScoped
import BlockLowering.Report.Basic
import BlockLowering.Report.Snippet
import BlockLowering.Report.Source
import BlockLowering.Report.View
import BlockLowering.Session.Code
import BlockLowering.Session.Run
import BlockLowering.Session.State
import BlockLowering.Session.Types
import BlockLowering.Source.Draft
import BlockLowering.Source.Equality
import BlockLowering.Source.Name
import BlockLowering.Source.Node
import BlockLowering.Source.Operator
import BlockLowering.Source.Pattern
import BlockLowering.Source.Traversal
import BlockLowering.Source.Tree
import BlockLowering.Source.TypeExpr
import BlockLowering.Span
import BlockLowering.SymbolTable
import BlockLowering.Text.Bytes
import BlockLowering.Proofs.Invariants
import BlockLowering.Proofs.Lockstep
import BlockLowering.Proofs.Footprint
import BlockLowering.Proofs.ClosedScopes
import BlockLowering.Proofs.Hoisting
import BlockLowering.Proofs.Mirror
import BlockLowering.Proofs.Isolation
import BlockLowering.Proofs.ConservativeHoisting
import BlockLowering.Proofs.Findings
import BlockLowering.Proofs.Reports
import BlockLowering.Proofs.TemporaryNames
import BlockLowering.Proofs.Blanking
import BlockLowering.Proofs.Statements
import BlockLowering.Proofs.Temporaries
import BlockLowering.Proofs.ArenaLinks
import BlockLowering.Proofs.TemporaryText
import BlockLowering.Proofs.Items
import BlockLowering.Proofs.Books
import BlockLowering.Proofs.BlockUses
import BlockLowering.Proofs.Census
import BlockLowering.Proofs.BlockRoles
import BlockLowering.Proofs.BlocksReached
import BlockLowering.Proofs.Attained
import BlockLowering.Proofs.Locality
import BlockLowering.Proofs.Relabelling
import BlockLowering.Proofs.RelabelledRuns
import BlockLowering.Proofs.Renaming
import BlockLowering.Proofs.Places
import BlockLowering.Proofs.ArenaCalls
import BlockLowering.Proofs.FiniteChains
import BlockLowering.Proofs.SealedBlocks
import BlockLowering.Proofs.BuiltinTypes
import BlockLowering.Proofs.PlainForms
import BlockLowering.Proofs.PlainRuns
import BlockLowering.Interner
import BlockLowering.Proofs.Interning
import BlockLowering.Source.Visitor
import BlockLowering.Proofs.Visitors
import BlockLowering.Proofs.Failures
import BlockLowering.Proofs.ListedLines
import BlockLowering.Proofs.ListedTree
import BlockLowering.Proofs.MessageTemplates
import BlockLowering.Proofs.Shadowing
import BlockLowering.Proofs.JsonText
import BlockLowering.Proofs.LogText
import BlockLowering.Proofs.Lookups
import BlockLowering.Proofs.OpenScopes
