import Waymark.Main
import Waymark.Project.Relevance
import Waymark.Routing.Dump
import Waymark.Routing.Gateway
import Waymark.Proofs.Text.Encoding
import Waymark.Proofs.Text.Splitting
import Waymark.Proofs.Scan.Contribution
import Waymark.Proofs.Scan.Walk
import Waymark.Proofs.Routing.FirstClaims
import Waymark.Proofs.Scan.Discovery
import Waymark.Proofs.Routing.Pattern
import Waymark.Proofs.Routing.Middleware
import Waymark.Proofs.Scan.Placement
import Waymark.Proofs.Generate.MiddlewareChain
import Waymark.Proofs.Routing.PathIndex.Token
import Waymark.Proofs.Routing.PathIndex.Shape
import Waymark.Proofs.Routing.PathIndex.Search
import Waymark.Proofs.Routing.PathIndex.Growth
import Waymark.Proofs.Routing.PathIndex.Walk
import Waymark.Proofs.Routing.PathIndex.Insert
import Waymark.Proofs.Routing.PathIndex.Normal
import Waymark.Proofs.Routing.Component
import Waymark.Proofs.Routing.Mount
import Waymark.Proofs.Routing.Matching
import Waymark.Proofs.Text.Bindings
import Waymark.Proofs.Routing.ChainPattern
import Waymark.Proofs.Routing.ChainLanguage
import Waymark.Proofs.Routing.PatternOrder
import Waymark.Proofs.Routing.Precedence
import Waymark.Proofs.Routing.MountOrder
import Waymark.Proofs.Routing.Calls
import Waymark.Proofs.Text.Replacing
import Waymark.Proofs.Scan.Address
import Waymark.Proofs.Source.TextLiteral
import Waymark.Proofs.Generate.Statement
import Waymark.Proofs.Source.Tokens
import Waymark.Proofs.Source.Parts
import Waymark.Proofs.Generate.SnakeCase
import Waymark.Proofs.Generate.Names
import Waymark.Proofs.Generate.Reading
import Waymark.Proofs.Generate.ReadBack
import Waymark.Proofs.Generate.Registering
import Waymark.Proofs.Generate.Registrations
import Waymark.Proofs.Source.Extent
import Waymark.Proofs.Source.Pieces
import Waymark.Proofs.Source.Rows
import Waymark.Proofs.Source.Items
import Waymark.Proofs.Source.Signs
import Waymark.Proofs.Source.Shape
import Waymark.Proofs.Source.Cut
import Waymark.Proofs.Source.Repeating
import Waymark.Proofs.Source.Carrying
import Waymark.Proofs.Source.Grammar.Known
import Waymark.Proofs.Source.Grammar.Types
import Waymark.Proofs.Source.Grammar.Patterns
import Waymark.Proofs.Source.Grammar.Expressions
import Waymark.Proofs.Source.Grammar.Functions
import Waymark.Proofs.Source.Grammar.Items
import Waymark.Proofs.Source.Grammar.Depth
import Waymark.Proofs.Source.ItemRuns
import Waymark.Proofs.Source.Grammar.Alone
import Waymark.Proofs.Source.Endings
import Waymark.Proofs.Source.Edges
import Waymark.Proofs.Source.Nesting
import Waymark.Proofs.Source.Rereading
import Waymark.Proofs.Source.Spots
import Waymark.Proofs.Source.Extraction
import Waymark.Proofs.Scan.Origin
import Waymark.Proofs.Generate.Blocks
import Waymark.Proofs.Handling.Operations
import Waymark.Proofs.Routing.Exits
import Waymark.Proofs.Routing.OneResponse
import Waymark.Proofs.Routing.Meeting
import Waymark.Proofs.Generate.Mounting
import Waymark.Proofs.Scan.Complaints
import Waymark.Proofs.Scan.Accounting
import Waymark.Proofs.Generate.Accounting
import Waymark.Proofs.Routing.Spelling
import Waymark.Proofs.Routing.ChainAgreement
import Waymark.Proofs.Scan.Agreement
import Waymark.Proofs.Generate.Rearranging
import Waymark.Proofs.Disk.Paths
import Waymark.Proofs.Disk.Standing
import Waymark.Proofs.Disk.Following
import Waymark.Proofs.Disk.Making
import Waymark.Proofs.Scan.Undisturbed
import Waymark.Proofs.Generate.Writing
import Waymark.Proofs.Disk.Below
import Waymark.Proofs.Generate.Destination
import Waymark.Proofs.Project.Regenerating
import Waymark.Proofs.Routing.Kinds
import Waymark.Proofs.Routing.AnyOrder
import Waymark.Proofs.Routing.Parameters
import Waymark.Proofs.Routing.PathIndex.Refusal
import Waymark.Proofs.Routing.PathIndex.Provenance
import Waymark.Proofs.Routing.Handled
import Waymark.Proofs.Routing.Fate
import Waymark.Proofs.Routing.Proxy
import Waymark.Proofs.Routing.BasePattern
import Waymark.Proofs.Generate.LayoutChain
import Waymark.Proofs.Routing.Rendering
import Waymark.Proofs.Project.Refusal
import Waymark.Proofs.Scan.Pruning
import Waymark.Proofs.Generate.Allocation
import Waymark.Proofs.Routing.Scope
import Waymark.Proofs.Routing.Rejection
import Waymark.Proofs.Routing.MountReport
import Waymark.Proofs.Generate.ModuleNames
import Waymark.Proofs.Scan.Scopes
import Waymark.Proofs.Source.Offsets
import Waymark.Proofs.Routing.Census
import Waymark.Proofs.Source.Acceptance
import Waymark.Proofs.Generate.RegisteringTrees
import Waymark.Proofs.Generate.RegisteringItems
import Waymark.Proofs.Generate.RegisteringFile
import Waymark.Proofs.Source.Excerpt
import Waymark.Proofs.Generate.FunctionsFile
import Waymark.Proofs.Generate.WellFormed
