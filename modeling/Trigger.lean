import Trigger.Config.Reading
import Trigger.Helper.Standard
import Trigger.Session
import Trigger.World.Scripted
import Trigger.Proofs.Parser.Language
import Trigger.Proofs.Parser.Reading
import Trigger.Proofs.Expr.Derivation
import Trigger.Proofs.Expr.Exact
import Trigger.Proofs.Expr.Nesting
import Trigger.Proofs.World.Steady
import Trigger.Proofs.Cache.History
import Trigger.Proofs.Cache.Tiers
import Trigger.Proofs.Token.Spelling
import Trigger.Proofs.Cache.Rejected
import Trigger.Proofs.Expr.Nodes
import Trigger.Proofs.Token.Separators
import Trigger.Proofs.World.Related
import Trigger.Proofs.Cache.Names
import Trigger.Proofs.Expr.Canonical
import Trigger.Proofs.Number.Plain
import Trigger.Proofs.Expr.RoundTrip
import Trigger.Proofs.Context.Resolution
import Trigger.Proofs.Cache.Counters
import Trigger.Proofs.Cache.Sharing
import Trigger.Proofs.Shape.Acceptance
import Trigger.Proofs.Token.Positions
import Trigger.Proofs.Expr.Excess
import Trigger.Proofs.World.Trace
import Trigger.Proofs.Shape.Squared
import Trigger.Proofs.World.Journal
import Trigger.Proofs.Expr.Chains
import Trigger.Proofs.Cache.Laziness
import Trigger.Proofs.Helper.Finders
import Trigger.Proofs.Helper.Radius
import Trigger.Proofs.Value.Equality
import Trigger.Proofs.Value.Order
import Trigger.Proofs.Value.NumberText
import Trigger.Proofs.Expr.TrailingComment
import Trigger.Proofs.Token.Encoding
import Trigger.Proofs.Parser.Repetition
import Trigger.Proofs.World.Indexing
import Trigger.Proofs.Shape.Levels
import Trigger.Proofs.Parser.Depth
import Trigger.Proofs.Parser.Local
import Trigger.Proofs.Expr.Size
import Trigger.Proofs.Config.Fields
