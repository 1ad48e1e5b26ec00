import Ambient.CommandLine.Run
import Ambient.Doclet.Builder
import Ambient.FileTree
import Ambient.Main
import Ambient.Proofs.Calls
import Ambient.Proofs.CommentBlock
import Ambient.Proofs.FunctionTypedef.Cutting
import Ambient.Proofs.Hidden.Outcome
import Ambient.Proofs.LeftOut
import Ambient.Proofs.Listing
import Ambient.Proofs.Order
import Ambient.Proofs.Printed
import Ambient.Proofs.Representation
import Ambient.Proofs.RoundTrip
import Ambient.Proofs.Surface.Termination
import Ambient.Proofs.Survivors
import Ambient.Proofs.TypeExpr.Bases
import Ambient.Proofs.TypeExpr.Compositional
import Ambient.Proofs.FunctionTypedef.References
import Ambient.Proofs.TypeExpr.Alternatives
import Ambient.Proofs.FunctionTypedef.Printing
import Ambient.Proofs.Written
import Ambient.Proofs.Replaced
import Ambient.Proofs.Added
import Ambient.Proofs.TypeExpr.Cuts
import Ambient.Proofs.TypeExpr.Events
import Ambient.Proofs.TypeExpr.Balance
import Ambient.Proofs.TypeExpr.TypeScript
import Ambient.Proofs.TypeExpr.Phrases
import Ambient.Proofs.TypeExpr.WellFormed
import Ambient.Proofs.TypeExpr.Injective
import Ambient.Proofs.FunctionTypedef.LineBreaks
import Ambient.Proofs.Parameters
import Ambient.Proofs.CommentLines
import Ambient.Proofs.Names.Keys
import Ambient.Proofs.Names.Headers
import Ambient.Proofs.Options
import Ambient.Proofs.CommandLine
import Ambient.Proofs.TypeExpr.Splitting
import Ambient.Proofs.Writing
