import Rowlang.Proofs.Value.Order
import Rowlang.Proofs.Eval.Scope
import Rowlang.Proofs.Eval.Frame
import Rowlang.Proofs.Functions.Resolution
import Rowlang.Proofs.Eval.LeafRows
import Rowlang.Proofs.Eval.Subtotals
import Rowlang.Proofs.Eval.Mapping
import Rowlang.Proofs.Eval.FirstRow
import Rowlang.Proofs.Eval.Termination
import Rowlang.Proofs.Engine.Writing
import Rowlang.Proofs.Json.RoundTrip
import Rowlang.Proofs.Parsing.Guards
import Rowlang.Proofs.Parsing.Termination
import Rowlang.Proofs.Parsing.Nullability
import Rowlang.Proofs.Parsing.Positions
import Rowlang.Proofs.Expr.Height
import Rowlang.Proofs.Expr.Quotation
import Rowlang.Proofs.Grammar.Literals
import Rowlang.Proofs.Grammar.Compiling
import Rowlang.Proofs.Grammar.Printing
import Rowlang.Invocation
import Rowlang.Main
import Rowlang.Proofs.Eval.CallForms
import Rowlang.Proofs.Functions.Formatting
import Rowlang.Proofs.Functions.Wrapping
import Rowlang.Proofs.Parsing.TreeText
import Rowlang.Proofs.Eval.Joining
import Rowlang.Proofs.Parsing.Buffer
import Rowlang.Proofs.Grammar.Requests
import Rowlang.Proofs.Functions.Powers
