import ExprTree.Session.Run
import ExprTree.Node.Teardown
import ExprTree.Subscriber
import ExprTree.Proofs.Evaluation.Agreement
import ExprTree.Proofs.Evaluation.Accounting
import ExprTree.Proofs.Evaluation.Order
import ExprTree.Proofs.Evaluation.Isolation
import ExprTree.Proofs.Evaluation.Peaks
import ExprTree.Proofs.Literal.Rounding
import ExprTree.Proofs.Literal.Grammar
import ExprTree.Proofs.Literal.Significant
import ExprTree.Proofs.Literal.RoundTrip
import ExprTree.Proofs.Decimal.Grid
import ExprTree.Proofs.Decimal.Fewest
import ExprTree.Proofs.Decimal.Layout
import ExprTree.Proofs.Slots.Client
import ExprTree.Proofs.Slots.Accounts
import ExprTree.Proofs.Slots.LastWritten
import ExprTree.Proofs.Node.PreOrder
import ExprTree.Proofs.Node.Description
import ExprTree.Proofs.Report.Log
import ExprTree.Proofs.Assembly.Parameters
import ExprTree.Proofs.Node.Detached
import ExprTree.Proofs.Node.Release
import ExprTree.Proofs.Evaluation.Substitution
import ExprTree.Proofs.Binary64.Truth
import ExprTree.Proofs.Standard.Formula
import ExprTree.Proofs.Binary64.Order
import ExprTree.Proofs.Standard.Comparison
import ExprTree.Proofs.Binary64.Remainder
import ExprTree.Proofs.Report.Subscriber
