import Calculator.Formula.Source
import Calculator.Numeral.RoundTrip
import Calculator.Proofs.Expr.Description
import Calculator.Proofs.Expr.Marks
import Calculator.Proofs.Formula.Blanks
import Calculator.Proofs.Formula.Conservation
import Calculator.Proofs.Formula.Dialects
import Calculator.Proofs.Formula.Grammar
import Calculator.Proofs.Formula.Levels
import Calculator.Proofs.Formula.Locations
import Calculator.Proofs.Formula.Printing
import Calculator.Proofs.Formula.Rebuilding
import Calculator.Proofs.Formula.Relabelling
import Calculator.Proofs.Formula.Rendering
import Calculator.Proofs.Formula.Splicing
import Calculator.Proofs.Token.Pending
import Calculator.Proofs.Token.Separation
import Calculator.Proofs.Token.Terms
