import FormulaColumn.JsonGrammar
import FormulaColumn.Sheet
import FormulaColumn.Proofs.Language
import FormulaColumn.Proofs.Derivation
import FormulaColumn.Proofs.RowValue
import FormulaColumn.Proofs.Consistency
import FormulaColumn.Proofs.CarriedError
import FormulaColumn.Proofs.Unguarded
import FormulaColumn.Proofs.Scanning
import FormulaColumn.Proofs.PrintedTokens
import FormulaColumn.Proofs.TokenOrder
import FormulaColumn.Proofs.Rendering
import FormulaColumn.Proofs.Dependence
import FormulaColumn.Proofs.ExactValue
import FormulaColumn.Proofs.Exactness
import FormulaColumn.Proofs.History
import FormulaColumn.Proofs.Runs
import FormulaColumn.Proofs.ScanByRuns
import FormulaColumn.Proofs.Locality
import FormulaColumn.Proofs.Cycles
import FormulaColumn.Proofs.ResultKinds
import FormulaColumn.Proofs.Termination
import FormulaColumn.Proofs.EvaluationSteps
import FormulaColumn.Proofs.Parentheses
import FormulaColumn.Proofs.ShortestText
import FormulaColumn.Proofs.JsonRoundTrip
import FormulaColumn.Proofs.Repetition
import FormulaColumn.Proofs.SameShape
import FormulaColumn.Proofs.FirstFailure
import FormulaColumn.Proofs.AddedFormula
import FormulaColumn.Proofs.ShownText
import FormulaColumn.Proofs.AggregateOutcome
import FormulaColumn.Proofs.ConsumedPrefix
