import RationalCalculator.Calculation
import RationalCalculator.Expression.Cursor
import RationalCalculator.Main
import RationalCalculator.Proofs.CommandLine.Given
import RationalCalculator.Proofs.CommandLine.Literal
import RationalCalculator.Proofs.Expression.Classification
import RationalCalculator.Proofs.Expression.Descent
import RationalCalculator.Proofs.Expression.Failures
import RationalCalculator.Proofs.Expression.Inlining
import RationalCalculator.Proofs.Expression.Resume
import RationalCalculator.Proofs.Expression.Strictness
import RationalCalculator.Proofs.Fraction.Calculation
import RationalCalculator.Proofs.Fraction.Distinct
import RationalCalculator.Proofs.Fraction.Rational
import RationalCalculator.Proofs.Fraction.Written
import RationalCalculator.Proofs.FrontEnd.Agreement
import RationalCalculator.Proofs.FrontEnd.Approximation
import RationalCalculator.Proofs.FrontEnd.BatchRun
import RationalCalculator.Proofs.FrontEnd.BatchTranscript
import RationalCalculator.Proofs.FrontEnd.Changes
import RationalCalculator.Proofs.FrontEnd.ConsoleRun
import RationalCalculator.Proofs.FrontEnd.ConsoleTranscript
import RationalCalculator.Proofs.FrontEnd.Neighbours
import RationalCalculator.Proofs.FrontEnd.Printed
import RationalCalculator.Proofs.FrontEnd.Stopping
import RationalCalculator.Proofs.FrontEnd.StoreCommand
import RationalCalculator.Proofs.Session.Answers
import RationalCalculator.Proofs.Session.Continuation
import RationalCalculator.Proofs.Session.Dependence
import RationalCalculator.Proofs.Session.History
import RationalCalculator.Proofs.Session.Recall
import RationalCalculator.Proofs.Session.Width
import RationalCalculator.Proofs.Session.Words
import RationalCalculator.Proofs.Settings.Again
import RationalCalculator.Proofs.Settings.Fields
import RationalCalculator.Proofs.Settings.Level
import RationalCalculator.Proofs.Settings.Precedence
import RationalCalculator.Proofs.Text.Decimal
import RationalCalculator.Session.Group
import RationalCalculator.Text.Quoted
