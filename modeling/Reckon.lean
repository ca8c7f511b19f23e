import Reckon.Main
import Reckon.Tree.Subject
import Reckon.Proofs.Run
import Reckon.Proofs.Grammar
import Reckon.Proofs.Acceptance
import Reckon.Proofs.Contents
import Reckon.Proofs.Yield
import Reckon.Proofs.Formula
import Reckon.Proofs.PlainText
import Reckon.Proofs.Survival
import Reckon.Proofs.Rounding
import Reckon.Proofs.Shortest
import Reckon.Proofs.Doubles
import Reckon.Proofs.RoundTrip
import Reckon.Proofs.Convention
import Reckon.Proofs.Precedence
import Reckon.Proofs.Calls
import Reckon.Proofs.Nesting
import Reckon.Proofs.Cut
import Reckon.Proofs.Refusal
import Reckon.Proofs.Partition
import Reckon.Proofs.Stages
import Reckon.Proofs.Canonical
import Reckon.Proofs.Exchange
import Reckon.Proofs.Stream
import Reckon.Proofs.Levels
import Reckon.Proofs.Lines
import Reckon.Proofs.Standard
import Reckon.Proofs.Commands
import Reckon.Proofs.Wrapping
import Reckon.Proofs.Bracketing
import Reckon.Proofs.NumberText
import Reckon.Proofs.Rendering
import Reckon.Proofs.Faults
import Reckon.Proofs.NormalForm
import Reckon.Proofs.NumeralLanguage
import Reckon.Proofs.Places
import Reckon.Proofs.Routines
import Reckon.Proofs.Spans
import Reckon.Proofs.Endings
import Reckon.Proofs.Records
import Reckon.Proofs.Evaluation
import Reckon.Proofs.Environment
import Reckon.Proofs.Configuration
import Reckon.Proofs.Visits
