import Reckoner.Grammar
import Reckoner.Screen.Events
import Reckoner.Proofs.Postfix.Phrase
import Reckoner.Proofs.Formula.Numeral
import Reckoner.Proofs.Formula.Spelling
import Reckoner.Proofs.Formula.Accepted
import Reckoner.Proofs.Formula.Cut
import Reckoner.Proofs.Postfix.Depth
import Reckoner.Proofs.Formula.Junction
import Reckoner.Proofs.Formula.Refused
import Reckoner.Proofs.Session.Names
import Reckoner.Proofs.Session.Runs
import Reckoner.Proofs.Decimal.Truncation
import Reckoner.Proofs.Session.Keys
import Reckoner.Proofs.Screen.Enter
import Reckoner.Proofs.Postfix.Group
import Reckoner.Proofs.Formula.Spacing
import Reckoner.Proofs.Formula.Shown
import Reckoner.Proofs.Decimal.Continuation
import Reckoner.Proofs.Postfix.Departure
import Reckoner.Proofs.Formula.Reference
import Reckoner.Proofs.Formula.Lost
import Reckoner.Proofs.Formula.WrittenOut
import Reckoner.Proofs.Formula.Recorded
import Reckoner.Proofs.Session.Editing
import Reckoner.Proofs.Session.LastReference
import Reckoner.Proofs.Session.Failures
import Reckoner.Proofs.Text.ByteOrder
import Reckoner.Proofs.Registry.Changes
import Reckoner.Proofs.Formula.Classified
import Reckoner.Proofs.Postfix.Waiting
