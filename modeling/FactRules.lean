import FactRules.Model
import FactRules.Resolution.Agreement
import FactRules.Rule.Script
import FactRules.Proofs.Inquiry
import FactRules.Proofs.Inquiry.Memory
import FactRules.Proofs.Inquiry.Verdicts
import FactRules.Proofs.History
import FactRules.Proofs.PlainEvaluation
import FactRules.Proofs.Dispatch
import FactRules.Proofs.Numerals
import FactRules.Proofs.Tokens
import FactRules.Proofs.Printing
import FactRules.Proofs.Junction
import FactRules.Proofs.Unambiguous
import FactRules.Proofs.Groups
import FactRules.Proofs.Sharing
import FactRules.Proofs.Parsing
import FactRules.Proofs.Templates
import FactRules.Proofs.WellFormed
import FactRules.Proofs.RoundTrip
import FactRules.Proofs.Percents
import FactRules.Proofs.Reparse
import FactRules.Proofs.Followed
import FactRules.Proofs.Enclosed
import FactRules.Proofs.Quoting
import FactRules.Proofs.Placeholders
import FactRules.Proofs.Sentences
import FactRules.Proofs.Parentheses
import FactRules.Proofs.TokenKinds
import FactRules.Proofs.Origins
import FactRules.Proofs.Placement
import FactRules.Proofs.Infix
import FactRules.Proofs.Adjacent
import FactRules.Proofs.Paths
import FactRules.Proofs.Positive
import FactRules.Proofs.Traces
import FactRules.Proofs.Requests
import FactRules.Proofs.Obtained
import FactRules.Proofs.Polarity
import FactRules.Proofs.FailurePlaces
import FactRules.Proofs.KeyPaths
import FactRules.Proofs.RegularExpressions
import FactRules.Proofs.Patterns
import FactRules.Proofs.HashConsing
import FactRules.Proofs.Endings
import FactRules.Proofs.Moves
import FactRules.Proofs.Calls
import FactRules.Proofs.Termination
import FactRules.Proofs.Balance
import FactRules.Proofs.Batches
import FactRules.Proofs.WriteOnce
import FactRules.Proofs.Order
import FactRules.Proofs.Failures
import FactRules.Proofs.Dependencies
import FactRules.Proofs.Refusals
import FactRules.Proofs.Repetition
import FactRules.Proofs.Cycles
import FactRules.Proofs.Propagation
import FactRules.Proofs.Surfacing
import FactRules.Proofs.Locality
import FactRules.Proofs.Relational
import FactRules.Proofs.Rounding
import FactRules.Proofs.MixedNumbers
import FactRules.Proofs.WholeNumbers
import FactRules.Proofs.Flattening
import FactRules.Proofs.EqualityTexts
import FactRules.Proofs.Matching
import FactRules.Proofs.Splitting
import FactRules.Proofs.NamesRead
import FactRules.Proofs.Spellings
import FactRules.Proofs.Traversal
import FactRules.Proofs.JsonUnits
import FactRules.Proofs.JsonData
import FactRules.Proofs.ModelTexts
