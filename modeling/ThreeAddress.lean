import ThreeAddress.Arithmetic
import ThreeAddress.Decoding
import ThreeAddress.Denotation
import ThreeAddress.Execution
import ThreeAddress.Layout
import ThreeAddress.Record
import ThreeAddress.Session
import ThreeAddress.StackPass
import ThreeAddress.Term.Printer
import ThreeAddress.TimedRun
import ThreeAddress.Proofs.TokenStream
import ThreeAddress.Proofs.Transition
import ThreeAddress.Proofs.Reading
import ThreeAddress.Proofs.PendingPhrases
import ThreeAddress.Proofs.WithinLimits
import ThreeAddress.Proofs.Acceptance
import ThreeAddress.Proofs.ViablePrefix
import ThreeAddress.Proofs.Emission
import ThreeAddress.Proofs.PhraseValue
import ThreeAddress.Proofs.CodeExecution
import ThreeAddress.Proofs.LexicalLayout
import ThreeAddress.Proofs.StackEvaluation
import ThreeAddress.Proofs.TimedAgreement
import ThreeAddress.Proofs.LocatedFailures
import ThreeAddress.Proofs.OperationNames
import ThreeAddress.Proofs.SharedAllocators
import ThreeAddress.Proofs.PrintedTerms
import ThreeAddress.Proofs.ListingDecoding
import ThreeAddress.Proofs.ScannerRuns
import ThreeAddress.Proofs.ComparedRuns
import ThreeAddress.Proofs.NarrowerLimits
import ThreeAddress.Proofs.LayoutIrrelevance
import ThreeAddress.Proofs.TokenProvenance
import ThreeAddress.Proofs.Composition
import ThreeAddress.Proofs.JournalTrace
import ThreeAddress.Proofs.OpenParentheses
import ThreeAddress.Proofs.LongestExpression
import ThreeAddress.Proofs.ConstructionOrder
import ThreeAddress.Proofs.FirstLimitCrossed
import ThreeAddress.Proofs.TextScans
import ThreeAddress.Proofs.FirstOffence
import ThreeAddress.Proofs.JoinedTexts
import ThreeAddress.Proofs.LinearCode
import ThreeAddress.Proofs.RunStatistics
import ThreeAddress.Proofs.AnnotatedListings
import ThreeAddress.Proofs.OperatorCounts
import ThreeAddress.Proofs.VerboseRuns
import ThreeAddress.Proofs.ReadingEnds
import ThreeAddress.Proofs.TruncatedQuotients
import ThreeAddress.Proofs.ValueTexts
