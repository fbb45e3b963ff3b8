import UsageAudit.Analysis
import UsageAudit.Auditor
import UsageAudit.Auditor.Codec
import UsageAudit.Binding
import UsageAudit.Cache
import UsageAudit.Cache.Codec
import UsageAudit.Crew
import UsageAudit.Database.Cell
import UsageAudit.Database.Column
import UsageAudit.Database.ExampleStore
import UsageAudit.Database.FullText
import UsageAudit.Database.Numbered
import UsageAudit.Database.Opening
import UsageAudit.Database.Pages
import UsageAudit.Database.Pattern
import UsageAudit.Database.Pool
import UsageAudit.Database.Session
import UsageAudit.Database.Stored
import UsageAudit.Database.SymbolStore
import UsageAudit.Database.Tables
import UsageAudit.Decimal.Reading
import UsageAudit.Decimal.Shortest
import UsageAudit.Digest
import UsageAudit.Dotted
import UsageAudit.Element
import UsageAudit.Element.Codec
import UsageAudit.Engagement
import UsageAudit.ExampleSearch
import UsageAudit.Extraction
import UsageAudit.Folder
import UsageAudit.Fusion
import UsageAudit.GraphCheck
import UsageAudit.Grounding
import UsageAudit.Grounding.Codec
import UsageAudit.Json
import UsageAudit.Json.Reading
import UsageAudit.Json.Writing
import UsageAudit.Lookup
import UsageAudit.Ordered
import UsageAudit.Overlap
import UsageAudit.Problem
import UsageAudit.Proofs.Accounting
import UsageAudit.Proofs.AllOrNothing
import UsageAudit.Proofs.ArgumentConfidence
import UsageAudit.Proofs.AssignmentOrder
import UsageAudit.Proofs.BestHits
import UsageAudit.Proofs.BothSides
import UsageAudit.Proofs.CacheHistory
import UsageAudit.Proofs.CacheTransparency
import UsageAudit.Proofs.CachedCrews
import UsageAudit.Proofs.CachedLookup
import UsageAudit.Proofs.CallBinding
import UsageAudit.Proofs.CallVerdict
import UsageAudit.Proofs.Calls
import UsageAudit.Proofs.Cancellation
import UsageAudit.Proofs.CancelledCrews
import UsageAudit.Proofs.CheckedTargets
import UsageAudit.Proofs.CleanReports
import UsageAudit.Proofs.Closing
import UsageAudit.Proofs.Comments
import UsageAudit.Proofs.CrewOutcomes
import UsageAudit.Proofs.CrewSchedules
import UsageAudit.Proofs.CrewSteps
import UsageAudit.Proofs.DoubleShares
import UsageAudit.Proofs.Ending
import UsageAudit.Proofs.EscapedPatterns
import UsageAudit.Proofs.ExactScalar
import UsageAudit.Proofs.ExpressionShape
import UsageAudit.Proofs.ExtendedScalar
import UsageAudit.Proofs.FillerWords
import UsageAudit.Proofs.FusedConfidence
import UsageAudit.Proofs.GraphCalls
import UsageAudit.Proofs.GraphFindings
import UsageAudit.Proofs.GroundingMeasure
import UsageAudit.Proofs.HintSpans
import UsageAudit.Proofs.HintTexts
import UsageAudit.Proofs.HintTrees
import UsageAudit.Proofs.Identifiers
import UsageAudit.Proofs.ImportedNames
import UsageAudit.Proofs.Inquiry
import UsageAudit.Proofs.KeywordOrder
import UsageAudit.Proofs.KnowingMore
import UsageAudit.Proofs.LeadingBlank
import UsageAudit.Proofs.Learned
import UsageAudit.Proofs.LetterCase
import UsageAudit.Proofs.LineOrder
import UsageAudit.Proofs.LiteralTypes
import UsageAudit.Proofs.LiteralValues
import UsageAudit.Proofs.LookupCounts
import UsageAudit.Proofs.Meaning
import UsageAudit.Proofs.MemberMeanings
import UsageAudit.Proofs.MergedFindings
import UsageAudit.Proofs.MethodOwners
import UsageAudit.Proofs.MirroredIndex
import UsageAudit.Proofs.ModuleLookups
import UsageAudit.Proofs.NameChains
import UsageAudit.Proofs.NodeReadings
import UsageAudit.Proofs.OneByOne
import UsageAudit.Proofs.Operation
import UsageAudit.Proofs.PatternPieces
import UsageAudit.Proofs.PlainScripts
import UsageAudit.Proofs.Plan
import UsageAudit.Proofs.Preorder
import UsageAudit.Proofs.Provenance
import UsageAudit.Proofs.Reading
import UsageAudit.Proofs.Rebinding
import UsageAudit.Proofs.ReportLists
import UsageAudit.Proofs.Respacing
import UsageAudit.Proofs.RoundTrips
import UsageAudit.Proofs.Rows
import UsageAudit.Proofs.ScalarOrder
import UsageAudit.Proofs.SearchCrews
import UsageAudit.Proofs.SecondRun
import UsageAudit.Proofs.Shadowing
import UsageAudit.Proofs.Spans
import UsageAudit.Proofs.StatementShape
import UsageAudit.Proofs.Survey
import UsageAudit.Proofs.SurveyOutcomes
import UsageAudit.Proofs.TreeShape
import UsageAudit.Proofs.TwinTrees
import UsageAudit.Proofs.TwinWalks
import UsageAudit.Proofs.VariableClasses
import UsageAudit.Proofs.VerdictGrounds
import UsageAudit.Proofs.Walk
import UsageAudit.Proofs.WeightedMean
import UsageAudit.Proofs.WellMade
import UsageAudit.Question
import UsageAudit.Report
import UsageAudit.Report.Codec
import UsageAudit.Resolution
import UsageAudit.Resolution.Codec
import UsageAudit.Scalar
import UsageAudit.Script.CasePattern
import UsageAudit.Script.Compound
import UsageAudit.Script.Expression
import UsageAudit.Script.Hint
import UsageAudit.Script.Kind
import UsageAudit.Script.Lexeme
import UsageAudit.Script.Lexemes
import UsageAudit.Script.Mend
import UsageAudit.Script.Number
import UsageAudit.Script.Operator
import UsageAudit.Script.Parse
import UsageAudit.Script.Phrase
import UsageAudit.Script.Quotation
import UsageAudit.Script.Reader
import UsageAudit.Script.Statement
import UsageAudit.Script.Target
import UsageAudit.Script.Text
import UsageAudit.Script.Tree
import UsageAudit.Settings
import UsageAudit.Symbol
import UsageAudit.Text.Alphabetic
import UsageAudit.Text.Blank
import UsageAudit.Text.CharSet
import UsageAudit.Text.Identifier
import UsageAudit.Text.Numeric
import UsageAudit.Text.Unaccented
import UsageAudit.Text.Uppercase
import UsageAudit.Text.WordCharacter
import UsageAudit.TypeHint
import UsageAudit.Verdict
import UsageAudit.Verdict.Codec
