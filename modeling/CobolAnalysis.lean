import CobolAnalysis.Host
import CobolAnalysis.Scenario.Script
import CobolAnalysis.Scenario.Session
import CobolAnalysis.Scenario.Stages
import CobolAnalysis.Proofs.Text.Stripping
import CobolAnalysis.Proofs.LogicalNames
import CobolAnalysis.Proofs.Tables
import CobolAnalysis.Proofs.Merging
import CobolAnalysis.Proofs.Recordings
import CobolAnalysis.Proofs.Lowering
import CobolAnalysis.Proofs.Source.Continuations
import CobolAnalysis.Proofs.Source.IgnoredAreas
import CobolAnalysis.Proofs.Source.LetterCase
import CobolAnalysis.Proofs.Source.Pipelines
import CobolAnalysis.Proofs.Source.Positions
import CobolAnalysis.Proofs.Source.Preprocessing
import CobolAnalysis.Proofs.Source.ReadingBack
import CobolAnalysis.Proofs.Source.Stretches
import CobolAnalysis.Proofs.Lexemes
import CobolAnalysis.Proofs.Lexemes.Literals
import CobolAnalysis.Proofs.Lexemes.LongestMatch
import CobolAnalysis.Proofs.Lexemes.Uniqueness
import CobolAnalysis.Proofs.Parse.CopyAccounts
import CobolAnalysis.Proofs.Parse.Grammar
import CobolAnalysis.Proofs.Parse.LetterCase
import CobolAnalysis.Proofs.Parse.Lowering
import CobolAnalysis.Proofs.Parse.Options
import CobolAnalysis.Proofs.Parse.Pasting
import CobolAnalysis.Proofs.Parse.Places
import CobolAnalysis.Proofs.Parse.Sentences
import CobolAnalysis.Proofs.Parse.Transfers
import CobolAnalysis.Proofs.Parse.Walk
import CobolAnalysis.Proofs.Printed.Layout
import CobolAnalysis.Proofs.Printed.Statements
import CobolAnalysis.Proofs.Printed.Tokens
import CobolAnalysis.Proofs.Words.Boundaries
import CobolAnalysis.Proofs.Words.ScannedNames
import CobolAnalysis.Proofs.Provider.FileNames
import CobolAnalysis.Proofs.Provider.FirstMatch
import CobolAnalysis.Proofs.Provider.Paths
import CobolAnalysis.Proofs.Provider.Trees
import CobolAnalysis.Proofs.Bus.OrderedDelivery
import CobolAnalysis.Proofs.Bus.Registrations
import CobolAnalysis.Proofs.Resolution.Waiting
import CobolAnalysis.Proofs.Analysis.AsIfPasted
import CobolAnalysis.Proofs.Analysis.Bounds
import CobolAnalysis.Proofs.Analysis.BusAfterwards
import CobolAnalysis.Proofs.Analysis.Cancellation
import CobolAnalysis.Proofs.Analysis.Circularity
import CobolAnalysis.Proofs.Analysis.Contributions
import CobolAnalysis.Proofs.Analysis.Correspondence
import CobolAnalysis.Proofs.Analysis.Cover
import CobolAnalysis.Proofs.Analysis.DedupPolicies
import CobolAnalysis.Proofs.Analysis.DirectRecursion
import CobolAnalysis.Proofs.Analysis.EntryPoints
import CobolAnalysis.Proofs.Analysis.LetterCase
import CobolAnalysis.Proofs.Analysis.Loops
import CobolAnalysis.Proofs.Analysis.ParserOptions
import CobolAnalysis.Proofs.Analysis.Published
import CobolAnalysis.Proofs.Analysis.SettledOnce
import CobolAnalysis.Proofs.Analysis.SimpleWays
import CobolAnalysis.Proofs.Analysis.Surfacing
import CobolAnalysis.Proofs.Host.Inputs
import CobolAnalysis.Proofs.Host.LastInputs
import CobolAnalysis.Proofs.Host.Readiness
import CobolAnalysis.Proofs.Query.Agreement
import CobolAnalysis.Proofs.Query.CopyNames
