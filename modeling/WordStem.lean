import WordStem.AffixSearch
import WordStem.AffixTable
import WordStem.AlphanumericTable
import WordStem.ByteOffset
import WordStem.Call
import WordStem.CaseTable
import WordStem.CharacterRuns
import WordStem.CharacterSet
import WordStem.CodePointSet
import WordStem.CommandArguments
import WordStem.CommandLine
import WordStem.CommandOption
import WordStem.CommandReport
import WordStem.Configuration
import WordStem.ConfigurationFile
import WordStem.DecimalReading
import WordStem.DecimalText
import WordStem.Defect
import WordStem.Description
import WordStem.Direction
import WordStem.DocumentVectors
import WordStem.EscapedTable
import WordStem.Failure
import WordStem.FileTable
import WordStem.FileView
import WordStem.FloatMagnitude
import WordStem.Hungarian
import WordStem.HungarianAffixes
import WordStem.Invocation
import WordStem.JsonValue
import WordStem.Language
import WordStem.LanguageName
import WordStem.Lowercase
import WordStem.Main
import WordStem.PairListText
import WordStem.ProgramStemmer
import WordStem.Proofs.AdmittedTokens
import WordStem.Proofs.AffixMatching
import WordStem.Proofs.Bisection
import WordStem.Proofs.BufferEdits
import WordStem.Proofs.BufferHistories
import WordStem.Proofs.BufferParts
import WordStem.Proofs.BufferScans
import WordStem.Proofs.ByteBuffer
import WordStem.Proofs.ByteSearch
import WordStem.Proofs.CallFailures
import WordStem.Proofs.CallSteps
import WordStem.Proofs.CanonicalPairs
import WordStem.Proofs.CarriedConditions
import WordStem.Proofs.DocumentHistories
import WordStem.Proofs.EditingGuards
import WordStem.Proofs.ExactCounts
import WordStem.Proofs.ExactEdits
import WordStem.Proofs.FormatIndependence
import WordStem.Proofs.HungarianRegions
import WordStem.Proofs.HungarianStems
import WordStem.Proofs.InsertedMarks
import WordStem.Proofs.LongestAffix
import WordStem.Proofs.MappingHistories
import WordStem.Proofs.NumberMaps
import WordStem.Proofs.NumberOrder
import WordStem.Proofs.PairedArrays
import WordStem.Proofs.ProgramRewriting
import WordStem.Proofs.RegionGrammar
import WordStem.Proofs.ReturningScans
import WordStem.Proofs.RuleRuns
import WordStem.Proofs.SavedConfigurations
import WordStem.Proofs.ScoreOrder
import WordStem.Proofs.SearchOutcome
import WordStem.Proofs.SearchVisits
import WordStem.Proofs.SearchedTables
import WordStem.Proofs.SeparatedTexts
import WordStem.Proofs.SharedProducts
import WordStem.Proofs.ShrinkingRules
import WordStem.Proofs.SimilarityRanks
import WordStem.Proofs.SparseEntries
import WordStem.Proofs.StemmerAnswers
import WordStem.Proofs.StemmerPools
import WordStem.Proofs.StepIsolation
import WordStem.Proofs.SuffixRewriting
import WordStem.Proofs.TableValidation
import WordStem.Proofs.TextLines
import WordStem.Proofs.Utf8Code
import WordStem.Proofs.ValidTables
import WordStem.Proofs.VocabularyNumbers
import WordStem.QuotedText
import WordStem.Rule
import WordStem.RuleProgram
import WordStem.Score
import WordStem.SettingsFormat
import WordStem.ShortestDecimal
import WordStem.SimilarityRanking
import WordStem.SparseMapping
import WordStem.StemCounts
import WordStem.Stemmer
import WordStem.StopWords
import WordStem.Tokenizer
import WordStem.TomlDocument
import WordStem.TomlScalar
import WordStem.TomlText
import WordStem.VectorMeasures
import WordStem.Vocabulary
import WordStem.Weighting
import WordStem.WhiteSpace
import WordStem.WordBuffer
import WordStem.WordBufferEdit
import WordStem.WordBufferScan
