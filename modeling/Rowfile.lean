import Rowfile.Main
import Rowfile.Sessions
import Rowfile.Proofs.Positions
import Rowfile.Proofs.IndexContents
import Rowfile.Proofs.Peeling
import Rowfile.Proofs.Admission
import Rowfile.Proofs.Staging
import Rowfile.Proofs.Successes
import Rowfile.Proofs.History
import Rowfile.Proofs.Lifetimes
import Rowfile.Proofs.Integrity
import Rowfile.Proofs.KeyCollisions
import Rowfile.Proofs.UniqueColumns
import Rowfile.Proofs.ShortestDigits
import Rowfile.Proofs.Numerals
import Rowfile.Proofs.WrittenJson
import Rowfile.Proofs.Octets
import Rowfile.Proofs.Storing
import Rowfile.Proofs.Moves
import Rowfile.Proofs.SavingSteps
import Rowfile.Proofs.Loading
import Rowfile.Proofs.Outcomes
import Rowfile.Proofs.FiniteValues
import Rowfile.Proofs.WrittenValues
import Rowfile.Proofs.FileMirror
import Rowfile.Proofs.RereadFloats
import Rowfile.Proofs.Stepwise
import Rowfile.Proofs.Forgetting
import Rowfile.Proofs.Answers
import Rowfile.Proofs.FreedIds
import Rowfile.Proofs.Reopening
import Rowfile.Proofs.Spans
import Rowfile.Proofs.Passing
import Rowfile.Proofs.Refilling
import Rowfile.Proofs.RefilledParts
import Rowfile.Proofs.RespelledFilters
import Rowfile.Proofs.RefilledForms
import Rowfile.Proofs.RespelledStatements
import Rowfile.Proofs.PlainNumbers
import Rowfile.Proofs.SolidWords
import Rowfile.Proofs.WrittenLiterals
import Rowfile.Proofs.WrittenInserts
import Rowfile.Proofs.WrittenTables
import Rowfile.Proofs.WrittenFilters
import Rowfile.Proofs.KeywordCuts
import Rowfile.Proofs.SearchedWords
import Rowfile.Proofs.WrittenQueries
import Rowfile.Proofs.LiveKeys
import Rowfile.Proofs.BrokenDrops
import Rowfile.Proofs.InertIndexes
import Rowfile.Proofs.Restoring
import Rowfile.Proofs.SettledMaps
import Rowfile.Proofs.KeptPositions
import Rowfile.Proofs.Scripts
import Rowfile.Proofs.CutOutput
import Rowfile.Proofs.SingleWriter
import Rowfile.Proofs.Deletions
import Rowfile.Proofs.AmendedRecords
import Rowfile.Proofs.BoundValues
import Rowfile.Proofs.ShortCircuits
import Rowfile.Proofs.LikePatterns
import Rowfile.Proofs.IndexHistories
import Rowfile.Proofs.ValueCollisions
import Rowfile.Proofs.JoinedDocuments
import Rowfile.Proofs.Barewords
import Rowfile.Proofs.ListForms
import Rowfile.Proofs.DocumentedForms
import Rowfile.Proofs.CutLengths
import Rowfile.Proofs.PrintedColumns
import Rowfile.Proofs.TypedBack
import Rowfile.Proofs.GridShapes
import Rowfile.Proofs.JoinedPieces
import Rowfile.Proofs.UntornStatements
import Rowfile.Proofs.FirstPlaces
import Rowfile.Proofs.BrokenDrops
