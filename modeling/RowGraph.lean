import RowGraph.Database.Script
import RowGraph.Error
import RowGraph.Graph.Load
import RowGraph.Graph.Reach
import RowGraph.Graph.Save
import RowGraph.Graph.Suspended.Load
import RowGraph.Graph.Suspended.Save
import RowGraph.Json.Reader
import RowGraph.Number.Reading
import RowGraph.Proofs.Columns.ExactNames
import RowGraph.Proofs.Columns.GuessOrder
import RowGraph.Proofs.Columns.OwnSelection
import RowGraph.Proofs.Columns.TupleGroups
import RowGraph.Proofs.Compile.CapturedValues
import RowGraph.Proofs.Compile.Placement
import RowGraph.Proofs.Compile.Readable
import RowGraph.Proofs.Compile.SpelledOut
import RowGraph.Proofs.Entity.ColumnLists
import RowGraph.Proofs.Entity.Keys
import RowGraph.Proofs.Entity.WellFormed
import RowGraph.Proofs.Following
import RowGraph.Proofs.Graph.ReferenceLists
import RowGraph.Proofs.Grouping
import RowGraph.Proofs.Inlined.Queries
import RowGraph.Proofs.Load.Handed
import RowGraph.Proofs.Load.KeyTexts
import RowGraph.Proofs.Load.LetterCase
import RowGraph.Proofs.Load.OneByOne
import RowGraph.Proofs.Load.Reloading
import RowGraph.Proofs.Load.SelectFilters
import RowGraph.Proofs.NormalForm
import RowGraph.Proofs.Numbering
import RowGraph.Proofs.Pattern.Searches
import RowGraph.Proofs.Query.Alike
import RowGraph.Proofs.Query.Chains
import RowGraph.Proofs.Query.Changes
import RowGraph.Proofs.Query.Exchange
import RowGraph.Proofs.Query.FilledTokens
import RowGraph.Proofs.Query.Handwritten
import RowGraph.Proofs.Query.KeyJoins
import RowGraph.Proofs.Query.Markers
import RowGraph.Proofs.Query.ParameterOrder
import RowGraph.Proofs.Query.Qualifiers
import RowGraph.Proofs.Query.Sources
import RowGraph.Proofs.Query.Updates
import RowGraph.Proofs.Save.Again
import RowGraph.Proofs.Save.AssignedKeys
import RowGraph.Proofs.Save.Sent
import RowGraph.Proofs.Settings
import RowGraph.Proofs.Suspended
import RowGraph.Sample
import RowGraph.Settings.Reading
