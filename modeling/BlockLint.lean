import BlockLint.Order
import BlockLint.Text
import BlockLint.Text.WhiteSpace
import BlockLint.Text.Printable
import BlockLint.Text.Alphanumeric
import BlockLint.Text.Quoted
import BlockLint.Source.Tab
import BlockLint.Source
import BlockLint.Block.Kind
import BlockLint.Block.Cursor
import BlockLint.Block.Marker
import BlockLint.Block.Heading
import BlockLint.Block.ThematicBreak
import BlockLint.Block.Fence
import BlockLint.Block.LineClass
import BlockLint.Block.Container
import BlockLint.Block.MarkerRun
import BlockLint.Token
import BlockLint.Token.Display
import BlockLint.Token.OpenLeaf
import BlockLint.Tokenizer
import BlockLint.Block.Tree
import BlockLint.Html.Markup
import BlockLint.Html
import BlockLint.Violation
import BlockLint.Plugin
import BlockLint.Registry
import BlockLint.Rule.HardTabs
import BlockLint.Rule.AtxSpace
import BlockLint.Rule.ListBlanks
import BlockLint.Rule
import BlockLint.Files.Path
import BlockLint.Files.Tree
import BlockLint.Files
import BlockLint.Linter
import BlockLint.Settings.Glob
import BlockLint.Settings.Expansion
import BlockLint.Toml.StringForm
import BlockLint.Toml.Value
import BlockLint.Toml.Scalar
import BlockLint.Toml.Document
import BlockLint.Settings
import BlockLint.Json
import BlockLint.Command.Options
import BlockLint.Command
import BlockLint.Main
import BlockLint.Proofs.Tokenizer.Cases
import BlockLint.Proofs.Tokenizer.Progress
import BlockLint.Proofs.Nesting
import BlockLint.Proofs.Shares
import BlockLint.Proofs.SourceLines
import BlockLint.Proofs.RoundTrip
import BlockLint.Proofs.Shift
import BlockLint.Proofs.Embedding
import BlockLint.Proofs.InnerDocument
import BlockLint.Proofs.Containment
import BlockLint.Proofs.NaturalEnds
import BlockLint.Proofs.Cursors
import BlockLint.Proofs.PositionOrder
import BlockLint.Proofs.TokenPlaces
import BlockLint.Proofs.TabExpansion
import BlockLint.Proofs.Correspondence
import BlockLint.Proofs.Concatenation
import BlockLint.Proofs.Strict.Recognizers
import BlockLint.Proofs.Strict.Machine
import BlockLint.Proofs.Strict.Showing
import BlockLint.Proofs.Strict.Agreement
import BlockLint.Proofs.TabIndependence
import BlockLint.Proofs.Growth
import BlockLint.Proofs.BlockTree
import BlockLint.Proofs.ListMaximality
import BlockLint.Proofs.Outline
import BlockLint.Proofs.Markup
import BlockLint.Proofs.Strict.Rebuild
import BlockLint.Proofs.Serialization
import BlockLint.Proofs.Sorting
import BlockLint.Proofs.Scan
import BlockLint.Proofs.OutermostLists
import BlockLint.Proofs.ListSeparation
import BlockLint.Proofs.BlankLines
import BlockLint.Proofs.UnseparatedLists
import BlockLint.Proofs.PluginIndependence
import BlockLint.Proofs.FailedCalls
import BlockLint.Proofs.LintHistory
import BlockLint.Proofs.VisiblePlaces
import BlockLint.Proofs.Diagnostics
import BlockLint.Proofs.LinePositions
import BlockLint.Proofs.Paths
import BlockLint.Proofs.Subscriptions
import BlockLint.Proofs.FileSelection
import BlockLint.Proofs.LintRuns
import BlockLint.Proofs.LazyLines
import BlockLint.Proofs.HiddenBlocks
import BlockLint.Proofs.OneLineTokens
import BlockLint.Proofs.TokenDumps
import BlockLint.Proofs.TomlStrings
import BlockLint.Proofs.WrittenFiles
import BlockLint.Proofs.SettingsRoundTrip
import BlockLint.Proofs.ItemMarkers
import BlockLint.Proofs.ItemStates
import BlockLint.Proofs.ItemGeometry
import BlockLint.Proofs.CodeStarts
import BlockLint.Proofs.FencedCode
import BlockLint.Proofs.IndentedCode
import BlockLint.Proofs.MarkerGrammar
import BlockLint.Proofs.LastLines
import BlockLint.Proofs.TabStops
import BlockLint.Proofs.TokenTrees
import BlockLint.Proofs.LooseLists
import BlockLint.Proofs.HeadingGrammar
import BlockLint.Proofs.ContainerWalks
