import PluginSurface.Main
import PluginSurface.Proofs.Binding.Visits
import PluginSurface.Proofs.Search.Entities
import PluginSurface.Proofs.Typing.OptionFields
import PluginSurface.Proofs.Search.OptionType
import PluginSurface.Proofs.Binding.Reexports
import PluginSurface.Proofs.Session.Links
import PluginSurface.Proofs.Session.Types
import PluginSurface.Proofs.Ty.ReadBack
import PluginSurface.Proofs.Binding.Mirror
import PluginSurface.Proofs.Binding.MirrorLinks
import PluginSurface.Proofs.Typing.SameByName
import PluginSurface.Proofs.Typing.Mentions
import PluginSurface.Proofs.Binding.Counting
import PluginSurface.Proofs.Typing.Alike
import PluginSurface.Proofs.Typing.MemberOrder
import PluginSurface.Proofs.Path.Routes
import PluginSurface.Proofs.FileTree.Folders
import PluginSurface.Proofs.Program.Twins
import PluginSurface.Proofs.Program.SelfContained
import PluginSurface.Proofs.Typing.CanonicalTypes
import PluginSurface.Proofs.Ty.CanonicalForm
import PluginSurface.Proofs.Program.DepthFirst
import PluginSurface.Proofs.Program.ImportTypes
import PluginSurface.Proofs.Syntax.Progress
import PluginSurface.Proofs.Syntax.TypeProgress
import PluginSurface.Proofs.Syntax.StatementProgress
import PluginSurface.Proofs.Source.Boundaries
import PluginSurface.Proofs.Syntax.Termination
import PluginSurface.Proofs.Path.Components
import PluginSurface.Proofs.Path.Tame
import PluginSurface.Proofs.FileTree.Ways
import PluginSurface.Proofs.Program.Lookups
import PluginSurface.Proofs.FileTree.Files
import PluginSurface.Proofs.Program.Outcomes
import PluginSurface.Proofs.Source.Pieces
import PluginSurface.Proofs.Syntax.KnownTokens
import PluginSurface.Proofs.Syntax.Parenthesized
import PluginSurface.Proofs.Syntax.ParenthesizedReading
import PluginSurface.Proofs.Typing.DeclaredMembers
import PluginSurface.Proofs.Program.Augmentations
import PluginSurface.Proofs.Program.DirectExports
import PluginSurface.Proofs.Program.Manifests
import PluginSurface.Proofs.Program.Copies
import PluginSurface.Proofs.Typing.CopiedPlugins
import PluginSurface.Proofs.Ty.Arrangement
import PluginSurface.Proofs.Ty.Alteration
import PluginSurface.Proofs.Binding.Renumbering
import PluginSurface.Proofs.Binding.StatementOrder
import PluginSurface.Proofs.Binding.RenumberedLinks
import PluginSurface.Proofs.Typing.AlteredTypes
import PluginSurface.Proofs.Typing.AliasOrder
import PluginSurface.Proofs.Typing.ReorderedShapes
import PluginSurface.Proofs.Typing.RenumberedTypes
import PluginSurface.Proofs.Typing.StatementOrder
import PluginSurface.Proofs.Typing.Inheritance
import PluginSurface.Proofs.Typing.Placeholders
import PluginSurface.Proofs.Typing.Substitution
import PluginSurface.Proofs.Syntax.Places
import PluginSurface.Proofs.Syntax.TypePlaces
import PluginSurface.Proofs.Source.Lookahead
import PluginSurface.Proofs.Syntax.StatementPlaces
import PluginSurface.Proofs.Source.Lexemes
import PluginSurface.Proofs.Syntax.Layout
import PluginSurface.Proofs.Binding.Agreement
import PluginSurface.Proofs.Typing.MemberParts
import PluginSurface.Proofs.Binding.InterfaceParts
import PluginSurface.Proofs.Typing.InterfaceParts
import PluginSurface.Proofs.Typing.Congruence
import PluginSurface.Proofs.Typing.InferredNames
import PluginSurface.Proofs.Typing.OpenTrails
import PluginSurface.Proofs.Typing.MemberTypes
import PluginSurface.Proofs.Typing.IndexedAccess
import PluginSurface.Proofs.Ty.UnionMembers
import PluginSurface.Proofs.Ty.OrderedMembers
import PluginSurface.Proofs.Ty.NestedUnions
import PluginSurface.Proofs.Ty.PermutedUnions
import PluginSurface.Proofs.Source.Coverage
import PluginSurface.Proofs.Syntax.Bodies
import PluginSurface.Proofs.Syntax.Spans
import PluginSurface.Proofs.Syntax.Brackets
import PluginSurface.Proofs.Syntax.Balance
import PluginSurface.Proofs.Syntax.TypeBalance
import PluginSurface.Proofs.Syntax.StatementBalance
import PluginSurface.Proofs.Syntax.NestedTexts
import PluginSurface.Proofs.Path.Clean
import PluginSurface.Proofs.Program.CleanLookups
import PluginSurface.Proofs.Program.LoadedOnce
import PluginSurface.Proofs.Syntax.Answers
import PluginSurface.Proofs.Syntax.TypeChains
import PluginSurface.Proofs.Syntax.StatementChains
import PluginSurface.Proofs.Source.Printed
import PluginSurface.Proofs.Syntax.Runs
import PluginSurface.Proofs.Syntax.Suffixes
import PluginSurface.Proofs.Syntax.Branches
import PluginSurface.Proofs.Syntax.Initializers
import PluginSurface.Proofs.Comparison.Rows
import PluginSurface.Proofs.Source.QuotedLiterals
import PluginSurface.Proofs.Program.Resolution
import PluginSurface.Proofs.Typing.NamespaceParts
import PluginSurface.Proofs.Table.Lines
import PluginSurface.Proofs.Syntax.ByteOrderMark
