import GenScope.Artifact.Schema
import GenScope.Main
import GenScope.Proofs.Text.CharClass
import GenScope.Proofs.Text.Fragment
import GenScope.Query.Schema
import GenScope.Proofs.Cpp.Declaration
import GenScope.Proofs.Cpp.DefinitionLine
import GenScope.Proofs.Cpp.ParameterList
import GenScope.Proofs.Cpp.Signature
import GenScope.Proofs.Cpp.LocalLine
import GenScope.Proofs.Cpp.Comment
import GenScope.Proofs.Query.QualifiedName
import GenScope.Proofs.Query.Demangling
import GenScope.Proofs.FileTree.Lookup
import GenScope.Proofs.FileTree.Walk
import GenScope.Proofs.Settings.Directory
import GenScope.Proofs.Search.Candidates
import GenScope.Proofs.Search.Resolution
import GenScope.Proofs.FileTree.Overlay
import GenScope.Proofs.Comparison.Written
import GenScope.Proofs.Comparison.DiffFolder
import GenScope.Proofs.Comparison.Confined
import GenScope.Proofs.Cpp.Continuation
import GenScope.Proofs.Query.Words
import GenScope.Proofs.Search.Offered
import GenScope.Proofs.Search.Headers
import GenScope.Proofs.Search.Narrowing
import GenScope.Proofs.Search.WordOrder
import GenScope.Proofs.Cpp.ClassHeader
import GenScope.Proofs.Search.ClassResolution
import GenScope.Proofs.FileTree.Unseen
import GenScope.Proofs.Comparison.Apart
import GenScope.Proofs.Comparison.Accounting
import GenScope.Proofs.Comparison.Completion
import GenScope.Proofs.FileTree.SameBelow
import GenScope.Proofs.Search.Relocation
import GenScope.Proofs.Session.Turns
import GenScope.Proofs.Session.SingleQuery
import GenScope.Proofs.Text.Utf8
import GenScope.Proofs.Settings.Loading
import GenScope.Proofs.Cpp.LocalVariable
import GenScope.Proofs.Cpp.OuterComma
import GenScope.Proofs.FileTree.Resolve
import GenScope.Proofs.Settings.RoundTrip
import GenScope.Proofs.FileTree.SameButFiles
import GenScope.Proofs.Settings.Masking
import GenScope.Proofs.Search.FunctionFiles
import GenScope.Proofs.Search.ClassMark
import GenScope.Proofs.Comparison.NoisyName
import GenScope.Proofs.Comparison.Missing
import GenScope.Proofs.Terminal.Choice
import GenScope.Proofs.Search.Labels
import GenScope.Proofs.Search.Counters
import GenScope.Proofs.Search.WordBounds
import GenScope.Proofs.Search.Verbatim
import GenScope.Proofs.Query.MaximalRuns
import GenScope.Proofs.Query.FileStem
import GenScope.Proofs.Cpp.CommentLine
import GenScope.Proofs.Cpp.TypeText
