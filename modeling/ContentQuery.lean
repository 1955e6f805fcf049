import ContentQuery.Evaluation.Sort
import ContentQuery.Evaluation.Verdict
import ContentQuery.Filter.Batch
import ContentQuery.FullText.Searcher
import ContentQuery.Json.ConfigForm
import ContentQuery.Json.ValueForm
import ContentQuery.Proofs.Naming.PathText
import ContentQuery.Proofs.Number.Digits
import ContentQuery.Proofs.Outcome
import ContentQuery.Proofs.Text.Cut
import ContentQuery.Query.Builder
import ContentQuery.Query.Selectors
import ContentQuery.Query.Statement
import ContentQuery.Tree.Navigation
import ContentQuery.Tree.Edit
import ContentQuery.Tree.History
import ContentQuery.Value.Comparison
import ContentQuery.Proofs.Naming.PathSegments
import ContentQuery.Proofs.Naming.PathGrammar
import ContentQuery.Proofs.Naming.PathRoundTrip
import ContentQuery.Proofs.Naming.NormalForm
import ContentQuery.Proofs.Naming.ExpandedForm
import ContentQuery.Proofs.Query.Built
import ContentQuery.Proofs.Query.Delimited
import ContentQuery.Proofs.Query.OperandText
import ContentQuery.Proofs.Query.ConstraintText
import ContentQuery.Proofs.Query.SourceText
import ContentQuery.Proofs.Query.StatementText
import ContentQuery.Proofs.Query.DoubleLiteral
import ContentQuery.Proofs.Query.LiteralText
import ContentQuery.Proofs.Number.Rounding
import ContentQuery.Proofs.Number.Nearest
import ContentQuery.Proofs.Number.Shortest
import ContentQuery.Proofs.Value.NaturalOrder
import ContentQuery.Proofs.Tree.Paths
import ContentQuery.Proofs.Tree.Ancestors
import ContentQuery.Proofs.Tree.Hidden
import ContentQuery.Proofs.Tree.Navigation
import ContentQuery.Proofs.Tree.Walks
import ContentQuery.Proofs.Evaluation.Operand
import ContentQuery.Proofs.Evaluation.Placement
import ContentQuery.Proofs.Evaluation.SameNodeJoin
import ContentQuery.Proofs.Evaluation.UnboundSelectors
import ContentQuery.Proofs.Evaluation.Validated
import ContentQuery.Proofs.Evaluation.Locality
import ContentQuery.Proofs.Evaluation.SortTuples
import ContentQuery.Filter.Schedule
import ContentQuery.Proofs.Filter.Schedule
import ContentQuery.Proofs.Filter.Batch
import ContentQuery.Proofs.FullText.Grammar
import ContentQuery.Proofs.FullText.WholeNode
import ContentQuery.Proofs.Query.Namespaces
import ContentQuery.Proofs.Evaluation.TighterPolicy
import ContentQuery.Proofs.Evaluation.BooleanLaws
import ContentQuery.Proofs.Value.LikePattern
import ContentQuery.Proofs.Tree.AddPath
import ContentQuery.Proofs.Value.SortedComparison
import ContentQuery.Proofs.Evaluation.EqualJoin
import ContentQuery.Proofs.Evaluation.Scores
import ContentQuery.Proofs.Tree.Representation
import ContentQuery.Proofs.Tree.Bounds
