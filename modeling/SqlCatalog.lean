import SqlCatalog.Audit
import SqlCatalog.Decimal.Binary64
import SqlCatalog.Decimal.Shortest
import SqlCatalog.Definition.Check
import SqlCatalog.Definition.Column
import SqlCatalog.Definition.ColumnType
import SqlCatalog.Definition.Index
import SqlCatalog.Definition.Literal
import SqlCatalog.Definition.Reading
import SqlCatalog.Definition.Script
import SqlCatalog.Definition.SeedRow
import SqlCatalog.Definition.Table
import SqlCatalog.Dialect
import SqlCatalog.Main
import SqlCatalog.Notice
import SqlCatalog.Query.Assignments
import SqlCatalog.Query.Builder
import SqlCatalog.Query.Error
import SqlCatalog.Query.Execution
import SqlCatalog.Query.Expression
import SqlCatalog.Query.Fragment
import SqlCatalog.Query.Rendering
import SqlCatalog.Query.Statement
import SqlCatalog.Schema.Basic
import SqlCatalog.Schema.Discrepancy
import SqlCatalog.Schema.Listing
import SqlCatalog.Schema.Names
import SqlCatalog.Schema.PseudoIndex
import SqlCatalog.Schema.Table
import SqlCatalog.Text.Blank
import SqlCatalog.Text.CaseTables
import SqlCatalog.Text.Casing
import SqlCatalog.Text.CellTables
import SqlCatalog.Text.Cells
import SqlCatalog.Text.CodeRanges
import SqlCatalog.Text.Letters
import SqlCatalog.Text.Printable
import SqlCatalog.Token.Basic
import SqlCatalog.Token.Flatten
import SqlCatalog.Token.Grouping
import SqlCatalog.Token.Lexer
import SqlCatalog.TypeName
import SqlCatalog.Value
import SqlCatalog.Proofs.Lists
import SqlCatalog.Proofs.Query.Layout
import SqlCatalog.Proofs.Query.Writing
import SqlCatalog.Proofs.Query.Places
import SqlCatalog.Proofs.Catalog.Compiling
import SqlCatalog.Proofs.Catalog.Names
import SqlCatalog.Proofs.Catalog.Reachable
import SqlCatalog.Proofs.Definition.Drafts
import SqlCatalog.Proofs.Catalog.Growth
import SqlCatalog.Proofs.Catalog.Coherent
import SqlCatalog.Proofs.Catalog.LookUps
import SqlCatalog.Proofs.Catalog.Users
import SqlCatalog.Proofs.Catalog.Distinct
import SqlCatalog.Proofs.Query.References
import SqlCatalog.Proofs.Query.Resolution
import SqlCatalog.Proofs.Catalog.Refusals
import SqlCatalog.Proofs.Text.PlainNames
import SqlCatalog.Proofs.Text.LowerCase
import SqlCatalog.Proofs.Text.SmallForms
import SqlCatalog.Proofs.Catalog.PseudoIndexes
import SqlCatalog.Proofs.Catalog.Reports
import SqlCatalog.Proofs.Token.Phrases
import SqlCatalog.Proofs.Definition.Literals
import SqlCatalog.Proofs.Text.TypeNames
import SqlCatalog.Proofs.Definition.Descriptions
import SqlCatalog.Proofs.Definition.PhraseReaders
import SqlCatalog.Proofs.Definition.ColumnReaders
import SqlCatalog.Proofs.Definition.TableReaders
import SqlCatalog.Proofs.Definition.StatementReaders
import SqlCatalog.Proofs.Catalog.Scripts
import SqlCatalog.Proofs.Catalog.NamedObjects
import SqlCatalog.Proofs.Token.Borders
import SqlCatalog.Proofs.Catalog.Sequencing
import SqlCatalog.Proofs.Definition.TableMeaning
import SqlCatalog.Proofs.Definition.SpelledParts
import SqlCatalog.Proofs.Definition.SpelledBodies
import SqlCatalog.Proofs.Definition.TableDrafts
import SqlCatalog.Proofs.Catalog.TableGrammar
import SqlCatalog.Proofs.Token.Comments
import SqlCatalog.Proofs.Catalog.Comments
import SqlCatalog.Proofs.Catalog.Additions
import SqlCatalog.Proofs.Catalog.Mirrored
import SqlCatalog.Proofs.Catalog.Transport
import SqlCatalog.Proofs.Catalog.Dialects
import SqlCatalog.Proofs.Token.NormalForm
import SqlCatalog.Proofs.Token.Faults
import SqlCatalog.Proofs.Token.Leaves
import SqlCatalog.Proofs.Token.Levels
import SqlCatalog.Proofs.Token.PrintedStatements
import SqlCatalog.Proofs.Query.QueryTokens
import SqlCatalog.Proofs.Query.QueryTrees
import SqlCatalog.Proofs.Query.Precedence
import SqlCatalog.Proofs.Query.Meaning
import SqlCatalog.Proofs.Query.ReadExpressions
import SqlCatalog.Proofs.Query.ReadBack
import SqlCatalog.Proofs.Query.Binding
import SqlCatalog.Proofs.Query.Calls
import SqlCatalog.Proofs.Text.LetterCase
import SqlCatalog.Proofs.Token.LetterCase
import SqlCatalog.Proofs.Token.Recased
import SqlCatalog.Proofs.Catalog.FoldedNames
import SqlCatalog.Proofs.Definition.FoldedReaders
import SqlCatalog.Proofs.Definition.FoldedDrafts
import SqlCatalog.Proofs.Catalog.LetterCase
import SqlCatalog.Proofs.Query.BoundFragments
import SqlCatalog.Proofs.Query.NameOrder
import SqlCatalog.Proofs.Query.ColumnValues
import SqlCatalog.Proofs.Query.NewRows
import SqlCatalog.Proofs.Query.WrittenValues
import SqlCatalog.Proofs.Catalog.SeedRows
import SqlCatalog.Proofs.Query.Selections
import SqlCatalog.Proofs.Token.QuotedNames
import SqlCatalog.Proofs.Query.Patterns
import SqlCatalog.Proofs.Catalog.IndexNames
import SqlCatalog.Proofs.Definition.LiteralTokens
import SqlCatalog.Proofs.Definition.StatementSyntax
import SqlCatalog.Proofs.Definition.ItemTokens
import SqlCatalog.Proofs.Definition.ClauseRuns
import SqlCatalog.Proofs.Catalog.StatementGrammar
import SqlCatalog.Proofs.Catalog.ClauseOrder
import SqlCatalog.Proofs.Catalog.ReferenceLists
import SqlCatalog.Proofs.Catalog.Dispatch
import SqlCatalog.Proofs.Catalog.PrintedTypes
import SqlCatalog.Proofs.Token.GroupShapes
import SqlCatalog.Proofs.Catalog.Audits
import SqlCatalog.Proofs.Query.JoinTrees
import SqlCatalog.Proofs.Query.ReadSources
import SqlCatalog.Proofs.Token.FlatTokens
import SqlCatalog.Proofs.Catalog.TypeFamilies
