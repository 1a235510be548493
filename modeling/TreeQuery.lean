import TreeQuery.Main
import TreeQuery.Proofs.ReferenceGraph
import TreeQuery.Proofs.ShapeWalk
import TreeQuery.Proofs.TreePaths
import TreeQuery.Proofs.Acceptance
import TreeQuery.Proofs.PathSearch
import TreeQuery.Proofs.JoinOrder
import TreeQuery.Proofs.JoinSteps
import TreeQuery.Proofs.JoinMeaning
import TreeQuery.Proofs.Compilation
import TreeQuery.Proofs.Expansion
import TreeQuery.Proofs.Answers
import TreeQuery.Proofs.SqlTokens
import TreeQuery.Proofs.NumberedTokens
import TreeQuery.Proofs.FilterTokens
import TreeQuery.Proofs.ReadBack
import TreeQuery.Proofs.Scope
import TreeQuery.Proofs.StatementTokens
import TreeQuery.Proofs.Caching
import TreeQuery.Proofs.Growth
import TreeQuery.Proofs.QueryForm
import TreeQuery.Proofs.OperatorSpelling
import TreeQuery.Proofs.WrittenFilters
import TreeQuery.Proofs.JsonNumbers
import TreeQuery.Proofs.JsonStrings
import TreeQuery.Proofs.JsonValues
import TreeQuery.Proofs.JsonCodecs
import TreeQuery.Proofs.JsonRecords
import TreeQuery.Proofs.SchemaDocuments
import TreeQuery.Proofs.QueryDocuments
import TreeQuery.Proofs.EdgeEnds
import TreeQuery.Proofs.Independence
import TreeQuery.Proofs.Rejection
import TreeQuery.Proofs.FilterChecking
import TreeQuery.Proofs.MentionOrder
import TreeQuery.Proofs.Requests
import TreeQuery.Proofs.SharedMemory
import TreeQuery.Proofs.Words
import TreeQuery.Proofs.SelectList
import TreeQuery.Proofs.QuotedNames
