import JsonQuery.Environment
import JsonQuery.Json.Reader
import JsonQuery.Json.Writer
import JsonQuery.Pointer.Relative
import JsonQuery.Proofs.Evaluation.Fallback
import JsonQuery.Proofs.Evaluation.Locality
import JsonQuery.Proofs.Evaluation.MemberOrder
import JsonQuery.Proofs.Evaluation.NormalizedPath
import JsonQuery.Proofs.Grammar.Acceptance
import JsonQuery.Proofs.Query.Tokens
import JsonQuery.Regexp.Writer
import JsonQuery.Proofs.Query.Printing
import JsonQuery.Proofs.Pointer.Location
import JsonQuery.Proofs.Regexp.Notation
import JsonQuery.Proofs.Regexp.Reading
import JsonQuery.Proofs.Regexp.Denotation
import JsonQuery.Proofs.Regexp.Grammar
import JsonQuery.Proofs.Regexp.Soundness
import JsonQuery.Proofs.Regexp.Scanning
import JsonQuery.Proofs.Regexp.Translation
import JsonQuery.Proofs.Regexp.Completeness
import JsonQuery.Proofs.Grammar.Outline
import JsonQuery.Proofs.Query.Errors
import JsonQuery.Proofs.Evaluation.Sameness
import JsonQuery.Proofs.Json.Comparison
import JsonQuery.Proofs.Query.Signatures
import JsonQuery.Proofs.Evaluation.Word
import JsonQuery.Proofs.Evaluation.Overflow
import JsonQuery.Proofs.Evaluation.DocumentOrder
import JsonQuery.Proofs.Query.IntegerLiteral
import JsonQuery.Proofs.Evaluation.Singular
import JsonQuery.Proofs.Query.PathText
import JsonQuery.Proofs.Regexp.Acceptance
import JsonQuery.Proofs.Regexp.Finding
import JsonQuery.Proofs.Token.StringLiteral
import JsonQuery.Proofs.Pointer.RelativeText
import JsonQuery.Proofs.Pointer.Reading
import JsonQuery.Proofs.Text.Utf8
import JsonQuery.Proofs.Query.Calls
import JsonQuery.Proofs.Function.History
import JsonQuery.Proofs.Pointer.Offset
