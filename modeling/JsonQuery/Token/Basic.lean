import JsonQuery.Json.Numeral
import JsonQuery.Query.Basic
import JsonQuery.Text.Escaped

namespace JsonQuery
namespace Token

/-- Strings are held unescaped. A name stands after dots, a function before its parenthesis. -/
inductive Kind where
  | root
  | current
  | dot
  | doubleDot
  | openBracket
  | closeBracket
  | comma
  | colon
  | question
  | openParen
  | closeParen
  | wildcard
  | comparison (op : ComparisonOp)
  | logical (op : LogicalOp)
  | not
  | string (value : String)
  | number (value : Numeral)
  | bool (value : Bool)
  | null
  | name (value : String)
  | function (value : String)
  | endOfQuery
  deriving DecidableEq

namespace Kind

/-- The spelling of a token that has only one. -/
def symbol? : Kind → Option String
  | .root => some "$"
  | .current => some "@"
  | .dot => some "."
  | .doubleDot => some ".."
  | .openBracket => some "["
  | .closeBracket => some "]"
  | .comma => some ","
  | .colon => some ":"
  | .question => some "?"
  | .openParen => some "("
  | .closeParen => some ")"
  | .wildcard => some "*"
  | .comparison op => some op.symbol
  | .logical op => some op.symbol
  | .not => some "!"
  | .bool true => some "true"
  | .bool false => some "false"
  | .null => some "null"
  | _ => none

/-- How messages name a token. -/
def description (k : Kind) : String :=
  match k with
  | .string s => "string " ++ Escaped.string s
  | .number n => "number " ++ n.text
  | .name s => "name '" ++ s ++ "'"
  | .function s => "function '" ++ s ++ "'"
  | .endOfQuery => "end of query"
  | k => "'" ++ k.symbol?.getD "" ++ "'"

end Kind
end Token

/-- A token, and the number of bytes before it in the text of the query. -/
structure Token where
  kind : Token.Kind
  offset : Nat
  deriving DecidableEq

/-- The tokens of a query, and the number of bytes of its text. -/
structure TokenStream where
  tokens : List Token
  stop : Nat
  deriving DecidableEq

namespace TokenStream

/-- The tokens with the mark of the end behind them. -/
def toList (s : TokenStream) : List Token := s.tokens ++ [⟨.endOfQuery, s.stop⟩]

end TokenStream
end JsonQuery
