import JsonQuery.Function.Standard
import JsonQuery.Query.Evaluation
import JsonQuery.Query.Grammar

namespace JsonQuery

/-- What queries are compiled against: functions, and how deep filters, parentheses and calls may
be nested. -/
structure Environment where
  registry : Registry := .standard
  maxDepth : Nat := 128

namespace Environment

def default : Environment := {}

/-- The query that a text spells. Blanks at either end are found before anything else, those in
front first. -/
def compile (env : Environment) (text : String) : Except QueryError Query :=
  let cs := text.toList
  if cs.head?.any isBlank then .error ⟨.leadingBlank, 0⟩
  else if cs.getLast?.any isBlank then .error ⟨.trailingBlank, Token.size cs - 1⟩
  else do
    let s ← (Token.tokenize text).mapError QueryError.ofToken
    (Grammar.mk env.registry env.maxDepth s.stop).query s.tokens

/-- The nodes that a query text selects in a document. -/
def query (env : Environment) (text : String) (document : Json) : Except QueryError (List Node) :=
  (env.compile text).map (fun q => q.evaluate document)

end Environment
end JsonQuery
