namespace JsonQuery

/-- The blanks of JSON and of queries; no other white space counts. -/
def isBlank (c : Char) : Bool := c == ' ' || c == '\t' || c == '\n' || c == '\r'

end JsonQuery
