import JsonQuery.Regexp.Limits
import JsonQuery.Regexp.Matching
import JsonQuery.Regexp.Reader

namespace JsonQuery
namespace Regexp

/-- Whether the whole text matches a pattern. One that is no I-Regexp, or that cannot be matched,
matches nothing. -/
def isFullMatch (pattern text : String) : Bool :=
  match ofPattern pattern with
  | .ok r => r.isSupported .whole && r.matchesAll text.toList
  | .error _ => false

/-- Whether some part of the text matches a pattern. -/
def isPartMatch (pattern text : String) : Bool :=
  match ofPattern pattern with
  | .ok r => r.isSupported .part && r.matchesPart text.toList
  | .error _ => false

end Regexp
end JsonQuery
