import JsonQuery.Unicode.Letters
import JsonQuery.Unicode.Marks
import JsonQuery.Unicode.Numbers
import JsonQuery.Unicode.Others
import JsonQuery.Unicode.Punctuation
import JsonQuery.Unicode.RangeSet
import JsonQuery.Unicode.Symbols

namespace JsonQuery
namespace Unicode

/-- The general categories of characters. Surrogates have one too, but are no characters. -/
inductive Category where
  | uppercaseLetter | lowercaseLetter | titlecaseLetter | modifierLetter | otherLetter
  | nonspacingMark | spacingMark | enclosingMark
  | decimalNumber | letterNumber | otherNumber
  | connectorPunctuation | dashPunctuation | openPunctuation | closePunctuation
  | initialPunctuation | finalPunctuation | otherPunctuation
  | mathSymbol | currencySymbol | modifierSymbol | otherSymbol
  | spaceSeparator | lineSeparator | paragraphSeparator
  | control | format | privateUse | unassigned
  deriving DecidableEq

namespace Category

def code : Category → String
  | uppercaseLetter => "Lu"
  | lowercaseLetter => "Ll"
  | titlecaseLetter => "Lt"
  | modifierLetter => "Lm"
  | otherLetter => "Lo"
  | nonspacingMark => "Mn"
  | spacingMark => "Mc"
  | enclosingMark => "Me"
  | decimalNumber => "Nd"
  | letterNumber => "Nl"
  | otherNumber => "No"
  | connectorPunctuation => "Pc"
  | dashPunctuation => "Pd"
  | openPunctuation => "Ps"
  | closePunctuation => "Pe"
  | initialPunctuation => "Pi"
  | finalPunctuation => "Pf"
  | otherPunctuation => "Po"
  | mathSymbol => "Sm"
  | currencySymbol => "Sc"
  | modifierSymbol => "Sk"
  | otherSymbol => "So"
  | spaceSeparator => "Zs"
  | lineSeparator => "Zl"
  | paragraphSeparator => "Zp"
  | control => "Cc"
  | format => "Cf"
  | privateUse => "Co"
  | unassigned => "Cn"

/-- The categories that have a table. -/
def assigned : List Category := [
  uppercaseLetter, lowercaseLetter, titlecaseLetter, modifierLetter, otherLetter,
  nonspacingMark, spacingMark, enclosingMark,
  decimalNumber, letterNumber, otherNumber,
  connectorPunctuation, dashPunctuation, openPunctuation, closePunctuation,
  initialPunctuation, finalPunctuation, otherPunctuation,
  mathSymbol, currencySymbol, modifierSymbol, otherSymbol,
  spaceSeparator, lineSeparator, paragraphSeparator,
  control, format, privateUse]

def ranges : Category → RangeSet
  | uppercaseLetter => Ranges.uppercaseLetter
  | lowercaseLetter => Ranges.lowercaseLetter
  | titlecaseLetter => Ranges.titlecaseLetter
  | modifierLetter => Ranges.modifierLetter
  | otherLetter => Ranges.otherLetter
  | nonspacingMark => Ranges.nonspacingMark
  | spacingMark => Ranges.spacingMark
  | enclosingMark => Ranges.enclosingMark
  | decimalNumber => Ranges.decimalNumber
  | letterNumber => Ranges.letterNumber
  | otherNumber => Ranges.otherNumber
  | connectorPunctuation => Ranges.connectorPunctuation
  | dashPunctuation => Ranges.dashPunctuation
  | openPunctuation => Ranges.openPunctuation
  | closePunctuation => Ranges.closePunctuation
  | initialPunctuation => Ranges.initialPunctuation
  | finalPunctuation => Ranges.finalPunctuation
  | otherPunctuation => Ranges.otherPunctuation
  | mathSymbol => Ranges.mathSymbol
  | currencySymbol => Ranges.currencySymbol
  | modifierSymbol => Ranges.modifierSymbol
  | otherSymbol => Ranges.otherSymbol
  | spaceSeparator => Ranges.spaceSeparator
  | lineSeparator => Ranges.lineSeparator
  | paragraphSeparator => Ranges.paragraphSeparator
  | control => Ranges.control
  | format => Ranges.format
  | privateUse => Ranges.privateUse
  | unassigned => []

end Category

/-- The category of a character: that of the table which lists it. -/
def category (c : Char) : Category :=
  (Category.assigned.find? (fun k => k.ranges.contains c.toNat)).getD .unassigned

end Unicode
end JsonQuery
