namespace JsonQuery
namespace Unicode
namespace Ranges

/-- The code points of category Zs in Unicode 16, as ranges with both ends. -/
def spaceSeparator : List (Nat × Nat) := [
  (0x20, 0x20), (0xA0, 0xA0), (0x1680, 0x1680), (0x2000, 0x200A), (0x202F, 0x202F),
  (0x205F, 0x205F), (0x3000, 0x3000)]

/-- Category Zl. -/
def lineSeparator : List (Nat × Nat) := [
  (0x2028, 0x2028)]

/-- Category Zp. -/
def paragraphSeparator : List (Nat × Nat) := [
  (0x2029, 0x2029)]

/-- Category Cc. -/
def control : List (Nat × Nat) := [
  (0x0, 0x1F), (0x7F, 0x9F)]

/-- Category Cf. -/
def format : List (Nat × Nat) := [
  (0xAD, 0xAD), (0x600, 0x605), (0x61C, 0x61C), (0x6DD, 0x6DD), (0x70F, 0x70F), (0x890, 0x891),
  (0x8E2, 0x8E2), (0x180E, 0x180E), (0x200B, 0x200F), (0x202A, 0x202E), (0x2060, 0x2064),
  (0x2066, 0x206F), (0xFEFF, 0xFEFF), (0xFFF9, 0xFFFB), (0x110BD, 0x110BD), (0x110CD, 0x110CD),
  (0x13430, 0x1343F), (0x1BCA0, 0x1BCA3), (0x1D173, 0x1D17A), (0xE0001, 0xE0001),
  (0xE0020, 0xE007F)]

/-- Category Co. -/
def privateUse : List (Nat × Nat) := [
  (0xE000, 0xF8FF), (0xF0000, 0xFFFFD), (0x100000, 0x10FFFD)]

end Ranges
end Unicode
end JsonQuery
