/-
Characters that make up words. ASCII is decided by its own rule, the rest by the property tables.
-/
import Rollup.Text.Property.Alphabetic
import Rollup.Text.Property.Numeral
import Rollup.Text.Property.Mark

namespace Rollup.Text

/-- Letters and numerals of any script. -/
def isAlphanumeric (c : Char) : Bool :=
  if c.toNat < 0x80 then c.isAlphanum
  else alphabeticSet.contains c || decimalDigitSet.contains c || otherNumberSet.contains c

/-- Letters, decimal digits, marks and connectors: what a word of running text consists of. -/
def isWordChar (c : Char) : Bool :=
  if c.toNat < 0x80 then c.isAlphanum || c == '_'
  else alphabeticSet.contains c || decimalDigitSet.contains c || wordMarkSet.contains c

/-- An ASCII letter or the underscore. -/
def isIdentStart (c : Char) : Bool :=
  c.isAlpha || c == '_'

/-- An ASCII letter, digit or the underscore. -/
def isIdentChar (c : Char) : Bool :=
  c.isAlphanum || c == '_'

/-- A name such as `total_2024`: ASCII letters, digits and underscores, no digit first. -/
def isIdentifier : List Char → Bool
  | [] => false
  | c :: rest => isIdentStart c && rest.all isIdentChar

end Rollup.Text
