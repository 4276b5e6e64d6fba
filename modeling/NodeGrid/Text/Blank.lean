/-!
# Blank characters

White space is the Unicode property of that name: the 25 characters listed here and no others.
Blanks separate the words of a line and are trimmed from its end.
-/

namespace NodeGrid.Text

/-- The code points with the Unicode property White_Space. -/
def blankCodes : List Nat :=
  [0x09, 0x0A, 0x0B, 0x0C, 0x0D, 0x20, 0x85, 0xA0, 0x1680, 0x2000, 0x2001, 0x2002, 0x2003, 0x2004,
    0x2005, 0x2006, 0x2007, 0x2008, 0x2009, 0x200A, 0x2028, 0x2029, 0x202F, 0x205F, 0x3000]

/-- A character is white space. -/
def isBlank (char : Char) : Bool :=
  blankCodes.contains char.toNat

/-- Drop the white space at the end. -/
def trimEnd (text : List Char) : List Char :=
  (text.reverse.dropWhile isBlank).reverse

end NodeGrid.Text
