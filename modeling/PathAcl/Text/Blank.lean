/-! # Blank characters
The characters of the Unicode property White_Space, and what it means for a text to be blank or to
have blanks around it. -/

namespace PathAcl.Text

/-- The property **White_Space**: tab to carriage return, space, next line, no-break space, Ogham
space, the typographic spaces from en quad to hair space, the two Unicode separators, narrow
no-break space, mathematical space and ideographic space. -/
def isBlank (c : Char) : Bool :=
  let n := c.toNat
  (0x9 ≤ n && n ≤ 0xD) || n == 0x20 || n == 0x85 || n == 0xA0 || n == 0x1680 ||
    (0x2000 ≤ n && n ≤ 0x200A) || n == 0x2028 || n == 0x2029 || n == 0x202F || n == 0x205F ||
    n == 0x3000

/-- Drops the blanks in front. -/
def trimStart (cs : List Char) : List Char := cs.dropWhile isBlank

/-- Drops the blanks on both sides. -/
def trim (cs : List Char) : List Char := (trimStart (trimStart cs).reverse).reverse

/-- Whether nothing but blanks is in the text. -/
def blank (s : String) : Bool := s.toList.all isBlank

end PathAcl.Text
