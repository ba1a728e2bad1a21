/-!
# VectorTable — white space

The Unicode property White_Space, and texts that consist of nothing else.
-/

namespace VectorTable.Text

/-- White space in the sense of Unicode: the ASCII controls from tab to carriage return, the
spaces of all widths and the separators of lines and paragraphs. -/
def isBlank (c : Char) : Bool :=
  let n := c.toNat
  (0x09 ≤ n && n ≤ 0x0d) || n = 0x20 || n = 0x85 || n = 0xa0 || n = 0x1680 ||
    (0x2000 ≤ n && n ≤ 0x200a) || n = 0x2028 || n = 0x2029 || n = 0x202f || n = 0x205f ||
    n = 0x3000

/-- Nothing is left of the text once the white space at its ends is taken off. -/
def isBlankText (s : String) : Bool := s.toList.all isBlank

end VectorTable.Text
