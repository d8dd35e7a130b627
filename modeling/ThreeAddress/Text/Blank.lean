import ThreeAddress.Text.CharClass

/-!
# Blank characters

The characters that may stand between tokens: the horizontal and vertical separators of ASCII, the
four information separators, and the spaces and line breaks beyond ASCII.
-/

namespace ThreeAddress.Text

def blankRanges : List CodeRange :=
  [⟨0x0009, 0x000d⟩, ⟨0x001c, 0x0020⟩, ⟨0x0085, 0x0085⟩, ⟨0x00a0, 0x00a0⟩, ⟨0x1680, 0x1680⟩,
   ⟨0x2000, 0x200a⟩, ⟨0x2028, 0x2029⟩, ⟨0x202f, 0x202f⟩, ⟨0x205f, 0x205f⟩, ⟨0x3000, 0x3000⟩]

def isBlank (c : Char) : Bool :=
  inClass blankRanges c

end ThreeAddress.Text
