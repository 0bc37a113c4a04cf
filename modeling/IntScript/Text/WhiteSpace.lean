import IntScript.Text.CharRanges

/-!
The Unicode property White_Space.
-/

namespace IntScript.Text

/-- Blanks, tabulators, line ends and the separators that are shown as space. -/
def whiteSpaceRanges : CharRanges := [
    (0x9, 0xd), (0x20, 0x20), (0x85, 0x85), (0xa0, 0xa0), (0x1680, 0x1680), (0x2000, 0x200a),
    (0x2028, 0x2029), (0x202f, 0x202f), (0x205f, 0x205f), (0x3000, 0x3000)]

def isWhiteSpace (c : Char) : Bool := whiteSpaceRanges.contains c

end IntScript.Text
