/-!
White space as the `White_Space` property lists it, and the blank test and the trimming built on it.
-/
namespace GraphClient.Text

/-- Code points with the `White_Space` property; zero-width marks and information separators lack it. -/
def isWhite (c : Char) : Bool :=
  let n := c.toNat
  (9 ≤ n && n ≤ 13) || n == 0x20 || n == 0x85 || n == 0xA0 || n == 0x1680 ||
    (0x2000 ≤ n && n ≤ 0x200A) || n == 0x2028 || n == 0x2029 || n == 0x202F || n == 0x205F || n == 0x3000

def isBlank (s : String) : Bool := s.toList.all isWhite

def trimStart (s : String) : String := String.ofList (s.toList.dropWhile isWhite)

def trim (s : String) : String :=
  String.ofList ((s.toList.dropWhile isWhite).reverse.dropWhile isWhite).reverse

def joined (mark : String) (pieces : List String) : String := mark.intercalate pieces

end GraphClient.Text
