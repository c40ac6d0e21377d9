namespace Reconciliation.Text

/-- The characters with the White_Space property: the ASCII blanks, the next-line control, the
no-break space, the typographic spaces and the line and paragraph separators. -/
def isBlank (c : Char) : Bool :=
  let n := c.toNat
  (0x9 ≤ n && n ≤ 0xD) || n == 0x20 || n == 0x85 || n == 0xA0 || n == 0x1680 ||
    (0x2000 ≤ n && n ≤ 0x200A) || n == 0x2028 || n == 0x2029 || n == 0x202F ||
    n == 0x205F || n == 0x3000

/-- A token is a text of at least one character with no blank in it. -/
def isToken (text : String) : Bool :=
  !text.toList.isEmpty && text.toList.all fun c => !isBlank c

/-- The characters from the first one that is not blank. -/
def trimStart (chars : List Char) : List Char :=
  chars.dropWhile isBlank

def trim (text : String) : String :=
  String.ofList (trimStart (trimStart text.toList).reverse).reverse

end Reconciliation.Text
