namespace TableFlow.Text

/-- Unicode White_Space: the ASCII control blanks and the space, and the wide, narrow and
breaking blanks outside ASCII. -/
def isBlank (c : Char) : Bool :=
  let n := c.toNat
  (9 ≤ n && n ≤ 13) || n == 0x20 || n == 0x85 || n == 0xA0 || n == 0x1680 ||
    (0x2000 ≤ n && n ≤ 0x200A) || n == 0x2028 || n == 0x2029 || n == 0x202F || n == 0x205F ||
    n == 0x3000

def trimStart (cs : List Char) : List Char := cs.dropWhile isBlank

def trimEnd (cs : List Char) : List Char := (cs.reverse.dropWhile isBlank).reverse

def trim (cs : List Char) : List Char := trimStart (trimEnd cs)

def trimmed (s : String) : String := String.ofList (trim s.toList)

def dropEndOf (c : Char) (cs : List Char) : List Char := (cs.reverse.dropWhile (· == c)).reverse

end TableFlow.Text
