/-! White space in the sense of the Unicode property White_Space, and texts stripped of it.
Texts are lists of characters here, so every operation is one of the list operators. -/
namespace ModelWorkspace.Text

/-- The 25 characters with the property White_Space. -/
def isBlank (c : Char) : Bool :=
  let n := c.toNat
  (0x09 ≤ n && n ≤ 0x0d) || n == 0x20 || n == 0x85 || n == 0xa0 || n == 0x1680 ||
    (0x2000 ≤ n && n ≤ 0x200a) || n == 0x2028 || n == 0x2029 || n == 0x202f || n == 0x205f ||
    n == 0x3000

def trimStart (s : List Char) : List Char := s.dropWhile isBlank

def trimEnd (s : List Char) : List Char := (s.reverse.dropWhile isBlank).reverse

def trim (s : List Char) : List Char := trimEnd (trimStart s)

@[simp] theorem trimStart_nil : trimStart [] = [] := rfl

@[simp] theorem trim_nil : trim [] = [] := rfl

/-- The text up to the first character that satisfies the test, and the text from there on. -/
def splitBefore (stop : Char → Bool) (s : List Char) : List Char × List Char :=
  (s.takeWhile (fun c => !stop c), s.dropWhile (fun c => !stop c))

theorem splitBefore_append (stop : Char → Bool) (s : List Char) :
    (splitBefore stop s).1 ++ (splitBefore stop s).2 = s :=
  List.takeWhile_append_dropWhile

end ModelWorkspace.Text
