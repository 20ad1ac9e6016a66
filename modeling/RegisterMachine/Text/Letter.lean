import RegisterMachine.Text.LetterRanges

namespace RegisterMachine.Text

def isLetterOrNumeral (c : Char) : Bool :=
  if c.toNat < 0x80 then c.isAlphanum
  else (rangesFor c.toNat).any (fun r => r.1 ≤ c.toNat && c.toNat ≤ r.2)

theorem isLetterOrNumeral_ascii {c : Char} (h : c.toNat < 0x80) :
    isLetterOrNumeral c = c.isAlphanum := by
  simp [isLetterOrNumeral, h]

def isSpace (c : Char) : Bool :=
  (0x09 ≤ c.toNat && c.toNat ≤ 0x0D) || c.toNat == 0x20 || c.toNat == 0x85 || c.toNat == 0xA0 ||
    c.toNat == 0x1680 || (0x2000 ≤ c.toNat && c.toNat ≤ 0x200A) || c.toNat == 0x2028 ||
    c.toNat == 0x2029 || c.toNat == 0x202F || c.toNat == 0x205F || c.toNat == 0x3000

def trim (s : List Char) : List Char :=
  ((s.dropWhile isSpace).reverse.dropWhile isSpace).reverse

-- Ligatures and the sharp s have capitals of several letters, the dotless i and the long s have plain
-- ones; a character with other capitals stands for itself.
def capital (c : Char) : List Char :=
  match c with
  | 'ß' => ['S', 'S']
  | 'ı' => ['I']
  | 'ſ' => ['S']
  | 'ﬀ' => ['F', 'F']
  | 'ﬁ' => ['F', 'I']
  | 'ﬂ' => ['F', 'L']
  | 'ﬃ' => ['F', 'F', 'I']
  | 'ﬄ' => ['F', 'F', 'L']
  | 'ﬅ' => ['S', 'T']
  | 'ﬆ' => ['S', 'T']
  | c => [c.toUpper]

def capitals (s : List Char) : List Char := s.flatMap capital

end RegisterMachine.Text
