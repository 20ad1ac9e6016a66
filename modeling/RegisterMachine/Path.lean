import RegisterMachine.Text.Utf8

namespace RegisterMachine

abbrev Path := List UInt8

abbrev Name := List UInt8

namespace Path

def slash : UInt8 := 47

def dot : UInt8 := 46

def here : Name := [dot]

def above : Name := [dot, dot]

def ofText (s : String) : Path := Text.bytes s.toList

def text (p : Path) : String := String.ofList (Text.decodeLossy p)

def parts (p : Path) : List Name := p.splitOn slash

def names (p : Path) : List Name := p.parts.filter (fun n => n ≠ [])

def isAbsolute (p : Path) : Bool := p.head? == some slash

def endsInSlash (p : Path) : Bool := p.getLast? == some slash

def fileName? (p : Path) : Option Name :=
  ((p.names.filter (· ≠ here)).getLast?).filter (· ≠ above)

def splitName (n : Name) : Name × Option Name :=
  let extension := (n.reverse.takeWhile (· ≠ dot)).reverse
  let stem := n.take (n.length - extension.length - 1)
  if stem = [] then (n, none) else (stem, some extension)

def extension? (p : Path) : Option Name := p.fileName?.bind (fun n => (splitName n).2)

def trimmed (p : Path) : Path :=
  [slash].intercalate (p.parts.reverse.dropWhile (fun n => n = [] ∨ n = here)).reverse

def dropExtension (p : Path) : Path := p.take (p.length - (p.extension?.getD []).length)

-- The old extension goes first, and where that leaves no name, as `..x` leaves the directory above,
-- nothing is added.
def withExtension (p : Path) (extension : Name) : Path :=
  let bare := p.dropExtension
  match bare.fileName? with
  | none => bare
  | some n =>
      let directory := bare.trimmed.take (bare.trimmed.length - n.length)
      directory ++ (splitName n).1 ++ dot :: extension

end Path

end RegisterMachine
