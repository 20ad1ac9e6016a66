import RegisterMachine.File
import RegisterMachine.Path

namespace RegisterMachine

inductive FileError where
  | notFound
  | notADirectory
  | isADirectory
  | nameTooLong
  | noSpace
  | nulInName
  | notUtf8
deriving DecidableEq, Repr

namespace FileError

def message : FileError → String
  | .notFound => "No such file or directory (os error 2)"
  | .notADirectory => "Not a directory (os error 20)"
  | .isADirectory => "Is a directory (os error 21)"
  | .nameTooLong => "File name too long (os error 36)"
  | .noSpace => "No space left on device (os error 28)"
  | .nulInName => "file name contained an unexpected NUL byte"
  | .notUtf8 => "stream did not contain valid UTF-8"

end FileError

inductive Node where
  | file (bytes : List UInt8)
  | directory
  | void
  | endless
  | full
  | stream (written : List UInt8)
deriving DecidableEq, Repr

namespace Node

def content : Node → File
  | .file bytes => File.ofBytes bytes
  | .directory => ⟨4096, .unreadable FileError.isADirectory.message⟩
  | .void | .stream _ => ⟨0, .finite []⟩
  | .endless | .full => ⟨0, .endless (fun _ => 0)⟩

def overwrite (bytes : List UInt8) : Node → Except FileError Node
  | .file _ => .ok (.file bytes)
  | .directory => .error .isADirectory
  | .void => .ok .void
  | .endless => .ok .endless
  | .full => if bytes = [] then .ok .full else .error .noSpace
  | .stream written => .ok (.stream (written ++ bytes))

end Node

abbrev Place := List Name

structure Files where
  entries : List (Place × Node)
  working : Place
deriving DecidableEq, Repr

namespace Files

def device (name : String) : Place := [Path.ofText "dev", Path.ofText name]

def devices : List (Place × Node) :=
  [(device "null", .void), (device "stdin", .void), (device "zero", .endless),
    (device "random", .endless), (device "urandom", .endless), (device "full", .full),
    (device "stdout", .stream []), (device "stderr", .stream [])]

def bare (working : Place) : Files := ⟨(working, .directory) :: devices, working⟩

def insert (f : Files) (p : Place) (n : Node) : Files :=
  { f with entries := (p, n) :: f.entries.filter (fun entry => entry.1 ≠ p) }

def hasBelow (f : Files) (p : Place) : Bool :=
  f.entries.any (fun (q, _) => p.isPrefixOf q)

-- A directory is there also if only something below it is known.
def node? (f : Files) (p : Place) : Option Node :=
  (f.entries.lookup p).or (if p = [] ∨ f.hasBelow p then some .directory else none)

def origin (f : Files) (p : Path) : Place := if p.isAbsolute then [] else f.working

def walk (f : Files) (p : Place) : List Name → Except FileError Place
  | [] => .ok p
  | n :: rest =>
      if f.node? p ≠ some .directory then .error .notADirectory
      else if 255 < n.length then .error .nameTooLong
      else if n = Path.here then walk f p rest
      else if n = Path.above then walk f p.dropLast rest
      else if (f.node? (p ++ [n])).isNone then .error .notFound
      else walk f (p ++ [n]) rest

def route (p : Path) : List Name :=
  if p.endsInSlash then p.names ++ [Path.here] else p.names

def checkPath (p : Path) : Except FileError Unit :=
  if 0 ∈ p then .error .nulInName
  else if p = [] then .error .notFound
  else if 4096 ≤ p.length then .error .nameTooLong
  else .ok ()

def openFile (f : Files) (p : Path) : Except FileError File := do
  checkPath p
  let place ← f.walk (f.origin p) (route p)
  match f.node? place with
  | some n => .ok n.content
  | none => .error .notFound

def write (f : Files) (p : Path) (bytes : List UInt8) : Except FileError Files := do
  checkPath p
  match p.names.getLast? with
  | none => .error .isADirectory
  | some last =>
      if last = Path.here ∨ last = Path.above then
        let _ ← f.walk (f.origin p) p.names
        .error .isADirectory
      else
        let parent ← f.walk (f.origin p) (p.names.dropLast ++ [Path.here])
        if p.endsInSlash then .error .isADirectory
        else if 255 < last.length then .error .nameTooLong
        else
          let place := parent ++ [last]
          let node ← ((f.node? place).getD (.file [])).overwrite bytes
          .ok (f.insert place node)

def streamed (f : Files) (name : String) : List UInt8 :=
  match f.node? (device name) with
  | some (.stream written) => written
  | _ => []

def fromWorking? (f : Files) (p : Place) : Option (List Name) :=
  if f.working.isPrefixOf p then some (p.drop f.working.length) else none

def changes (before after : Files) : List (List Name × List UInt8) :=
  after.entries.filterMap (fun (p, n) => match n with
    | .file bytes =>
        if before.entries.lookup p = some n then none
        else (after.fromWorking? p).map (fun names => (names, bytes))
    | _ => none)

end Files

end RegisterMachine
