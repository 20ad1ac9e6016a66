import RegisterMachine.File
import RegisterMachine.Machine

namespace RegisterMachine

namespace File

-- A file that says itself that it is too long is not read, and of any other no more is read than shows
-- that it is too long.
def image (path : String) (limit : Nat) (f : File) : Except Error (List UInt8) :=
  if limit < f.length then .error (.imageTooLarge f.length limit)
  else match f.contents.first (limit + 1) with
    | .ok bytes => .ok bytes
    | .error reason => .error (.unreadable path reason)

def readImage (path : String) (limit : Nat) (opened : Except String File) :
    Except Error (List UInt8) :=
  match opened with
  | .error reason => .error (.unreadable path reason)
  | .ok f => f.image path limit

end File

namespace Machine

def load (m : Machine) (image : List UInt8) : Except Error Machine :=
  if m.phase = .running then .error .busy
  else if image = [] then .error .emptyImage
  else match m.state.memory.loadCode image with
    | .error e => .error e
    | .ok memory => .ok
        { m with
          state := { m.state with memory := memory, pc := 0 }
          phase := .ready
          steps := 0 }

def loadFile (m : Machine) (path : String) (opened : Except String File) :
    Except Error Machine :=
  if m.phase = .running then .error .busy
  else match File.readImage path m.state.memory.codeSize opened with
    | .error e => .error e
    | .ok image => m.load image

end Machine

end RegisterMachine
