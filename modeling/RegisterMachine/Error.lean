import RegisterMachine.Fault
import RegisterMachine.Text.CString

namespace RegisterMachine

inductive Objection where
  | ramSize (size : Nat)
  | registerCount (count : Nat)
  | codeRegion (size ram : Nat)
  | argumentsTooLong (count required available : Nat)
  | ramNotPositive (size : Int)
  | negativeCount (count : Int)
  | missing (name : String)
  | notUtf8 (name : String)
  | other (text : String)
deriving DecidableEq, Repr

namespace Objection

def message : Objection → String
  | .ramSize size => "RAM size " ++ Numeral.decimal size ++ " is outside 1..=268435456"
  | .registerCount count =>
      "register count " ++ Numeral.decimal count ++ " is outside 3..=256"
  | .codeRegion size ram =>
      "code region of " ++ Numeral.decimal size ++ " bytes does not fit RAM of " ++
        Numeral.decimal ram ++ " bytes"
  | .argumentsTooLong count required available =>
      Numeral.decimal count ++ " argument(s) need " ++ Numeral.decimal required ++
        " bytes above the code region but only " ++ Numeral.decimal available ++ " are available"
  | .ramNotPositive size => "RAM size must be positive, got " ++ Numeral.signed size
  | .negativeCount count => "negative argument count " ++ Numeral.signed count
  | .missing name => name ++ " is a null pointer"
  | .notUtf8 name => name ++ " is not valid UTF-8"
  | .other text => text

end Objection

inductive ResultCode where
  | ok
  | generalError
  | invalidHandle
  | loadFailed
  | executionFailed
  | invalidArgument
  | memoryFault
deriving DecidableEq, Repr

namespace ResultCode

def all : List ResultCode :=
  [.ok, .generalError, .invalidHandle, .loadFailed, .executionFailed, .invalidArgument,
   .memoryFault]

def number : ResultCode → Int
  | .ok => 0
  | .generalError => -1
  | .invalidHandle => -2
  | .loadFailed => -3
  | .executionFailed => -4
  | .invalidArgument => -5
  | .memoryFault => -6

def name : ResultCode → String
  | .ok => "Ok"
  | .generalError => "GeneralError"
  | .invalidHandle => "InvalidHandle"
  | .loadFailed => "LoadFailed"
  | .executionFailed => "ExecutionFailed"
  | .invalidArgument => "InvalidArgument"
  | .memoryFault => "MemoryFault"

def ofNumber (n : Int) : ResultCode :=
  (all.find? (fun code => code.number == n)).getD .generalError

end ResultCode

inductive Error where
  | invalidHandle (handle : Nat)
  | busy
  | registerOutOfRange (index : Int) (count : Nat)
  | memoryOutOfRange (access : Access)
  | unreadable (path reason : String)
  | emptyImage
  | imageTooLarge (length limit : Nat)
  | noProgram
  | fault (fault : Fault)
  | invalidArgument (objection : Objection)
  | general (text : String)
deriving DecidableEq, Repr

namespace Error

def message : Error → String
  | .invalidHandle handle => "invalid interpreter handle " ++ Numeral.hex 1 handle
  | .busy => "interpreter is busy executing a program"
  | .registerOutOfRange index count =>
      "register index " ++ Numeral.signed index ++ " out of range, valid registers are 0.." ++
        Numeral.decimal count
  | .memoryOutOfRange access => access.message
  | .unreadable path reason => "cannot read bytecode from '" ++ path ++ "': " ++ reason
  | .emptyImage => "bytecode image is empty"
  | .imageTooLarge length limit =>
      "bytecode image of " ++ Numeral.decimal length ++ " bytes does not fit the " ++
        Numeral.decimal limit ++ "-byte code region"
  | .noProgram => "no program has been loaded"
  | .fault f => f.message
  | .invalidArgument objection => "invalid argument: " ++ objection.message
  | .general text => text

def code : Error → ResultCode
  | .invalidHandle _ | .busy => .invalidHandle
  | .registerOutOfRange _ _ | .invalidArgument _ => .invalidArgument
  | .memoryOutOfRange _ => .memoryFault
  | .unreadable _ _ | .emptyImage | .imageTooLarge _ _ => .loadFailed
  | .noProgram | .fault _ => .executionFailed
  | .general _ => .generalError

theorem code_ne_ok (e : Error) : e.code ≠ .ok := by
  cases e <;> simp [code]

end Error

structure Channel where
  held : Option CString
deriving DecidableEq, Repr

namespace Channel

def empty : Channel := ⟨none⟩

def printable (text : String) : String :=
  String.ofList (text.toList.flatMap (fun c => if c = '\x00' then ['\\', '0'] else [c]))

def record (_ : Channel) (e : Error) : Channel :=
  ⟨some ((CString.ofText? (printable e.message)).getD CString.empty)⟩

def message (c : Channel) : Option String := c.held.map CString.text

end Channel

end RegisterMachine
