import RegisterMachine.Instruction.Code
import RegisterMachine.Source.Line
import RegisterMachine.Source.Literal
import RegisterMachine.Symbols

namespace RegisterMachine

inductive Complaint where
  | unreadable (text : String)
  | notAnOperation (name : String)
  | notADirective (name : String)
  | wrongOperands (op : Opcode)
  | badLiteral (text : String)
  | noSuchRegister (text : String)
  | duplicateLabel (name : String)
  | undefinedLabel (name : String)
deriving DecidableEq, Repr

namespace Complaint

def message : Complaint → String
  | .unreadable text => "cannot parse `" ++ text ++ "`"
  | .notAnOperation name => name ++ " is not an operation"
  | .notADirective name => "." ++ name ++ " is not a directive"
  | .wrongOperands op => op.mnemonic ++ " expects " ++ op.format.expectation
  | .badLiteral text => "bad literal `" ++ text ++ "`"
  | .noSuchRegister text => "register " ++ text ++ " does not exist"
  | .duplicateLabel name => "label `" ++ name ++ "` is already defined"
  | .undefinedLabel name => "undefined label `" ++ name ++ "`"

end Complaint

inductive AssemblyError where
  | onLine (number : Nat) (complaint : Complaint)
  | tooLarge (size : Nat)
deriving DecidableEq, Repr

namespace AssemblyError

def message : AssemblyError → String
  | .onLine number complaint => "line " ++ Numeral.decimal number ++ ": " ++ complaint.message
  | .tooLarge size =>
      "program of " ++ Numeral.decimal size ++ " bytes exceeds the addressable range"

end AssemblyError

structure Assembly where
  image : List UInt8
  symbols : Symbols
deriving DecidableEq, Repr

def Opcode.ofName? (name : String) : Option Opcode :=
  ofMnemonic? (String.ofList (Text.capitals name.toList))

namespace Source

inductive Directive where
  | int | byte | string
deriving DecidableEq, Repr

def Directive.ofName? : String → Option Directive
  | "int" => some .int
  | "byte" => some .byte
  | "string" => some .string
  | _ => none

namespace Operand

def stringSize : Operand → Nat
  | .quoted raw => (Literal.stringBytes raw).length
  | _ => 0

def word? (symbols : Symbols) : Operand → Option (Except Complaint Word)
  | .number literal => some (match Literal.word? literal with
    | some w => .ok w
    | none => .error (.badLiteral literal))
  | .label name => some (match symbols.address? name with
    | some address => .ok (Int32.ofNat address)
    | none => .error (.undefinedLabel name))
  | _ => none

def register? : Operand → Option (Except Complaint Register)
  | .register written => some (match Literal.register? written with
    | some r => .ok r
    | none => .error (.noSuchRegister written))
  | _ => none

def asWord (symbols : Symbols) (otherwise : Complaint) (o : Operand) : Except Complaint Word :=
  (o.word? symbols).getD (.error otherwise)

def asRegister (otherwise : Complaint) (o : Operand) : Except Complaint Register :=
  o.register?.getD (.error otherwise)

end Operand

def instruction (symbols : Symbols) (op : Opcode) (os : List Operand) :
    Except Complaint Instruction :=
  let wrong := Complaint.wrongOperands op
  match op, os with
  | .plain p, [] => .ok (.plain p)
  | .unary u, [a] => do
      return .unary u (← a.asRegister wrong)
  | .binary b, [x, y] => do
      let first ← x.asRegister wrong
      let second ← y.asRegister wrong
      return .binary b first second
  | .immediate i, [x, y] => do
      let register ← x.asRegister wrong
      let value ← y.asWord symbols wrong
      return .immediate i register value
  | .branch b, [a] => do
      return .branch b (← a.asWord symbols wrong)
  | _, _ => .error wrong

def Directive.piece (symbols : Symbols) (otherwise : Complaint) :
    Directive → Operand → Except Complaint (List UInt8)
  | .int, o => (o.asWord symbols otherwise).map Word.bytes
  | .byte, o => (o.asWord symbols otherwise).map (fun w => [Word.lowByte w])
  | .string, .quoted raw => .ok (Literal.stringBytes raw)
  | .string, _ => .error otherwise

def Directive.bytes (symbols : Symbols) (otherwise : Complaint) (d : Directive) :
    List Operand → Except Complaint (List UInt8)
  | [] => .ok []
  | o :: os => do
      let here ← d.piece symbols otherwise o
      return here ++ (← bytes symbols otherwise d os)

def Directive.size (d : Directive) (os : List Operand) : Nat :=
  match d with
  | .int => 4 * os.length
  | .byte => os.length
  | .string => os.foldr (fun o rest => o.stringSize + rest) 0

namespace Statement

def size : Statement → Except Complaint Nat
  | .operation name _ => match Opcode.ofName? name with
    | some op => .ok op.width
    | none => .error (.notAnOperation name)
  | .directive name os => match Directive.ofName? name with
    | some d => .ok (d.size os)
    | none => .error (.notADirective name)

def bytes (symbols : Symbols) : Statement → Except Complaint (List UInt8)
  | .operation name os => match Opcode.ofName? name with
    | some op => (instruction symbols op os).map Instruction.encode
    | none => .error (.notAnOperation name)
  | .directive name os => match Directive.ofName? name with
    | some d => d.bytes symbols (.notADirective name) os
    | none => .error (.notADirective name)

end Statement

namespace Line

def read (text : List Char) : Except Complaint Line :=
  match Line.read? text with
  | some line => .ok line
  | none => .error (.unreadable (String.ofList (Text.trim text)))

def define (line : Line) (symbols : Symbols) (address : Nat) : Except Complaint Symbols :=
  match line.label with
  | none => .ok symbols
  | some name => match symbols.insert name address with
    | .ok extended => .ok extended
    | .error _ => .error (.duplicateLabel name)

def size (line : Line) : Except Complaint Nat :=
  match line.statement with
  | none => .ok 0
  | some statement => statement.size

def bytes (symbols : Symbols) (line : Line) : Except Complaint (List UInt8) :=
  match line.statement with
  | none => .ok []
  | some statement => statement.bytes symbols

end Line

end Source

namespace Assembly

open Source

def sizeLimit : Nat := 2147483647

def blame {α : Type} (number : Nat) : Except Complaint α → Except AssemblyError α
  | .ok a => .ok a
  | .error complaint => .error (.onLine number complaint)

structure Survey where
  lines : List Line
  symbols : Symbols
  address : Nat
deriving DecidableEq, Repr

namespace Survey

def start : Survey := ⟨[], Symbols.empty, 0⟩

def extend (s : Survey) (number : Nat) (text : List Char) : Except AssemblyError Survey := do
  let line ← blame number (Line.read text)
  let symbols ← blame number (line.define s.symbols s.address)
  let size ← blame number line.size
  let address := s.address + size
  if sizeLimit < address then .error (.tooLarge address)
  else .ok ⟨line :: s.lines, symbols, address⟩

def ofLines (s : Survey) (number : Nat) : List (List Char) → Except AssemblyError Survey
  | [] => .ok s
  | text :: rest => match s.extend number text with
    | .ok t => ofLines t (number + 1) rest
    | .error e => .error e

end Survey

def write (symbols : Symbols) (written : Array UInt8) (number : Nat) :
    List Line → Except AssemblyError (Array UInt8)
  | [] => .ok written
  | line :: rest => match blame number (line.bytes symbols) with
    | .ok bytes => write symbols (written ++ bytes) (number + 1) rest
    | .error e => .error e

def ofLines (texts : List (List Char)) : Except AssemblyError Assembly := do
  let survey ← Survey.start.ofLines 1 texts
  let image ← write survey.symbols #[] 1 survey.lines.reverse
  return ⟨image.toList, survey.symbols⟩

def ofSource (text : String) : Except AssemblyError Assembly := ofLines (Source.lines text)

end Assembly

end RegisterMachine
