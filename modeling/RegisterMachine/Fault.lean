import RegisterMachine.Numeral
import RegisterMachine.Opcode

namespace RegisterMachine

structure Access where
  address : Int
  width : Nat
  size : Nat
deriving DecidableEq, Repr

namespace Access

def Fits (a : Access) : Prop := 0 ≤ a.address ∧ a.address + a.width ≤ a.size

instance (a : Access) : Decidable a.Fits := by unfold Fits; infer_instance

def message (a : Access) : String :=
  Numeral.decimal a.width ++ "-byte access at address " ++ Numeral.signed a.address ++
    " is outside memory of " ++ Numeral.decimal a.size ++ " bytes"

end Access

inductive FaultKind where
  | invalidOpcode (code : UInt8)
  | truncatedInstruction (width available : Nat)
  | pcOutOfRange (target : Int)
  | invalidRegister (index : UInt8) (count : Nat)
  | memoryViolation (access : Access)
  | divisionByZero
  | instructionLimit (limit : Nat)
  | output (reason : String)
deriving DecidableEq, Repr

namespace FaultKind

def message : FaultKind → String
  | .invalidOpcode code => "invalid opcode " ++ Numeral.hex 2 code.toNat
  | .truncatedInstruction width available =>
      "instruction needs " ++ Numeral.decimal width ++ " bytes but only " ++
        Numeral.decimal available ++ " remain in memory"
  | .pcOutOfRange target => "program counter " ++ Numeral.signed target ++ " is outside memory"
  | .invalidRegister index count =>
      "register R" ++ Numeral.decimal index.toNat ++ " does not exist (" ++
        Numeral.decimal count ++ " registers)"
  | .memoryViolation access => access.message
  | .divisionByZero => "division by zero"
  | .instructionLimit limit => "instruction limit of " ++ Numeral.decimal limit ++ " exceeded"
  | .output reason => "cannot write program output: " ++ reason

end FaultKind

structure Fault where
  pc : Nat
  instruction : Option String
  kind : FaultKind
deriving DecidableEq, Repr

namespace Fault

def message (f : Fault) : String :=
  let shown := match f.instruction with
    | some text => " (" ++ text ++ ")"
    | none => ""
  "fault at " ++ Numeral.hex 4 f.pc ++ shown ++ ": " ++ f.kind.message

end Fault

end RegisterMachine
