import RegisterMachine.Numeral
import RegisterMachine.Opcode
import RegisterMachine.Word

namespace RegisterMachine

abbrev Register := UInt8

inductive Instruction where
  | plain (op : Plain)
  | unary (op : Unary) (register : Register)
  | binary (op : Binary) (first second : Register)
  | immediate (op : Immediate) (register : Register) (value : Word)
  | branch (op : Branch) (target : Word)
deriving DecidableEq, Repr

namespace Register

def text (r : Register) : String := "R" ++ Numeral.decimal r.toNat

end Register

namespace Word

def text (w : Word) : String := Numeral.signed w.toInt

end Word

namespace Instruction

def opcode : Instruction → Opcode
  | .plain op => .plain op
  | .unary op _ => .unary op
  | .binary op _ _ => .binary op
  | .immediate op _ _ => .immediate op
  | .branch op _ => .branch op

def width (i : Instruction) : Nat := i.opcode.width

def operands : Instruction → List String
  | .plain _ => []
  | .unary _ r => [Register.text r]
  | .binary _ a b => [Register.text a, Register.text b]
  | .immediate _ r v => [Register.text r, Word.text v]
  | .branch _ t => [Word.text t]

def written (op : Opcode) (operands : List String) : String :=
  match operands with
  | [] => op.mnemonic
  | _ => op.mnemonic ++ " " ++ String.intercalate ", " operands

def text (i : Instruction) : String := written i.opcode i.operands

def destination : Instruction → Option Register
  | .unary op r => match op with
    | .push | .out | .outc => none
    | _ => some r
  | .binary op a _ => match op with
    | .cmp | .store | .storeb => none
    | _ => some a
  | .immediate op r _ => match op with
    | .cmpi | .sta => none
    | _ => some r
  | _ => none

theorem width_pos (i : Instruction) : 0 < i.width := i.opcode.width_pos

end Instruction

end RegisterMachine
