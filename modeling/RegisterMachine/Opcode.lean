import RegisterMachine.Numeral

namespace RegisterMachine

inductive Format where
  | nullary
  | register
  | registerPair
  | registerImmediate
  | immediate
deriving DecidableEq, Repr

namespace Format

def width : Format → Nat
  | .nullary => 1
  | .register => 2
  | .registerPair => 3
  | .registerImmediate => 6
  | .immediate => 5

def arity : Format → Nat
  | .nullary => 0
  | .register => 1
  | .registerPair => 2
  | .registerImmediate => 2
  | .immediate => 1

def expectation : Format → String
  | .nullary => "no operands"
  | .register => "a register"
  | .registerPair => "two registers"
  | .registerImmediate => "a register and a value"
  | .immediate => "a value"

def name : Format → String
  | .nullary => "Nullary"
  | .register => "Register"
  | .registerPair => "RegisterPair"
  | .registerImmediate => "RegisterImmediate"
  | .immediate => "Immediate"

end Format

inductive Plain where
  | hlt | nop | ret
deriving DecidableEq, Repr

inductive Unary where
  | inc | dec | neg | not | push | pop | out | outc
deriving DecidableEq, Repr

inductive Binary where
  | mov | add | sub | mul | div | mod | and | or | xor | shl | shr | cmp
  | load | store | loadb | storeb
deriving DecidableEq, Repr

inductive Immediate where
  | movi | addi | subi | muli | cmpi | lda | sta
deriving DecidableEq, Repr

inductive Branch where
  | jmp | je | jne | jl | jle | jg | jge | call
deriving DecidableEq, Repr

inductive Opcode where
  | plain (op : Plain)
  | unary (op : Unary)
  | binary (op : Binary)
  | immediate (op : Immediate)
  | branch (op : Branch)
deriving DecidableEq, Repr

namespace Opcode

def all : List Opcode :=
  [.plain .hlt, .plain .nop, .plain .ret,
   .unary .inc, .unary .dec, .unary .neg, .unary .not, .unary .push, .unary .pop, .unary .out,
   .unary .outc,
   .binary .mov, .binary .add, .binary .sub, .binary .mul, .binary .div, .binary .mod,
   .binary .and, .binary .or, .binary .xor, .binary .shl, .binary .shr, .binary .cmp,
   .binary .load, .binary .store, .binary .loadb, .binary .storeb,
   .immediate .movi, .immediate .addi, .immediate .subi, .immediate .muli, .immediate .cmpi,
   .immediate .lda, .immediate .sta,
   .branch .jmp, .branch .je, .branch .jne, .branch .jl, .branch .jle, .branch .jg, .branch .jge,
   .branch .call]

theorem mem_all (op : Opcode) : op ∈ all := by
  cases op with
  | plain op => cases op <;> decide
  | unary op => cases op <;> decide
  | binary op => cases op <;> decide
  | immediate op => cases op <;> decide
  | branch op => cases op <;> decide

def code : Opcode → UInt8
  | .plain op => match op with
    | .hlt => 0x01
    | .nop => 0x02
    | .ret => 0x03
  | .unary op => match op with
    | .inc => 0x10
    | .dec => 0x11
    | .neg => 0x12
    | .not => 0x13
    | .push => 0x14
    | .pop => 0x15
    | .out => 0x16
    | .outc => 0x17
  | .binary op => match op with
    | .mov => 0x20
    | .add => 0x21
    | .sub => 0x22
    | .mul => 0x23
    | .div => 0x24
    | .mod => 0x25
    | .and => 0x26
    | .or => 0x27
    | .xor => 0x28
    | .shl => 0x29
    | .shr => 0x2A
    | .cmp => 0x2B
    | .load => 0x2C
    | .store => 0x2D
    | .loadb => 0x2E
    | .storeb => 0x2F
  | .immediate op => match op with
    | .movi => 0x40
    | .addi => 0x41
    | .subi => 0x42
    | .muli => 0x43
    | .cmpi => 0x44
    | .lda => 0x45
    | .sta => 0x46
  | .branch op => match op with
    | .jmp => 0x50
    | .je => 0x51
    | .jne => 0x52
    | .jl => 0x53
    | .jle => 0x54
    | .jg => 0x55
    | .jge => 0x56
    | .call => 0x57

def mnemonic : Opcode → String
  | .plain op => match op with
    | .hlt => "HLT"
    | .nop => "NOP"
    | .ret => "RET"
  | .unary op => match op with
    | .inc => "INC"
    | .dec => "DEC"
    | .neg => "NEG"
    | .not => "NOT"
    | .push => "PUSH"
    | .pop => "POP"
    | .out => "OUT"
    | .outc => "OUTC"
  | .binary op => match op with
    | .mov => "MOV"
    | .add => "ADD"
    | .sub => "SUB"
    | .mul => "MUL"
    | .div => "DIV"
    | .mod => "MOD"
    | .and => "AND"
    | .or => "OR"
    | .xor => "XOR"
    | .shl => "SHL"
    | .shr => "SHR"
    | .cmp => "CMP"
    | .load => "LOAD"
    | .store => "STORE"
    | .loadb => "LOADB"
    | .storeb => "STOREB"
  | .immediate op => match op with
    | .movi => "MOVI"
    | .addi => "ADDI"
    | .subi => "SUBI"
    | .muli => "MULI"
    | .cmpi => "CMPI"
    | .lda => "LDA"
    | .sta => "STA"
  | .branch op => match op with
    | .jmp => "JMP"
    | .je => "JE"
    | .jne => "JNE"
    | .jl => "JL"
    | .jle => "JLE"
    | .jg => "JG"
    | .jge => "JGE"
    | .call => "CALL"

def format : Opcode → Format
  | .plain _ => .nullary
  | .unary _ => .register
  | .binary _ => .registerPair
  | .immediate _ => .registerImmediate
  | .branch _ => .immediate

def width (op : Opcode) : Nat := op.format.width

def arity (op : Opcode) : Nat := op.format.arity

def isBranch (op : Opcode) : Bool := op.format == .immediate

def ofCode? (b : UInt8) : Option Opcode := all.find? (fun op => op.code == b)

def ofMnemonic? (s : String) : Option Opcode := all.find? (fun op => op.mnemonic == s)

inductive Unknown where
  | mnemonic
  | code (b : UInt8)
deriving DecidableEq, Repr

def Unknown.message : Unknown → String
  | .mnemonic => "Matching variant not found"
  | .code b => "No discriminant in enum `Opcode` matches the value `" ++ Numeral.decimal b.toNat ++ "`"

def ofCode (b : UInt8) : Except Unknown Opcode :=
  match ofCode? b with
  | some op => .ok op
  | none => .error (.code b)

def ofMnemonic (s : String) : Except Unknown Opcode :=
  match ofMnemonic? s with
  | some op => .ok op
  | none => .error .mnemonic

theorem width_pos (op : Opcode) : 0 < op.width := by
  cases op <;> simp [width, format, Format.width]

theorem ofCode?_code (op : Opcode) : ofCode? op.code = some op := by
  have hall : ∀ op ∈ all, ofCode? op.code = some op := by decide
  exact hall op op.mem_all

theorem code_of_ofCode? {b : UInt8} {op : Opcode} (h : ofCode? b = some op) : op.code = b := by
  simpa using List.find?_some h

end Opcode

end RegisterMachine
