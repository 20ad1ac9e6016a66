import RegisterMachine.Memory
import RegisterMachine.Output
import RegisterMachine.Registers
import RegisterMachine.Text.Utf8

namespace RegisterMachine

structure State where
  registers : Registers
  memory : Memory
  pc : Nat
  comparison : Ordering
  output : Writer
deriving DecidableEq, Repr

inductive Flow where
  | next
  | jump (target : Word)
  | halt
deriving DecidableEq, Repr

abbrev Effect := EStateM FaultKind State

namespace Effect

def view {α : Type} (f : State → α) : Effect α := fun s => .ok (f s) s

def fail {α : Type} (kind : FaultKind) : Effect α := fun s => .error kind s

def get (r : Register) : Effect Word := fun s =>
  if r.toNat < s.registers.size then .ok (s.registers.value r.toNat) s
  else .error (.invalidRegister r s.registers.size) s

def set (r : Register) (w : Word) : Effect Unit := fun s =>
  if r.toNat < s.registers.size then
    .ok () { s with registers := s.registers.update r.toNat w }
  else .error (.invalidRegister r s.registers.size) s

def change (r : Register) (f : Word → Word) : Effect Unit := do
  set r (f (← get r))

def locate (address : Word) (width : Nat) : Effect Nat := fun s =>
  match s.memory.locate address.toInt width with
  | .ok start => .ok start s
  | .error access => .error (.memoryViolation access) s

def loadWord (address : Word) : Effect Word := fun s =>
  match s.memory.readWord address.toInt with
  | .ok w => .ok w s
  | .error access => .error (.memoryViolation access) s

def loadByte (address : Word) : Effect Word := fun s =>
  match s.memory.readByte address.toInt with
  | .ok b => .ok (Int32.ofNat b.toNat) s
  | .error access => .error (.memoryViolation access) s

def put (start : Nat) (data : List UInt8) : Effect Unit := fun s =>
  .ok () { s with memory := s.memory.put start data }

def storeWord (address w : Word) : Effect Unit := do
  put (← locate address 4) (Word.bytes w)

def storeByte (address w : Word) : Effect Unit := do
  put (← locate address 1) [Word.lowByte w]

def setComparison (o : Ordering) : Effect Unit := fun s => .ok () { s with comparison := o }

def stackPointer : Effect Register := fun s =>
  .ok (UInt8.ofNat s.registers.stackPointer) s

def push (w : Word) : Effect Unit := do
  let sp ← stackPointer
  let top := (← get sp) - 4
  storeWord top w
  set sp top

def pop : Effect Word := do
  let sp ← stackPointer
  let top ← get sp
  let w ← loadWord top
  set sp (top + 4)
  return w

-- What the writer takes is written also if it refuses the rest.
def print (data : List UInt8) : Effect Unit := fun s =>
  if s.output.fits data then .ok () { s with output := s.output.put data }
  else .error (.output s.output.refusal) { s with output := s.output.put data }

def checkTarget (target : Int) : Effect Unit := fun s =>
  if 0 ≤ target ∧ target < s.memory.size then .ok () s
  else .error (.pcOutOfRange target) s

end Effect

end RegisterMachine
