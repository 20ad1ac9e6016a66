import RegisterMachine.Machine.State

namespace RegisterMachine

namespace Plain

def dispatch : Plain → Effect Flow
  | .hlt => return .halt
  | .nop => return .next
  | .ret => return .jump (← Effect.pop)

end Plain

namespace Unary

open Effect

def dispatch (op : Unary) (r : Register) : Effect Flow := do
  match op with
  | .inc => change r (· + 1)
  | .dec => change r (· - 1)
  | .neg => change r (- ·)
  | .not => change r (~~~ ·)
  | .push => Effect.push (← get r)
  | .pop =>
      let _ ← get r
      set r (← Effect.pop)
  | .out => print (Text.bytes (Word.text (← get r)).toList ++ [10])
  | .outc => print [Word.lowByte (← get r)]
  return .next

end Unary

namespace Binary

open Effect

def dispatch (op : Binary) (first second : Register) : Effect Flow := do
  let a ← get first
  let b ← get second
  match op with
  | .mov => set first b
  | .add => set first (a + b)
  | .sub => set first (a - b)
  | .mul => set first (a * b)
  | .div => if b = 0 then fail .divisionByZero else set first (a / b)
  | .mod => if b = 0 then fail .divisionByZero else set first (a % b)
  | .and => set first (a &&& b)
  | .or => set first (a ||| b)
  | .xor => set first (a ^^^ b)
  | .shl => set first (a <<< b)
  | .shr => set first (a >>> b)
  | .cmp => setComparison (compare a.toInt b.toInt)
  | .load => set first (← loadWord b)
  | .store => storeWord a b
  | .loadb => set first (← loadByte b)
  | .storeb => storeByte a b
  return .next

end Binary

namespace Immediate

open Effect

def dispatch (op : Immediate) (r : Register) (value : Word) : Effect Flow := do
  let a ← get r
  match op with
  | .movi => set r value
  | .addi => set r (a + value)
  | .subi => set r (a - value)
  | .muli => set r (a * value)
  | .cmpi => setComparison (compare a.toInt value.toInt)
  | .lda => set r (← loadWord value)
  | .sta => storeWord value a
  return .next

end Immediate

namespace Branch

open Effect

def taken : Branch → Ordering → Bool
  | .jmp, _ => true
  | .je, o => o == .eq
  | .jne, o => o != .eq
  | .jl, o => o == .lt
  | .jle, o => o != .gt
  | .jg, o => o == .gt
  | .jge, o => o != .lt
  | .call, _ => true

-- A call checks where it goes before it pushes the address behind it.
def dispatch (op : Branch) (target : Word) : Effect Flow := do
  if op = .call then
    checkTarget target.toInt
    let pc ← view State.pc
    push (Int32.ofNat (pc + Format.immediate.width))
  let comparison ← view State.comparison
  return if op.taken comparison then .jump target else .next

end Branch

namespace Instruction

def dispatch : Instruction → Effect Flow
  | .plain op => op.dispatch
  | .unary op r => op.dispatch r
  | .binary op first second => op.dispatch first second
  | .immediate op r value => op.dispatch r value
  | .branch op target => op.dispatch target

end Instruction

end RegisterMachine
