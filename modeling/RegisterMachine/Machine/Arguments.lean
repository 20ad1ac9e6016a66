import RegisterMachine.Machine.State

namespace RegisterMachine

namespace Arguments

def addresses (address : Nat) : List (List UInt8) → List Nat
  | [] => []
  | a :: rest => address :: addresses (address + a.length + 1) rest

def table (base : Nat) (arguments : List (List UInt8)) : List UInt8 :=
  (addresses (base + 4 * arguments.length) arguments).flatMap
    (fun address => Word.bytes (Int32.ofNat address))

def strings (arguments : List (List UInt8)) : List UInt8 := arguments.flatMap (· ++ [0])

def block (base : Nat) (arguments : List (List UInt8)) : List UInt8 :=
  table base arguments ++ strings arguments

theorem length_addresses (address : Nat) (arguments : List (List UInt8)) :
    (addresses address arguments).length = arguments.length := by
  induction arguments generalizing address with
  | nil => rfl
  | cons a rest ih => simp [addresses, ih]

theorem length_table (base : Nat) (arguments : List (List UInt8)) :
    (table base arguments).length = 4 * arguments.length := by
  simp only [table, List.length_flatMap, Word.length_bytes, List.map_const', List.sum_replicate_nat,
    length_addresses]
  omega

theorem length_strings (arguments : List (List UInt8)) :
    (strings arguments).length = arguments.foldr (fun a rest => a.length + 1 + rest) 0 := by
  induction arguments with
  | nil => rfl
  | cons a rest ih =>
      simp only [strings, List.flatMap_cons, List.length_append, List.length_cons, List.length_nil,
        List.foldr_cons] at ih ⊢
      rw [ih]

end Arguments

namespace State

def seed (s : State) (arguments : List (List UInt8)) : Except Error State :=
  let base := s.memory.codeSize
  let block := Arguments.block base arguments
  let size := s.memory.size
  if size < base + block.length then
    .error (.invalidArgument (.argumentsTooLong arguments.length block.length (size - base)))
  else
    let registers := s.registers.update 0 (Int32.ofNat arguments.length)
    let registers := registers.update 1 (Int32.ofNat base)
    let registers := registers.update registers.stackPointer (Int32.ofNat size)
    .ok { s with registers := registers, memory := s.memory.put base block }

end State

end RegisterMachine
