import RegisterMachine.Instruction.Code
import RegisterMachine.Symbols

namespace RegisterMachine

inductive Item where
  | instruction (i : Instruction)
  | byte (b : UInt8)
deriving DecidableEq, Repr

namespace Item

def width : Item → Nat
  | .instruction i => i.width
  | .byte _ => 1

def bytes : Item → List UInt8
  | .instruction i => i.encode
  | .byte b => [b]

def text : Item → String
  | .instruction i => i.text
  | .byte b => ".byte " ++ Numeral.hex 2 b.toNat

end Item

structure Row where
  address : Nat
  label : Option String
  item : Item
  target : Option String
deriving DecidableEq, Repr

namespace Row

def text (r : Row) : String :=
  let label := match r.label with
    | some name => name ++ ":\n"
    | none => ""
  let shown := match r.item, r.target with
    | .instruction i, some name => Instruction.written i.opcode [name]
    | item, _ => item.text
  label ++ Numeral.hex 4 r.address ++ ":  " ++ shown

end Row

namespace Listing

def branchAddress? : Item → Option Nat
  | .instruction (.branch _ target) => if 0 ≤ target.toInt then some target.toInt.toNat else none
  | _ => none

def row (symbols : Option Symbols) (address : Nat) (item : Item) : Row where
  address := address
  label := symbols.bind (·.name? address)
  item := item
  target := symbols.bind (fun s => (branchAddress? item).bind s.name?)

def item (b : UInt8) (rest : List UInt8) : Item :=
  match Instruction.decode (b :: rest) with
  | .ok i => .instruction i
  | .error _ => .byte b

theorem item_width_pos (i : Item) : 0 < i.width := by
  cases i with
  | instruction i => exact i.width_pos
  | byte b => exact Nat.one_pos

def items (image : List UInt8) : List Item :=
  match image with
  | [] => []
  | b :: rest =>
      item b rest :: items ((b :: rest).drop (item b rest).width)
termination_by image.length
decreasing_by
  have := item_width_pos (item b rest)
  simp only [List.length_drop, List.length_cons]
  omega

def rowsFrom (symbols : Option Symbols) (address : Nat) : List Item → List Row
  | [] => []
  | i :: rest => row symbols address i :: rowsFrom symbols (address + i.width) rest

def ofImage (symbols : Option Symbols) (image : List UInt8) : List Row :=
  rowsFrom symbols 0 (items image)

end Listing

end RegisterMachine
