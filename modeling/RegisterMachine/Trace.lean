import RegisterMachine.Instruction
import RegisterMachine.Text.Grid

namespace RegisterMachine

structure Record where
  step : Nat
  pc : Nat
  instruction : Instruction
  registers : List Word
deriving DecidableEq, Repr

namespace Record

open Text

def registerGrid (marked : Option Nat) (first : Nat) (registers : List Word) : Grid where
  heading := some [⟨["Register"], .right⟩, ⟨["Contents"], .left⟩]
  rows := (registers.zipIdx first).map (fun (w, index) =>
    let arrow := if marked = some index then "* --> " else ""
    [⟨[arrow ++ "R" ++ Numeral.decimal index ++ " ="], .right⟩, ⟨[Word.text w], .left⟩])

def grid (r : Record) : Grid :=
  let marked := r.instruction.destination.map UInt8.toNat
  let half := (r.registers.length + 1) / 2
  let low := registerGrid marked 0 (r.registers.take half)
  let high := registerGrid marked half (r.registers.drop half)
  { heading := none, rows := [[⟨low.lines, .left⟩, ⟨high.lines, .left⟩]] }

def text (r : Record) : String :=
  let heading := "step " ++ Numeral.decimal r.step ++ "  pc " ++ Numeral.hex 4 r.pc ++ "  " ++
    r.instruction.text
  String.join ((heading :: r.grid.lines).map (· ++ "\n")) ++ "\n"

end Record

inductive Manner where
  | collect
  | table
  | giveWay (step : Nat)
  | reenter
deriving DecidableEq, Repr

structure Sink where
  manner : Manner
  records : Array Record
deriving DecidableEq, Repr

namespace Sink

def ofManner (manner : Manner) : Sink := ⟨manner, #[]⟩

def take? (s : Sink) (r : Record) : Option Sink :=
  if s.manner = .giveWay r.step then none else some { s with records := s.records.push r }

def Sound (s : Sink) : Prop := ∀ step, s.manner ≠ .giveWay step

theorem take?_of_sound {s : Sink} (h : s.Sound) (r : Record) :
    s.take? r = some { s with records := s.records.push r } := if_neg (h r.step)

end Sink

end RegisterMachine
