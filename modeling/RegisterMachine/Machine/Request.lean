import RegisterMachine.Assembly
import RegisterMachine.Machine.Load

namespace RegisterMachine

inductive Request where
  | load (image : List UInt8)
  | loadFile (path : String) (opened : Except String File)
  | loadSource (source : String)
  | execute (arguments : List String)
  | getRegister (index : Int)
  | setRegister (index : Int) (value : Word)
  | readWord (address : Int)
  | writeWord (address : Int) (value : Word)
  | slice (address : Int) (length : Nat)
  | runs
  | text
  | setDebug (on : Bool)
  | setLimit (limit : Option Nat)
  | setSink (manner : Manner)
  | setOutput (writer : Writer)

inductive Reply where
  | done
  | word (w : Word)
  | bytes (bs : List UInt8)
  | runs (runs : List (Nat × List UInt8))
  | text (text : String)
  | refused (e : AssemblyError)

namespace Machine

def settle (m : Machine) : Except Error Machine → Machine × Outcome Reply
  | .ok changed => (changed, .ok .done)
  | .error e => (m, .error e)

def answer {α : Type} (m : Machine) (reply : α → Reply) (e : Except Error α) :
    Machine × Outcome Reply :=
  (m, Outcome.ofExcept (e.map reply))

def setRegister (m : Machine) (index : Int) (w : Word) : Except Error Machine := do
  let registers ← m.state.registers.set index w
  return { m with state := { m.state with registers := registers } }

def readWord (m : Machine) (address : Int) : Except Error Word :=
  (m.state.memory.readWord address).mapError Error.memoryOutOfRange

def writeWord (m : Machine) (address : Int) (w : Word) : Except Error Machine := do
  let memory ← (m.state.memory.writeWord address w).mapError Error.memoryOutOfRange
  return { m with state := { m.state with memory := memory } }

def perform (patience : Nat) (m : Machine) : Request → Machine × Outcome Reply
  | .load image => m.settle (m.load image)
  | .loadFile path opened => m.settle (m.loadFile path opened)
  | .loadSource source => match Assembly.ofSource source with
    | .ok assembly => m.settle (m.load assembly.image)
    | .error e => (m, .ok (.refused e))
  | .execute arguments =>
      let (after, outcome) := m.execute patience arguments
      (after, outcome.map (fun _ => .done))
  | .getRegister index => m.answer .word (m.state.registers.get index)
  | .setRegister index w => m.settle (m.setRegister index w)
  | .readWord address => m.answer .word (m.readWord address)
  | .writeWord address w => m.settle (m.writeWord address w)
  | .slice address length =>
      m.answer .bytes ((m.state.memory.slice address length).mapError Error.memoryOutOfRange)
  | .runs => (m, .ok (.runs m.state.memory.runs))
  | .text => (m, .ok (.text m.text))
  | .setDebug on => ({ m with config := { m.config with debug := on } }, .ok .done)
  | .setLimit limit => ({ m with config := { m.config with limit := limit } }, .ok .done)
  | .setSink manner => ({ m with sink := Sink.ofManner manner }, .ok .done)
  | .setOutput writer => ({ m with state := { m.state with output := writer } }, .ok .done)

end Machine

structure Transcript where
  manner : Manner
  printed : List UInt8
  records : List Record
deriving DecidableEq, Repr

namespace Transcript

def between (before after : Machine) : Transcript where
  manner := after.sink.manner
  printed := after.state.output.written.toList.drop before.state.output.written.size
  records := after.sink.records.toList.drop before.sink.records.size

def tables (t : Transcript) : String := String.join (t.records.map Record.text)

def reentries (t : Transcript) : List Error :=
  match t.manner with
  | .reenter => t.records.map (fun _ => .busy)
  | _ => []

end Transcript

end RegisterMachine
