import RegisterMachine.Config
import RegisterMachine.Machine.Arguments
import RegisterMachine.Machine.Dispatch
import RegisterMachine.Trace

namespace RegisterMachine

inductive Phase where
  | empty
  | ready
  | running
  | halted
  | faulted
deriving DecidableEq, Repr

def Phase.name : Phase → String
  | .empty => "Empty"
  | .ready => "Ready"
  | .running => "Running"
  | .halted => "Halted"
  | .faulted => "Faulted"

structure Machine where
  config : Config
  state : State
  phase : Phase
  steps : Nat
  sink : Sink
deriving DecidableEq, Repr

inductive Ending where
  | halted
  | faulted (fault : Fault)
  | broken
deriving DecidableEq, Repr

inductive Outcome (α : Type) where
  | ok (a : α)
  | error (e : Error)
  | crashed
  | unfinished
deriving DecidableEq, Repr

namespace Outcome

def ofExcept {α : Type} : Except Error α → Outcome α
  | .ok a => .ok a
  | .error e => .error e

def map {α β : Type} (f : α → β) : Outcome α → Outcome β
  | .ok a => .ok (f a)
  | .error e => .error e
  | .crashed => .crashed
  | .unfinished => .unfinished

end Outcome

inductive Turn where
  | goesOn (m : Machine)
  | ends (m : Machine) (ending : Ending)
deriving DecidableEq, Repr

namespace Machine

def create (config : Config) : Except Error Machine := do
  config.validate
  let memory ← Memory.allocate Config.maxRamSize config.ramSize config.codeSize
  return {
    config := config
    state := {
      registers := Registers.zeroed config.registerCount
      memory := memory
      pc := 0
      comparison := .eq
      output := Writer.unbounded }
    phase := .empty
    steps := 0
    sink := Sink.ofManner .collect }

def goTo (m : Machine) (i : Instruction) (target : Int) : Turn :=
  if 0 ≤ target ∧ target < m.state.memory.size then
    .goesOn { m with state := { m.state with pc := target.toNat } }
  else .ends m (.faulted ⟨m.state.pc, some i.text, .pcOutOfRange target⟩)

def dispatch : Machine → Instruction → Turn
  | ⟨config, state, phase, steps, sink⟩, i =>
      let pc := state.pc
      match i.dispatch state with
      | .error kind s => .ends ⟨config, s, phase, steps, sink⟩ (.faulted ⟨pc, some i.text, kind⟩)
      | .ok .halt s => .ends ⟨config, s, phase, steps, sink⟩ .halted
      | .ok .next s => goTo ⟨config, s, phase, steps, sink⟩ i (pc + i.width)
      | .ok (.jump target) s => goTo ⟨config, s, phase, steps, sink⟩ i target.toInt

def record (m : Machine) (i : Instruction) : Record where
  step := m.steps
  pc := m.state.pc
  instruction := i
  registers := m.state.registers.values.toList

def report? (m : Machine) (i : Instruction) : Option Machine :=
  if m.config.debug then (m.sink.take? (m.record i)).map (fun sink => { m with sink := sink })
  else some m

def limitReached? (m : Machine) : Option Nat := m.config.limit.filter (· ≤ m.steps)

def turn (m : Machine) : Turn :=
  match m.limitReached? with
  | some limit => .ends m (.faulted ⟨m.state.pc, none, .instructionLimit limit⟩)
  | none => match m.state.memory.fetch m.state.pc with
    | .error kind => .ends m (.faulted ⟨m.state.pc, none, kind⟩)
    | .ok i => match m.report? i with
      | none => .ends m .broken
      | some m => dispatch { m with steps := m.steps + 1 } i

def run : Nat → Machine → Machine × Option Ending
  | 0, m => (m, none)
  | patience + 1, m => match m.turn with
    | .goesOn m => run patience m
    | .ends m ending => (m, some ending)

def start (m : Machine) (s : State) : Machine :=
  { m with state := { s with pc := 0, comparison := .eq }, phase := .running, steps := 0 }

def finish : Machine × Option Ending → Machine × Outcome Unit
  | (m, some .halted) => ({ m with phase := .halted }, .ok ())
  | (m, some (.faulted fault)) => ({ m with phase := .faulted }, .error (.fault fault))
  | (m, some .broken) => (m, .crashed)
  | (m, none) => (m, .unfinished)

def execute (patience : Nat) (arguments : List String) (m : Machine) : Machine × Outcome Unit :=
  match m.phase with
  | .empty => (m, .error .noProgram)
  | .running => (m, .error .busy)
  | _ => match m.state.seed (arguments.map (fun a => Text.bytes a.toList)) with
    | .error e => (m, .error e)
    | .ok s => finish ((m.start s).run patience)

def text (m : Machine) : String :=
  "state " ++ m.phase.name ++ "  pc " ++ Numeral.hex 4 m.state.pc ++ "  steps " ++
    Numeral.decimal m.steps ++ "\n" ++ m.state.registers.text

end Machine

end RegisterMachine
