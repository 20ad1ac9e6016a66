import RegisterMachine.Machine

namespace RegisterMachine.CommandLine

inductive Level where
  | off
  | error
  | warn
  | info
  | debug
  | trace
deriving DecidableEq, Repr

namespace Level

def all : List Level := [.off, .error, .warn, .info, .debug, .trace]

def rank : Level → Nat
  | .off => 0
  | .error => 1
  | .warn => 2
  | .info => 3
  | .debug => 4
  | .trace => 5

def name : Level → String
  | .off => "OFF"
  | .error => "ERROR"
  | .warn => "WARN"
  | .info => "INFO"
  | .debug => "DEBUG"
  | .trace => "TRACE"

def ofName? (s : String) : Option Level :=
  all.find? (fun level => level.name.toList == s.toList.map Char.toUpper)

def choose (verbose : Bool) (setting : Option String) : Level :=
  if verbose then .debug else (setting.bind ofName?).getD .warn

end Level

inductive Event where
  | created (config : Config)
  | loaded (length : Nat)
  | executing (arguments : Nat)
  | flushFailed (reason : String)
  | halted (steps : Nat)
  | faulted (fault : Fault)
  | wrote (length : Nat) (path : String)
deriving DecidableEq, Repr

namespace Event

def level : Event → Level
  | .created _ | .loaded _ | .executing _ | .halted _ => .debug
  | .flushFailed _ | .faulted _ => .warn
  | .wrote _ _ => .info

def text : Event → String
  | .created config =>
      "created interpreter: " ++ Numeral.decimal config.ramSize ++ " bytes of RAM (" ++
        Numeral.decimal config.codeSize ++ " code), " ++ Numeral.decimal config.registerCount ++
        " registers, debug " ++ (if config.debug then "true" else "false")
  | .loaded length => "loaded " ++ Numeral.decimal length ++ " bytes of bytecode"
  | .executing arguments => "executing with " ++ Numeral.decimal arguments ++ " argument(s)"
  | .flushFailed reason => "cannot flush program output: " ++ reason
  | .halted steps => "halted after " ++ Numeral.decimal steps ++ " instruction(s)"
  | .faulted fault => fault.message
  | .wrote length path => "wrote " ++ Numeral.decimal length ++ " bytes to " ++ path

def line (chosen : Level) (e : Event) : String :=
  if e.level.rank ≤ chosen.rank then "[" ++ e.level.name ++ "] " ++ e.text ++ "\n" else ""

end Event

end RegisterMachine.CommandLine
