import RegisterMachine.CommandLine.Usage
import RegisterMachine.Numeral

namespace RegisterMachine.CommandLine

inductive Command where
  | assemble (input : String) (output : Option String)
  | run (program : String) (arguments : List String) (ram : Nat) (debug : Bool)
      (limit : Option Nat)
  | list (program : String)
deriving DecidableEq, Repr

inductive Intent where
  | explain (usage : Usage)
  | perform (verbose : Bool) (command : Command)
deriving DecidableEq, Repr

inductive Refusal where
  | unrecognized (argument : String)
  | optionAfterHelp
  | noValue (option : String)
  | badValue (option value reason : String)
  | missing (positional : String)
  | noCommand
deriving DecidableEq, Repr

namespace Refusal

def message : Refusal → String
  | .unrecognized argument => "Unrecognized argument: " ++ argument ++ "\n"
  | .optionAfterHelp => "Trailing arguments are not allowed after `help`."
  | .noValue option => "No value provided for option '" ++ option ++ "'.\n"
  | .badValue option value reason =>
      "Error parsing option '" ++ option ++ "' with value '" ++ value ++ "': " ++ reason ++ "\n"
  | .missing positional => "Required positional arguments not provided:\n    " ++ positional ++ "\n"
  | .noCommand =>
      "One of the following subcommands must be present:\n    help\n    asm\n    run\n    disasm\n"

end Refusal

def readDigits (n : Nat) : List Char → Except String Nat
  | [] => .ok n
  | c :: rest =>
      if !c.isDigit then .error "invalid digit found in string"
      else
        let next := n * 10 + Numeral.digitValue c
        if 18446744073709551616 ≤ next then .error "number too large to fit in target type"
        else readDigits next rest

def readNumber (s : String) : Except String Nat :=
  match s.toList with
  | [] => .error "cannot parse integer from empty string"
  | ['+'] => .error "invalid digit found in string"
  | '+' :: digits => readDigits 0 digits
  | digits => readDigits 0 digits

def fill {α : Type} (slot : Option α) (value : Except String α) : Except String (Option α) :=
  match slot with
  | some _ => .error "duplicate values provided"
  | none => value.map some

structure Grammar (σ : Type) where
  switch? : String → Option (σ → σ)
  value? : String → Option (σ → String → Except String σ)
  positional? : σ → String → Option σ

def isHelp (argument : String) : Bool := argument == "--help" || argument == "help"

def isOption (argument : String) : Bool := argument.toList.head? == some '-'

def Grammar.read {σ : Type} (g : Grammar σ) (help ended : Bool) (s : σ) :
    List String → Except Refusal (σ × Bool)
  | [] => .ok (s, help)
  | argument :: rest =>
      if !ended && isHelp argument then g.read true ended s rest
      else if !ended && isOption argument then
        if argument == "--" then g.read help true s rest
        else if help then .error .optionAfterHelp
        else match g.switch? argument with
          | some f => g.read help ended (f s) rest
          | none => match g.value? argument with
            | none => .error (.unrecognized argument)
            | some f => match rest with
              | [] => .error (.noValue argument)
              | value :: rest => match f s value with
                | .ok t => g.read help ended t rest
                | .error reason => .error (.badValue argument value reason)
      else match g.positional? s argument with
        | some t => g.read help ended t rest
        | none => .error (.unrecognized argument)

namespace Command

structure AssembleOptions where
  input : Option String
  output : Option String

def assembleGrammar : Grammar AssembleOptions where
  switch? := fun _ => none
  value? := fun name =>
    if name == "-o" || name == "--output" then
      some (fun s value => (fill s.output (.ok value)).map (fun output => { s with output := output }))
    else none
  positional? := fun s argument => match s.input with
    | none => some { s with input := some argument }
    | some _ => none

structure RunOptions where
  program : Option String
  arguments : List String
  ram : Option Nat
  debug : Bool
  limit : Option Nat

def runGrammar : Grammar RunOptions where
  switch? := fun name =>
    if name == "--debug" then some (fun s => { s with debug := true }) else none
  value? := fun name =>
    if name == "--ram" then
      some (fun s value => (fill s.ram (readNumber value)).map (fun ram => { s with ram := ram }))
    else if name == "--limit" then
      some (fun s value =>
        (fill s.limit (readNumber value)).map (fun limit => { s with limit := limit }))
    else none
  positional? := fun s argument => match s.program with
    | none => some { s with program := some argument }
    | some _ => some { s with arguments := s.arguments ++ [argument] }

def listGrammar : Grammar (Option String) where
  switch? := fun _ => none
  value? := fun _ => none
  positional? := fun s argument => match s with
    | none => some (some argument)
    | some _ => none

def readAssemble (verbose : Bool) (arguments : List String) : Except Refusal Intent := do
  let (s, help) ← assembleGrammar.read false false ⟨none, none⟩ arguments
  if help then return .explain Usage.assemble
  match s.input with
  | some input => return .perform verbose (.assemble input s.output)
  | none => .error (.missing "input")

def readRun (verbose : Bool) (arguments : List String) : Except Refusal Intent := do
  let (s, help) ← runGrammar.read false false ⟨none, [], none, false, none⟩ arguments
  if help then return .explain Usage.run
  match s.program with
  | some program =>
      return .perform verbose (.run program s.arguments (s.ram.getD 65536) s.debug s.limit)
  | none => .error (.missing "program")

def readList (verbose : Bool) (arguments : List String) : Except Refusal Intent := do
  let (program?, help) ← listGrammar.read false false none arguments
  if help then return .explain Usage.list
  match program? with
  | some program => return .perform verbose (.list program)
  | none => .error (.missing "program")

def reader? : String → Option (Bool → List String → Except Refusal Intent)
  | "asm" => some readAssemble
  | "run" => some readRun
  | "disasm" => some readList
  | _ => none

end Command

def readFrom (help ended verbose : Bool) : List String → Except Refusal Intent
  | [] => if help then .ok (.explain Usage.program) else .error .noCommand
  | argument :: rest =>
      if !ended && isHelp argument then readFrom true ended verbose rest
      else if !ended && isOption argument then
        if argument == "--" then readFrom help true verbose rest
        else if help then .error .optionAfterHelp
        else if argument == "-v" || argument == "--verbose" then readFrom help ended true rest
        else .error (.unrecognized argument)
      else match Command.reader? argument with
        | some reader => reader verbose (if help then "help" :: rest else rest)
        | none => .error (.unrecognized argument)

def read (arguments : List String) : Except Refusal Intent := readFrom false false false arguments

end RegisterMachine.CommandLine
