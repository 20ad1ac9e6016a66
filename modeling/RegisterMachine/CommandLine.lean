import RegisterMachine.Assembly
import RegisterMachine.CommandLine.Log
import RegisterMachine.CommandLine.Options
import RegisterMachine.CommandLine.Plan
import RegisterMachine.Listing
import RegisterMachine.Machine.Load
import RegisterMachine.Machine.Request

namespace RegisterMachine.CommandLine

inductive Failure where
  | cannotRead (path reason : String)
  | cannotWrite (path reason : String)
  | badSource (path : String) (e : AssemblyError)
  | refused (e : Error)
deriving DecidableEq, Repr

namespace Failure

def message : Failure → String
  | .cannotRead path reason => "cannot read '" ++ path ++ "': " ++ reason
  | .cannotWrite path reason => "cannot write '" ++ path ++ "': " ++ reason
  | .badSource path e => path ++ ": " ++ e.message
  | .refused e => e.message

def report (f : Failure) (stdout : List UInt8) (stderr : String) : Report :=
  ⟨1, stdout, stderr ++ "masm: " ++ f.message ++ "\n"⟩

end Failure

def isSource (path : String) : Bool :=
  (Path.ofText path).extension? == some (Path.ofText "masm")

def readAll (path : String) (opened : Except String File) : Except Failure (List UInt8) :=
  match opened.bind (fun f => f.contents.all) with
  | .ok bytes => .ok bytes
  | .error reason => .error (.cannotRead path reason)

def readSource (path : String) (opened : Except String File) : Except Failure Assembly := do
  let bytes ← readAll path opened
  match Text.decode? bytes with
  | none => .error (.cannotRead path FileError.notUtf8.message)
  | some text => match Assembly.ofSource (String.ofList text) with
    | .ok assembly => .ok assembly
    | .error e => .error (.badSource path e)

def outputPath (input : String) (output : Option String) : String :=
  output.getD (Path.text ((Path.ofText input).withExtension (Path.ofText "bin")))

def assemble (level : Level) (input : String) (output : Option String) : Plan :=
  .read (Path.ofText input) (fun opened => match readSource input opened with
    | .error failure => .done (failure.report [] "")
    | .ok assembly =>
        let path := outputPath input output
        .write (Path.ofText path) assembly.image (fun written => match written with
          | .error reason => .done (Failure.report (.cannotWrite path reason) [] "")
          | .ok _ => .done ⟨0, [], (Event.wrote assembly.image.length path).line level⟩))

def programImage (limit : Nat) (path : String) (opened : Except String File) :
    Except Failure (List UInt8) :=
  if isSource path then (readSource path opened).map Assembly.image
  else (File.readImage path limit opened).mapError Failure.refused

def runLog (level : Level) (arguments : Nat) (before after : Machine) (ending : Event) : String :=
  let flushed := match after.state.output.flushRefusal with
    | some reason => (Event.flushFailed reason).line level
    | none => ""
  (Event.executing arguments).line level ++ (Transcript.between before after).tables ++ flushed ++
    ending.line level

def runProgram (patience : Nat) (level : Level) (arguments : List String) (log : String)
    (m : Machine) : Report :=
  let (after, outcome) := m.execute patience arguments
  let printed := (Transcript.between m after).printed
  let shown := if m.config.debug then after.text ++ "\n" else ""
  match outcome with
  | .ok _ =>
      let result := "R0 = " ++ Word.text (after.state.registers.value 0) ++ "\n"
      ⟨0, printed ++ Text.bytes result.toList,
        log ++ runLog level arguments.length m after (.halted after.steps) ++ shown⟩
  | .error (.fault fault) =>
      Failure.report (.refused (.fault fault)) printed
        (log ++ runLog level arguments.length m after (.faulted fault) ++ shown)
  | .error e => Failure.report (.refused e) printed (log ++ shown)
  | .crashed | .unfinished => ⟨1, printed, log⟩

def runImage (patience : Nat) (level : Level) (arguments : List String) (log : String)
    (m : Machine) (image : List UInt8) : Report :=
  match m.load image with
  | .error e => Failure.report (.refused e) [] log
  | .ok loaded =>
      runProgram patience level arguments (log ++ (Event.loaded image.length).line level) loaded

def run (patience : Nat) (level : Level) (program : String) (arguments : List String)
    (config : Config) : Plan :=
  match Machine.create config with
  | .error e => .done (Failure.report (.refused e) [] "")
  | .ok m =>
      let log := (Event.created config).line level
      .read (Path.ofText program) (fun opened =>
        match programImage m.state.memory.codeSize program opened with
        | .error failure => .done (failure.report [] log)
        | .ok image => .done (runImage patience level arguments log m image))

def listing (symbols : Option Symbols) (image : List UInt8) : List UInt8 :=
  Text.bytes ((Listing.ofImage symbols image).flatMap (fun row => (row.text ++ "\n").toList))

def list (program : String) : Plan :=
  .read (Path.ofText program) (fun opened =>
    let listed : Except Failure (List UInt8) :=
      if isSource program then
        (readSource program opened).map (fun a => listing (some a.symbols) a.image)
      else (readAll program opened).map (listing none)
    match listed with
    | .ok printed => .done ⟨0, printed, ""⟩
    | .error failure => .done (failure.report [] ""))

def Command.plan (patience : Nat) (level : Level) : Command → Plan
  | .assemble input output => CommandLine.assemble level input output
  | .run program arguments ram debug limit =>
      CommandLine.run patience level program arguments
        { Config.ofRamSize ram with debug := debug, limit := limit }
  | .list program => CommandLine.list program

def plan (patience : Nat) (arguments : List String) (setting : Option String) : Plan :=
  match read arguments with
  | .error refusal =>
      .done ⟨1, [], refusal.message ++ "\nRun masm --help for more information.\n"⟩
  | .ok (.explain usage) => .done ⟨0, Text.bytes (usage.text ++ "\n").toList, ""⟩
  | .ok (.perform verbose command) => command.plan patience (Level.choose verbose setting)

end RegisterMachine.CommandLine
