namespace RegisterMachine.CommandLine

structure Entry where
  name : String
  description : String
deriving DecidableEq, Repr

namespace Entry

def column : Nat := 20

def lineWidth : Nat := 80

def fillTo (width : Nat) (s : String) : String :=
  s ++ String.ofList (List.replicate (width - s.length) ' ')

def layOut (line : String) : List String → List String
  | [] => [line]
  | word :: rest =>
      if lineWidth < line.length + 1 + word.length then
        line :: layOut (fillTo column "" ++ word) rest
      else layOut (line ++ " " ++ word) rest

def lines (e : Entry) : List String :=
  match e.description.splitOn " " with
  | [] => ["  " ++ e.name]
  | word :: rest => layOut (fillTo column ("  " ++ e.name) ++ word) rest

end Entry

structure Usage where
  command : String
  shape : String
  description : String
  positionals : List Entry
  options : List Entry
  commands : List Entry
deriving DecidableEq, Repr

namespace Usage

def block (title : String) : List Entry → List String
  | [] => []
  | entries => "" :: (title ++ ":") :: entries.flatMap Entry.lines

def help : Entry := ⟨"--help, help", "display usage information"⟩

def text (u : Usage) : String :=
  let lines := ["Usage: " ++ u.command ++ " " ++ u.shape, "", u.description] ++
    block "Positional Arguments" u.positionals ++
    block "Options" (u.options ++ [help]) ++
    block "Commands" u.commands
  String.join (lines.map (· ++ "\n"))

def assemble : Usage where
  command := "masm asm"
  shape := "[-o <output>] [--] <input>"
  description := "Assemble a source file into a bytecode image."
  positionals := [⟨"input", "the assembly source"⟩]
  options := [⟨"-o, --output",
    "the image to write, the input with a `.bin` extension if not given"⟩]
  commands := []

def run : Usage where
  command := "masm run"
  shape := "[--ram <ram>] [--debug] [--limit <limit>] [--] <program> [<args...>]"
  description := "Run a bytecode image, or an assembly source ending in `.masm`."
  positionals := [⟨"program", "the program to run"⟩, ⟨"args", "arguments passed to the program"⟩]
  options := [⟨"--ram", "bytes of RAM"⟩,
    ⟨"--debug", "print a register table before every instruction"⟩,
    ⟨"--limit", "stop with a fault after this many instructions"⟩]
  commands := []

def list : Usage where
  command := "masm disasm"
  shape := "[--] <program>"
  description :=
    "Print the instructions of a bytecode image, or of an assembly source ending in `.masm`."
  positionals := [⟨"program", "the program to disassemble"⟩]
  options := []
  commands := []

def program : Usage where
  command := "masm"
  shape := "[-v] <command> [<args>]"
  description := "Assemble, run, and disassemble MicroASM programs."
  positionals := []
  options := [⟨"-v, --verbose",
    "log library events to stderr at debug level (overrides MASM_LOG)"⟩]
  commands := [⟨"asm", assemble.description⟩, ⟨"run", run.description⟩,
    ⟨"disasm", list.description⟩]

end Usage

end RegisterMachine.CommandLine
