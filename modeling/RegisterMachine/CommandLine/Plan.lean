import RegisterMachine.Files

namespace RegisterMachine.CommandLine

structure Report where
  status : Nat
  stdout : List UInt8
  stderr : String
deriving DecidableEq, Repr

structure Ending where
  status : Nat
  stdout : List UInt8
  stderr : List UInt8
  files : Files
deriving DecidableEq, Repr

namespace Ending

def ofReport (files : Files) (report : Report) : Ending :=
  ⟨report.status, files.streamed "stdout" ++ report.stdout,
    files.streamed "stderr" ++ Text.bytes report.stderr.toList, files⟩

end Ending

inductive Plan where
  | done (report : Report)
  | read (path : Path) (next : Except String File → Plan)
  | write (path : Path) (bytes : List UInt8) (next : Except String Unit → Plan)

namespace Plan

def perform (files : Files) : Plan → Ending
  | .done report => .ofReport files report
  | .read path next => (next ((files.openFile path).mapError FileError.message)).perform files
  | .write path bytes next => match files.write path bytes with
    | .ok changed => (next (.ok ())).perform changed
    | .error e => (next (.error e.message)).perform files

end Plan

end RegisterMachine.CommandLine
