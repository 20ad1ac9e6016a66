import RegisterMachine.CommandLine

namespace RegisterMachine.CommandLine

def systemReason : IO.Error → String
  | .alreadyExists _ code details | .inappropriateType _ code details
  | .invalidArgument _ code details | .noSuchThing _ code details
  | .permissionDenied _ code details | .resourceExhausted _ code details =>
      details ++ " (os error " ++ Numeral.decimal code.toNat ++ ")"
  | .interrupted _ code details | .noFileOrDirectory _ code details =>
      details ++ " (os error " ++ Numeral.decimal code.toNat ++ ")"
  | .hardwareFault code details | .illegalOperation code details | .otherError code details
  | .protocolError code details | .resourceBusy code details | .resourceVanished code details
  | .timeExpired code details | .unsatisfiedConstraints code details
  | .unsupportedOperation code details =>
      details ++ " (os error " ++ Numeral.decimal code.toNat ++ ")"
  | .unexpectedEof => "unexpected end of file"
  | .userError text => text

def attempt {α : Type} (action : IO α) : IO (Except String α) := do
  try
    return .ok (← action)
  catch e =>
    return .error (systemReason e)

def readSystemFile (path : Path) : IO ByteArray := do
  let handle ← IO.FS.Handle.mk (Path.text path) .read
  handle.readBinToEnd

namespace Plan

def carryOut : Plan → IO Report
  | .done report => return report
  | .read path next => do
      let contents ← attempt (readSystemFile path)
      (next (contents.map (fun bytes => File.ofBytes bytes.toList))).carryOut
  | .write path bytes next => do
      let written ← attempt (IO.FS.writeBinFile (Path.text path) ⟨bytes.toArray⟩)
      (next written).carryOut

end Plan

end RegisterMachine.CommandLine

open RegisterMachine

def main (arguments : List String) : IO UInt32 := do
  let setting ← IO.getEnv "MASM_LOG"
  let report ← (CommandLine.plan 4611686018427387904 arguments setting).carryOut
  let stdout ← IO.getStdout
  stdout.write ⟨report.stdout.toArray⟩
  stdout.flush
  (← IO.getStderr).putStr report.stderr
  return UInt32.ofNat report.status
