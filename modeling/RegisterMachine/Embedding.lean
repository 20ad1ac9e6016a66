import RegisterMachine.Files
import RegisterMachine.Registry.Call

namespace RegisterMachine

structure Host where
  world : World
  files : Files
  stdout : List UInt8
  stderr : List UInt8

inductive EntryPoint where
  | create (ramSize debug : Int)
  | destroy (h : Handle)
  | load (h : Handle) (path : Option (List UInt8))
  | loadBuffer (h : Handle) (image : Option (List UInt8)) (length : Nat)
  | execute (h : Handle) (count : Int) (arguments : Option (List (Option (List UInt8))))
  | getRegister (h : Handle) (index : Int) (target : Bool)
  | setRegister (h : Handle) (index : Int) (value : Word)
  | readWord (h : Handle) (address : Int) (target : Bool)
  | writeWord (h : Handle) (address : Int) (value : Word)
  | setLimit (h : Handle) (limit : Nat)
  | lastError (h : Handle)
  | copyLastError (h : Handle) (buffer : Option (List UInt8))

inductive Returned where
  | nothing
  | handle (h : Handle)
  | code (code : ResultCode)
  | value (code : ResultCode) (written : Option Word)
  | message (text : Option (List UInt8))
  | copied (length : Nat) (buffer : Option (List UInt8))
deriving DecidableEq, Repr

namespace Surface

def zeroTerminated (bytes : List UInt8) : List UInt8 := bytes.takeWhile (· ≠ 0)

def argument : Option (List UInt8) → Except Objection String
  | none => .error (.missing "argument")
  | some bytes => match Text.decode? (zeroTerminated bytes) with
    | some text => .ok (String.ofList text)
    | none => .error (.notUtf8 "argument")

def arguments (count : Int) (vector : Option (List (Option (List UInt8)))) :
    Except Objection (List String) :=
  if count < 0 then .error (.negativeCount count)
  else if count = 0 then .ok []
  else match vector with
    | none => .error (.missing "argument vector")
    | some given => (given.take count.toNat).mapM argument

def image (buffer : Option (List UInt8)) (length : Nat) : Except Objection (List UInt8) :=
  match buffer with
  | some bytes => .ok bytes
  | none => if length = 0 then .ok [] else .error (.missing "bytecode buffer")

def code {α : Type} : Outcome α → ResultCode
  | .ok _ => .ok
  | .error e => e.code
  | .crashed => .generalError
  | .unfinished => .generalError

-- Objections to the arguments are raised only when the instance can be called.
def request (patience : Nat) (r : Except Objection Request) (m : Machine) :
    Machine × Outcome Reply :=
  match r with
  | .ok r => m.perform patience r
  | .error objection => (m, .error (.invalidArgument objection))

def requestWord (patience : Nat) (r : Request) (target : Bool) (m : Machine) :
    Machine × Outcome Reply :=
  match m.perform patience r, target with
  | (m, .ok _), false => (m, .error (.invalidArgument (.missing "output value")))
  | result, _ => result

def copyInto (buffer message : List UInt8) : List UInt8 :=
  if buffer = [] then []
  else
    let copied := message.take (buffer.length - 1)
    copied ++ 0 :: buffer.drop (copied.length + 1)

theorem length_copyInto (buffer message : List UInt8) :
    (copyInto buffer message).length = buffer.length := by
  unfold copyInto
  split
  · simp_all
  · rename_i h
    have : 0 < buffer.length := List.length_pos_iff.mpr h
    simp only [List.length_append, List.length_cons, List.length_drop, List.length_take]
    omega

def readMessage (w : World) (thread : Nat) (h : Handle) : Option (List UInt8) :=
  (w.lastErrorInPlace thread h).map (fun s => zeroTerminated s.memory)

def copyMessage (w : World) (thread : Nat) (h : Handle) (buffer : Option (List UInt8)) :
    Nat × Option (List UInt8) :=
  let message := Text.bytes ((w.lastError thread h).getD "").toList
  (message.length, buffer.map (copyInto · message))

end Surface

namespace Host

open Surface

def initial (files : Files) : Host := ⟨World.initial, files, [], []⟩

def call (host : Host) (c : Call) : Host × Outcome Answer :=
  let (world, outcome, view) := c.perform 0 host.world
  let printed := (view.transcript.map (·.printed)).getD []
  let tables := (view.transcript.map (·.tables)).getD ""
  ({ host with
    world := world
    stdout := host.stdout ++ printed
    stderr := host.stderr ++ Text.bytes tables.toList }, outcome)

def panicked : Error := .general "internal error: the interpreter panicked"

def recordPanic (host : Host) (h : Handle) : Outcome Answer → Host
  | .crashed => (host.call (.record h panicked)).1
  | _ => host

-- A call that does not return is recorded where the message for the handle stands.
def guarded (host : Host) (h : Handle) (c : Call) : Host × Outcome Answer :=
  let (host, outcome) := host.call c
  (host.recordPanic h outcome, outcome)

def operate (host : Host) (h : Handle) (f : Machine → Machine × Outcome Reply) :
    Host × Returned :=
  let (host, outcome) := host.guarded h (.within h (.operate f))
  (host, .code (code outcome))

def operateForWord (host : Host) (h : Handle) (f : Machine → Machine × Outcome Reply) :
    Host × Returned :=
  match host.guarded h (.within h (.operate f)) with
  | (host, .ok (.reply (.word w))) => (host, .value .ok (some w))
  | (host, outcome) => (host, .value (code outcome) none)

def create (host : Host) (ramSize debug : Int) : Host × Returned :=
  if ramSize ≤ 0 then
    let (host, _) := host.guarded 0 (.recordThread (.invalidArgument (.ramNotPositive ramSize)))
    (host, .handle 0)
  else
    let config := { Config.ofRamSize ramSize.toNat with debug := decide (debug ≠ 0) }
    match host.guarded 0 (.create config) with
    | (host, .ok (.handle h)) => (host, .handle h)
    | (host, _) => (host, .handle 0)

def openPath (host : Host) (path : List UInt8) : Request :=
  .loadFile (Path.text path) ((host.files.openFile path).mapError FileError.message)

def enter (host : Host) (patience : Nat) : EntryPoint → Host × Returned
  | .create ramSize debug => host.create ramSize debug
  | .destroy h =>
      let (host, _) := host.guarded h (.destroy h)
      (host, .nothing)
  | .load h path => host.operate h (request patience (match path with
    | some path => .ok (host.openPath (zeroTerminated path))
    | none => .error (.missing "bytecode path")))
  | .loadBuffer h buffer length =>
      host.operate h (request patience ((image buffer length).map Request.load))
  | .execute h count vector =>
      host.operate h (request patience ((arguments count vector).map Request.execute))
  | .getRegister h index target =>
      host.operateForWord h (requestWord patience (.getRegister index) target)
  | .setRegister h index w => host.operate h (request patience (.ok (.setRegister index w)))
  | .readWord h address target =>
      host.operateForWord h (requestWord patience (.readWord address) target)
  | .writeWord h address w => host.operate h (request patience (.ok (.writeWord address w)))
  | .setLimit h limit =>
      host.operate h (request patience (.ok (.setLimit (if limit = 0 then none else some limit))))
  | .lastError h => (host, .message (readMessage host.world 0 h))
  | .copyLastError h buffer =>
      let (length, buffer) := copyMessage host.world 0 h buffer
      (host, .copied length buffer)

end Host

end RegisterMachine
