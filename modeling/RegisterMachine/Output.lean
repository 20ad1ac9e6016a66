namespace RegisterMachine

structure Writer where
  written : Array UInt8
  room : Option Nat
  refusal : String
  flushRefusal : Option String
deriving DecidableEq, Repr

namespace Writer

def unbounded : Writer := ⟨#[], none, "", none⟩

def bounded (room : Nat) (refusal : String) : Writer := ⟨#[], some room, refusal, none⟩

def stalling (room : Nat) : Writer := bounded room "failed to write whole buffer"

def fits (w : Writer) (data : List UInt8) : Bool :=
  match w.room with
  | none => true
  | some n => data.length ≤ n

def put (w : Writer) (data : List UInt8) : Writer :=
  match w.room with
  | none => { w with written := w.written ++ data }
  | some n => { w with written := w.written ++ data.take n, room := some (n - data.length) }

end Writer

end RegisterMachine
