import RegisterMachine.Text.Utf8

namespace RegisterMachine

structure CString where
  bytes : List UInt8
  zero_not_mem : 0 ∉ bytes
deriving DecidableEq, Repr

namespace CString

def empty : CString := ⟨[], List.not_mem_nil⟩

def ofText? (text : String) : Option CString :=
  if h : 0 ∈ Text.bytes text.toList then none else some ⟨Text.bytes text.toList, h⟩

def text (s : CString) : String := String.ofList (Text.decodeLossy s.bytes)

def memory (s : CString) : List UInt8 := s.bytes ++ [0]

end CString

end RegisterMachine
