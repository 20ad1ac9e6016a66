namespace RegisterMachine

inductive Contents where
  | finite (bytes : List UInt8)
  | endless (byte : Nat → UInt8)
  | unreadable (reason : String)

namespace Contents

def first (count : Nat) : Contents → Except String (List UInt8)
  | .finite bytes => .ok (bytes.take count)
  | .endless byte => .ok ((List.range count).map byte)
  | .unreadable reason => .error reason

def all : Contents → Except String (List UInt8)
  | .finite bytes => .ok bytes
  | .endless _ => .error "out of memory"
  | .unreadable reason => .error reason

end Contents

structure File where
  length : Nat
  contents : Contents

namespace File

def ofBytes (bytes : List UInt8) : File := ⟨bytes.length, .finite bytes⟩

end File

end RegisterMachine
