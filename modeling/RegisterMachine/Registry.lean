import RegisterMachine.Machine.Request

namespace RegisterMachine

inductive Readiness where
  | idle
  | busy
  | unusable
deriving DecidableEq, Repr

structure Instance where
  machine : Machine
  channel : Channel
  readiness : Readiness
deriving DecidableEq, Repr

namespace Instance

def ofMachine (m : Machine) : Instance := ⟨m, Channel.empty, .idle⟩

end Instance

abbrev Handle := Nat

namespace Handle

-- The slot is in the low half, counted from one, and the generation in the high half.
def make (slot : Nat) (generation : UInt32) : Nat := generation.toNat * 4294967296 + (slot + 1)

def split? (h : Nat) : Option (Nat × UInt32) :=
  let low := h % 4294967296
  if low = 0 then none else some (low - 1, UInt32.ofNat (h / 4294967296))

theorem split?_make {slot : Nat} (generation : UInt32) (h : slot + 1 < 4294967296) :
    split? (make slot generation) = some (slot, generation) := by
  have hlow : make slot generation % 4294967296 = slot + 1 := by
    simp only [make]
    omega
  have hhigh : make slot generation / 4294967296 = generation.toNat := by
    simp only [make]
    omega
  simp only [split?, hlow, hhigh]
  rw [if_neg (by omega)]
  simp

theorem make_ne_zero (slot : Nat) (generation : UInt32) : make slot generation ≠ 0 := by
  simp only [make]
  omega

end Handle

structure Slot where
  generation : UInt32
  tenant : Option Nat
deriving DecidableEq, Repr

structure Registry where
  slots : Array Slot
  free : List Nat
  instances : Array Instance
deriving DecidableEq, Repr

namespace Registry

def empty : Registry := ⟨#[], [], #[]⟩

def resolve? (r : Registry) (h : Handle) : Option Nat := do
  let (index, generation) ← Handle.split? h
  let slot ← r.slots[index]?
  if slot.generation = generation then slot.tenant else none

def live (r : Registry) : Nat := r.slots.countP (fun slot => slot.tenant.isSome)

def isEmpty (r : Registry) : Bool := r.live == 0

def insert (r : Registry) (i : Instance) : Registry × Handle :=
  let number := r.instances.size
  match r.free with
  | index :: free =>
      let generation := (r.slots[index]?.map Slot.generation).getD 0
      ({ slots := r.slots.setIfInBounds index ⟨generation, some number⟩
         free := free
         instances := r.instances.push i }, Handle.make index generation)
  | [] =>
      ({ slots := r.slots.push ⟨0, some number⟩
         free := []
         instances := r.instances.push i }, Handle.make r.slots.size 0)

def erase? (r : Registry) (h : Handle) : Option Registry := do
  let _ ← r.resolve? h
  let (index, generation) ← Handle.split? h
  return { r with
    slots := r.slots.setIfInBounds index ⟨generation + 1, none⟩
    free := index :: r.free }

def update (r : Registry) (number : Nat) (f : Instance → Instance) : Registry :=
  { r with instances := r.instances.modify number f }

end Registry

end RegisterMachine
