import RegisterMachine.Error
import RegisterMachine.Instruction

namespace RegisterMachine

structure Registers where
  values : Array Word
deriving DecidableEq, Repr

namespace Registers

def zeroed (count : Nat) : Registers := ⟨Array.replicate count 0⟩

def size (r : Registers) : Nat := r.values.size

def isEmpty (r : Registers) : Bool := r.size == 0

def stackPointer (r : Registers) : Nat := r.size - 1

def value (r : Registers) (index : Nat) : Word := r.values.getD index 0

def update (r : Registers) (index : Nat) (w : Word) : Registers :=
  ⟨r.values.setIfInBounds index w⟩

def locate (r : Registers) (index : Int) : Except Error Nat :=
  if 0 ≤ index ∧ index < r.size then .ok index.toNat
  else .error (.registerOutOfRange index r.size)

def get (r : Registers) (index : Int) : Except Error Word := do
  return r.value (← r.locate index)

def set (r : Registers) (index : Int) (w : Word) : Except Error Registers := do
  return r.update (← r.locate index) w

def text (r : Registers) : String :=
  String.intercalate " " (r.values.toList.zipIdx.map (fun (w, index) =>
    "R" ++ Numeral.decimal index ++ "=" ++ Word.text w))

@[simp] theorem size_zeroed (count : Nat) : (zeroed count).size = count := by
  simp [zeroed, size]

@[simp] theorem size_update (r : Registers) (index : Nat) (w : Word) :
    (r.update index w).size = r.size := by
  simp [update, size]

theorem value_update (r : Registers) (index other : Nat) (w : Word) (h : index < r.size) :
    (r.update index w).value other = if other = index then w else r.value other := by
  simp only [update, value, Array.getD_eq_getD_getElem?, Array.getElem?_setIfInBounds]
  by_cases e : other = index
  · subst e
    simp only [size] at h
    simp [h]
  · rw [if_neg (fun e' => e e'.symm), if_neg e]

end Registers

end RegisterMachine
