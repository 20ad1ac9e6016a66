import RegisterMachine.Error
import RegisterMachine.Instruction.Code

namespace RegisterMachine

structure Memory where
  bytes : Array UInt8
  codeSize : Nat
deriving DecidableEq, Repr

namespace Memory

def size (m : Memory) : Nat := m.bytes.size

def zeroed (size codeSize : Nat) : Memory := ⟨Array.replicate size 0, min codeSize size⟩

def capacityLimit : Nat := 9223372036854775807

def allocate (supply size codeSize : Nat) : Except Error Memory :=
  let refusal := "cannot allocate " ++ Numeral.decimal size ++
    " bytes of RAM: memory allocation failed because "
  if capacityLimit < size then
    .error (.general (refusal ++ "the computed capacity exceeded the collection's maximum"))
  else if supply < size then
    .error (.general (refusal ++ "the memory allocator returned an error"))
  else .ok (zeroed size codeSize)

def byte (m : Memory) (address : Nat) : UInt8 := m.bytes.getD address 0

def locate (m : Memory) (address : Int) (width : Nat) : Except Access Nat :=
  let access : Access := ⟨address, width, m.size⟩
  if access.Fits then .ok address.toNat else .error access

def putBytes (bytes : Array UInt8) (start : Nat) : List UInt8 → Array UInt8
  | [] => bytes
  | b :: data => putBytes (bytes.setIfInBounds start b) (start + 1) data

def put (m : Memory) (start : Nat) (data : List UInt8) : Memory :=
  { m with bytes := putBytes m.bytes start data }

def readByte (m : Memory) (address : Int) : Except Access UInt8 := do
  let start ← m.locate address 1
  return m.byte start

def writeByte (m : Memory) (address : Int) (b : UInt8) : Except Access Memory := do
  let start ← m.locate address 1
  return m.put start [b]

def readWord (m : Memory) (address : Int) : Except Access Word := do
  let start ← m.locate address 4
  return Word.ofBytes (m.byte start) (m.byte (start + 1)) (m.byte (start + 2)) (m.byte (start + 3))

def writeWord (m : Memory) (address : Int) (w : Word) : Except Access Memory := do
  let start ← m.locate address 4
  return m.put start (Word.bytes w)

def slice (m : Memory) (address : Int) (length : Nat) : Except Access (List UInt8) := do
  let start ← m.locate address length
  return (m.bytes.extract start (start + length)).toList

def writeBytes (m : Memory) (address : Int) (data : List UInt8) : Except Access Memory := do
  let start ← m.locate address data.length
  return m.put start data

def tail (m : Memory) (address : Nat) : List UInt8 := (m.bytes.extract address m.size).toList

def window (m : Memory) (address : Nat) : List UInt8 :=
  (m.bytes.extract address (address + 6)).toList

def fetch (m : Memory) (address : Nat) : Except FaultKind Instruction :=
  Instruction.decode (m.window address)

def loadCode (m : Memory) (image : List UInt8) : Except Error Memory :=
  if m.codeSize < image.length then .error (.imageTooLarge image.length m.codeSize)
  else
    let code := image ++ List.replicate (m.codeSize - image.length) 0
    .ok { m with bytes := code.toArray ++ m.bytes.extract m.codeSize m.size }

def runsFrom (address : Nat) : List UInt8 → List (Nat × List UInt8)
  | [] => []
  | b :: rest =>
      if b = 0 then runsFrom (address + 1) rest
      else match runsFrom (address + 1) rest with
        | [] => [(address, [b])]
        | (next, run) :: more =>
            if next = address + 1 then (address, b :: run) :: more
            else (address, [b]) :: (next, run) :: more

def runs (m : Memory) : List (Nat × List UInt8) := runsFrom 0 m.bytes.toList

@[simp] theorem size_zeroed (size codeSize : Nat) : (zeroed size codeSize).size = size := by
  simp [zeroed, Memory.size]

theorem byte_zeroed (size codeSize address : Nat) : (zeroed size codeSize).byte address = 0 := by
  simp only [byte, zeroed, Array.getD_eq_getD_getElem?, Array.getElem?_replicate]
  split <;> rfl

theorem locate_eq_ok_iff (m : Memory) (address : Int) (width start : Nat) :
    m.locate address width = .ok start ↔
      address = start ∧ start + width ≤ m.size := by
  by_cases h : (Access.mk address width m.size).Fits
  · simp only [locate, if_pos h, Except.ok.injEq]
    simp only [Access.Fits] at h
    omega
  · simp only [locate, if_neg h, reduceCtorEq, false_iff]
    simp only [Access.Fits] at h
    omega

@[simp] theorem size_putBytes (bytes : Array UInt8) (start : Nat) (data : List UInt8) :
    (putBytes bytes start data).size = bytes.size := by
  induction data generalizing bytes start with
  | nil => rfl
  | cons b data ih => simp [putBytes, ih]

@[simp] theorem size_put (m : Memory) (start : Nat) (data : List UInt8) :
    (m.put start data).size = m.size := size_putBytes _ _ _

@[simp] theorem codeSize_put (m : Memory) (start : Nat) (data : List UInt8) :
    (m.put start data).codeSize = m.codeSize := rfl

theorem getD_putBytes (bytes : Array UInt8) (start : Nat) (data : List UInt8) (address : Nat)
    (h : start + data.length ≤ bytes.size) :
    (putBytes bytes start data).getD address 0 =
      if start ≤ address ∧ address < start + data.length then data.getD (address - start) 0
      else bytes.getD address 0 := by
  induction data generalizing bytes start with
  | nil =>
      simp only [putBytes, List.length_nil, Nat.add_zero]
      rw [if_neg (by omega)]
  | cons b data ih =>
      simp only [List.length_cons] at h ⊢
      rw [putBytes, ih _ _ (by simp only [Array.size_setIfInBounds]; omega)]
      by_cases hlow : address = start
      · subst hlow
        rw [if_neg (by omega), if_pos (by omega)]
        simp only [Array.getD_eq_getD_getElem?, Array.getElem?_setIfInBounds, Nat.sub_self,
          List.getD_cons_zero, if_true]
        rw [if_pos (by omega)]
        rfl
      · by_cases hin : start + 1 ≤ address ∧ address < start + 1 + data.length
        · rw [if_pos hin, if_pos (by omega)]
          obtain ⟨k, rfl⟩ : ∃ k, address = start + 1 + k := ⟨address - (start + 1), by omega⟩
          rw [show start + 1 + k - start = k + 1 by omega, List.getD_cons_succ]
          congr 1
          omega
        · rw [if_neg hin, if_neg (by omega)]
          simp only [Array.getD_eq_getD_getElem?, Array.getElem?_setIfInBounds]
          rw [if_neg (fun e => hlow e.symm)]

theorem byte_put (m : Memory) (start : Nat) (data : List UInt8) (address : Nat)
    (h : start + data.length ≤ m.size) :
    (m.put start data).byte address =
      if start ≤ address ∧ address < start + data.length then data.getD (address - start) 0
      else m.byte address := getD_putBytes _ _ _ _ h

theorem window_eq_take (m : Memory) (address : Nat) : m.window address = (m.tail address).take 6 := by
  simp only [window, tail, Array.toList_extract, List.extract, Nat.add_sub_cancel_left, size]
  rw [List.take_take]
  by_cases h : 6 ≤ m.bytes.size - address
  · rw [Nat.min_eq_left h]
  · rw [Nat.min_eq_right (by omega)]
    rw [List.take_of_length_le (by simp; omega), List.take_of_length_le (by simp)]

theorem fetch_eq_decode_tail (m : Memory) (address : Nat) :
    m.fetch address = Instruction.decode (m.tail address) := by
  rw [fetch, window_eq_take, Instruction.decode_take]

end Memory

end RegisterMachine
