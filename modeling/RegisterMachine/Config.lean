import RegisterMachine.Error

namespace RegisterMachine

structure Config where
  ramSize : Nat
  registerCount : Nat
  codeSize : Nat
  debug : Bool
  limit : Option Nat
deriving DecidableEq, Repr

namespace Config

def maxRamSize : Nat := 268435456

def minRegisterCount : Nat := 3

def maxRegisterCount : Nat := 256

def ofRamSize (ramSize : Nat) : Config where
  ramSize := ramSize
  registerCount := 16
  codeSize := max (ramSize / 2) 1
  debug := false
  limit := none

def standard : Config := ofRamSize 65536

structure Valid (c : Config) : Prop where
  ram_pos : 0 < c.ramSize
  ram_le : c.ramSize ≤ maxRamSize
  registers_ge : minRegisterCount ≤ c.registerCount
  registers_le : c.registerCount ≤ maxRegisterCount
  code_pos : 0 < c.codeSize
  code_le : c.codeSize ≤ c.ramSize

def validate (c : Config) : Except Error Unit :=
  if c.ramSize = 0 ∨ maxRamSize < c.ramSize then
    .error (.invalidArgument (.ramSize c.ramSize))
  else if c.registerCount < minRegisterCount ∨ maxRegisterCount < c.registerCount then
    .error (.invalidArgument (.registerCount c.registerCount))
  else if c.codeSize = 0 ∨ c.ramSize < c.codeSize then
    .error (.invalidArgument (.codeRegion c.codeSize c.ramSize))
  else .ok ()

theorem validate_eq_ok_iff (c : Config) : c.validate = .ok () ↔ c.Valid := by
  constructor
  · intro h
    unfold validate at h
    split at h
    · simp at h
    · split at h
      · simp at h
      · split at h
        · simp at h
        · constructor <;> omega
  · intro h
    have h₁ := h.ram_pos
    have h₂ := h.ram_le
    have h₃ := h.registers_ge
    have h₄ := h.registers_le
    have h₅ := h.code_pos
    have h₆ := h.code_le
    unfold validate
    rw [if_neg (by omega), if_neg (by omega), if_neg (by omega)]

end Config

end RegisterMachine
