namespace RegisterMachine

abbrev Word := Int32

namespace Word

def bytes (w : Word) : List UInt8 :=
  let n := w.toUInt32.toNat
  [UInt8.ofNat n, UInt8.ofNat (n / 256), UInt8.ofNat (n / 65536), UInt8.ofNat (n / 16777216)]

def ofBytes (b₀ b₁ b₂ b₃ : UInt8) : Word :=
  Int32.ofNat (b₀.toNat + 256 * b₁.toNat + 65536 * b₂.toNat + 16777216 * b₃.toNat)

def lowByte (w : Word) : UInt8 := UInt8.ofNat w.toUInt32.toNat

@[simp] theorem length_bytes (w : Word) : (bytes w).length = 4 := rfl

theorem ofBytes_bytes (w : Word) :
    ofBytes (UInt8.ofNat w.toUInt32.toNat) (UInt8.ofNat (w.toUInt32.toNat / 256))
      (UInt8.ofNat (w.toUInt32.toNat / 65536)) (UInt8.ofNat (w.toUInt32.toNat / 16777216)) = w := by
  have hlt : w.toUInt32.toNat < 4294967296 := w.toUInt32.toNat_lt
  have hsum : (UInt8.ofNat w.toUInt32.toNat).toNat
      + 256 * (UInt8.ofNat (w.toUInt32.toNat / 256)).toNat
      + 65536 * (UInt8.ofNat (w.toUInt32.toNat / 65536)).toNat
      + 16777216 * (UInt8.ofNat (w.toUInt32.toNat / 16777216)).toNat = w.toUInt32.toNat := by
    simp only [UInt8.toNat_ofNat']
    omega
  unfold ofBytes
  rw [hsum]
  exact Int32.toBitVec_inj.mp (BitVec.ofNat_toNat 32 w.toBitVec)

theorem bytes_ofBytes (b₀ b₁ b₂ b₃ : UInt8) : bytes (ofBytes b₀ b₁ b₂ b₃) = [b₀, b₁, b₂, b₃] := by
  have h₀ : b₀.toNat < 256 := b₀.toNat_lt
  have h₁ : b₁.toNat < 256 := b₁.toNat_lt
  have h₂ : b₂.toNat < 256 := b₂.toNat_lt
  have h₃ : b₃.toNat < 256 := b₃.toNat_lt
  have hn : (ofBytes b₀ b₁ b₂ b₃).toUInt32.toNat =
      b₀.toNat + 256 * b₁.toNat + 65536 * b₂.toNat + 16777216 * b₃.toNat := by
    simp only [ofBytes, Int32.toUInt32_ofNat', UInt32.toNat_ofNat']
    omega
  simp only [bytes, hn, List.cons.injEq, and_true]
  refine ⟨?_, ?_, ?_, ?_⟩ <;>
    · apply UInt8.toNat_inj.mp
      simp only [UInt8.toNat_ofNat']
      omega

end Word

end RegisterMachine
