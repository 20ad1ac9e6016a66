import RegisterMachine.Fault
import RegisterMachine.Instruction

namespace RegisterMachine

namespace Instruction

def encode : Instruction → List UInt8
  | .plain op => [(Opcode.plain op).code]
  | .unary op r => [(Opcode.unary op).code, r]
  | .binary op a b => [(Opcode.binary op).code, a, b]
  | .immediate op r v => (Opcode.immediate op).code :: r :: Word.bytes v
  | .branch op t => (Opcode.branch op).code :: Word.bytes t

def encodeAll (program : List Instruction) : List UInt8 := program.flatMap encode

def withOperands? : Opcode → List UInt8 → Option Instruction
  | .plain op, _ => some (.plain op)
  | .unary op, r :: _ => some (.unary op r)
  | .binary op, a :: b :: _ => some (.binary op a b)
  | .immediate op, r :: b₀ :: b₁ :: b₂ :: b₃ :: _ =>
      some (.immediate op r (Word.ofBytes b₀ b₁ b₂ b₃))
  | .branch op, b₀ :: b₁ :: b₂ :: b₃ :: _ => some (.branch op (Word.ofBytes b₀ b₁ b₂ b₃))
  | _, _ => none

def decode (bytes : List UInt8) : Except FaultKind Instruction :=
  match bytes with
  | [] => .error (.truncatedInstruction 1 0)
  | code :: rest => match Opcode.ofCode? code with
    | none => .error (.invalidOpcode code)
    | some op => match withOperands? op rest with
      | none => .error (.truncatedInstruction op.width bytes.length)
      | some i => .ok i

theorem length_encode (i : Instruction) : i.encode.length = i.width := by
  cases i <;> rfl

theorem decode_encode_append (i : Instruction) (rest : List UInt8) :
    decode (i.encode ++ rest) = .ok i := by
  cases i with
  | plain op => simp [encode, decode, Opcode.ofCode?_code, withOperands?]
  | unary op r => simp [encode, decode, Opcode.ofCode?_code, withOperands?]
  | binary op a b => simp [encode, decode, Opcode.ofCode?_code, withOperands?]
  | immediate op r v =>
      simp only [encode, Word.bytes, List.cons_append, decode, Opcode.ofCode?_code, withOperands?,
        Word.ofBytes_bytes]
  | branch op t =>
      simp only [encode, Word.bytes, List.cons_append, decode, Opcode.ofCode?_code, withOperands?,
        Word.ofBytes_bytes]

theorem decode_eq_error {bytes : List UInt8} {kind : FaultKind} (h : decode bytes = .error kind) :
    (∃ code, kind = .invalidOpcode code) ∨
      ∃ width, kind = .truncatedInstruction width bytes.length := by
  cases bytes with
  | nil =>
      cases h
      exact .inr ⟨1, rfl⟩
  | cons code rest =>
      simp only [decode] at h
      cases hcode : Opcode.ofCode? code with
      | none =>
          simp only [hcode] at h
          cases h
          exact .inl ⟨code, rfl⟩
      | some op =>
          cases hop : withOperands? op rest with
          | none =>
              simp only [hcode, hop] at h
              cases h
              exact .inr ⟨op.width, rfl⟩
          | some i =>
              simp only [hcode, hop] at h
              cases h

theorem withOperands?_take (op : Opcode) (bytes : List UInt8) :
    withOperands? op (bytes.take 5) = withOperands? op bytes := by
  rcases bytes with _ | ⟨a, _ | ⟨b, _ | ⟨c, _ | ⟨d, _ | ⟨e, r⟩⟩⟩⟩⟩ <;> cases op <;> rfl

theorem withOperands?_isSome (op : Opcode) {bytes : List UInt8} (h : 5 ≤ bytes.length) :
    (withOperands? op bytes).isSome := by
  rcases bytes with _ | ⟨a, _ | ⟨b, _ | ⟨c, _ | ⟨d, _ | ⟨e, r⟩⟩⟩⟩⟩ <;>
    first
      | (simp at h; done)
      | (cases op <;> rfl)

theorem decode_take (bytes : List UInt8) : decode (bytes.take 6) = decode bytes := by
  cases bytes with
  | nil => rfl
  | cons code rest =>
      by_cases h : 5 ≤ rest.length
      · simp only [List.take_succ_cons, decode, withOperands?_take]
        cases hop : Opcode.ofCode? code with
        | none => rfl
        | some op =>
            cases hi : withOperands? op rest with
            | none => simpa [hi] using withOperands?_isSome op h
            | some i => simp only [hi]
      · rw [List.take_of_length_le (by simp only [List.length_cons]; omega)]

end Instruction

end RegisterMachine
