import Mathlib.Logic.Function.Basic
import RegisterMachine.Instruction.Code

namespace RegisterMachine

def Format.ofCode (code : UInt8) : Format :=
  match code >>> 4 with
  | 0 => .nullary
  | 1 => .register
  | 2 => .registerPair
  | 4 => .registerImmediate
  | _ => .immediate

theorem Opcode.format_eq_ofCode (op : Opcode) : op.format = Format.ofCode op.code := by
  have hall : ∀ op ∈ all, op.format = Format.ofCode op.code := by decide
  exact hall op op.mem_all

theorem Opcode.code_injective : Function.Injective code := by
  intro op other h
  have hop := ofCode?_code op
  rw [h, ofCode?_code other] at hop
  exact (Option.some.inj hop).symm

namespace Instruction

def layout : Instruction → Format
  | .plain _ => .nullary
  | .unary _ _ => .register
  | .binary _ _ _ => .registerPair
  | .immediate _ _ _ => .registerImmediate
  | .branch _ _ => .immediate

theorem layout_eq_ofCode (i : Instruction) : i.layout = Format.ofCode i.opcode.code := by
  rw [← Opcode.format_eq_ofCode]
  cases i <;> rfl

theorem head?_encode_append (i : Instruction) (rest : List UInt8) :
    (i.encode ++ rest).head? = some i.opcode.code := by
  cases i <;> rfl

theorem encode_ne_nil (i : Instruction) : i.encode ≠ [] := by
  cases i <;> exact List.cons_ne_nil _ _

theorem encode_of_withOperands? {op : Opcode} {bytes : List UInt8} {i : Instruction}
    (h : withOperands? op bytes = some i) :
    i.encode ++ (op.code :: bytes).drop i.width = op.code :: bytes := by
  unfold withOperands? at h
  split at h
  · cases h
    rfl
  · cases h
    rfl
  · cases h
    rfl
  · cases h
    simp [encode, Word.bytes_ofBytes, width, opcode, Opcode.width, Opcode.format, Format.width]
  · cases h
    simp [encode, Word.bytes_ofBytes, width, opcode, Opcode.width, Opcode.format, Format.width]
  · cases h

theorem encode_of_decode {bytes : List UInt8} {i : Instruction} (h : decode bytes = .ok i) :
    i.encode ++ bytes.drop i.width = bytes := by
  cases bytes with
  | nil => cases h
  | cons code rest =>
      unfold decode at h
      dsimp only at h
      cases hop : Opcode.ofCode? code with
      | none =>
          rw [hop] at h
          cases h
      | some op =>
          rw [hop] at h
          dsimp only at h
          cases hi : withOperands? op rest with
          | none =>
              rw [hi] at h
              cases h
          | some j =>
              rw [hi] at h
              cases h
              rw [← Opcode.code_of_ofCode? hop]
              exact encode_of_withOperands? hi

theorem withOperands?_eq_none_iff (op : Opcode) (bytes : List UInt8) :
    withOperands? op bytes = none ↔ bytes.length + 1 < op.width := by
  rcases bytes with _ | ⟨a, _ | ⟨b, _ | ⟨c, _ | ⟨d, _ | ⟨e, rest⟩⟩⟩⟩⟩ <;>
    cases op <;> simp [withOperands?, Opcode.width, Opcode.format, Format.width]

inductive Reading : List UInt8 → Except FaultKind Instruction → Prop
  | empty : Reading [] (.error (.truncatedInstruction 1 0))
  | unknown {code : UInt8} (rest : List UInt8) (h : ∀ op : Opcode, op.code ≠ code) :
      Reading (code :: rest) (.error (.invalidOpcode code))
  | short {op : Opcode} {rest : List UInt8} (h : (op.code :: rest).length < op.width) :
      Reading (op.code :: rest)
        (.error (.truncatedInstruction op.width (op.code :: rest).length))
  | whole (i : Instruction) (rest : List UInt8) : Reading (i.encode ++ rest) (.ok i)

theorem reading_decode (bytes : List UInt8) : Reading bytes (decode bytes) := by
  cases hread : decode bytes with
  | ok i =>
      rw [← encode_of_decode hread]
      exact .whole i _
  | error kind =>
      cases bytes with
      | nil =>
          cases hread
          exact .empty
      | cons code rest =>
          unfold decode at hread
          dsimp only at hread
          cases hop : Opcode.ofCode? code with
          | none =>
              rw [hop] at hread
              cases hread
              refine .unknown rest fun op hcode => ?_
              rw [← hcode, Opcode.ofCode?_code] at hop
              cases hop
          | some op =>
              obtain rfl := Opcode.code_of_ofCode? hop
              rw [hop] at hread
              dsimp only at hread
              cases hi : withOperands? op rest with
              | none =>
                  rw [hi] at hread
                  cases hread
                  exact .short ((withOperands?_eq_none_iff op rest).mp hi)
              | some i =>
                  rw [hi] at hread
                  cases hread

theorem decode_eq_ok_iff (bytes : List UInt8) (i : Instruction) :
    decode bytes = .ok i ↔ i.encode = bytes.take i.width := by
  constructor
  · intro h
    have hwhole := encode_of_decode h
    rw [← hwhole, ← length_encode, List.take_left]
  · intro h
    rw [← List.take_append_drop i.width bytes, ← h]
    exact decode_encode_append i _

theorem exists_decode_eq_ok_iff (bytes : List UInt8) :
    (∃ i, decode bytes = .ok i) ↔
      ∃ op : Opcode, bytes.head? = some op.code ∧ op.width ≤ bytes.length := by
  have hreading := reading_decode bytes
  generalize decode bytes = result at hreading
  cases hreading with
  | empty => simp
  | unknown rest h =>
      refine iff_of_false (by simp) ?_
      rintro ⟨op, hop, -⟩
      exact h op (Option.some.inj hop).symm
  | @short op rest h =>
      refine iff_of_false (by simp) ?_
      rintro ⟨other, hother, hle⟩
      rw [← Opcode.code_injective (Option.some.inj hother)] at hle
      exact absurd h (Nat.not_lt.mpr hle)
  | whole i rest =>
      refine iff_of_true ⟨i, rfl⟩ ⟨i.opcode, head?_encode_append i rest, ?_⟩
      rw [List.length_append, length_encode]
      exact Nat.le_add_right _ _

theorem decode_eq_invalidOpcode_iff (bytes : List UInt8) (code : UInt8) :
    decode bytes = .error (.invalidOpcode code) ↔
      bytes.head? = some code ∧ ∀ op : Opcode, op.code ≠ code := by
  have hreading := reading_decode bytes
  generalize decode bytes = result at hreading
  cases hreading with
  | empty => simp
  | @unknown first rest h =>
      constructor
      · intro hfirst
        cases hfirst
        exact ⟨rfl, h⟩
      · rintro ⟨hfirst, -⟩
        cases hfirst
        rfl
  | @short op rest h =>
      refine iff_of_false (by simp) ?_
      rintro ⟨hop, hnone⟩
      exact hnone op (Option.some.inj hop)
  | whole i rest =>
      refine iff_of_false (by simp) ?_
      rintro ⟨hop, hnone⟩
      rw [head?_encode_append] at hop
      exact hnone i.opcode (Option.some.inj hop)

theorem decode_eq_truncated_iff (bytes : List UInt8) (width available : Nat) :
    decode bytes = .error (.truncatedInstruction width available) ↔
      (bytes = [] ∧ width = 1 ∧ available = 0) ∨
        ∃ op : Opcode, bytes.head? = some op.code ∧ bytes.length < op.width ∧
          width = op.width ∧ available = bytes.length := by
  have hreading := reading_decode bytes
  generalize decode bytes = result at hreading
  cases hreading with
  | empty =>
      constructor
      · intro h
        cases h
        exact .inl ⟨rfl, rfl, rfl⟩
      · rintro (⟨-, rfl, rfl⟩ | ⟨op, hop, -⟩)
        · rfl
        · cases hop
  | unknown rest h =>
      refine iff_of_false (by simp) ?_
      rintro (⟨hnil, -⟩ | ⟨op, hop, -⟩)
      · cases hnil
      · exact h op (Option.some.inj hop).symm
  | @short op rest h =>
      constructor
      · intro heq
        cases heq
        exact .inr ⟨op, rfl, h, rfl, rfl⟩
      · rintro (⟨hnil, -⟩ | ⟨other, hother, -, rfl, rfl⟩)
        · cases hnil
        · rw [Opcode.code_injective (Option.some.inj hother)]
  | whole i rest =>
      refine iff_of_false (by simp) ?_
      rintro (⟨hnil, -⟩ | ⟨op, hop, hlt, -⟩)
      · exact encode_ne_nil i (List.append_eq_nil_iff.mp hnil).1
      · rw [head?_encode_append] at hop
        rw [← Opcode.code_injective (Option.some.inj hop), List.length_append, length_encode] at hlt
        exact absurd hlt (Nat.not_lt.mpr (Nat.le_add_right _ _))

theorem encodeAll_injective : Function.Injective encodeAll := by
  intro program
  induction program with
  | nil =>
      intro other h
      cases other with
      | nil => rfl
      | cons j other => exact absurd (List.append_eq_nil_iff.mp h.symm).1 (encode_ne_nil j)
  | cons i program ih =>
      intro other h
      cases other with
      | nil => exact absurd (List.append_eq_nil_iff.mp h).1 (encode_ne_nil i)
      | cons j other =>
          have hcons : i.encode ++ encodeAll program = j.encode ++ encodeAll other := h
          have hread := decode_encode_append i (encodeAll program)
          rw [hcons, decode_encode_append] at hread
          obtain rfl := Except.ok.inj hread
          rw [ih (List.append_cancel_left hcons)]

theorem decode_exact :
    (∀ (i : Instruction) (rest : List UInt8),
      decode (i.encode ++ rest) = .ok i ∧ i.encode.length = i.width) ∧
    (∀ bytes : List UInt8,
      ((∃ i, decode bytes = .ok i) ↔
        ∃ op : Opcode, bytes.head? = some op.code ∧ op.width ≤ bytes.length) ∧
      (∀ i, decode bytes = .ok i ↔
        i.layout = Format.ofCode i.opcode.code ∧ i.encode = bytes.take i.width) ∧
      (∀ code, decode bytes = .error (.invalidOpcode code) ↔
        bytes.head? = some code ∧ ∀ op : Opcode, op.code ≠ code) ∧
      (∀ width available, decode bytes = .error (.truncatedInstruction width available) ↔
        (bytes = [] ∧ width = 1 ∧ available = 0) ∨
          ∃ op : Opcode, bytes.head? = some op.code ∧ bytes.length < op.width ∧
            width = op.width ∧ available = bytes.length)) ∧
    Function.Injective encodeAll := by
  refine ⟨fun i rest => ⟨decode_encode_append i rest, length_encode i⟩, fun bytes => ?_,
    encodeAll_injective⟩
  refine ⟨exists_decode_eq_ok_iff bytes, fun i => ?_, decode_eq_invalidOpcode_iff bytes,
    decode_eq_truncated_iff bytes⟩
  rw [decode_eq_ok_iff]
  exact (and_iff_right (layout_eq_ofCode i)).symm

theorem decode_exact_movi :
    decode [0x40, 3, 0, 0, 0, 0x80, 0xFF] = .ok (.immediate .movi 3 (-2147483648)) ∧
    decode [0x40, 3, 0, 0, 0] = .error (.truncatedInstruction 6 5) ∧
    ∀ program, encodeAll program = encodeAll [.immediate .movi 3 (-2147483648), .plain .hlt] →
      program = [.immediate .movi 3 (-2147483648), .plain .hlt] := by
  obtain ⟨hwhole, hbytes, hinjective⟩ := decode_exact
  obtain ⟨-, -, -, htruncated⟩ := hbytes [0x40, 3, 0, 0, 0]
  refine ⟨(hwhole (.immediate .movi 3 (-2147483648)) [0xFF]).1, ?_, fun program h => hinjective h⟩
  exact (htruncated 6 5).mpr (.inr ⟨.immediate .movi, rfl, by decide, rfl, rfl⟩)

end Instruction

end RegisterMachine
