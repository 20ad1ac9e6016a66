import Mathlib.Data.Int.Bitwise
import Mathlib.Data.Int.ModEq
import RegisterMachine.Proofs.Footprint

namespace RegisterMachine

theorem getLsbD_ofInt {n : Nat} (z : Int) (k : Nat) :
    (BitVec.ofInt n z).getLsbD k = (decide (k < n) && z.testBit k) := by
  cases z with
  | ofNat x =>
      rw [Int.ofNat_eq_natCast, BitVec.ofInt_natCast, BitVec.getLsbD_ofNat]
      rfl
  | negSucc x =>
      rw [BitVec.ofInt_negSucc_eq_not_ofNat, BitVec.getLsbD_not, BitVec.getLsbD_ofNat]
      by_cases hk : k < n
      · simp only [hk, decide_true, Bool.true_and]
        rfl
      · simp only [hk, decide_false, Bool.false_and]

namespace Word

theorem modEq_iff {w : Word} {z : Int} : w.toInt ≡ z [ZMOD 2 ^ 32] ↔ w = Int32.ofInt z := by
  rw [eq_comm (a := w), Int32.ofInt_eq_iff_bmod_eq_toInt]
  constructor
  · intro h
    have hmod : w.toInt % (2 ^ 32 : Nat) = z % (2 ^ 32 : Nat) := h
    rw [← Int.emod_bmod, ← hmod, Int.emod_bmod]
    exact w.toInt_bmod
  · intro h
    rw [← h]
    exact Int.bmod_emod

variable (a b : Word)

theorem ofInt_not : Int32.ofInt (-a.toInt - 1) = ~~~a := by
  rw [Int32.ofInt_eq_iff_bmod_eq_toInt, Int32.toInt_not]

theorem ofInt_tdiv : Int32.ofInt (a.toInt.tdiv b.toInt) = a / b := by
  rw [Int32.ofInt_eq_iff_bmod_eq_toInt, Int32.toInt_div]

theorem ofInt_tmod : Int32.ofInt (a.toInt - b.toInt * a.toInt.tdiv b.toInt) = a % b := by
  rw [← Int.tmod_def, ← Int32.toInt_mod, Int32.ofInt_toInt]

theorem testBit_toInt {w : Word} {k : Nat} (hk : k < 32) :
    w.toInt.testBit k = w.toBitVec.getLsbD k := by
  have h := getLsbD_ofInt (n := 32) w.toInt k
  rw [BitVec.ofInt_int32ToInt, decide_eq_true hk, Bool.true_and] at h
  exact h.symm

theorem toBitVec_ofInt (z : Int) : (Int32.ofInt z).toBitVec = BitVec.ofInt 32 z := rfl

theorem ofInt_eq_of_testBit {w : Word} {z : Int}
    (h : ∀ k, k < 32 → w.toBitVec.getLsbD k = z.testBit k) : Int32.ofInt z = w := by
  refine Int32.toBitVec_inj.mp (BitVec.eq_of_getLsbD_eq fun k hk => ?_)
  rw [toBitVec_ofInt, getLsbD_ofInt, decide_eq_true hk, Bool.true_and, h k hk]

theorem ofInt_land : Int32.ofInt (a.toInt.land b.toInt) = a &&& b := by
  refine ofInt_eq_of_testBit fun k hk => ?_
  rw [Int32.toBitVec_and, BitVec.getLsbD_and, Int.testBit_land, testBit_toInt hk, testBit_toInt hk]

theorem ofInt_lor : Int32.ofInt (a.toInt.lor b.toInt) = a ||| b := by
  refine ofInt_eq_of_testBit fun k hk => ?_
  rw [Int32.toBitVec_or, BitVec.getLsbD_or, Int.testBit_lor, testBit_toInt hk, testBit_toInt hk]

theorem ofInt_xor : Int32.ofInt (a.toInt.xor b.toInt) = a ^^^ b := by
  refine ofInt_eq_of_testBit fun k hk => ?_
  rw [Int32.toBitVec_xor, BitVec.getLsbD_xor, Int.testBit_lxor, testBit_toInt hk, testBit_toInt hk]

theorem toNat_smod : (b.toBitVec.smod 32).toNat = (b.toInt % 32).toNat := by
  have h : (b.toBitVec.smod 32).toInt = b.toInt % 32 := by
    rw [BitVec.toInt_smod, Int32.toInt_toBitVec]
    exact Int.fmod_eq_emod_of_nonneg _ (by decide)
  rw [← h, BitVec.toNat_toInt_of_msb]
  rw [BitVec.msb_eq_toInt, h]
  simp only [decide_eq_false_iff_not]
  omega

theorem ofInt_shiftLeft : Int32.ofInt (a.toInt * 2 ^ (b.toInt % 32).toNat) = a <<< b := by
  refine Int32.toBitVec_inj.mp ?_
  rw [Int32.toBitVec_shiftLeft, BitVec.shiftLeft_eq', toNat_smod, BitVec.shiftLeft_eq_mul_twoPow,
    toBitVec_ofInt, BitVec.ofInt_mul, BitVec.ofInt_int32ToInt]
  refine congrArg (a.toBitVec * ·) (BitVec.toNat_inj.mp ?_)
  rw [show (2 : Int) ^ (b.toInt % 32).toNat = (2 ^ (b.toInt % 32).toNat : Nat) by norm_cast,
    BitVec.ofInt_natCast, BitVec.toNat_ofNat, BitVec.toNat_twoPow]

theorem ofInt_shiftRight : Int32.ofInt (a.toInt / 2 ^ (b.toInt % 32).toNat) = a >>> b := by
  have h : (a >>> b).toInt = a.toInt / 2 ^ (b.toInt % 32).toNat := by
    rw [← Int32.toInt_toBitVec, Int32.toBitVec_shiftRight, BitVec.toInt_sshiftRight', toNat_smod,
      Int32.toInt_toBitVec, Int.shiftRight_eq_div_pow]
    norm_cast
  rw [← h, Int32.ofInt_toInt]

end Word

def Unary.integer? (op : Unary) (a : Int) : Option Int :=
  match op with
  | .inc => some (a + 1)
  | .dec => some (a - 1)
  | .neg => some (-a)
  | .not => some (-a - 1)
  | .push | .pop | .out | .outc => none

-- A shift goes by the low five bits, that is by the remainder modulo 32, also of a negative count; the
-- bits of a negative integer are those of its two's complement.
def Binary.integer? (op : Binary) (a b : Int) : Option Int :=
  match op with
  | .mov => some b
  | .add => some (a + b)
  | .sub => some (a - b)
  | .mul => some (a * b)
  | .div => some (a.tdiv b)
  | .mod => some (a - b * a.tdiv b)
  | .and => some (a.land b)
  | .or => some (a.lor b)
  | .xor => some (a.xor b)
  | .shl => some (a * 2 ^ (b % 32).toNat)
  | .shr => some (a / 2 ^ (b % 32).toNat)
  | .cmp | .load | .store | .loadb | .storeb => none

def Immediate.integer? (op : Immediate) (a value : Int) : Option Int :=
  match op with
  | .movi => some value
  | .addi => some (a + value)
  | .subi => some (a - value)
  | .muli => some (a * value)
  | .cmpi | .lda | .sta => none

namespace Instruction

def integer? (i : Instruction) (s : State) : Option (Register × Int) :=
  match i with
  | .plain _ | .branch _ _ => none
  | .unary op r => (op.integer? (s.operand r).toInt).map (r, ·)
  | .binary op first second =>
      (op.integer? (s.operand first).toInt (s.operand second).toInt).map (first, ·)
  | .immediate op r value => (op.integer? (s.operand r).toInt value.toInt).map (r, ·)

variable {i : Instruction} {s : State} {r : Register} {z : Int}

theorem written?_of_integer? (h : i.integer? s = some (r, z)) :
    i.written? s = some (r, Int32.ofInt z) := by
  cases i with
  | plain op => cases h
  | branch op target => cases h
  | unary op q =>
      cases op with
      | push | pop | out | outc => cases h
      | inc | dec =>
          cases h
          simp only [written?, Int32.ofInt_add, Int32.ofInt_sub, Int32.ofInt_toInt]
          rfl
      | neg | not =>
          cases h
          simp only [written?, Int32.ofInt_neg, Int32.ofInt_toInt, Word.ofInt_not]
  | binary op first second =>
      cases op with
      | cmp | load | store | loadb | storeb => cases h
      | mov | add | sub | mul =>
          cases h
          simp only [written?, Int32.ofInt_add, Int32.ofInt_sub, Int32.ofInt_mul, Int32.ofInt_toInt]
      | div | mod | and | or | xor | shl | shr =>
          cases h
          simp only [written?, Word.ofInt_tdiv, Word.ofInt_tmod, Word.ofInt_land, Word.ofInt_lor,
            Word.ofInt_xor, Word.ofInt_shiftLeft, Word.ofInt_shiftRight]
  | immediate op q value =>
      cases op with
      | cmpi | lda | sta => cases h
      | movi | addi | subi | muli =>
          cases h
          simp only [written?, Int32.ofInt_add, Int32.ofInt_sub, Int32.ofInt_mul, Int32.ofInt_toInt]

structure Calculates (i : Instruction) (s : State) : Prop where
  flow : i.flow s = .next
  callee : i.callee? = none
  reach : i.reach? s = none
  text : i.text? s = none
  top : i.top? s = none
  stored : i.stored? s = none
  compared : i.compared? s = none

theorem calculates_of_integer? (h : i.integer? s = some (r, z)) : i.Calculates s := by
  cases i with
  | plain op => cases h
  | branch op target => cases h
  | unary op q =>
      cases op with
      | push | pop | out | outc => cases h
      | _ => exact ⟨rfl, rfl, rfl, rfl, rfl, rfl, rfl⟩
  | binary op first second =>
      cases op with
      | cmp | load | store | loadb | storeb => cases h
      | _ => exact ⟨rfl, rfl, rfl, rfl, rfl, rfl, rfl⟩
  | immediate op q value =>
      cases op with
      | cmpi | lda | sta => cases h
      | _ => exact ⟨rfl, rfl, rfl, rfl, rfl, rfl, rfl⟩

theorem Calculates.result_eq (hi : i.Calculates s) {w : Word} (h : i.written? s = some (r, w)) :
    i.result s = { s with registers := s.registers.update r.toNat w } := by
  simp only [result, hi.top, hi.stored, hi.compared, hi.text, h, Option.elim_none, Option.elim_some,
    Option.getD_none]

theorem Calculates.causes_eq_nil_iff (hi : i.Calculates s) :
    i.causes s = [] ↔ (∀ q ∈ i.registers, q.toNat < s.registers.size) ∧
      ∀ d, i.divisor? = some d → s.operand d ≠ 0 := by
  simp only [causes, hi.callee, hi.reach, hi.text, Option.elim_none, List.append_nil,
    List.append_eq_nil_iff, List.flatMap_eq_nil_iff, State.lacks, demand_eq_nil_iff]
  refine and_congr_right fun _ => ?_
  cases i.divisor? with
  | none => simp
  | some d => simp [demand_eq_nil_iff]

end Instruction

theorem Binary.dispatch_same (op : Binary) {s : State} {first second : Register}
    (hfirst : first.toNat < s.registers.size) (hsecond : second.toNat < s.registers.size)
    (h : s.operand second = s.operand first) :
    op.dispatch first second s = op.dispatch first first s := by
  have hget {r : Register} (hr : r.toNat < s.registers.size) :
      Effect.get r s = .ok (s.operand r) s := if_pos hr
  rw [dispatch, dispatch, Effect.bind_of_ok (hget hfirst), Effect.bind_of_ok (hget hfirst),
    Effect.bind_of_ok (hget hfirst), Effect.bind_of_ok (hget hsecond), h]

namespace Machine

variable {config : Config} {m : Machine}

theorem computes_exactly (hm : m.Invariant config) :
    (∀ (i : Instruction) r z, i.integer? m.state = some (r, z) →
      ((∃ flow t, i.dispatch m.state = .ok flow t) ↔
        (∀ q ∈ i.registers, q.toNat < m.state.registers.size) ∧
        ∀ d, i.divisor? = some d → m.state.operand d ≠ 0) ∧
      ∀ flow t, i.dispatch m.state = .ok flow t →
        flow = .next ∧
        t = { m.state with registers := m.state.registers.update r.toNat (t.operand r) } ∧
        (t.operand r).toInt ≡ z [ZMOD 2 ^ 32] ∧
        ∀ w : Word, w.toInt ≡ z [ZMOD 2 ^ 32] → w = t.operand r) ∧
    ∀ op first second, first.toNat < m.state.registers.size →
      second.toNat < m.state.registers.size → m.state.operand second = m.state.operand first →
      (Instruction.binary op first second).dispatch m.state =
        (Instruction.binary op first first).dispatch m.state := by
  refine ⟨fun i r z h => ?_, fun op first second => op.dispatch_same⟩
  have hi := Instruction.calculates_of_integer? h
  have hwritten := Instruction.written?_of_integer? h
  have hbehaves := i.behaves_dispatch hm.hasStack
  refine ⟨hbehaves.ok_iff.trans hi.causes_eq_nil_iff, fun flow t ht => ?_⟩
  obtain ⟨hcauses, rfl, rfl⟩ := hbehaves.of_ok ht
  have hoperand := Instruction.operand_result hcauses hwritten
  refine ⟨hi.flow, ?_, ?_, fun w hw => ?_⟩
  · rw [hoperand]
    exact hi.result_eq hwritten
  · exact Word.modEq_iff.mpr hoperand
  · exact (Word.modEq_iff.mp hw).trans hoperand.symm

def brimming : Machine :=
  (((blank ⟨16, 4, 16, false, none⟩).perform 0 (.setRegister 0 (-2147483648))).1.perform 0
    (.setRegister 1 (-1))).1

theorem computes_exactly_brimming :
    (∃ t, (Instruction.binary .div 0 1).dispatch brimming.state = .ok .next t ∧
      t.operand 0 = -2147483648) ∧
    (∃ t, (Instruction.binary .mod 0 1).dispatch brimming.state = .ok .next t ∧
      t.operand 0 = 0) ∧
    (∃ t, (Instruction.binary .shr 0 1).dispatch brimming.state = .ok .next t ∧
      t.operand 0 = -1) ∧
    (∃ t, (Instruction.binary .sub 0 0).dispatch brimming.state = .ok .next t ∧
      t.operand 0 = 0) ∧
    ∃ t, (Instruction.immediate .muli 0 (-1)).dispatch brimming.state = .ok .next t ∧
      t.operand 0 = -2147483648 := by
  have hc : Config.Valid ⟨16, 4, 16, false, none⟩ := (Config.validate_eq_ok_iff _).mp rfl
  have hm : brimming.Invariant ⟨16, 4, 16, false, none⟩ :=
    ((invariant_blank hc).perform 0 _).perform 0 _
  have hcomputes {i : Instruction} (z : Int) {w : Word} (hi : i.integer? brimming.state = some (0, z))
      (hregisters : ∀ q ∈ i.registers, q.toNat < brimming.state.registers.size)
      (hdivisor : ∀ d, i.divisor? = some d → brimming.state.operand d ≠ 0)
      (hw : w.toInt ≡ z [ZMOD 2 ^ 32]) :
      ∃ t, i.dispatch brimming.state = .ok .next t ∧ t.operand 0 = w := by
    obtain ⟨hok, hresult⟩ := (computes_exactly hm).1 i 0 z hi
    obtain ⟨flow, t, ht⟩ := hok.mpr ⟨hregisters, hdivisor⟩
    obtain ⟨rfl, -, -, hunique⟩ := hresult flow t ht
    exact ⟨t, ht, (hunique w hw).symm⟩
  have hone : brimming.state.operand 1 ≠ 0 := by decide +kernel
  refine ⟨?_, ?_, ?_, ?_, ?_⟩
  · refine hcomputes 2147483648 (by decide +kernel) (by decide +kernel) ?_ (by decide)
    rintro d ⟨⟩
    exact hone
  · refine hcomputes 0 (by decide +kernel) (by decide +kernel) ?_ (by decide)
    rintro d ⟨⟩
    exact hone
  · exact hcomputes (-1) (by decide +kernel) (by decide +kernel) nofun (by decide)
  · exact hcomputes 0 (by decide +kernel) (by decide +kernel) nofun (by decide)
  · exact hcomputes 2147483648 (by decide +kernel) (by decide +kernel) nofun (by decide)

end Machine

end RegisterMachine
