import RegisterMachine.Proofs.Invariant

namespace RegisterMachine

def demand (met : Prop) [Decidable met] (kind : FaultKind) : List FaultKind :=
  if met then [] else [kind]

theorem demand_eq_nil_iff {met : Prop} [Decidable met] {kind : FaultKind} :
    demand met kind = [] ↔ met := by
  unfold demand
  split <;> simp_all

theorem Registers.value_update_of_ne (r : Registers) {index other : Nat} (w : Word)
    (h : other ≠ index) : (r.update index w).value other = r.value other := by
  simp only [update, value, Array.getD_eq_getD_getElem?, Array.getElem?_setIfInBounds]
  rw [if_neg (fun e => h e.symm)]

namespace Memory

def word (m : Memory) (start : Nat) : Word :=
  Word.ofBytes (m.byte start) (m.byte (start + 1)) (m.byte (start + 2)) (m.byte (start + 3))

theorem readWord_eq (m : Memory) (address : Int) :
    m.readWord address = (m.locate address 4).map m.word := by
  unfold readWord
  cases m.locate address 4 <;> rfl

theorem readByte_eq (m : Memory) (address : Int) :
    m.readByte address = (m.locate address 1).map m.byte := by
  unfold readByte
  cases m.locate address 1 <;> rfl

end Memory

namespace State

def operand (s : State) (r : Register) : Word := s.registers.value r.toNat

def top (s : State) : Word := s.registers.value s.registers.stackPointer

def access (s : State) (address : Word) (width : Nat) : Access :=
  ⟨address.toInt, width, s.memory.size⟩

def wordAt (s : State) (address : Word) : Word := s.memory.word address.toInt.toNat

def byteAt (s : State) (address : Word) : Word :=
  Int32.ofNat (s.memory.byte address.toInt.toNat).toNat

structure HasStack (s : State) : Prop where
  pos : 0 < s.registers.size
  le : s.registers.size ≤ 256

theorem HasStack.toNat {s : State} (h : s.HasStack) :
    (UInt8.ofNat s.registers.stackPointer).toNat = s.registers.stackPointer := by
  have hpos := h.pos
  have hle := h.le
  simp only [UInt8.toNat_ofNat', Registers.stackPointer]
  omega

theorem HasStack.lt {s : State} (h : s.HasStack) : s.registers.stackPointer < s.registers.size := by
  have hpos := h.pos
  rw [Registers.stackPointer]
  omega

def lacks (s : State) (r : Register) : List FaultKind :=
  demand (r.toNat < s.registers.size) (.invalidRegister r s.registers.size)

def bars (s : State) (address : Word) (width : Nat) : List FaultKind :=
  demand (s.access address width).Fits (.memoryViolation (s.access address width))

end State

namespace Effect

variable {α β : Type}

def Behaves (e : Effect α) (s : State) (causes : List FaultKind) (a : α) (t : State) : Prop :=
  match causes with
  | [] => e s = .ok a t
  | kind :: _ => ∃ u, e s = .error kind u

section Behaves

variable {e : Effect α} {s t u : State} {a b : α} {causes : List FaultKind} {kind : FaultKind}

theorem Behaves.of_ok (h : e.Behaves s causes a t) (hok : e s = .ok b u) :
    causes = [] ∧ b = a ∧ u = t := by
  cases causes with
  | nil =>
      cases hok.symm.trans h
      exact ⟨rfl, rfl, rfl⟩
  | cons kind rest =>
      obtain ⟨v, hv⟩ := h
      cases hok.symm.trans hv

theorem Behaves.error_iff (h : e.Behaves s causes a t) :
    (∃ u, e s = .error kind u) ↔ causes.head? = some kind := by
  cases causes with
  | nil =>
      refine iff_of_false ?_ (by simp)
      rintro ⟨u, hu⟩
      cases hu.symm.trans h
  | cons first rest =>
      obtain ⟨v, hv⟩ := h
      constructor
      · rintro ⟨u, hu⟩
        cases hu.symm.trans hv
        rfl
      · intro hfirst
        cases hfirst
        exact ⟨v, hv⟩

theorem Behaves.ok_iff (h : e.Behaves s causes a t) : (∃ b u, e s = .ok b u) ↔ causes = [] := by
  constructor
  · rintro ⟨b, u, hok⟩
    exact (h.of_ok hok).1
  · rintro rfl
    exact ⟨a, t, h⟩

theorem behaves_of_demand {met : Prop} [Decidable met] (hmet : met → e s = .ok a t)
    (hunmet : ¬ met → ∃ u, e s = .error kind u) : e.Behaves s (demand met kind) a t := by
  unfold demand
  split
  · exact hmet ‹met›
  · exact hunmet ‹¬ met›

theorem Behaves.bind {x : Effect α} {f : α → Effect β} {more : List FaultKind} {b : β}
    (hx : x.Behaves s causes a u) (hf : causes = [] → (f a).Behaves u more b t) :
    (x >>= f).Behaves s (causes ++ more) b t := by
  cases causes with
  | nil =>
      have hrest := hf rfl
      have hbind : (x >>= f) s = f a u := bind_of_ok hx
      unfold Behaves at hrest ⊢
      rw [hbind]
      exact hrest
  | cons kind rest =>
      obtain ⟨v, hv⟩ := hx
      exact ⟨v, bind_of_error hv⟩

theorem Behaves.bind_ok {x : Effect α} {f : α → Effect β} {b : β} (hx : x.Behaves s causes a u)
    (hf : causes = [] → f a u = .ok b t) : (x >>= f).Behaves s causes b t := by
  have hbind : (x >>= f).Behaves s (causes ++ []) b t := hx.bind hf
  rwa [List.append_nil] at hbind

end Behaves

variable {s : State}

theorem behaves_get (r : Register) : (get r).Behaves s (s.lacks r) (s.operand r) s :=
  behaves_of_demand (fun h => if_pos h) fun h => ⟨s, if_neg h⟩

theorem locate_of_fits {address : Word} {width : Nat} (h : (s.access address width).Fits) :
    s.memory.locate address.toInt width = .ok address.toInt.toNat :=
  if_pos h

theorem locate_of_not_fits {address : Word} {width : Nat} (h : ¬ (s.access address width).Fits) :
    s.memory.locate address.toInt width = .error (s.access address width) :=
  if_neg h

theorem readWord_of_fits {address : Word} (h : (s.access address 4).Fits) :
    s.memory.readWord address.toInt = .ok (s.wordAt address) := by
  rw [Memory.readWord_eq, locate_of_fits h]
  rfl

theorem readByte_of_fits {address : Word} (h : (s.access address 1).Fits) :
    s.memory.readByte address.toInt = .ok (s.memory.byte address.toInt.toNat) := by
  rw [Memory.readByte_eq, locate_of_fits h]
  rfl

theorem behaves_locate (address : Word) (width : Nat) :
    (locate address width).Behaves s (s.bars address width) address.toInt.toNat s := by
  refine behaves_of_demand (fun h => ?_) fun h => ⟨s, ?_⟩
  · simp only [locate, locate_of_fits h]
  · simp only [locate, locate_of_not_fits h]

theorem behaves_loadWord (address : Word) :
    (loadWord address).Behaves s (s.bars address 4) (s.wordAt address) s := by
  refine behaves_of_demand (fun h => ?_) fun h => ⟨s, ?_⟩
  · simp only [loadWord, readWord_of_fits h]
  · simp only [loadWord, Memory.readWord_eq, locate_of_not_fits h, Except.map]

theorem behaves_loadByte (address : Word) :
    (loadByte address).Behaves s (s.bars address 1) (s.byteAt address) s := by
  refine behaves_of_demand (fun h => ?_) fun h => ⟨s, ?_⟩
  · simp only [loadByte, readByte_of_fits h]
    rfl
  · simp only [loadByte, Memory.readByte_eq, locate_of_not_fits h, Except.map]

theorem behaves_storeWord (address w : Word) :
    (storeWord address w).Behaves s (s.bars address 4) ()
      { s with memory := s.memory.put address.toInt.toNat (Word.bytes w) } :=
  (behaves_locate address 4).bind_ok fun _ => rfl

theorem behaves_storeByte (address w : Word) :
    (storeByte address w).Behaves s (s.bars address 1) ()
      { s with memory := s.memory.put address.toInt.toNat [Word.lowByte w] } :=
  (behaves_locate address 1).bind_ok fun _ => rfl

theorem behaves_print (data : List UInt8) :
    (print data).Behaves s (demand (s.output.fits data = true) (.output s.output.refusal)) ()
      { s with output := s.output.put data } :=
  behaves_of_demand (fun h => if_pos h) fun h => ⟨_, if_neg h⟩

theorem behaves_checkTarget (target : Int) :
    (checkTarget target).Behaves s
      (demand (0 ≤ target ∧ target < s.memory.size) (.pcOutOfRange target)) () s :=
  behaves_of_demand (fun h => if_pos h) fun h => ⟨s, if_neg h⟩

section Stack

variable (hs : s.HasStack)

include hs

theorem get_stackPointer :
    get (UInt8.ofNat s.registers.stackPointer) s = .ok s.top s := by
  unfold get
  rw [hs.toNat, if_pos hs.lt]
  rfl

theorem set_stackPointer (m : Memory) (w : Word) :
    set (UInt8.ofNat s.registers.stackPointer) w { s with memory := m } =
      .ok () { s with
        registers := s.registers.update s.registers.stackPointer w
        memory := m } := by
  unfold set
  dsimp only
  rw [hs.toNat, if_pos hs.lt]

theorem behaves_push (w : Word) :
    (push w).Behaves s (s.bars (s.top - 4) 4) ()
      { s with
        registers := s.registers.update s.registers.stackPointer (s.top - 4)
        memory := s.memory.put (s.top - 4).toInt.toNat (Word.bytes w) } := by
  have hpointer : stackPointer.Behaves s [] (UInt8.ofNat s.registers.stackPointer) s := rfl
  have hget : Behaves (get (UInt8.ofNat s.registers.stackPointer)) s [] s.top s :=
    get_stackPointer hs
  refine hpointer.bind fun _ => hget.bind fun _ => ?_
  exact (behaves_storeWord (s.top - 4) w).bind_ok fun _ => set_stackPointer hs _ (s.top - 4)

theorem behaves_pop :
    pop.Behaves s (s.bars s.top 4) (s.wordAt s.top)
      { s with registers := s.registers.update s.registers.stackPointer (s.top + 4) } := by
  have hpointer : stackPointer.Behaves s [] (UInt8.ofNat s.registers.stackPointer) s := rfl
  have hget : Behaves (get (UInt8.ofNat s.registers.stackPointer)) s [] s.top s :=
    get_stackPointer hs
  refine hpointer.bind fun _ => hget.bind fun _ => ?_
  exact (behaves_loadWord s.top).bind_ok fun _ => bind_of_ok (set_stackPointer hs s.memory (s.top + 4))

end Stack

end Effect

namespace Instruction

def registers : Instruction → List Register
  | .plain _ | .branch _ _ => []
  | .unary _ r | .immediate _ r _ => [r]
  | .binary _ first second => [first, second]

def divisor? : Instruction → Option Register
  | .binary .div _ second | .binary .mod _ second => some second
  | _ => none

def callee? : Instruction → Option Word
  | .branch .call target => some target
  | _ => none

def reach? (i : Instruction) (s : State) : Option (Word × Nat) :=
  match i with
  | .plain .ret | .unary .pop _ => some (s.top, 4)
  | .unary .push _ | .branch .call _ => some (s.top - 4, 4)
  | .binary .load _ second => some (s.operand second, 4)
  | .binary .store first _ => some (s.operand first, 4)
  | .binary .loadb _ second => some (s.operand second, 1)
  | .binary .storeb first _ => some (s.operand first, 1)
  | .immediate .lda _ value | .immediate .sta _ value => some (value, 4)
  | _ => none

def text? (i : Instruction) (s : State) : Option (List UInt8) :=
  match i with
  | .unary .out r => some (Text.bytes (Word.text (s.operand r)).toList ++ [10])
  | .unary .outc r => some [Word.lowByte (s.operand r)]
  | _ => none

def causes (i : Instruction) (s : State) : List FaultKind :=
  i.registers.flatMap s.lacks ++
  (i.divisor?.elim [] (fun r => demand (s.operand r ≠ 0) .divisionByZero) ++
  (i.callee?.elim [] (fun target => demand (0 ≤ target.toInt ∧ target.toInt < s.memory.size)
    (.pcOutOfRange target.toInt)) ++
  ((i.reach? s).elim [] (fun reach => s.bars reach.1 reach.2) ++
  (i.text? s).elim [] (fun text => demand (s.output.fits text = true)
    (.output s.output.refusal)))))

def flow (i : Instruction) (s : State) : Flow :=
  match i with
  | .plain .hlt => .halt
  | .plain .ret => .jump (s.wordAt s.top)
  | .branch op target => if op.taken s.comparison then .jump target else .next
  | _ => .next

def top? (i : Instruction) (s : State) : Option Word :=
  match i with
  | .plain .ret | .unary .pop _ => some (s.top + 4)
  | .unary .push _ | .branch .call _ => some (s.top - 4)
  | _ => none

def written? (i : Instruction) (s : State) : Option (Register × Word) :=
  match i with
  | .plain _ | .branch _ _ => none
  | .unary op r =>
      let a := s.operand r
      match op with
      | .inc => some (r, a + 1)
      | .dec => some (r, a - 1)
      | .neg => some (r, -a)
      | .not => some (r, ~~~a)
      | .pop => some (r, s.wordAt s.top)
      | .push | .out | .outc => none
  | .binary op first second =>
      let a := s.operand first
      let b := s.operand second
      match op with
      | .mov => some (first, b)
      | .add => some (first, a + b)
      | .sub => some (first, a - b)
      | .mul => some (first, a * b)
      | .div => some (first, a / b)
      | .mod => some (first, a % b)
      | .and => some (first, a &&& b)
      | .or => some (first, a ||| b)
      | .xor => some (first, a ^^^ b)
      | .shl => some (first, a <<< b)
      | .shr => some (first, a >>> b)
      | .load => some (first, s.wordAt b)
      | .loadb => some (first, s.byteAt b)
      | .cmp | .store | .storeb => none
  | .immediate op r value =>
      let a := s.operand r
      match op with
      | .movi => some (r, value)
      | .addi => some (r, a + value)
      | .subi => some (r, a - value)
      | .muli => some (r, a * value)
      | .lda => some (r, s.wordAt value)
      | .cmpi | .sta => none

def stored? (i : Instruction) (s : State) : Option (Word × List UInt8) :=
  match i with
  | .unary .push r => some (s.top - 4, Word.bytes (s.operand r))
  | .binary .store first second => some (s.operand first, Word.bytes (s.operand second))
  | .binary .storeb first second => some (s.operand first, [Word.lowByte (s.operand second)])
  | .immediate .sta r value => some (value, Word.bytes (s.operand r))
  | .branch .call _ => some (s.top - 4, Word.bytes (Int32.ofNat (s.pc + Format.immediate.width)))
  | _ => none

def compared? (i : Instruction) (s : State) : Option Ordering :=
  match i with
  | .binary .cmp first second =>
      some (compare (s.operand first).toInt (s.operand second).toInt)
  | .immediate .cmpi r value => some (compare (s.operand r).toInt value.toInt)
  | _ => none

-- The state behind an instruction. A word for the stack pointer itself goes over the moved top.
def result (i : Instruction) (s : State) : State where
  registers :=
    let moved := (i.top? s).elim s.registers (s.registers.update s.registers.stackPointer ·)
    (i.written? s).elim moved (fun (r, w) => moved.update r.toNat w)
  memory := (i.stored? s).elim s.memory (fun (address, data) =>
    s.memory.put address.toInt.toNat data)
  pc := s.pc
  comparison := (i.compared? s).getD s.comparison
  output := (i.text? s).elim s.output s.output.put

end Instruction

open Effect Instruction

variable {s : State}

theorem Plain.behaves_dispatch (hs : s.HasStack) (op : Plain) :
    op.dispatch.Behaves s ((Instruction.plain op).causes s) ((Instruction.plain op).flow s)
      ((Instruction.plain op).result s) := by
  cases op with
  | hlt | nop => rfl
  | ret => exact (behaves_pop hs).bind fun _ => rfl

namespace Deed

def causes (s : State) : Deed → List FaultKind
  | assign _ | compare _ => []
  | divide divisor _ => demand (divisor ≠ 0) .divisionByZero
  | loadWord address | storeWord address _ => s.bars address 4
  | loadByte address | storeByte address _ => s.bars address 1
  | push _ => s.bars (s.top - 4) 4
  | pop => s.bars s.top 4
  | print data => demand (s.output.fits data = true) (.output s.output.refusal)

def result (r : Register) (s : State) : Deed → State
  | assign w | divide _ w => { s with registers := s.registers.update r.toNat w }
  | compare o => { s with comparison := o }
  | loadWord address => { s with registers := s.registers.update r.toNat (s.wordAt address) }
  | loadByte address => { s with registers := s.registers.update r.toNat (s.byteAt address) }
  | storeWord address w => { s with memory := s.memory.put address.toInt.toNat (Word.bytes w) }
  | storeByte address w => { s with memory := s.memory.put address.toInt.toNat [Word.lowByte w] }
  | push w => { s with
      registers := s.registers.update s.registers.stackPointer (s.top - 4)
      memory := s.memory.put (s.top - 4).toInt.toNat (Word.bytes w) }
  | pop => { s with
      registers := (s.registers.update s.registers.stackPointer (s.top + 4)).update r.toNat
        (s.wordAt s.top) }
  | print data => { s with output := s.output.put data }

theorem behaves_run (hs : s.HasStack) {r : Register} (hr : r.toNat < s.registers.size) (d : Deed) :
    (d.run r).Behaves s (d.causes s) () (d.result r s) := by
  cases d with
  | assign w => exact set_of_lt hr w
  | divide divisor w =>
      rw [run]
      refine behaves_of_demand (fun h => ?_) fun h => ⟨s, ?_⟩
      · rw [if_neg h]
        exact set_of_lt hr w
      · rw [if_pos (Decidable.not_not.mp h)]
        rfl
  | compare o => rfl
  | loadWord address => exact (behaves_loadWord address).bind_ok fun _ => set_of_lt hr _
  | loadByte address => exact (behaves_loadByte address).bind_ok fun _ => set_of_lt hr _
  | storeWord address w => exact behaves_storeWord address w
  | storeByte address w => exact behaves_storeByte address w
  | push w => exact behaves_push hs w
  | pop =>
      refine (behaves_pop hs).bind_ok fun _ => set_of_lt ?_ _
      rwa [Registers.size_update]
  | print data => exact behaves_print data

theorem behaves_finish (hs : s.HasStack) {r : Register} (hr : r.toNat < s.registers.size)
    (d : Deed) : (d.finish r).Behaves s (d.causes s) .next (d.result r s) :=
  (d.behaves_run hs hr).bind_ok fun _ => rfl

end Deed

theorem Unary.causes_deed (op : Unary) (r : Register) :
    (Instruction.unary op r).causes s = s.lacks r ++ (op.deed (s.operand r)).causes s := by
  cases op <;> simp [causes, registers, divisor?, callee?, reach?, text?, deed, Deed.causes]

theorem Unary.result_deed (op : Unary) (r : Register) :
    (op.deed (s.operand r)).result r s = (Instruction.unary op r).result s := by
  cases op <;> rfl

theorem Unary.behaves_dispatch (hs : s.HasStack) (op : Unary) (r : Register) :
    (op.dispatch r).Behaves s ((Instruction.unary op r).causes s) .next
      ((Instruction.unary op r).result s) := by
  rw [dispatch_eq, causes_deed, ← result_deed]
  exact (behaves_get r).bind fun hr => Deed.behaves_finish hs (demand_eq_nil_iff.mp hr) _

theorem Binary.causes_deed (op : Binary) (first second : Register) :
    (Instruction.binary op first second).causes s = s.lacks first ++
      (s.lacks second ++ (op.deed (s.operand first) (s.operand second)).causes s) := by
  cases op <;> simp [causes, registers, divisor?, callee?, reach?, text?, deed, Deed.causes]

theorem Binary.result_deed (op : Binary) (first second : Register) :
    (op.deed (s.operand first) (s.operand second)).result first s =
      (Instruction.binary op first second).result s := by
  cases op <;> rfl

theorem Binary.behaves_dispatch (hs : s.HasStack) (op : Binary) (first second : Register) :
    (op.dispatch first second).Behaves s ((Instruction.binary op first second).causes s) .next
      ((Instruction.binary op first second).result s) := by
  rw [dispatch_eq, causes_deed, ← result_deed]
  exact (behaves_get first).bind fun hfirst => (behaves_get second).bind fun _ =>
    Deed.behaves_finish hs (demand_eq_nil_iff.mp hfirst) _

theorem Immediate.causes_deed (op : Immediate) (r : Register) (value : Word) :
    (Instruction.immediate op r value).causes s =
      s.lacks r ++ (op.deed (s.operand r) value).causes s := by
  cases op <;> simp [causes, registers, divisor?, callee?, reach?, text?, deed, Deed.causes]

theorem Immediate.result_deed (op : Immediate) (r : Register) (value : Word) :
    (op.deed (s.operand r) value).result r s = (Instruction.immediate op r value).result s := by
  cases op <;> rfl

theorem Immediate.behaves_dispatch (hs : s.HasStack) (op : Immediate) (r : Register) (value : Word) :
    (op.dispatch r value).Behaves s ((Instruction.immediate op r value).causes s) .next
      ((Instruction.immediate op r value).result s) := by
  rw [dispatch_eq, causes_deed, ← result_deed]
  exact (behaves_get r).bind fun hr => Deed.behaves_finish hs (demand_eq_nil_iff.mp hr) _

theorem Branch.causes_call (target : Word) : (Instruction.branch .call target).causes s =
    demand (0 ≤ target.toInt ∧ target.toInt < s.memory.size) (.pcOutOfRange target.toInt) ++
      s.bars (s.top - 4) 4 := by
  simp [causes, registers, divisor?, callee?, reach?, text?]

theorem Branch.behaves_dispatch (hs : s.HasStack) (op : Branch) (target : Word) :
    (op.dispatch target).Behaves s ((Instruction.branch op target).causes s)
      ((Instruction.branch op target).flow s) ((Instruction.branch op target).result s) := by
  by_cases hcall : op = .call
  · subst hcall
    rw [dispatch_call, causes_call]
    refine (behaves_checkTarget target.toInt).bind fun _ => ?_
    have hpc : Behaves (view State.pc) s [] s.pc s := rfl
    exact hpc.bind fun _ => (behaves_push hs _).bind_ok fun _ => rfl
  · rw [dispatch_of_ne_call hcall]
    cases op with
    | call => exact absurd rfl hcall
    | _ => rfl

theorem Instruction.behaves_dispatch (hs : s.HasStack) (i : Instruction) :
    i.dispatch.Behaves s (i.causes s) (i.flow s) (i.result s) := by
  cases i with
  | plain op => exact op.behaves_dispatch hs
  | unary op r => exact op.behaves_dispatch hs r
  | binary op first second => exact op.behaves_dispatch hs first second
  | immediate op r value => exact op.behaves_dispatch hs r value
  | branch op target => exact op.behaves_dispatch hs target

namespace Machine

variable {config : Config} {m : Machine}

theorem Invariant.hasStack (hm : m.Invariant config) : m.state.HasStack :=
  ⟨Nat.lt_of_lt_of_le (by decide) hm.three_le_registers, hm.registers_le⟩

theorem dispatch_of_cause (hm : m.Invariant config) {i : Instruction} {kind : FaultKind}
    (h : (i.causes m.state).head? = some kind) :
    ∃ t, m.dispatch i = .ends { m with state := t } (.faulted ⟨m.state.pc, some i.text, kind⟩) := by
  obtain ⟨t, ht⟩ := (i.behaves_dispatch hm.hasStack).error_iff.mpr h
  refine ⟨t, ?_⟩
  simp only [dispatch, ht]

theorem dispatch_of_no_cause (hm : m.Invariant config) {i : Instruction}
    (h : i.causes m.state = []) :
    m.dispatch i = match i.onward m.state.pc (i.flow m.state) with
      | none => .ends { m with state := i.result m.state } .halted
      | some target => goTo { m with state := i.result m.state } i target := by
  have hi := i.behaves_dispatch hm.hasStack
  rw [h] at hi
  have hok : i.dispatch m.state = .ok (i.flow m.state) (i.result m.state) := hi
  simp only [dispatch, hok]
  cases i.flow m.state <;> rfl

end Machine

end RegisterMachine
