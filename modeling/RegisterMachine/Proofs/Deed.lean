import RegisterMachine.Proofs.Effect

namespace RegisterMachine

inductive Deed where
  | assign (w : Word)
  | divide (divisor w : Word)
  | compare (o : Ordering)
  | loadWord (address : Word)
  | loadByte (address : Word)
  | storeWord (address w : Word)
  | storeByte (address w : Word)
  | push (w : Word)
  | pop
  | print (data : List UInt8)

namespace Deed

def run (r : Register) : Deed → Effect Unit
  | assign w => Effect.set r w
  | divide divisor w => if divisor = 0 then Effect.fail .divisionByZero else Effect.set r w
  | compare o => Effect.setComparison o
  | loadWord address => do Effect.set r (← Effect.loadWord address)
  | loadByte address => do Effect.set r (← Effect.loadByte address)
  | storeWord address w => Effect.storeWord address w
  | storeByte address w => Effect.storeByte address w
  | push w => Effect.push w
  | pop => do Effect.set r (← Effect.pop)
  | print data => Effect.print data

def finish (r : Register) (d : Deed) : Effect Flow := do
  d.run r
  return .next

def text : Deed → List UInt8
  | print data => data
  | _ => []

end Deed

def Unary.deed (a : Word) : Unary → Deed
  | .inc => .assign (a + 1)
  | .dec => .assign (a - 1)
  | .neg => .assign (-a)
  | .not => .assign (~~~a)
  | .push => .push a
  | .pop => .pop
  | .out => .print (Text.bytes (Word.text a).toList ++ [10])
  | .outc => .print [Word.lowByte a]

def Binary.deed (a b : Word) : Binary → Deed
  | .mov => .assign b
  | .add => .assign (a + b)
  | .sub => .assign (a - b)
  | .mul => .assign (a * b)
  | .div => .divide b (a / b)
  | .mod => .divide b (a % b)
  | .and => .assign (a &&& b)
  | .or => .assign (a ||| b)
  | .xor => .assign (a ^^^ b)
  | .shl => .assign (a <<< b)
  | .shr => .assign (a >>> b)
  | .cmp => .compare (compare a.toInt b.toInt)
  | .load => .loadWord b
  | .store => .storeWord a b
  | .loadb => .loadByte b
  | .storeb => .storeByte a b

def Immediate.deed (a value : Word) : Immediate → Deed
  | .movi => .assign value
  | .addi => .assign (a + value)
  | .subi => .assign (a - value)
  | .muli => .assign (a * value)
  | .cmpi => .compare (compare a.toInt value.toInt)
  | .lda => .loadWord value
  | .sta => .storeWord value a

open Effect

theorem Unary.dispatch_eq (op : Unary) (r : Register) :
    op.dispatch r = (do (op.deed (← get r)).finish r) := by
  cases op with
  | inc | dec | neg | not => exact bind_assoc ..
  | push | out | outc => rfl
  | pop => exact congrArg (get r >>= ·) (funext fun _ => (bind_assoc ..).symm)

theorem Binary.dispatch_eq (op : Binary) (first second : Register) :
    op.dispatch first second = (do
      let a ← get first
      let b ← get second
      (op.deed a b).finish first) := by
  unfold dispatch
  congr 1
  funext a
  congr 1
  funext b
  cases op with
  | div | mod =>
      dsimp only [deed, Deed.finish, Deed.run]
      split <;> rfl
  | load | loadb => exact (bind_assoc ..).symm
  | _ => rfl

theorem Immediate.dispatch_eq (op : Immediate) (r : Register) (value : Word) :
    op.dispatch r value = (do (op.deed (← get r) value).finish r) := by
  unfold dispatch
  congr 1
  funext a
  cases op with
  | lda => exact (bind_assoc ..).symm
  | _ => rfl

theorem Branch.dispatch_call (target : Word) :
    Branch.call.dispatch target = (do
      checkTarget target.toInt
      let pc ← view State.pc
      push (Int32.ofNat (pc + Format.immediate.width))
      let _ ← view State.comparison
      return .jump target) := rfl

theorem Branch.dispatch_of_ne_call {op : Branch} (h : op ≠ .call) (target : Word) :
    op.dispatch target = (do
      let comparison ← view State.comparison
      return if op.taken comparison then .jump target else .next) :=
  if_neg h

namespace Deed

theorem keepsShape_run (r : Register) (d : Deed) : KeepsShape (d.run r) := by
  cases d with
  | assign => exact keepsShape_set
  | divide divisor w =>
      rw [run]
      split
      · exact (reads_fail .divisionByZero trivial).keepsShape
      · exact keepsShape_set
  | compare => exact keepsShape_setComparison
  | loadWord => exact reads_loadWord.keepsShape.bind fun _ => keepsShape_set
  | loadByte => exact reads_loadByte.keepsShape.bind fun _ => keepsShape_set
  | storeWord => exact keepsShape_storeWord
  | storeByte => exact keepsShape_storeByte
  | push => exact keepsShape_push
  | pop => exact keepsShape_pop.bind fun _ => keepsShape_set
  | print => exact keepsShape_print

theorem preciseAt_run {r : Register} {s : State} (hr : r.toNat < s.registers.size) (d : Deed) :
    (d.run r).PreciseAt s := by
  cases d with
  | assign => exact precise_set s
  | divide divisor w =>
      rw [run]
      split
      · exact (reads_fail .divisionByZero trivial).precise s
      · exact precise_set s
  | compare => exact sure_setComparison.precise s
  | loadWord => exact Precise.bind_of_reads reads_loadWord (fun _ => precise_set) s
  | loadByte => exact Precise.bind_of_reads reads_loadByte (fun _ => precise_set) s
  | storeWord => exact precise_storeWord s
  | storeByte => exact precise_storeByte s
  | push => exact precise_push s
  | pop =>
      exact (precise_pop s).bind fun w u hu =>
        ⟨(), _, set_of_lt (keepsShape_pop.lt_of_ok hu hr) w⟩
  | print => exact precise_print s

end Deed

namespace Instruction

def Prints (i : Instruction) : Prop := ∃ r, i = .unary .out r ∨ i = .unary .outc r

inductive Proceeds (r : Register) (quiet : Prop) : Effect Flow → Prop
  | finish (d : Deed) (hd : quiet → d.text = []) : Proceeds r quiet (d.finish r)
  | read (q : Register) {f : Word → Effect Flow} (hf : ∀ a, Proceeds r quiet (f a)) :
      Proceeds r quiet (get q >>= f)

theorem proceeds (i : Instruction) :
    (∃ op, i = .plain op) ∨ (∃ op target, i = .branch op target) ∨
      ∃ r f, i.dispatch = (get r >>= f) ∧ ∀ a, Proceeds r (¬ i.Prints) (f a) := by
  cases i with
  | plain op => exact .inl ⟨op, rfl⟩
  | branch op target => exact .inr (.inl ⟨op, target, rfl⟩)
  | unary op r =>
      refine .inr (.inr ⟨r, _, op.dispatch_eq r, fun a => .finish _ fun hquiet => ?_⟩)
      cases op with
      | out => exact absurd ⟨r, .inl rfl⟩ hquiet
      | outc => exact absurd ⟨r, .inr rfl⟩ hquiet
      | _ => rfl
  | binary op first second =>
      refine .inr (.inr ⟨first, _, op.dispatch_eq first second, fun a => .read second fun b =>
        .finish _ fun _ => ?_⟩)
      cases op <;> rfl
  | immediate op r value =>
      refine .inr (.inr ⟨r, _, op.dispatch_eq r value, fun a => .finish _ fun _ => ?_⟩)
      cases op <;> rfl

namespace Proceeds

variable {r : Register} {quiet : Prop} {e : Effect Flow} (h : Proceeds r quiet e)

include h

theorem keepsShape : e.KeepsShape := by
  induction h with
  | finish d => exact (d.keepsShape_run r).bind fun _ => reads_pure.keepsShape
  | read q _ ih => exact reads_get.keepsShape.bind ih

theorem preciseAt {s : State} (hr : r.toNat < s.registers.size) : e.PreciseAt s := by
  induction h with
  | finish d => exact (d.preciseAt_run hr).bind fun _ u _ => ⟨.next, u, rfl⟩
  | read q _ ih =>
      intro kind t hfails
      rcases bind_eq_error hfails with hget | ⟨a, u, hget, hrest⟩
      · exact reads_get.precise s kind t hget
      · cases reads_get.eq_of_ok hget
        exact ih a kind t hrest

theorem yields : e.Yields .next := by
  induction h with
  | finish d => exact .bind fun _ => yields_pure
  | read q _ ih => exact .bind ih

end Proceeds

end Instruction

theorem Plain.keepsShape_dispatch (op : Plain) : KeepsShape op.dispatch := by
  cases op with
  | hlt | nop => exact reads_pure.keepsShape
  | ret => exact keepsShape_pop.bind fun _ => reads_pure.keepsShape

theorem Plain.precise_dispatch (op : Plain) : Precise op.dispatch := by
  cases op with
  | hlt | nop => exact reads_pure.precise
  | ret => exact precise_pop.bind_of_sure fun _ => sure_pure

theorem Branch.keepsShape_dispatch (op : Branch) (target : Word) :
    KeepsShape (op.dispatch target) := by
  by_cases hcall : op = .call
  · subst hcall
    rw [dispatch_call]
    exact keepsShape_checkTarget.bind fun _ => reads_view.keepsShape.bind fun _ =>
      keepsShape_push.bind fun _ => reads_view.keepsShape.bind fun _ => reads_pure.keepsShape
  · rw [dispatch_of_ne_call hcall]
    exact reads_view.keepsShape.bind fun _ => reads_pure.keepsShape

theorem Branch.dispatch_eq_error {op : Branch} {target : Word} {s t : State} {kind : FaultKind}
    (h : op.dispatch target s = .error kind t) :
    (kind.OfOperand ∨ op = .call ∧ kind = .pcOutOfRange target.toInt) ∧ s.Intact t := by
  by_cases hcall : op = .call
  · subst hcall
    rw [dispatch_call] at h
    rcases bind_eq_error h with htarget | ⟨_, u, htarget, hrest⟩
    · obtain ⟨rfl, rfl⟩ := checkTarget_eq_error htarget
      exact ⟨.inr ⟨rfl, rfl⟩, .refl t⟩
    · obtain ⟨-, rfl⟩ := checkTarget_eq_ok htarget
      refine (Precise.of_error hrest ?_).imp_left .inl
      exact .bind_of_reads reads_view fun _ => precise_push.bind_of_sure fun _ =>
        sure_view.bind fun _ => sure_pure
  · rw [dispatch_of_ne_call hcall] at h
    refine (Precise.of_error h ?_).imp_left .inl
    exact .bind_of_reads reads_view fun _ => reads_pure.precise

theorem Branch.dispatch_eq_ok {op : Branch} {word : Word} {s t : State} {flow : Flow}
    (h : op.dispatch word s = .ok flow t) :
    (op = .call ∧ flow = .jump word ∧ 0 ≤ word.toInt ∧ word.toInt < s.memory.size) ∨
      op ≠ .call ∧ flow = (if op.taken s.comparison then .jump word else .next) ∧ t = s := by
  by_cases hcall : op = .call
  · subst hcall
    rw [dispatch_call] at h
    obtain ⟨_, u, htarget, hrest⟩ := bind_eq_ok h
    have hflow := Yields.of_ok hrest (.bind fun _ => .bind fun _ => .bind fun _ => yields_pure)
    exact .inl ⟨rfl, hflow, (checkTarget_eq_ok htarget).1⟩
  · rw [dispatch_of_ne_call hcall] at h
    obtain ⟨comparison, u, hview, hpure⟩ := bind_eq_ok h
    cases hview
    cases hpure
    exact .inr ⟨hcall, rfl, rfl⟩

theorem Branch.dispatch_eq_next {op : Branch} {word : Word} {s t : State}
    (h : op.dispatch word s = .ok .next t) : t = s := by
  rcases dispatch_eq_ok h with ⟨-, hflow, -⟩ | ⟨-, -, hsame⟩
  · cases hflow
  · exact hsame

namespace Instruction

theorem keepsShape_dispatch (i : Instruction) : KeepsShape i.dispatch := by
  rcases i.proceeds with ⟨op, rfl⟩ | ⟨op, target, rfl⟩ | ⟨r, f, hdispatch, hf⟩
  · exact op.keepsShape_dispatch
  · exact op.keepsShape_dispatch target
  · rw [hdispatch]
    exact reads_get.keepsShape.bind fun a => (hf a).keepsShape

theorem dispatch_eq_error {i : Instruction} {s t : State} {kind : FaultKind}
    (h : i.dispatch s = .error kind t) :
    (kind.OfOperand ∨ ∃ target, i = .branch .call target ∧ kind = .pcOutOfRange target.toInt) ∧
      s.Intact t := by
  rcases i.proceeds with ⟨op, rfl⟩ | ⟨op, target, rfl⟩ | ⟨r, f, hdispatch, hf⟩
  · exact (op.precise_dispatch s kind t h).imp_left .inl
  · refine (Branch.dispatch_eq_error h).imp_left (Or.imp_right ?_)
    rintro ⟨rfl, hkind⟩
    exact ⟨target, rfl, hkind⟩
  · rw [hdispatch] at h
    refine (Precise.of_error h ?_).imp_left .inl
    exact precise_get_bind fun a s hr => (hf a).preciseAt hr

theorem dispatch_eq_halt {i : Instruction} {s t : State} (h : i.dispatch s = .ok .halt t) :
    i = .plain .hlt := by
  rcases i.proceeds with ⟨op, rfl⟩ | ⟨op, word, rfl⟩ | ⟨r, f, hdispatch, hf⟩
  · cases op with
    | hlt => rfl
    | nop => cases h
    | ret =>
        obtain ⟨w, u, -, hjump⟩ := bind_eq_ok h
        cases hjump
  · rcases Branch.dispatch_eq_ok h with ⟨-, hflow, -⟩ | ⟨-, hflow, -⟩
    · cases hflow
    · split at hflow <;> cases hflow
  · rw [hdispatch] at h
    cases Yields.of_ok h (.bind fun a => (hf a).yields)

theorem dispatch_eq_jump {i : Instruction} {s t : State} {target : Word}
    (h : i.dispatch s = .ok (.jump target) t) :
    (i = .plain .ret ∧ pop s = .ok target t) ∨
      ∃ op, i = .branch op target ∧
        (if op = .call then 0 ≤ target.toInt ∧ target.toInt < s.memory.size else t = s) := by
  rcases i.proceeds with ⟨op, rfl⟩ | ⟨op, word, rfl⟩ | ⟨r, f, hdispatch, hf⟩
  · cases op with
    | hlt | nop => cases h
    | ret =>
        obtain ⟨w, u, hpop, hjump⟩ := bind_eq_ok h
        cases hjump
        exact .inl ⟨rfl, hpop⟩
  · refine .inr ?_
    rcases Branch.dispatch_eq_ok h with ⟨rfl, hflow, hinside⟩ | ⟨hcall, hflow, hsame⟩
    · cases hflow
      exact ⟨.call, rfl, hinside⟩
    · split at hflow
      · cases hflow
        exact ⟨op, rfl, (if_neg hcall).symm ▸ hsame⟩
      · cases hflow
  · rw [hdispatch] at h
    cases Yields.of_ok h (.bind fun a => (hf a).yields)

end Instruction

end RegisterMachine
