import RegisterMachine.Proofs.Invariant

namespace RegisterMachine

inductive Instruction.Departs (s : State) (target : Int) : Instruction → State → Prop
  | branch {t : State} (op : Branch) (word : Word) (htarget : word.toInt = target)
      (hintact : s.Intact t) : Departs s target (.branch op word) t
  | ret {t : State} (word : Word) (htarget : word.toInt = target) (hpop : Effect.pop s = .ok word t) :
      Departs s target (.plain .ret) t
  | behind {i : Instruction} {t : State} (htarget : (s.pc + i.width : Int) = target)
      (hi : i.dispatch s = .ok .next t) : Departs s target i t

-- The stack pointer moves by four, which is never nothing.
theorem Effect.pop_changes_registers {s t : State} {w : Word} (h : pop s = .ok w t) :
    t.registers ≠ s.registers := by
  obtain ⟨sp, -, hsp, -, rfl⟩ := pop_eq_ok h
  intro hsame
  have hvalue := congrArg (fun r => Registers.value r sp.toNat) hsame
  simp only [Registers.value_update _ _ _ _ hsp, if_true, Int32.add_eq_left] at hvalue
  revert hvalue
  decide

theorem Plain.dispatch_ret_ne_next {s t : State} : Plain.ret.dispatch s ≠ .ok .next t := by
  intro h
  obtain ⟨w, u, -, hjump⟩ := Effect.bind_eq_ok h
  cases hjump

theorem Instruction.Departs.intact_iff {s t : State} {target : Int} {i : Instruction}
    (h : i.Departs s target t) :
    (t.registers = s.registers ∧ t.memory = s.memory) ↔
      i ≠ .plain .ret ∧ ∀ u, i.dispatch s = .ok .next u →
        u.registers = s.registers ∧ u.memory = s.memory := by
  cases h with
  | branch op word htarget hintact =>
      refine iff_of_true ⟨hintact.registers, hintact.memory⟩ ⟨Instruction.noConfusion, ?_⟩
      intro u hu
      rw [Branch.dispatch_eq_next hu]
      exact ⟨rfl, rfl⟩
  | ret word htarget hpop =>
      refine iff_of_false ?_ ?_
      · exact fun hsame => Effect.pop_changes_registers hpop hsame.1
      · exact fun hret => hret.1 rfl
  | behind htarget hi =>
      constructor
      · intro hsame
        refine ⟨?_, ?_⟩
        · rintro rfl
          exact Plain.dispatch_ret_ne_next hi
        · intro u hu
          rw [hi] at hu
          cases hu
          exact hsame
      · exact fun hstays => hstays.2 t hi

theorem Instruction.Departs.pc_eq {s t : State} {target : Int} {i : Instruction}
    (h : i.Departs s target t) : t.pc = s.pc := by
  cases h with
  | branch op word htarget hintact => exact hintact.pc
  | ret word htarget hpop => exact (Effect.keepsShape_pop.of_ok hpop).pc
  | behind htarget hi => exact (i.keepsShape_dispatch.of_ok hi).pc

namespace Machine

theorem turn_intact {m last : Machine} {fault : Fault}
    (h : m.turn = .ends last (.faulted fault))
    (hkind : ∀ target, fault.kind ≠ .pcOutOfRange target) : m.state.Intact last.state := by
  rcases turn_faulted h with ⟨rfl, -, -⟩ | ⟨i, -, -, herror | hgoes⟩
  · exact .refl _
  · exact (Instruction.dispatch_eq_error herror).2
  · obtain ⟨flow, target, -, -, -, htarget⟩ := hgoes
    exact absurd htarget (hkind target)

theorem turn_departs {m last : Machine} {fault : Fault} {target : Int}
    (h : m.turn = .ends last (.faulted fault)) (hkind : fault.kind = .pcOutOfRange target) :
    ∃ i, m.state.memory.fetch m.state.pc = .ok i ∧
      fault = ⟨m.state.pc, some i.text, .pcOutOfRange target⟩ ∧
      i.Departs m.state target last.state := by
  rcases turn_faulted h with ⟨-, -, ⟨limit, -, hlimit⟩ | hfetch⟩ | ⟨i, hfetch, hfault, hcause⟩
  · rw [hkind] at hlimit
    cases hlimit
  · rw [hkind] at hfetch
    rcases Instruction.decode_eq_error hfetch with ⟨code, hcode⟩ | ⟨width, hwidth⟩
    · cases hcode
    · cases hwidth
  · refine ⟨i, hfetch, hkind ▸ hfault, ?_⟩
    rcases hcause with herror | ⟨flow, place, hi, honward, hout, hplace⟩
    · obtain ⟨hoperand | ⟨word, rfl, hword⟩, hintact⟩ := Instruction.dispatch_eq_error herror
      · rw [hkind] at hoperand
        exact hoperand.elim
      · rw [hkind] at hword
        cases hword
        exact .branch .call word rfl hintact
    · rw [hkind] at hplace
      cases hplace
      cases flow with
      | halt => cases honward
      | next =>
          cases honward
          exact .behind rfl hi
      | jump word =>
          cases honward
          rcases Instruction.dispatch_eq_jump hi with ⟨rfl, hpop⟩ | ⟨op, rfl, hop⟩
          · exact .ret word rfl hpop
          · by_cases hcall : op = .call
            · rw [if_pos hcall] at hop
              have hsize := (Instruction.keepsShape_dispatch _).of_ok hi |>.memory_size
              exact absurd hop (hsize ▸ hout)
            · rw [if_neg hcall] at hop
              rw [hop]
              exact .branch op word rfl (.refl _)

theorem fault_leaves_intact :
    (∀ (i : Instruction) (s t : State) kind, i.dispatch s = .error kind t →
      (kind.OfOperand ∨ ∃ target, i = .branch .call target ∧ kind = .pcOutOfRange target.toInt) ∧
        s.Intact t) ∧
    ∀ patience arguments (m after : Machine) fault,
      m.execute patience arguments = (after, .error (.fault fault)) →
      (∀ target, fault.kind ≠ .pcOutOfRange target) →
        ∃ first head last, m.entry arguments = .ok first ∧ first.Visits head ∧
          head.turn = .ends last (.faulted fault) ∧ head.state.Intact after.state := by
  refine ⟨fun _ _ _ _ => Instruction.dispatch_eq_error, ?_⟩
  intro patience arguments m after fault h hkind
  obtain ⟨first, head, last, hentry, hvisits, hturn, rfl⟩ := execute_faulted h
  have hintact : head.state.Intact last.state := turn_intact hturn hkind
  exact ⟨first, head, last, hentry, hvisits, hturn, hintact⟩

def dividing : Machine :=
  ((blank ⟨16, 3, 16, false, none⟩).perform 0 (.load [0x10, 0x01, 0x24, 0x01, 0x00])).1

theorem fault_leaves_intact_dividing :
    (∃ t, (Instruction.unary .pop 7).dispatch dividing.state = .error (.invalidRegister 7 3) t ∧
      dividing.state.Intact t) ∧
    ∃ first head last after, dividing.entry [] = .ok first ∧ first.Visits head ∧
      dividing.execute 9 [] = (after, .error (.fault ⟨2, some "DIV R1, R0", .divisionByZero⟩)) ∧
      head.turn = .ends last (.faulted ⟨2, some "DIV R1, R0", .divisionByZero⟩) ∧
      head.state.Intact after.state := by
  have hpop : (Instruction.unary .pop 7).dispatch dividing.state =
      .error (.invalidRegister 7 3) dividing.state := rfl
  refine ⟨⟨_, hpop, (fault_leaves_intact.1 _ _ _ _ hpop).2⟩, ?_⟩
  have hexecute : dividing.execute 9 [] =
      ((dividing.execute 9 []).1, .error (.fault ⟨2, some "DIV R1, R0", .divisionByZero⟩)) :=
    execute_of_snd (by decide +kernel)
  obtain ⟨first, head, last, hentry, hvisits, hturn, hintact⟩ :=
    fault_leaves_intact.2 9 [] dividing _ _ hexecute (fun _ => FaultKind.noConfusion)
  exact ⟨first, head, last, _, hentry, hvisits, hexecute, hturn, hintact⟩

theorem departure_intact_iff {patience : Nat} {arguments : List String} {m after : Machine}
    {fault : Fault} {target : Int}
    (h : m.execute patience arguments = (after, .error (.fault fault)))
    (hkind : fault.kind = .pcOutOfRange target) :
    ∃ first head last i, m.entry arguments = .ok first ∧ first.Visits head ∧
      head.turn = .ends last (.faulted fault) ∧ head.state.memory.fetch head.state.pc = .ok i ∧
      i.Departs head.state target after.state ∧ after.state.pc = head.state.pc ∧
      ((after.state.registers = head.state.registers ∧ after.state.memory = head.state.memory) ↔
        i ≠ .plain .ret ∧ ∀ t, i.dispatch head.state = .ok .next t →
          t.registers = head.state.registers ∧ t.memory = head.state.memory) := by
  obtain ⟨first, head, last, hentry, hvisits, hturn, rfl⟩ := execute_faulted h
  obtain ⟨i, hfetch, -, hdeparts⟩ := turn_departs hturn hkind
  exact ⟨first, head, last, i, hentry, hvisits, hturn, hfetch, hdeparts, hdeparts.pc_eq,
    hdeparts.intact_iff⟩

-- `PUSH R1` and then `RET`, where `R1` is the end of the code region and so of memory.
def returning : Machine :=
  ((blank ⟨16, 3, 16, false, none⟩).perform 0 (.load [0x14, 0x01, 0x03])).1

theorem departure_intact_iff_returning :
    ∃ first head after i, returning.entry [] = .ok first ∧ first.Visits head ∧
      returning.execute 9 [] = (after, .error (.fault ⟨2, some "RET", .pcOutOfRange 16⟩)) ∧
      head.state.memory.fetch head.state.pc = .ok i ∧ after.state.pc = head.state.pc ∧
      ((after.state.registers = head.state.registers ∧ after.state.memory = head.state.memory) ↔
        i ≠ .plain .ret ∧ ∀ t, i.dispatch head.state = .ok .next t →
          t.registers = head.state.registers ∧ t.memory = head.state.memory) := by
  have hexecute : returning.execute 9 [] =
      ((returning.execute 9 []).1, .error (.fault ⟨2, some "RET", .pcOutOfRange 16⟩)) :=
    execute_of_snd (by decide +kernel)
  obtain ⟨first, head, last, i, hentry, hvisits, -, hfetch, -, hpc, hiff⟩ :=
    departure_intact_iff hexecute rfl
  exact ⟨first, head, _, i, hentry, hvisits, hexecute, hfetch, hpc, hiff⟩

def leaving : Machine :=
  ((blank ⟨2, 3, 2, false, none⟩).perform 0 (.load [0x10, 0x00])).1

theorem departure_not_intact :
    (∃ first head last after, returning.entry [] = .ok first ∧ first.Visits head ∧
      head.turn = .ends last (.faulted ⟨2, some "RET", .pcOutOfRange 16⟩) ∧
      returning.execute 9 [] = (after, .error (.fault ⟨2, some "RET", .pcOutOfRange 16⟩)) ∧
      head.state.registers.values = #[0, 16, 12] ∧
      after.state.registers.values = #[0, 16, 16]) ∧
    ∃ head last after, leaving.entry [] = .ok head ∧
      head.turn = .ends last (.faulted ⟨0, some "INC R0", .pcOutOfRange 2⟩) ∧
      leaving.execute 9 [] = (after, .error (.fault ⟨0, some "INC R0", .pcOutOfRange 2⟩)) ∧
      head.state.registers.values = #[0, 2, 2] ∧ after.state.registers.values = #[1, 2, 2] := by
  constructor
  · let first := (returning.entry []).toOption.getD returning
    have hentry : returning.entry [] = .ok first := Except.eq_ok_of_toOption (by decide +kernel)
    have hrun : (first.run 1).2 = none := by decide +kernel
    refine ⟨first, (first.run 1).1, (first.run 1).1.turn.machine, (returning.execute 9 []).1, hentry,
      run_unfinished hrun, ?_, ?_, ?_, ?_⟩
    · decide +kernel
    · exact execute_of_snd (by decide +kernel)
    · decide +kernel
    · decide +kernel
  · let head := (leaving.entry []).toOption.getD leaving
    have hentry : leaving.entry [] = .ok head := Except.eq_ok_of_toOption (by decide +kernel)
    refine ⟨head, head.turn.machine, (leaving.execute 9 []).1, hentry, ?_, ?_, ?_, ?_⟩
    · decide +kernel
    · exact execute_of_snd (by decide +kernel)
    · decide +kernel
    · decide +kernel

end Machine

end RegisterMachine
