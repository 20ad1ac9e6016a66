import RegisterMachine.Proofs.Conduct
import RegisterMachine.Proofs.Printing

namespace RegisterMachine

namespace Instruction

variable {i : Instruction} {s : State}

theorem destination_eq (i : Instruction) (s : State) :
    i.destination = (i.written? s).map Prod.fst := by
  cases i with
  | plain op => rfl
  | unary op r => cases op <;> rfl
  | binary op first second => cases op <;> rfl
  | immediate op r value => cases op <;> rfl
  | branch op target => rfl

theorem destination_mem {r : Register} (h : i.destination = some r) : r ∈ i.registers := by
  cases i with
  | plain op => cases h
  | unary op r => cases op <;> cases h <;> exact List.mem_singleton_self _
  | binary op first second => cases op <;> cases h <;> exact List.mem_cons_self
  | immediate op r value => cases op <;> cases h <;> exact List.mem_singleton_self _
  | branch op target => cases h

section Unopposed

variable (hcauses : i.causes s = [])

include hcauses

theorem lt_of_unopposed {r : Register} (h : r ∈ i.registers) : r.toNat < s.registers.size := by
  have hlacks : i.registers.flatMap s.lacks = [] := (List.append_eq_nil_iff.mp hcauses).1
  exact demand_eq_nil_iff.mp (List.flatMap_eq_nil_iff.mp hlacks r h)

theorem fits_of_unopposed {address : Word} {width : Nat} (h : i.reach? s = some (address, width)) :
    (s.access address width).Fits := by
  simp only [causes, List.append_eq_nil_iff, h] at hcauses
  exact demand_eq_nil_iff.mp hcauses.2.2.2.1

theorem operand_result {r : Register} {w : Word} (h : i.written? s = some (r, w)) :
    (i.result s).operand r = w := by
  have hlt : r.toNat < s.registers.size :=
    lt_of_unopposed hcauses (destination_mem ((i.destination_eq s).trans (congrArg _ h)))
  unfold State.operand result
  simp only [h, Option.elim_some]
  rw [Registers.value_update, if_pos rfl]
  cases i.top? s with
  | none => exact hlt
  | some w => rwa [Option.elim_some, Registers.size_update]

end Unopposed

end Instruction

namespace Machine

variable {config : Config} {m : Machine}

theorem machine_goTo (m : Machine) (i : Instruction) (target : Int) :
    (m.goTo i target).machine =
      { m with state := { m.state with pc := (m.goTo i target).machine.state.pc } } := by
  unfold goTo
  split <;> rfl

theorem machine_dispatch_of_no_cause (hm : m.Invariant config) {i : Instruction}
    (h : i.causes m.state = []) :
    (m.dispatch i).machine = { m with
      state := { i.result m.state with pc := (m.dispatch i).machine.state.pc } } := by
  rw [dispatch_of_no_cause hm h]
  cases i.onward m.state.pc (i.flow m.state) with
  | none => rfl
  | some target => exact machine_goTo _ i target

end Machine

end RegisterMachine
