import Mathlib.Data.Int.Order.Basic
import RegisterMachine.Proofs.Conduct
import RegisterMachine.Proofs.Tracing

namespace RegisterMachine

def Branch.Demands (op : Branch) (x y : Int) : Prop :=
  match op with
  | .je => x = y
  | .jne => x ≠ y
  | .jl => x < y
  | .jle => x ≤ y
  | .jg => x > y
  | .jge => x ≥ y
  | .jmp | .call => True

theorem Branch.taken_compare (op : Branch) (x y : Int) :
    op.taken (compare x y) = true ↔ op.Demands x y := by
  cases op with
  | jmp | call => exact iff_of_true rfl trivial
  | je => exact beq_iff_eq.trans compare_eq_iff_eq
  | jne => exact bne_iff_ne.trans (not_congr compare_eq_iff_eq)
  | jl => exact beq_iff_eq.trans compare_lt_iff_lt
  | jle => exact bne_iff_ne.trans compare_le_iff_le
  | jg => exact beq_iff_eq.trans compare_gt_iff_gt
  | jge => exact bne_iff_ne.trans compare_ge_iff_ge

def Instruction.pair? (i : Instruction) (held : Register → Word) : Option (Int × Int) :=
  match i with
  | .binary .cmp first second => some ((held first).toInt, (held second).toInt)
  | .immediate .cmpi r value => some ((held r).toInt, value.toInt)
  | _ => none

theorem Instruction.compared?_eq (i : Instruction) (s : State) :
    i.compared? s = (i.pair? s.operand).map fun p => compare p.1 p.2 := by
  cases i with
  | plain op => rfl
  | unary op r => rfl
  | binary op first second => cases op <;> rfl
  | immediate op r value => cases op <;> rfl
  | branch op target => rfl

namespace Record

def held (r : Record) (register : Register) : Word := r.registers.getD register.toNat 0

def pair? (r : Record) : Option (Int × Int) := r.instruction.pair? r.held

def latestPair (trace : List Record) (otherwise : Int × Int) : Int × Int :=
  (trace.filterMap pair?).getLast?.getD otherwise

theorem latestPair_cons (r : Record) (trace : List Record) (otherwise : Int × Int) :
    latestPair (r :: trace) otherwise = latestPair trace (r.pair?.getD otherwise) :=
  getLast?_filterMap_cons pair? r trace otherwise

end Record

namespace Machine

variable {config : Config} {m head : Machine} {op : Branch} {target : Word}

theorem held_record (m : Machine) (i : Instruction) : (m.record i).held = m.state.operand := by
  funext r
  rw [Record.held, record, State.operand, Registers.value, Array.getD_eq_getD_getElem?,
    List.getD_eq_getElem?_getD, Array.getElem?_toList]

def Relates (m : Machine) (p : Int × Int) : Prop := m.state.comparison = compare p.1 p.2

theorem Relates.goesOn {p : Int × Int} (h : m.Relates p) (hm : m.Invariant config) {next : Machine}
    (hturn : m.turn = .goesOn next) :
    ∃ i, m.due? = some i ∧ next.Relates ((m.record i).pair?.getD p) := by
  obtain ⟨i, flow, t, hdue, hi, -, hnext⟩ := turn_goesOn hturn
  obtain ⟨-, -, rfl⟩ := (i.behaves_dispatch hm.hasStack).of_ok hi
  refine ⟨i, hdue, ?_⟩
  have hresult : next.state.comparison = (i.compared? m.state).getD m.state.comparison :=
    congrArg State.comparison hnext
  have hpair : (m.record i).pair? = i.pair? m.state.operand := by
    rw [Record.pair?, held_record]
    rfl
  rw [Relates, hresult, i.compared?_eq, hpair]
  cases i.pair? m.state.operand with
  | none => exact h
  | some q => rfl

-- The induction is on the turns from the front. Each takes over what relates from the one before it
-- unless it compares, which is how the latest pair is found from the front as well.
theorem Relates.run {p : Int × Int} (h : m.Relates p) (hm : m.Invariant config) {k : Nat}
    (hrun : m.run k = (head, none)) : head.Relates (Record.latestPair (m.dispatched k) p) := by
  induction k generalizing m p with
  | zero =>
      cases hrun
      exact h
  | succ k ih =>
      rw [Machine.run] at hrun
      cases hturn : m.turn with
      | ends last ending =>
          rw [hturn] at hrun
          cases hrun
      | goesOn next =>
          rw [hturn] at hrun
          obtain ⟨i, hdue, hnext⟩ := h.goesOn hm hturn
          obtain ⟨j, hj, hdispatched⟩ := dispatched_of_goesOn hturn k
          cases hdue.symm.trans hj
          have hready := hm.turn
          rw [hturn] at hready
          rw [hdispatched, Record.latestPair_cons]
          exact ih hnext hready hrun

def Leads (m : Machine) (i : Instruction) (address : Int) : Prop :=
  (0 ≤ address ∧ address < m.state.memory.size →
    ∃ next, m.turn = .goesOn next ∧ (next.state.pc : Int) = address) ∧
  (¬ (0 ≤ address ∧ address < m.state.memory.size) →
    ∃ last, m.turn = .ends last (.faulted ⟨m.state.pc, some i.text, .pcOutOfRange address⟩))

theorem leads_of_goTo {ready : Machine} {i : Instruction} {address : Int}
    (hstate : ready.state = m.state) (h : m.turn = ready.goTo i address) : m.Leads i address := by
  unfold Leads
  rw [h, ← hstate]
  refine ⟨fun hin => ⟨_, if_pos hin, ?_⟩, fun hout => ⟨_, if_neg hout⟩⟩
  exact Int.toNat_of_nonneg hin.1

theorem leads_of_branch (hdue : m.due? = some (.branch op target)) (hcall : op ≠ .call)
    (hunbroken : ∀ last, m.turn ≠ .ends last .broken) :
    m.Leads (.branch op target)
      (if op.taken m.state.comparison then target.toInt else m.state.pc + 5) := by
  obtain ⟨sink, hturn⟩ := turn_of_unbroken hdue hunbroken
  have hdispatch : (Instruction.branch op target).dispatch m.state =
      .ok (if op.taken m.state.comparison then .jump target else .next) m.state := by
    rw [Instruction.dispatch, Branch.dispatch_of_ne_call hcall]
    rfl
  have hgo : m.turn = goTo { m with sink := sink, steps := m.steps + 1 } (.branch op target)
      (if op.taken m.state.comparison then target.toInt else m.state.pc + 5) := by
    rw [hturn]
    simp only [dispatch, hdispatch]
    cases op.taken m.state.comparison <;> rfl
  refine leads_of_goTo ?_ hgo
  rfl

theorem jumps_by_latest_comparison (hm : m.Invariant config) {arguments : List String}
    {first : Machine} {k : Nat} (hentry : m.entry arguments = .ok first)
    (hrun : first.run k = (head, none)) (hdue : head.due? = some (.branch op target))
    (hcall : op ≠ .call) (hunbroken : ∀ last, head.turn ≠ .ends last .broken) {x y : Int}
    (hlatest : Record.latestPair (first.dispatched k) (0, 0) = (x, y)) :
    (op.Demands x y → head.Leads (.branch op target) target.toInt) ∧
    (¬ op.Demands x y → head.Leads (.branch op target) (head.state.pc + 5)) := by
  have hzeros : first.Relates (0, 0) := by
    obtain ⟨s, -, rfl⟩ := entry_eq_ok hentry
    rfl
  have hhead := hzeros.run (hm.entry hentry) hrun
  rw [hlatest] at hhead
  have htaken : op.taken head.state.comparison = true ↔ op.Demands x y :=
    hhead ▸ op.taken_compare x y
  have hleads := leads_of_branch hdue hcall hunbroken
  refine ⟨fun hdemands => ?_, fun hdemands => ?_⟩
  · rwa [if_pos (htaken.mpr hdemands)] at hleads
  · rwa [if_neg (htaken.not.mpr hdemands)] at hleads

-- `JNE 17`, `CMPI R0, 5`, `MOVI R0, 9` and `JL 0`. A run was cut off by the limit after all four.
def cutOff : Machine :=
  ((((blank ⟨32, 3, 32, false, none⟩).perform 0 (.load [0x52, 17, 0, 0, 0, 0x44, 0, 5, 0, 0, 0,
    0x40, 0, 9, 0, 0, 0, 0x53, 0, 0, 0, 0])).1.perform 0 (.setLimit (some 4))).1.perform 9
      (.execute [])).1

theorem jumps_by_latest_comparison_cutOff :
    ∃ first head, cutOff.entry [] = .ok first ∧ first.run 3 = (head, none) ∧
      cutOff.state.comparison = .lt ∧ (∃ next, first.turn = .goesOn next ∧ next.state.pc = 5) ∧
      head.state.operand 0 = 9 ∧ ∃ next, head.turn = .goesOn next ∧ next.state.pc = 0 := by
  have hc : Config.Valid ⟨32, 3, 32, false, none⟩ := (Config.validate_eq_ok_iff _).mp rfl
  have hm : cutOff.Invariant ⟨32, 3, 32, false, none⟩ :=
    (((invariant_blank hc).perform 0 _).perform 0 _).perform 9 _
  let first := (cutOff.entry []).toOption.getD cutOff
  let head := (first.run 3).1
  have hentry : cutOff.entry [] = .ok first := Except.eq_ok_of_toOption (by decide +kernel)
  have hnone : (first.run 3).2 = none := by decide +kernel
  have hrun : first.run 3 = (head, none) := by rw [← hnone]
  have hfirst : first.Quiet := by decide +kernel
  have hhead : head.Quiet := by decide +kernel
  obtain ⟨-, hfalls⟩ := jumps_by_latest_comparison hm hentry (k := 0) rfl
    (by decide +kernel : first.due? = some (.branch .jne 17)) (by decide)
    hfirst.steady.turn_ne_broken rfl
  obtain ⟨hjumps, -⟩ := jumps_by_latest_comparison hm hentry hrun
    (by decide +kernel : head.due? = some (.branch .jl 0)) (by decide)
    hhead.steady.turn_ne_broken
    (by decide +kernel : Record.latestPair (first.dispatched 3) (0, 0) = (0, 5))
  obtain ⟨next, hnext, hpc⟩ := (hfalls (by simp [Branch.Demands])).1 (by decide +kernel)
  obtain ⟨next', hnext', hpc'⟩ := (hjumps (by simp [Branch.Demands])).1 (by decide +kernel)
  refine ⟨first, head, hentry, hrun, by decide +kernel, ⟨next, hnext, ?_⟩, by decide +kernel,
    next', hnext', ?_⟩
  · exact Int.ofNat_inj.mp (hpc.trans (by decide +kernel))
  · exact Int.ofNat_inj.mp hpc'

end Machine

end RegisterMachine
