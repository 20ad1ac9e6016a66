import RegisterMachine.Proofs.Conduct

namespace RegisterMachine

inductive Instruction.Fails (i : Instruction) (s : State) : FaultKind → Prop
  | cause {kind : FaultKind} (h : (i.causes s).head? = some kind) : Fails i s kind
  | exit {target : Int} (hnone : i.causes s = []) (honward : i.onward s.pc (i.flow s) = some target)
      (hout : ¬ (0 ≤ target ∧ target < s.memory.size)) : Fails i s (.pcOutOfRange target)

namespace Machine

inductive Blames (m : Machine) : Fault → Prop
  | limit {limit : Nat} (hlimit : m.limitReached? = some limit) :
      Blames m ⟨m.state.pc, none, .instructionLimit limit⟩
  | unread {kind : FaultKind} (hlimit : m.limitReached? = none)
      (hfetch : m.state.memory.fetch m.state.pc = .error kind) : Blames m ⟨m.state.pc, none, kind⟩
  | instruction {i : Instruction} {kind : FaultKind} (hlimit : m.limitReached? = none)
      (hfetch : m.state.memory.fetch m.state.pc = .ok i) (hfails : i.Fails m.state kind) :
      Blames m ⟨m.state.pc, some i.text, kind⟩

variable {config : Config} {m : Machine} {fault : Fault}

theorem Invariant.size_result (hm : m.Invariant config) {i : Instruction}
    (h : i.causes m.state = []) : (i.result m.state).memory.size = m.state.memory.size := by
  have hi := i.behaves_dispatch hm.hasStack
  rw [h] at hi
  exact (i.keepsShape_dispatch.of_ok hi).memory_size

theorem goTo_faulted_iff {i : Instruction} {target : Int} :
    (∃ last, m.goTo i target = .ends last (.faulted fault)) ↔
      ¬ (0 ≤ target ∧ target < m.state.memory.size) ∧
        fault = ⟨m.state.pc, some i.text, .pcOutOfRange target⟩ := by
  unfold goTo
  split
  · rename_i hin
    exact iff_of_false (by simp) (fun h => h.1 hin)
  · rename_i hout
    constructor
    · rintro ⟨last, h⟩
      cases h
      exact ⟨hout, rfl⟩
    · rintro ⟨-, rfl⟩
      exact ⟨m, rfl⟩

theorem dispatch_faulted_iff (hm : m.Invariant config) (i : Instruction) :
    (∃ last, m.dispatch i = .ends last (.faulted fault)) ↔
      ∃ kind, i.Fails m.state kind ∧ fault = ⟨m.state.pc, some i.text, kind⟩ := by
  cases hcauses : i.causes m.state with
  | cons first rest =>
      have hfirst : (i.causes m.state).head? = some first := by rw [hcauses, List.head?_cons]
      obtain ⟨t, ht⟩ := dispatch_of_cause hm hfirst
      constructor
      · rintro ⟨last, hlast⟩
        cases ht.symm.trans hlast
        exact ⟨first, .cause hfirst, rfl⟩
      · rintro ⟨kind, hfails, rfl⟩
        cases hfails with
        | cause hcause =>
            cases hfirst.symm.trans hcause
            exact ⟨_, ht⟩
        | exit hnone honward hout =>
            rw [hcauses] at hnone
            cases hnone
  | nil =>
      rw [dispatch_of_no_cause hm hcauses]
      cases honward : i.onward m.state.pc (i.flow m.state) with
      | none =>
          refine iff_of_false (by simp) ?_
          rintro ⟨kind, hfails, -⟩
          cases hfails with
          | cause hcause =>
              rw [hcauses] at hcause
              cases hcause
          | exit hnone hexit hout =>
              cases honward.symm.trans hexit
      | some target =>
          rw [goTo_faulted_iff]
          simp only [hm.size_result hcauses]
          constructor
          · rintro ⟨hout, rfl⟩
            exact ⟨_, .exit hcauses honward hout, rfl⟩
          · rintro ⟨kind, hfails, rfl⟩
            cases hfails with
            | cause hcause =>
                rw [hcauses] at hcause
                cases hcause
            | exit hnone hexit hout =>
                cases honward.symm.trans hexit
                exact ⟨hout, rfl⟩

theorem blames_of_turn (hm : m.Invariant config) {last : Machine}
    (h : m.turn = .ends last (.faulted fault)) : m.Blames fault := by
  cases hlimit : m.limitReached? with
  | some limit =>
      simp only [turn, hlimit] at h
      cases h
      exact .limit hlimit
  | none =>
      rcases m.turn_cases with ⟨kind, hturn, ⟨limit, hreached, -⟩ | hfetch⟩ | hturn |
        ⟨i, sink, -, hfetch, hturn⟩
      · rw [hlimit] at hreached
        cases hreached
      · cases hturn.symm.trans h
        exact .unread hlimit hfetch
      · cases hturn.symm.trans h
      · have hready : ({ m with sink := sink, steps := m.steps + 1 } : Machine).Invariant config :=
          hm.sameShape rfl (.refl _)
        obtain ⟨kind, hfails, rfl⟩ :=
          (dispatch_faulted_iff hready i).mp ⟨last, hturn.symm.trans h⟩
        exact .instruction hlimit hfetch hfails

theorem Blames.turn (h : m.Blames fault) (hm : m.Invariant config) (hsteady : m.Steady) :
    ∃ last, m.turn = .ends last (.faulted fault) := by
  cases h with
  | limit hlimit =>
      refine ⟨m, ?_⟩
      simp only [Machine.turn, hlimit]
  | unread hlimit hfetch =>
      refine ⟨m, ?_⟩
      simp only [Machine.turn, hlimit, hfetch]
  | @instruction i kind hlimit hfetch hfails =>
      obtain ⟨reported, hreport⟩ := hsteady.report? i
      have hready : ({ m with sink := reported.sink, steps := m.steps + 1 } : Machine).Invariant
          config := hm.sameShape rfl (.refl _)
      have hdue : m.due? = some i := by
        rw [due?, hlimit, hfetch]
        rfl
      rw [turn_of_due hdue hreport, report?_eq_some hreport]
      exact (dispatch_faulted_iff hready i).mpr ⟨kind, hfails, rfl⟩

theorem pc_of_faulted {last : Machine} (h : m.turn = .ends last (.faulted fault)) :
    fault.pc = m.state.pc ∧ last.state.pc = m.state.pc := by
  rcases turn_faulted h with ⟨rfl, hfault, -⟩ | ⟨i, -, hfault, herror | ⟨flow, target, hok, -⟩⟩
  · exact ⟨congrArg Fault.pc hfault, rfl⟩
  · have hshape := i.keepsShape_dispatch m.state
    rw [Effect.after_of_error herror] at hshape
    exact ⟨congrArg Fault.pc hfault, hshape.pc⟩
  · exact ⟨congrArg Fault.pc hfault, (i.keepsShape_dispatch.of_ok hok).pc⟩

theorem raises_first_cause (hm : m.Invariant config) :
    (∀ i : Instruction,
      (∀ kind, (∃ t, i.dispatch m.state = .error kind t) ↔ (i.causes m.state).head? = some kind) ∧
      ((∃ flow t, i.dispatch m.state = .ok flow t) ↔ i.causes m.state = [])) ∧
    (∀ patience arguments after fault,
      m.execute patience arguments = (after, .error (.fault fault)) →
      ∃ first head, m.entry arguments = .ok first ∧ first.Visits head ∧ head.Blames fault ∧
        fault.pc = head.state.pc ∧ fault.pc = after.state.pc) ∧
    ∀ arguments first head, m.entry arguments = .ok first → first.Visits head → head.Steady →
      ∀ fault, (∃ last, head.turn = .ends last (.faulted fault)) ↔ head.Blames fault := by
  refine ⟨fun i => ?_, ?_, ?_⟩
  · have hi := i.behaves_dispatch hm.hasStack
    exact ⟨fun kind => hi.error_iff, hi.ok_iff⟩
  · intro patience arguments after fault h
    obtain ⟨first, head, last, hentry, hvisits, hturn, rfl⟩ := execute_faulted h
    obtain ⟨hfault, hlast⟩ := pc_of_faulted hturn
    exact ⟨first, head, hentry, hvisits, blames_of_turn ((hm.entry hentry).visits hvisits) hturn,
      hfault, hfault.trans hlast.symm⟩
  · intro arguments first head hentry hvisits hsteady fault
    have hhead := (hm.entry hentry).visits hvisits
    exact ⟨fun ⟨last, hturn⟩ => blames_of_turn hhead hturn, fun h => h.turn hhead hsteady⟩

def wanting : Machine :=
  (((blank ⟨16, 3, 16, false, none⟩).perform 0 (.load [0x24, 7, 0])).1.perform 0
    (.setRegister 2 (-2147483648))).1

theorem raises_first_cause_wanting :
    (Instruction.binary .div 7 0).causes wanting.state = [.invalidRegister 7 3, .divisionByZero] ∧
    (∃ t, (Instruction.binary .div 7 0).dispatch wanting.state = .error (.invalidRegister 7 3) t) ∧
    (∃ t, (Instruction.branch .call (-1)).dispatch wanting.state = .error (.pcOutOfRange (-1)) t) ∧
    (∃ t, (Instruction.unary .push 0).dispatch wanting.state =
      .error (.memoryViolation ⟨2147483644, 4, 16⟩) t) ∧
    (∃ flow t, (Instruction.unary .out 2).dispatch wanting.state = .ok flow t) ∧
    ∃ first head after, wanting.entry [] = .ok first ∧ first.Visits head ∧
      wanting.execute 9 [] =
        (after, .error (.fault ⟨0, some "DIV R7, R0", .invalidRegister 7 3⟩)) ∧
      head.Blames ⟨0, some "DIV R7, R0", .invalidRegister 7 3⟩ ∧ head.state.pc = 0 ∧
      after.state.pc = 0 := by
  have hc : Config.Valid ⟨16, 3, 16, false, none⟩ := (Config.validate_eq_ok_iff _).mp rfl
  have hm : wanting.Invariant ⟨16, 3, 16, false, none⟩ := ((invariant_blank hc).perform 0 _).perform 0 _
  obtain ⟨hraises, hfaults, -⟩ := raises_first_cause hm
  have hdiv : (Instruction.binary .div 7 0).causes wanting.state =
      [.invalidRegister 7 3, .divisionByZero] := by decide +kernel
  have hcall : (Instruction.branch .call (-1)).causes wanting.state =
      [.pcOutOfRange (-1), .memoryViolation ⟨2147483644, 4, 16⟩] := by decide +kernel
  have hpush : (Instruction.unary .push 0).causes wanting.state =
      [.memoryViolation ⟨2147483644, 4, 16⟩] := by decide +kernel
  have hout : (Instruction.unary .out 2).causes wanting.state = [] := by decide +kernel
  have hexecute : wanting.execute 9 [] = ((wanting.execute 9 []).1,
      .error (.fault ⟨0, some "DIV R7, R0", .invalidRegister 7 3⟩)) :=
    execute_of_snd (by decide +kernel)
  obtain ⟨first, head, hentry, hvisits, hblames, hhead, hafter⟩ := hfaults 9 [] _ _ hexecute
  refine ⟨hdiv, ((hraises _).1 _).mpr ?_, ((hraises _).1 _).mpr ?_, ((hraises _).1 _).mpr ?_,
    (hraises _).2.mpr hout, first, head, _, hentry, hvisits, hexecute, hblames, hhead.symm,
    hafter.symm⟩
  · rw [hdiv]
    rfl
  · rw [hcall]
    rfl
  · rw [hpush]
    rfl

end Machine

end RegisterMachine
