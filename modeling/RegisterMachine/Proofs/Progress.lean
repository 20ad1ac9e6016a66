import RegisterMachine.Proofs.Tracing

namespace RegisterMachine

def Instruction.Transfers : Instruction → Prop
  | .plain .ret | .branch _ _ => True
  | _ => False

theorem Instruction.transfers_of_jump {i : Instruction} {s t : State} {target : Word}
    (h : i.dispatch s = .ok (.jump target) t) : i.Transfers := by
  rcases dispatch_eq_jump h with ⟨rfl, -⟩ | ⟨op, rfl, -⟩ <;> trivial

namespace Machine

def Recedes (m : Machine) : Prop :=
  ∃ i next, m.due? = some i ∧ i.Transfers ∧ m.turn = .goesOn next ∧ next.state.pc ≤ m.state.pc

variable {config : Config} {m first head next : Machine} {arguments : List String}

theorem pc_lt_of_goesOn (h : m.turn = .goesOn next) (hm : ¬ m.Recedes) :
    m.state.pc < next.state.pc := by
  obtain ⟨i, flow, t, hdue, hi, honward, -⟩ := turn_goesOn h
  cases flow with
  | halt => cases honward
  | next =>
      have hbehind : (m.state.pc + i.width : Int) = next.state.pc := Option.some.inj honward
      have hwidth := i.width_pos
      omega
  | jump target =>
      refine Nat.lt_of_not_le fun hback => hm ?_
      exact ⟨i, next, hdue, Instruction.transfers_of_jump hi, h, hback⟩

theorem pc_le_of_run {k : Nat} (h : m.run k = (head, none))
    (hm : ∀ j < k, ∀ later, m.run j = (later, none) → ¬ later.Recedes) :
    m.state.pc + k ≤ head.state.pc := by
  induction k generalizing m with
  | zero =>
      cases h
      exact Nat.le_refl _
  | succ k ih =>
      rw [run] at h
      cases hturn : m.turn with
      | ends last ending =>
          rw [hturn] at h
          cases h
      | goesOn next =>
          rw [hturn] at h
          have hstep := pc_lt_of_goesOn hturn (hm 0 (Nat.succ_pos k) m rfl)
          have hrest := ih h fun j hj later hlater => hm (j + 1) (Nat.succ_lt_succ hj) later (by
            rw [run, hturn]
            exact hlater)
          omega

theorem Invariant.exists_recedes (hm : m.Invariant config)
    (h : m.run config.ramSize = (head, none)) :
    ∃ k < config.ramSize, ∃ later, m.run k = (later, none) ∧ later.Recedes := by
  refine Classical.byContradiction fun hnone => ?_
  have hpc := pc_le_of_run h fun k hk later hlater hback => hnone ⟨k, hk, later, hlater, hback⟩
  have hhead := hm.run config.ramSize
  rw [h] at hhead
  have hlt : head.state.pc < config.ramSize :=
    Nat.lt_of_lt_of_eq hhead.fits.pc_lt hhead.fits.memory_size
  omega

theorem run_of_length_dispatched {k patience : Nat} (h : k < (m.dispatched patience).length) :
    ∃ head, m.run k = (head, none) := by
  obtain ⟨head, -, hrun, -⟩ := dispatched_getElem? (List.getElem?_eq_getElem h)
  exact ⟨head, hrun⟩

theorem execute_ends (hentry : m.entry arguments = .ok first) {patience : Nat}
    (hended : (m.execute patience arguments).2 ≠ .unfinished)
    (hcrashed : (m.execute patience arguments).2 ≠ .crashed) :
    (m.execute patience arguments).2 = .ok () ∨
      ∃ fault, (m.execute patience arguments).2 = .error (.fault fault) := by
  rw [execute_of_entry hentry] at hended hcrashed ⊢
  rcases hr : first.run patience with ⟨last, _ | (_ | fault | _)⟩
  · rw [hr] at hended
    exact absurd rfl hended
  · exact .inl rfl
  · exact .inr ⟨fault, rfl⟩
  · rw [hr] at hcrashed
    exact absurd rfl hcrashed

theorem long_runs_recede (hm : m.Invariant config) (hentry : m.entry arguments = .ok first) :
    ((∀ head, first.Visits head → ¬ head.Recedes) → ∀ patience,
      (first.dispatched patience).length ≤ config.ramSize ∧
      (config.ramSize ≤ patience → (m.execute patience arguments).2 ≠ .unfinished ∧
        (m.Steady → (m.execute patience arguments).1.steps ≤ config.ramSize ∧
          ((m.execute patience arguments).2 = .ok () ∨
            ∃ fault, (m.execute patience arguments).2 = .error (.fault fault))))) ∧
    ∀ head, first.Visits head →
      (head.dispatched (config.ramSize + 1)).length = config.ramSize + 1 →
      ∃ k < config.ramSize, ∃ later, head.run k = (later, none) ∧ later.Recedes := by
  have hfirst := hm.entry hentry
  refine ⟨fun hforward patience => ?_, fun head hvisits hlength => ?_⟩
  · have hends : (first.run config.ramSize).2 ≠ none := fun hnone => by
      obtain ⟨k, -, later, hlater, hback⟩ := hfirst.exists_recedes (Prod.ext rfl hnone)
      have hvisits := run_unfinished (congrArg Prod.snd hlater)
      rw [hlater] at hvisits
      exact hforward later hvisits hback
    have hlength : (first.dispatched patience).length ≤ config.ramSize := by
      refine Nat.le_of_not_lt fun hlong => ?_
      obtain ⟨head, hrun⟩ := run_of_length_dispatched hlong
      exact hends (congrArg Prod.snd hrun)
    refine ⟨hlength, fun hpatience => ?_⟩
    have hended := execute_finished hentry
      (fun hopen => hends ((execute_unfinished_iff hentry _).mp hopen)) hpatience
    refine ⟨hended, fun hsteady => ?_⟩
    have hcrashed := execute_ne_crashed hentry hsteady patience
    refine ⟨?_, execute_ends hentry hended hcrashed⟩
    rw [execute_of_entry hentry, Ne, finish_eq_crashed_iff] at hcrashed
    rw [execute_of_entry hentry, (finish_keeps _).1, run_steps hcrashed, (entry_start hentry).1,
      Nat.zero_add]
    exact hlength
  · have hlong : config.ramSize < (head.dispatched (config.ramSize + 1)).length := by omega
    obtain ⟨last, hrun⟩ := run_of_length_dispatched hlong
    exact (hfirst.visits hvisits).exists_recedes hrun

def skipping : Machine := ((blank ⟨8, 3, 8, false, none⟩).perform 0 (.load [0x50, 6, 0, 0, 0, 0, 1])).1

def circling : Machine := ((blank ⟨8, 3, 8, false, none⟩).perform 0 (.load [0x50, 0, 0, 0, 0])).1

theorem long_runs_recede_skipping :
    (∃ first, skipping.entry [] = .ok first ∧ (∀ head, first.Visits head → ¬ head.Recedes) ∧
      (skipping.execute 8 []).1.steps ≤ 8 ∧ (skipping.execute 8 []).2 ≠ .unfinished) ∧
    ∃ first, circling.entry [] = .ok first ∧ (first.dispatched 9).length = 9 ∧
      ∃ k < 8, ∃ later, first.run k = (later, none) ∧ later.Recedes := by
  have hc : Config.Valid ⟨8, 3, 8, false, none⟩ := (Config.validate_eq_ok_iff _).mp rfl
  have hskipping : skipping.Invariant ⟨8, 3, 8, false, none⟩ := (invariant_blank hc).perform 0 _
  have hcircling : circling.Invariant ⟨8, 3, 8, false, none⟩ := (invariant_blank hc).perform 0 _
  refine ⟨?_, ?_⟩
  · let first := (skipping.entry []).toOption.getD skipping
    let second := first.turn.machine
    have hentry : skipping.entry [] = .ok first := Except.eq_ok_of_toOption (by decide +kernel)
    have hgoes : first.turn = .goesOn second := by decide +kernel
    have hends : second.turn = .ends second.turn.machine .halted := by decide +kernel
    have hup : first.state.pc < second.state.pc := by decide +kernel
    have hforward : ∀ head, first.Visits head → ¬ head.Recedes := by
      rintro head hvisits ⟨i, next, -, -, hturn, hback⟩
      rcases hvisits.cases_head with rfl | ⟨other, hother, hrest⟩
      · have hnext : second = next := Turn.goesOn.inj (hgoes.symm.trans hturn)
        exact Nat.not_le.mpr (hnext ▸ hup) hback
      · have hsecond : second = other := Turn.goesOn.inj (hgoes.symm.trans hother)
        rw [← hsecond] at hrest
        rcases hrest.cases_head with rfl | ⟨another, hanother, -⟩
        · exact Turn.noConfusion (hends.symm.trans hturn)
        · exact Turn.noConfusion (hends.symm.trans hanother)
    obtain ⟨-, hruns⟩ := (long_runs_recede hskipping hentry).1 hforward 8
    obtain ⟨hended, hsteady⟩ := hruns (Nat.le_refl _)
    have hquiet : skipping.Quiet := by decide +kernel
    exact ⟨first, hentry, hforward, (hsteady hquiet.steady).1, hended⟩
  · let first := (circling.entry []).toOption.getD circling
    have hentry : circling.entry [] = .ok first := Except.eq_ok_of_toOption (by decide +kernel)
    have hlength : (first.dispatched 9).length = 9 := by decide +kernel
    exact ⟨first, hentry, hlength, (long_runs_recede hcircling hentry).2 first .refl hlength⟩

end Machine

end RegisterMachine
