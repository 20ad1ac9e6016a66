import RegisterMachine.Proofs.Invariant

namespace RegisterMachine.Machine

def limitedTo (limit : Nat) : Machine → Machine :=
  refit (fun config => { config with limit := some limit }) id

def Takes (m : Machine) (arguments : List String) (turns : Nat) : Prop :=
  (m.execute turns arguments).2 ≠ .unfinished ∧
    ∀ fewer, fewer < turns → (m.execute fewer arguments).2 = .unfinished

variable {m first : Machine} {arguments : List String} {limit : Nat}

theorem exists_takes {turns : Nat} (h : (m.execute turns arguments).2 ≠ .unfinished) :
    ∃ least, least ≤ turns ∧ m.Takes arguments least := by
  induction turns using Nat.strongRecOn with
  | ind turns ih =>
      by_cases hearlier : ∃ fewer, fewer < turns ∧ (m.execute fewer arguments).2 ≠ .unfinished
      · obtain ⟨fewer, hlt, hfewer⟩ := hearlier
        obtain ⟨least, hle, htakes⟩ := ih fewer hlt hfewer
        exact ⟨least, by omega, htakes⟩
      · refine ⟨turns, Nat.le_refl _, h, ?_⟩
        intro fewer hlt
        exact Decidable.not_not.mp (fun hfewer => hearlier ⟨fewer, hlt, hfewer⟩)

theorem report?_limitedTo (limit : Nat) (m : Machine) (i : Instruction) :
    (m.limitedTo limit).report? i = (m.report? i).map (limitedTo limit) := by
  unfold report? limitedTo refit record
  dsimp only [id]
  split
  · rw [Option.map_map]
    rfl
  · rfl

theorem turn_limitedTo (hm : m.config.limit = none) (h : m.steps < limit) :
    (m.limitedTo limit).turn = m.turn.map (limitedTo limit) := by
  have hfree : m.limitReached? = none := by simp [limitReached?, hm]
  have hlimited : (m.limitedTo limit).limitReached? = none := by
    simp [limitReached?, limitedTo, refit, Option.filter, Nat.not_le.mpr h]
  have hstate : (m.limitedTo limit).state = m.state := rfl
  unfold turn
  simp only [hfree, hlimited, hstate, report?_limitedTo]
  cases m.state.memory.fetch m.state.pc with
  | error kind => rfl
  | ok i =>
      dsimp only
      cases m.report? i with
      | none => rfl
      | some reported =>
          exact dispatch_refit (fun config => { config with limit := some limit }) id
            { reported with steps := reported.steps + 1 } i

theorem run_limitedTo {patience : Nat} (hm : m.config.limit = none)
    (h : m.steps + patience ≤ limit) :
    (m.limitedTo limit).run patience =
      ((m.run patience).1.limitedTo limit, (m.run patience).2) := by
  induction patience generalizing m with
  | zero => rfl
  | succ patience ih =>
      have hturn := turn_limitedTo hm (by omega : m.steps < limit)
      have hkeeps := m.turn_keeps.1
      rw [run, run, hturn]
      cases ht : m.turn with
      | goesOn next =>
          have hsteps := turn_goesOn_steps ht
          rw [ht] at hkeeps
          exact ih (congrArg Config.limit hkeeps |>.trans hm) (by omega)
      | ends last ending => rfl

theorem turn_at_limit (h : m.steps = limit) :
    (m.limitedTo limit).turn = .ends (m.limitedTo limit)
      (.faulted ⟨m.state.pc, none, .instructionLimit limit⟩) := by
  have hreached : (m.limitedTo limit).limitReached? = some limit := by
    simp [limitReached?, limitedTo, refit, h]
  unfold turn
  rw [hreached]
  rfl

theorem entry_limitedTo (hentry : m.entry arguments = .ok first) (limit : Nat) :
    (m.limitedTo limit).entry arguments = .ok (first.limitedTo limit) := by
  unfold limitedTo
  rw [entry_refit, hentry]
  rfl

theorem execute_within_limit (hm : m.config.limit = none) (hentry : m.entry arguments = .ok first)
    {turns : Nat} (hturns : (m.execute turns arguments).2 ≠ .unfinished) (hle : turns ≤ limit)
    (more : Nat) :
    (m.limitedTo limit).execute (turns + more) arguments =
      ((m.execute (turns + more) arguments).1.limitedTo limit,
        (m.execute (turns + more) arguments).2) := by
  obtain ⟨hsteps, hconfig, -⟩ := entry_start hentry
  have hlimited := run_limitedTo ((congrArg Config.limit hconfig).trans hm)
    (by omega : first.steps + turns ≤ limit)
  rw [execute_of_entry (entry_limitedTo hentry limit), execute_of_entry hentry]
  rcases hr : first.run turns with ⟨last, _ | ending⟩
  · exact absurd ((execute_unfinished_iff hentry turns).mpr (by rw [hr])) hturns
  · rw [hr] at hlimited
    rw [run_of_finished hr, run_of_finished hlimited]
    exact finish_refit _ id (last, some ending)

theorem execute_beyond_limit (hm : m.config.limit = none) (hentry : m.entry arguments = .ok first)
    (h : (m.execute limit arguments).2 = .unfinished) (more : Nat) :
    ∃ head, m.execute limit arguments = (head, .unfinished) ∧ head.steps = limit ∧
      (m.limitedTo limit).execute (limit + 1 + more) arguments =
        ({ head.limitedTo limit with phase := .faulted },
          .error (.fault ⟨head.state.pc, none, .instructionLimit limit⟩)) := by
  obtain ⟨hsteps, hconfig, -⟩ := entry_start hentry
  rw [execute_unfinished_iff hentry] at h
  rcases hr : first.run limit with ⟨head, ending⟩
  rw [hr] at h
  cases h
  have hhead : head.steps = limit := by
    rw [run_unfinished_steps hr, hsteps, Nat.zero_add]
  have hlimited := run_limitedTo ((congrArg Config.limit hconfig).trans hm)
    (by omega : first.steps + limit ≤ limit)
  rw [hr] at hlimited
  refine ⟨head, ?_, hhead, ?_⟩
  · rw [execute_of_entry hentry, hr]
    rfl
  · rw [execute_of_entry (entry_limitedTo hentry limit), Nat.add_assoc,
      run_of_unfinished hlimited, Nat.add_comm 1, run, turn_at_limit hhead]
    rfl

def WithinLimit (limit : Nat) (m : Machine) : Prop :=
  m.config.limit = some limit ∧ m.steps ≤ limit

theorem WithinLimit.turn (h : m.WithinLimit limit) : m.turn.machine.WithinLimit limit := by
  refine ⟨(congrArg Config.limit m.turn_keeps.1).trans h.1, ?_⟩
  rcases m.turn_cases with ⟨kind, hturn, -⟩ | hturn | ⟨i, sink, hfree, -, hturn⟩
  · rw [hturn]
    exact h.2
  · rw [hturn]
    exact h.2
  · have hlt : m.steps < limit := by
      simpa [limitReached?, h.1, Option.filter] using hfree
    rw [hturn, dispatch_steps]
    exact hlt

theorem execute_steps_le_limit (hm : m.config.limit = some limit)
    (hentry : m.entry arguments = .ok first) (patience : Nat) :
    (m.execute patience arguments).1.steps ≤ limit := by
  obtain ⟨hsteps, hconfig, -⟩ := entry_start hentry
  have hfirst : first.WithinLimit limit :=
    ⟨(congrArg Config.limit hconfig).trans hm, by omega⟩
  rw [execute_of_entry hentry, (finish_keeps _).1]
  exact (run_invariant (fun _ => WithinLimit.turn) patience hfirst).2

theorem limit_truncates_execution (hm : m.config.limit = none)
    (hentry : m.entry arguments = .ok first) (limit : Nat) :
    (∀ patience, limit < patience →
      ((m.limitedTo limit).execute patience arguments).2 ≠ .unfinished ∧
      (m.Steady → ((m.limitedTo limit).execute patience arguments).2 ≠ .crashed) ∧
      ((m.limitedTo limit).execute patience arguments).1.steps ≤ limit) ∧
    (∀ turns, m.Takes arguments turns → turns ≤ limit → ∀ patience, turns ≤ patience →
      (m.limitedTo limit).execute patience arguments =
        ((m.execute patience arguments).1.limitedTo limit, (m.execute patience arguments).2)) ∧
    ((∀ turns, m.Takes arguments turns → limit < turns) → ∀ patience, limit < patience →
      ∃ head, m.execute limit arguments = (head, .unfinished) ∧ head.steps = limit ∧
        (m.limitedTo limit).execute patience arguments =
          ({ head.limitedTo limit with phase := .faulted },
            .error (.fault ⟨head.state.pc, none, .instructionLimit limit⟩))) := by
  have hwithin : ∀ turns, (m.execute turns arguments).2 ≠ .unfinished → turns ≤ limit →
      ∀ patience, turns ≤ patience → (m.limitedTo limit).execute patience arguments =
        ((m.execute patience arguments).1.limitedTo limit, (m.execute patience arguments).2) := by
    intro turns hturns hle patience hpatience
    obtain ⟨more, rfl⟩ := Nat.exists_eq_add_of_le hpatience
    exact execute_within_limit hm hentry hturns hle more
  have hbeyond : (m.execute limit arguments).2 = .unfinished → ∀ patience, limit < patience →
      ∃ head, m.execute limit arguments = (head, .unfinished) ∧ head.steps = limit ∧
        (m.limitedTo limit).execute patience arguments =
          ({ head.limitedTo limit with phase := .faulted },
            .error (.fault ⟨head.state.pc, none, .instructionLimit limit⟩)) := by
    intro hopen patience hpatience
    obtain ⟨more, rfl⟩ := Nat.exists_eq_add_of_le (Nat.succ_le_of_lt hpatience)
    exact execute_beyond_limit hm hentry hopen more
  refine ⟨?_, ?_, ?_⟩
  · intro patience hpatience
    have hlimited := entry_limitedTo hentry limit
    refine ⟨?_, fun hsteady => execute_ne_crashed hlimited hsteady patience,
      execute_steps_le_limit rfl hlimited patience⟩
    by_cases hopen : (m.execute limit arguments).2 = .unfinished
    · obtain ⟨head, -, -, hfault⟩ := hbeyond hopen patience hpatience
      rw [hfault]
      exact fun h => by cases h
    · rw [hwithin limit hopen (Nat.le_refl _) patience (Nat.le_of_lt hpatience)]
      exact execute_finished hentry hopen (Nat.le_of_lt hpatience)
  · intro turns htakes
    exact hwithin turns htakes.1
  · intro hlate
    refine hbeyond (Decidable.not_not.mp ?_)
    intro hended
    obtain ⟨least, hle, htakes⟩ := exists_takes hended
    exact absurd (hlate least htakes) (Nat.not_lt.mpr hle)

def counting : Machine :=
  ((blank ⟨16, 3, 8, false, none⟩).perform 0 (.load [0x10, 0x00, 0x14, 0x00, 0x01])).1

theorem limit_truncates_execution_counting :
    ∃ head, counting.Takes ["a"] 3 ∧ counting.execute 2 ["a"] = (head, .unfinished) ∧
      (counting.limitedTo 2).execute 9 ["a"] = ({ head.limitedTo 2 with phase := .faulted },
        .error (.fault ⟨4, none, .instructionLimit 2⟩)) ∧
      (counting.limitedTo 3).execute 9 ["a"] =
        ((counting.execute 9 ["a"]).1.limitedTo 3, .ok ()) := by
  let first := (counting.entry ["a"]).toOption.getD counting
  have hentry : counting.entry ["a"] = .ok first := Except.eq_ok_of_toOption (by decide +kernel)
  have hopen : ∀ fewer, fewer < 3 → (counting.execute fewer ["a"]).2 = .unfinished := by
    decide +kernel
  have htakes : counting.Takes ["a"] 3 := ⟨by decide +kernel, hopen⟩
  have hlate : ∀ turns, counting.Takes ["a"] turns → 2 < turns := by
    intro turns hturns
    exact Nat.not_le.mp (fun hle => hturns.1 (hopen turns (Nat.lt_succ_of_le hle)))
  obtain ⟨-, -, hbeyond⟩ := limit_truncates_execution rfl hentry 2
  obtain ⟨-, hwithin, -⟩ := limit_truncates_execution rfl hentry 3
  obtain ⟨head, hhead, -, hfault⟩ := hbeyond hlate 9 (by decide)
  have hpc : (counting.execute 2 ["a"]).1.state.pc = 4 := by decide +kernel
  have hhalted : (counting.execute 9 ["a"]).2 = .ok () := by decide +kernel
  rw [hhead] at hpc
  rw [hpc] at hfault
  refine ⟨head, htakes, hhead, hfault, ?_⟩
  rw [hwithin 3 htakes (Nat.le_refl _) 9 (by decide), hhalted]

end RegisterMachine.Machine
