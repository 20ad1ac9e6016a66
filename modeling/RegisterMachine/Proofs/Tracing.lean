import RegisterMachine.Proofs.Invariant

namespace RegisterMachine

theorem getLast?_filterMap_cons {α β : Type} (f : α → Option β) (a : α) (log : List α) (b : β) :
    ((a :: log).filterMap f).getLast?.getD b = (log.filterMap f).getLast?.getD ((f a).getD b) := by
  cases h : f a with
  | none => rw [List.filterMap_cons_none h, Option.getD_none]
  | some c => rw [List.filterMap_cons_some h, List.getLast?_cons, Option.getD_some, Option.getD_some]

def Sink.Bears (s : Sink) (first last : Nat) : Prop :=
  ∀ step, first ≤ step → step < last → s.manner ≠ .giveWay step

namespace Machine

def debugging (on : Bool) : Machine → Machine :=
  refit (fun config => { config with debug := on }) id

def traced (records : List Record) : Machine → Machine :=
  refit (fun config => { config with debug := true })
    (fun sink => { sink with records := sink.records ++ records })

def dispatched : Nat → Machine → List Record
  | 0, _ => []
  | patience + 1, m => match m.due? with
    | none => []
    | some i => m.record i :: match m.turn with
      | .goesOn next => dispatched patience next
      | .ends _ _ => []

def Quiet (m : Machine) : Prop := m.config.debug = false

instance (m : Machine) : Decidable m.Quiet := inferInstanceAs (Decidable (_ = _))

variable {m : Machine}

theorem Quiet.turn (hm : m.Quiet) : m.turn.machine.Quiet := by
  unfold Quiet
  rw [m.turn_keeps.1]
  exact hm

theorem Quiet.goesOn (hm : m.Quiet) {next : Machine} (h : m.turn = .goesOn next) : next.Quiet := by
  have hturn := hm.turn
  rw [h] at hturn
  exact hturn

theorem Quiet.report? (hm : m.Quiet) (i : Instruction) : m.report? i = some m := by
  unfold Machine.report?
  rw [show m.config.debug = false from hm]
  rfl

theorem Quiet.turn_of_due (hm : m.Quiet) {i : Instruction} (h : m.due? = some i) :
    m.turn = dispatch { m with steps := m.steps + 1 } i :=
  Machine.turn_of_due h (hm.report? i)

theorem Quiet.turn_sink (hm : m.Quiet) : m.turn.machine.sink = m.sink := by
  cases hdue : m.due? with
  | none =>
      obtain ⟨kind, hturn⟩ := turn_of_not_due hdue
      rw [hturn]
      rfl
  | some i =>
      rw [hm.turn_of_due hdue]
      exact (dispatch_keeps _ i).2

theorem Quiet.goesOn_sink (hm : m.Quiet) {next : Machine} (h : m.turn = .goesOn next) :
    next.sink = m.sink := by
  have hsink := hm.turn_sink
  rw [h] at hsink
  exact hsink

theorem due?_traced (records : List Record) (m : Machine) : (m.traced records).due? = m.due? := rfl

theorem report?_traced (hm : m.sink.manner ≠ .giveWay m.steps) (records : List Record)
    (i : Instruction) :
    (m.traced records).report? i = some (m.traced (records ++ [m.record i])) := by
  have hdebug : (m.traced records).config.debug = true := rfl
  have htake : (m.traced records).sink.take? ((m.traced records).record i) =
      some ⟨m.sink.manner, (m.sink.records ++ records).push (m.record i)⟩ := if_neg hm
  have hpush : (m.sink.records ++ records).push (m.record i) =
      m.sink.records ++ (records ++ [m.record i]) := Array.toList_inj.mp (by simp)
  unfold Machine.report?
  rw [if_pos hdebug, htake, hpush]
  rfl

theorem turn_traced_of_due (hm : m.Quiet) (hsink : m.sink.manner ≠ .giveWay m.steps)
    (records : List Record) {i : Instruction} (h : m.due? = some i) :
    (m.traced records).turn = m.turn.map (traced (records ++ [m.record i])) := by
  rw [Machine.turn_of_due (due?_traced records m ▸ h) (report?_traced hsink records i),
    hm.turn_of_due h]
  exact dispatch_refit (fun config => { config with debug := true })
    (fun sink => { sink with records := sink.records ++ (records ++ [m.record i]) })
    { m with steps := m.steps + 1 } i

theorem turn_traced_of_not_due (records : List Record) (h : m.due? = none) :
    (m.traced records).turn = m.turn.map (traced records) := by
  have hlimit : (m.traced records).limitReached? = m.limitReached? := rfl
  have hstate : (m.traced records).state = m.state := rfl
  unfold due? at h
  unfold turn
  simp only [hlimit, hstate]
  cases hl : m.limitReached? with
  | some limit => rfl
  | none =>
      rw [hl] at h
      cases hf : m.state.memory.fetch m.state.pc with
      | error kind => rfl
      | ok i =>
          rw [hf] at h
          cases h

theorem dispatched_of_goesOn {next : Machine} (h : m.turn = .goesOn next) (patience : Nat) :
    ∃ i, m.due? = some i ∧
      m.dispatched (patience + 1) = m.record i :: next.dispatched patience := by
  cases hdue : m.due? with
  | none =>
      obtain ⟨kind, hturn⟩ := turn_of_not_due hdue
      rw [hturn] at h
      cases h
  | some i =>
      refine ⟨i, rfl, ?_⟩
      rw [dispatched, hdue, h]

theorem dispatched_of_ends {last : Machine} {ending : Ending} (h : m.turn = .ends last ending)
    (patience : Nat) : m.dispatched (patience + 1) = (m.due?.map m.record).toList := by
  rw [dispatched, h]
  cases m.due? <;> rfl

theorem run_sink (hm : m.Quiet) (patience : Nat) : (m.run patience).1.sink = m.sink := by
  induction patience generalizing m with
  | zero => rfl
  | succ patience ih =>
      rw [run]
      cases ht : m.turn with
      | goesOn next => exact (ih (hm.goesOn ht)).trans (hm.goesOn_sink ht)
      | ends last ending =>
          have hsink := hm.turn_sink
          rw [ht] at hsink
          exact hsink

theorem turn_ends_steps {last : Machine} {ending : Ending} (h : m.turn = .ends last ending)
    (hending : ending ≠ .broken) :
    last.steps = m.steps + (m.due?.map m.record).toList.length := by
  cases hdue : m.due? with
  | none =>
      obtain ⟨kind, hturn⟩ := turn_of_not_due hdue
      rw [hturn] at h
      cases h
      rfl
  | some i =>
      cases hr : m.report? i with
      | none =>
          rw [turn_of_unreported hdue hr] at h
          cases h
          exact absurd rfl hending
      | some reported =>
          rw [turn_of_due hdue hr, report?_eq_some hr] at h
          have hsteps := dispatch_steps { m with sink := reported.sink, steps := m.steps + 1 } i
          rw [h] at hsteps
          exact hsteps

theorem run_steps {patience : Nat} (h : (m.run patience).2 ≠ some .broken) :
    (m.run patience).1.steps = m.steps + (m.dispatched patience).length := by
  induction patience generalizing m with
  | zero => rfl
  | succ patience ih =>
      rw [run] at h ⊢
      cases ht : m.turn with
      | goesOn next =>
          rw [ht] at h
          obtain ⟨i, -, hdispatched⟩ := dispatched_of_goesOn ht patience
          have hsteps := turn_goesOn_steps ht
          have hnext := ih h
          rw [hdispatched, List.length_cons]
          dsimp only
          omega
      | ends last ending =>
          rw [ht] at h
          rw [dispatched_of_ends ht]
          exact turn_ends_steps ht fun hending => h (congrArg some hending)

theorem Quiet.steady (hm : m.Quiet) : m.Steady := by
  intro hdebug
  rw [show m.config.debug = false from hm] at hdebug
  cases hdebug

theorem Quiet.run_ne_broken (hm : m.Quiet) (patience : Nat) : (m.run patience).2 ≠ some .broken :=
  hm.steady.run_ne_broken patience

theorem run_traced (hm : m.Quiet) {patience : Nat}
    (hsink : m.sink.Bears m.steps (m.run patience).1.steps) (records : List Record) :
    (m.traced records).run patience =
      ((m.run patience).1.traced (records ++ m.dispatched patience), (m.run patience).2) := by
  induction patience generalizing m records with
  | zero =>
      rw [dispatched, List.append_nil]
      rfl
  | succ patience ih =>
      have hsteps := run_steps (hm.run_ne_broken (patience + 1))
      have hbears : ∀ i, m.due? = some i → m.sink.manner ≠ .giveWay m.steps := by
        intro i hdue
        refine hsink m.steps (Nat.le_refl _) ?_
        rw [hsteps, dispatched, hdue, List.length_cons]
        omega
      rw [run, run]
      cases ht : m.turn with
      | goesOn next =>
          obtain ⟨i, hdue, hdispatched⟩ := dispatched_of_goesOn ht patience
          have hnext : next.sink.Bears next.steps (next.run patience).1.steps := by
            intro step hfirst hlast
            rw [hm.goesOn_sink ht]
            rw [turn_goesOn_steps ht] at hfirst
            rw [run, ht] at hsink
            exact hsink step (by omega) hlast
          have hrun := ih (hm.goesOn ht) hnext (records ++ [m.record i])
          rw [List.append_assoc, List.singleton_append] at hrun
          rw [turn_traced_of_due hm (hbears i hdue) records hdue, ht, hdispatched]
          exact hrun
      | ends last ending =>
          rw [dispatched_of_ends ht]
          cases hdue : m.due? with
          | none =>
              rw [turn_traced_of_not_due records hdue, ht, Option.map_none, Option.toList_none,
                List.append_nil]
              rfl
          | some i =>
              rw [turn_traced_of_due hm (hbears i hdue) records hdue, ht]
              rfl

theorem dispatched_getElem? {patience k : Nat} {r : Record} (h : (m.dispatched patience)[k]? = some r) :
    ∃ head i, m.run k = (head, none) ∧ head.due? = some i ∧ r = head.record i := by
  induction patience generalizing m k with
  | zero => cases h
  | succ patience ih =>
      cases ht : m.turn with
      | goesOn next =>
          obtain ⟨i, hdue, hdispatched⟩ := dispatched_of_goesOn ht patience
          rw [hdispatched] at h
          cases k with
          | zero =>
              cases h
              exact ⟨m, i, rfl, hdue, rfl⟩
          | succ k =>
              obtain ⟨head, j, hrun, hhead⟩ := ih h
              refine ⟨head, j, ?_, hhead⟩
              rw [run, ht]
              exact hrun
      | ends last ending =>
          rw [dispatched_of_ends ht] at h
          cases hdue : m.due? with
          | none =>
              rw [hdue] at h
              cases h
          | some i =>
              rw [hdue] at h
              cases k with
              | zero =>
                  cases h
                  exact ⟨m, i, rfl, hdue, rfl⟩
              | succ k => cases h

theorem dispatched_of_run_ends {patience : Nat} {last : Machine} {ending : Ending}
    (h : m.run patience = (last, some ending)) :
    ∃ front head, m.run front.length = (head, none) ∧ head.turn = .ends last ending ∧
      m.dispatched patience = front ++ (head.due?.map head.record).toList := by
  induction patience generalizing m with
  | zero => cases h
  | succ patience ih =>
      rw [run] at h
      cases ht : m.turn with
      | goesOn next =>
          rw [ht] at h
          obtain ⟨i, -, hdispatched⟩ := dispatched_of_goesOn ht patience
          obtain ⟨front, head, hrun, hturn, hnext⟩ := ih h
          refine ⟨m.record i :: front, head, ?_, hturn, ?_⟩
          · rw [List.length_cons, run, ht]
            exact hrun
          · rw [hdispatched, hnext]
            rfl
      | ends last' ending' =>
          rw [ht] at h
          cases h
          exact ⟨[], m, rfl, ht, dispatched_of_ends ht patience⟩

theorem due?_of_halted {last : Machine} (h : m.turn = .ends last .halted) :
    m.due? = some (.plain .hlt) := by
  cases hdue : m.due? with
  | none =>
      obtain ⟨kind, hturn⟩ := turn_of_not_due hdue
      rw [hturn] at h
      cases h
  | some i =>
      cases hr : m.report? i with
      | none =>
          rw [turn_of_unreported hdue hr] at h
          cases h
      | some reported =>
          rw [turn_of_due hdue hr] at h
          rcases dispatch_cases { reported with steps := reported.steps + 1 } i with
            ⟨kind, t, -, hd⟩ | ⟨t, hi, -⟩ | ⟨flow, t, target, -, -, hd⟩
          · rw [hd] at h
            cases h
          · rw [Instruction.dispatch_eq_halt hi]
          · rw [hd] at h
            unfold goTo at h
            split at h <;> cases h

theorem fault_names_due {last : Machine} {fault : Fault} (h : m.turn = .ends last (.faulted fault)) :
    fault.pc = m.state.pc ∧ fault.instruction = m.due?.map Instruction.text := by
  cases hdue : m.due? with
  | none =>
      obtain ⟨kind, hturn⟩ := turn_of_not_due hdue
      rw [hturn] at h
      cases h
      exact ⟨rfl, rfl⟩
  | some i =>
      obtain ⟨hlimit, hfetch⟩ := due?_eq_some hdue
      rcases turn_faulted h with ⟨-, -, ⟨limit, hreached, -⟩ | herror⟩ | ⟨j, hj, hfault, -⟩
      · rw [hlimit] at hreached
        cases hreached
      · rw [hfetch] at herror
        cases herror
      · rw [hfetch] at hj
        cases hj
        rw [hfault]
        exact ⟨rfl, rfl⟩

theorem traced_nil (m : Machine) : m.traced [] = m.debugging true := by
  have hnil : m.sink.records ++ ([] : List Record) = m.sink.records :=
    Array.toList_inj.mp (by simp)
  exact congrArg (fun taken => { m.debugging true with sink := ⟨m.sink.manner, taken⟩ }) hnil

structure Accounts (m : Machine) (arguments : List String) (patience : Nat)
    (records : List Record) : Prop where
  count : records.length = (m.execute patience arguments).1.steps
  each : ∀ k r, records[k]? = some r → ∃ head i,
    m.execute k arguments = (head, .unfinished) ∧ head.due? = some i ∧
      r = ⟨k, head.state.pc, i, head.state.registers.values.toList⟩
  halted : (m.execute patience arguments).2 = .ok () →
    ∃ r, records.getLast? = some r ∧ r.instruction = .plain .hlt
  faulted_at : ∀ pc text kind,
    (m.execute patience arguments).2 = .error (.fault ⟨pc, some text, kind⟩) →
      ∃ r, records.getLast? = some r ∧ r.pc = pc ∧ r.instruction.text = text
  stopped_before : ∀ pc kind,
    (m.execute patience arguments).2 = .error (.fault ⟨pc, none, kind⟩) →
      ∃ head, m.execute records.length arguments = (head, .unfinished) ∧
        head.state.pc = pc ∧ head.due? = none

section Execute

variable {first : Machine} {arguments : List String}

theorem execute_unfinished (h : m.entry arguments = .ok first) {patience : Nat} {head : Machine}
    (hrun : first.run patience = (head, none)) :
    m.execute patience arguments = (head, .unfinished) := by
  rw [execute_of_entry h, hrun]
  rfl

theorem execute_halted (h : m.entry arguments = .ok first) {patience : Nat}
    (hok : (m.execute patience arguments).2 = .ok ()) :
    ∃ last, first.run patience = (last, some .halted) := by
  rw [execute_of_entry h] at hok
  rcases hr : first.run patience with ⟨last, _ | (_ | fault | _)⟩
  · rw [hr] at hok
    cases hok
  · exact ⟨last, rfl⟩
  · rw [hr] at hok
    cases hok
  · rw [hr] at hok
    cases hok

theorem execute_fault (h : m.entry arguments = .ok first) {patience : Nat} {fault : Fault}
    (herror : (m.execute patience arguments).2 = .error (.fault fault)) :
    ∃ last, first.run patience = (last, some (.faulted fault)) := by
  rw [execute_of_entry h] at herror
  rcases hr : first.run patience with ⟨last, _ | (_ | fault' | _)⟩
  · rw [hr] at herror
    cases herror
  · rw [hr] at herror
    cases herror
  · rw [hr] at herror
    cases herror
    exact ⟨last, rfl⟩
  · rw [hr] at herror
    cases herror

theorem accounts {patience : Nat} (h : m.entry arguments = .ok first)
    (hbroken : (first.run patience).2 ≠ some .broken) :
    m.Accounts arguments patience (first.dispatched patience) where
  count := by
    have hsteps := run_steps hbroken
    rw [(entry_start h).1, Nat.zero_add] at hsteps
    rw [execute_of_entry h, (finish_keeps _).1, hsteps]
  each := by
    intro k r hr
    obtain ⟨head, i, hrun, hdue, rfl⟩ := dispatched_getElem? hr
    have hsteps := run_unfinished_steps hrun
    rw [(entry_start h).1, Nat.zero_add] at hsteps
    refine ⟨head, i, execute_unfinished h hrun, hdue, ?_⟩
    rw [record, hsteps]
  halted := by
    intro hok
    obtain ⟨last, hrun⟩ := execute_halted h hok
    obtain ⟨front, head, -, hturn, hdispatched⟩ := dispatched_of_run_ends hrun
    refine ⟨head.record (.plain .hlt), ?_, rfl⟩
    rw [hdispatched, due?_of_halted hturn]
    exact List.getLast?_concat
  faulted_at := by
    intro pc text kind herror
    obtain ⟨last, hrun⟩ := execute_fault h herror
    obtain ⟨front, head, -, hturn, hdispatched⟩ := dispatched_of_run_ends hrun
    obtain ⟨hpc, htext⟩ := fault_names_due hturn
    obtain ⟨i, hdue, rfl⟩ := Option.map_eq_some_iff.mp htext.symm
    refine ⟨head.record i, ?_, hpc.symm, rfl⟩
    rw [hdispatched, hdue]
    exact List.getLast?_concat
  stopped_before := by
    intro pc kind herror
    obtain ⟨last, hrun⟩ := execute_fault h herror
    obtain ⟨front, head, hfront, hturn, hdispatched⟩ := dispatched_of_run_ends hrun
    obtain ⟨hpc, htext⟩ := fault_names_due hturn
    have hdue : head.due? = none := Option.map_eq_none_iff.mp htext.symm
    refine ⟨head, execute_unfinished h ?_, hpc.symm, hdue⟩
    rw [hdispatched, hdue]
    simpa using hfront

theorem Quiet.accounts (h : m.entry arguments = .ok first) (hm : first.Quiet) (patience : Nat) :
    m.Accounts arguments patience (first.dispatched patience) :=
  Machine.accounts h (hm.run_ne_broken patience)

end Execute

theorem debugging_accounts {arguments : List String} {patience : Nat}
    (hsink : m.sink.Bears 0 ((m.debugging false).execute patience arguments).1.steps) :
    ∃ records : List Record,
      (m.debugging true).execute patience arguments =
        (((m.debugging false).execute patience arguments).1.traced records,
          ((m.debugging false).execute patience arguments).2) ∧
      ((m.debugging false).execute patience arguments).1.sink = m.sink ∧
      (∀ e, m.entry arguments = .error e → records = []) ∧
      ∀ first, m.entry arguments = .ok first →
        (m.debugging false).Accounts arguments patience records := by
  cases hentry : m.entry arguments with
  | error e =>
      have hrefused : ∀ on, (m.debugging on).entry arguments = .error e := by
        intro on
        unfold debugging
        rw [entry_refit, hentry]
        rfl
      refine ⟨[], ?_, ?_, fun _ _ => rfl, ?_⟩
      · rw [execute_eq, execute_eq, hrefused, hrefused]
        dsimp only
        rw [traced_nil]
        rfl
      · rw [execute_eq, hrefused]
        rfl
      · intro first hfirst
        cases hfirst
  | ok first =>
      have hentered : ∀ on, (m.debugging on).entry arguments = .ok (first.debugging on) := by
        intro on
        unfold debugging
        rw [entry_refit, hentry]
        rfl
      have hquiet : (first.debugging false).Quiet := rfl
      obtain ⟨hsteps, -, hkept⟩ := entry_start (hentered false)
      rw [execute_of_entry (hentered false), (finish_keeps _).1] at hsink
      refine ⟨(first.debugging false).dispatched patience, ?_, ?_, ?_, ?_⟩
      · have hrun := run_traced hquiet (hsteps.symm ▸ hkept.symm ▸ hsink) []
        rw [traced_nil, List.nil_append] at hrun
        rw [execute_of_entry (hentered true), execute_of_entry (hentered false)]
        exact (congrArg finish hrun).trans (finish_refit _ _ _)
      · rw [execute_of_entry (hentered false), (finish_keeps _).2, run_sink hquiet]
        exact hkept
      · intro e herror
        cases herror
      · intro _ _
        exact Quiet.accounts (hentered false) hquiet patience

def halving : Machine :=
  (((blank ⟨16, 3, 16, false, none⟩).perform 0 (.load [0x10, 0x01, 0x25, 0x01, 0x00])).1.perform 0
    (.setSink (.giveWay 2))).1

theorem debugging_accounts_halving :
    ∃ records : List Record, records.length = 2 ∧
      (halving.debugging true).execute 9 [] =
        (((halving.debugging false).execute 9 []).1.traced records,
          .error (.fault ⟨2, some "MOD R1, R0", .divisionByZero⟩)) ∧
      (halving.debugging false).Accounts [] 9 records := by
  have hsteps : ((halving.debugging false).execute 9 []).1.steps = 2 := by decide +kernel
  have hsink : halving.sink.Bears 0 ((halving.debugging false).execute 9 []).1.steps := by
    intro step _ hlt hmanner
    rw [hsteps] at hlt
    cases hmanner
    exact Nat.lt_irrefl _ hlt
  have hentry : halving.entry [] = .ok ((halving.entry []).toOption.getD halving) :=
    Except.eq_ok_of_toOption (by decide +kernel)
  have hfault : ((halving.debugging false).execute 9 []).2 =
      .error (.fault ⟨2, some "MOD R1, R0", .divisionByZero⟩) := by decide +kernel
  obtain ⟨records, hexecute, -, -, haccounts⟩ := debugging_accounts hsink
  have hrecords := haccounts _ hentry
  exact ⟨records, hrecords.count.trans hsteps, hfault ▸ hexecute, hrecords⟩

end Machine

end RegisterMachine
