import Mathlib.Logic.Relation
import RegisterMachine.Machine
import RegisterMachine.Proofs.Deed
import RegisterMachine.Proofs.Except

namespace RegisterMachine

open Relation

def Turn.machine : Turn → Machine
  | .goesOn m => m
  | .ends m _ => m

def Turn.map (f : Machine → Machine) : Turn → Turn
  | .goesOn m => .goesOn (f m)
  | .ends m ending => .ends (f m) ending

def Instruction.onward (i : Instruction) (pc : Nat) : Flow → Option Int
  | .next => some (pc + i.width)
  | .jump target => some target.toInt
  | .halt => none

namespace Machine

def Advances (a b : Machine) : Prop := a.turn = .goesOn b

def Visits : Machine → Machine → Prop := ReflTransGen Advances

def entry (m : Machine) (arguments : List String) : Except Error Machine :=
  match m.phase with
  | .empty => .error .noProgram
  | .running => .error .busy
  | _ => (m.state.seed (arguments.map (fun a => Text.bytes a.toList))).map m.start

theorem execute_eq (patience : Nat) (arguments : List String) (m : Machine) :
    m.execute patience arguments = match m.entry arguments with
      | .error e => (m, .error e)
      | .ok first => finish (first.run patience) := by
  unfold entry execute
  cases m.phase <;> cases m.state.seed (arguments.map (fun a => Text.bytes a.toList)) <;> rfl

theorem execute_of_snd {patience : Nat} {arguments : List String} {m : Machine}
    {outcome : Outcome Unit} (h : (m.execute patience arguments).2 = outcome) :
    m.execute patience arguments = ((m.execute patience arguments).1, outcome) := by
  rw [← h]

theorem entry_eq_ok {m first : Machine} {arguments : List String}
    (h : m.entry arguments = .ok first) :
    ∃ s, m.state.seed (arguments.map (fun a => Text.bytes a.toList)) = .ok s ∧
      first = m.start s := by
  unfold entry at h
  split at h
  · cases h
  · cases h
  · cases hs : m.state.seed (arguments.map (fun a => Text.bytes a.toList)) with
    | error e =>
        rw [hs] at h
        cases h
    | ok s =>
        rw [hs] at h
        cases h
        exact ⟨s, rfl, rfl⟩

theorem entry_ne_fault (m : Machine) (arguments : List String) (fault : Fault) :
    m.entry arguments ≠ .error (.fault fault) := by
  unfold entry State.seed
  split
  · simp
  · simp
  · dsimp only
    split <;> simp [Except.map]

theorem run_ends {patience : Nat} {m last : Machine} {ending : Ending}
    (h : m.run patience = (last, some ending)) :
    ∃ head, m.Visits head ∧ head.turn = .ends last ending := by
  induction patience generalizing m with
  | zero => cases h
  | succ patience ih =>
      rw [run] at h
      cases ht : m.turn with
      | goesOn next =>
          rw [ht] at h
          obtain ⟨head, hv, he⟩ := ih h
          exact ⟨head, .head ht hv, he⟩
      | ends last' ending' =>
          rw [ht] at h
          cases h
          exact ⟨m, .refl, ht⟩

theorem run_unfinished {patience : Nat} {m : Machine} (h : (m.run patience).2 = none) :
    m.Visits (m.run patience).1 := by
  induction patience generalizing m with
  | zero => exact .refl
  | succ patience ih =>
      rw [run] at h ⊢
      cases ht : m.turn with
      | goesOn next =>
          rw [ht] at h
          exact .head ht (ih h)
      | ends last ending =>
          rw [ht] at h
          cases h

theorem run_invariant {P : Machine → Prop} (hturn : ∀ m, P m → P m.turn.machine)
    (patience : Nat) {m : Machine} (hm : P m) : P (m.run patience).1 := by
  induction patience generalizing m with
  | zero => exact hm
  | succ patience ih =>
      have hnext := hturn m hm
      rw [run]
      cases ht : m.turn with
      | goesOn next =>
          rw [ht] at hnext
          exact ih hnext
      | ends last ending =>
          rw [ht] at hnext
          exact hnext

theorem visits_invariant {P : Machine → Prop} (hturn : ∀ m, P m → P m.turn.machine)
    {m head : Machine} (h : m.Visits head) (hm : P m) : P head := by
  induction h with
  | refl => exact hm
  | tail _ ht ih =>
      have hnext := hturn _ ih
      rw [show _ = _ from ht] at hnext
      exact hnext

theorem execute_faulted {patience : Nat} {m after : Machine} {arguments : List String}
    {fault : Fault} (h : m.execute patience arguments = (after, .error (.fault fault))) :
    ∃ first head last, m.entry arguments = .ok first ∧ first.Visits head ∧
      head.turn = .ends last (.faulted fault) ∧ after = { last with phase := .faulted } := by
  rw [execute_eq] at h
  cases he : m.entry arguments with
  | error e =>
      rw [he] at h
      cases h
      exact absurd he (m.entry_ne_fault arguments fault)
  | ok first =>
      simp only [he] at h
      rcases hr : first.run patience with ⟨last, _ | ending⟩
      · rw [hr] at h
        cases h
      · rw [hr] at h
        cases ending with
        | halted | broken => cases h
        | faulted f =>
            cases h
            obtain ⟨head, hv, ht⟩ := run_ends hr
            exact ⟨first, head, last, rfl, hv, ht, rfl⟩

theorem report?_eq_some {m reported : Machine} {i : Instruction}
    (h : m.report? i = some reported) : reported = { m with sink := reported.sink } := by
  unfold report? at h
  split at h
  · obtain ⟨sink, -, rfl⟩ := Option.map_eq_some_iff.mp h
    rfl
  · cases h
    rfl

theorem turn_cases (m : Machine) :
    (∃ kind, m.turn = .ends m (.faulted ⟨m.state.pc, none, kind⟩) ∧
      ((∃ limit, m.limitReached? = some limit ∧ kind = .instructionLimit limit) ∨
        m.state.memory.fetch m.state.pc = .error kind)) ∨
    m.turn = .ends m .broken ∨
    ∃ i sink, m.limitReached? = none ∧ m.state.memory.fetch m.state.pc = .ok i ∧
      m.turn = dispatch { m with sink := sink, steps := m.steps + 1 } i := by
  cases hl : m.limitReached? with
  | some limit =>
      refine .inl ⟨.instructionLimit limit, ?_, .inl ⟨limit, rfl, rfl⟩⟩
      simp only [turn, hl]
  | none =>
      cases hf : m.state.memory.fetch m.state.pc with
      | error kind =>
          refine .inl ⟨kind, ?_, .inr rfl⟩
          simp only [turn, hl, hf]
      | ok i =>
          cases hr : m.report? i with
          | none =>
              refine .inr (.inl ?_)
              simp only [turn, hl, hf, hr]
          | some reported =>
              refine .inr (.inr ⟨i, reported.sink, rfl, rfl, ?_⟩)
              simp only [turn, hl, hf, hr]
              rw [report?_eq_some hr]

theorem dispatch_cases (m : Machine) (i : Instruction) :
    (∃ kind t, i.dispatch m.state = .error kind t ∧
      m.dispatch i = .ends { m with state := t } (.faulted ⟨m.state.pc, some i.text, kind⟩)) ∨
    (∃ t, i.dispatch m.state = .ok .halt t ∧ m.dispatch i = .ends { m with state := t } .halted) ∨
    ∃ flow t target, i.dispatch m.state = .ok flow t ∧ i.onward m.state.pc flow = some target ∧
      m.dispatch i = goTo { m with state := t } i target := by
  cases h : i.dispatch m.state with
  | error kind t =>
      refine .inl ⟨kind, t, rfl, ?_⟩
      simp only [dispatch, h]
  | ok flow t =>
      cases flow with
      | halt =>
          refine .inr (.inl ⟨t, rfl, ?_⟩)
          simp only [dispatch, h]
      | next =>
          refine .inr (.inr ⟨.next, t, m.state.pc + i.width, rfl, rfl, ?_⟩)
          simp only [dispatch, h]
      | jump target =>
          refine .inr (.inr ⟨.jump target, t, target.toInt, rfl, rfl, ?_⟩)
          simp only [dispatch, h]

theorem turn_faulted {m last : Machine} {fault : Fault} (h : m.turn = .ends last (.faulted fault)) :
    (last = m ∧ fault = ⟨m.state.pc, none, fault.kind⟩ ∧
      ((∃ limit, m.limitReached? = some limit ∧ fault.kind = .instructionLimit limit) ∨
        m.state.memory.fetch m.state.pc = .error fault.kind)) ∨
    ∃ i, m.state.memory.fetch m.state.pc = .ok i ∧
      fault = ⟨m.state.pc, some i.text, fault.kind⟩ ∧
      (i.dispatch m.state = .error fault.kind last.state ∨
        ∃ flow target, i.dispatch m.state = .ok flow last.state ∧
          i.onward m.state.pc flow = some target ∧
          ¬ (0 ≤ target ∧ target < last.state.memory.size) ∧
          fault.kind = .pcOutOfRange target) := by
  rcases m.turn_cases with ⟨kind, hturn, hcause⟩ | hturn | ⟨i, sink, -, hfetch, hturn⟩
  · rw [hturn] at h
    cases h
    exact .inl ⟨rfl, rfl, hcause⟩
  · rw [hturn] at h
    cases h
  · rw [hturn] at h
    refine .inr ⟨i, hfetch, ?_⟩
    rcases dispatch_cases _ i with ⟨kind, t, hi, hd⟩ | ⟨t, hi, hd⟩ | ⟨flow, t, target, hi, ho, hd⟩
    · rw [hd] at h
      cases h
      exact ⟨rfl, .inl hi⟩
    · rw [hd] at h
      cases h
    · rw [hd] at h
      unfold goTo at h
      split at h
      · cases h
      · rename_i hout
        cases h
        have hpc : t.pc = m.state.pc := (i.keepsShape_dispatch.of_ok hi).pc
        refine ⟨?_, .inr ⟨flow, target, hi, ho, hout, rfl⟩⟩
        rw [hpc]

theorem run_of_finished {patience : Nat} {m last : Machine} {ending : Ending}
    (h : m.run patience = (last, some ending)) (more : Nat) :
    m.run (patience + more) = (last, some ending) := by
  induction patience generalizing m with
  | zero => cases h
  | succ patience ih =>
      rw [Nat.succ_add, run]
      rw [run] at h
      cases ht : m.turn with
      | goesOn next =>
          rw [ht] at h
          exact ih h
      | ends other ending' =>
          rw [ht] at h
          exact h

theorem run_of_unfinished {patience : Nat} {m head : Machine} (h : m.run patience = (head, none))
    (more : Nat) : m.run (patience + more) = head.run more := by
  induction patience generalizing m with
  | zero =>
      cases h
      rw [Nat.zero_add]
  | succ patience ih =>
      rw [Nat.succ_add, run]
      rw [run] at h
      cases ht : m.turn with
      | goesOn next =>
          rw [ht] at h
          exact ih h
      | ends last ending =>
          rw [ht] at h
          cases h

theorem finish_eq_unfinished_iff (r : Machine × Option Ending) :
    (finish r).2 = .unfinished ↔ r.2 = none := by
  rcases r with ⟨m, _ | (_ | fault | _)⟩ <;> simp [finish]

theorem finish_keeps (r : Machine × Option Ending) :
    (finish r).1.steps = r.1.steps ∧ (finish r).1.sink = r.1.sink := by
  rcases r with ⟨m, _ | (_ | fault | _)⟩ <;> exact ⟨rfl, rfl⟩

theorem finish_eq_crashed_iff (r : Machine × Option Ending) :
    (finish r).2 = .crashed ↔ r.2 = some .broken := by
  rcases r with ⟨m, _ | (_ | fault | _)⟩ <;> simp [finish]

theorem goTo_steps (m : Machine) (i : Instruction) (target : Int) :
    (m.goTo i target).machine.steps = m.steps := by
  unfold goTo
  split <;> rfl

theorem dispatch_steps (m : Machine) (i : Instruction) :
    (m.dispatch i).machine.steps = m.steps := by
  rcases m.dispatch_cases i with ⟨kind, t, -, h⟩ | ⟨t, -, h⟩ | ⟨flow, t, target, -, -, h⟩
  · rw [h, Turn.machine]
  · rw [h, Turn.machine]
  · rw [h]
    exact goTo_steps _ i target

theorem turn_goesOn_steps {m next : Machine} (h : m.turn = .goesOn next) :
    next.steps = m.steps + 1 := by
  rcases m.turn_cases with ⟨kind, hturn, -⟩ | hturn | ⟨i, sink, -, -, hturn⟩
  · rw [hturn] at h
    cases h
  · rw [hturn] at h
    cases h
  · have hsteps := dispatch_steps { m with sink := sink, steps := m.steps + 1 } i
    rw [← hturn, h] at hsteps
    exact hsteps

theorem run_unfinished_steps {patience : Nat} {m head : Machine}
    (h : m.run patience = (head, none)) : head.steps = m.steps + patience := by
  induction patience generalizing m with
  | zero =>
      cases h
      rfl
  | succ patience ih =>
      rw [run] at h
      cases ht : m.turn with
      | goesOn next =>
          rw [ht] at h
          rw [ih h, turn_goesOn_steps ht, Nat.add_assoc, Nat.add_comm 1]
      | ends last ending =>
          rw [ht] at h
          cases h

def refit (f : Config → Config) (g : Sink → Sink) (m : Machine) : Machine :=
  { m with config := f m.config, sink := g m.sink }

section Refit

variable (f : Config → Config) (g : Sink → Sink)

theorem goTo_refit (m : Machine) (i : Instruction) (target : Int) :
    (m.refit f g).goTo i target = (m.goTo i target).map (refit f g) := by
  unfold goTo refit
  dsimp only
  split <;> rfl

theorem dispatch_refit (m : Machine) (i : Instruction) :
    (m.refit f g).dispatch i = (m.dispatch i).map (refit f g) := by
  unfold dispatch refit
  dsimp only
  cases i.dispatch m.state with
  | error kind t => rfl
  | ok flow t =>
      cases flow with
      | halt => rfl
      | next => exact goTo_refit f g { m with state := t } i _
      | jump target => exact goTo_refit f g { m with state := t } i _

theorem entry_refit (m : Machine) (arguments : List String) :
    (m.refit f g).entry arguments = (m.entry arguments).map (refit f g) := by
  unfold entry refit
  dsimp only
  split
  · rfl
  · rfl
  · cases m.state.seed (arguments.map (fun a => Text.bytes a.toList)) <;> rfl

theorem finish_refit (r : Machine × Option Ending) :
    finish (r.1.refit f g, r.2) = ((finish r).1.refit f g, (finish r).2) := by
  rcases r with ⟨m, _ | (_ | fault | _)⟩ <;> rfl

end Refit

theorem dispatch_keeps (m : Machine) (i : Instruction) :
    (m.dispatch i).machine.config = m.config ∧ (m.dispatch i).machine.sink = m.sink := by
  have h : m.dispatch i = (m.dispatch i).map (refit (fun _ => m.config) (fun _ => m.sink)) :=
    dispatch_refit (fun _ => m.config) (fun _ => m.sink) m i
  rw [h]
  cases m.dispatch i <;> exact ⟨rfl, rfl⟩

theorem report?_manner {m reported : Machine} {i : Instruction} (h : m.report? i = some reported) :
    reported.config = m.config ∧ reported.sink.manner = m.sink.manner := by
  unfold report? at h
  split at h
  · obtain ⟨sink, hsink, rfl⟩ := Option.map_eq_some_iff.mp h
    unfold Sink.take? at hsink
    split at hsink
    · cases hsink
    · cases hsink
      exact ⟨rfl, rfl⟩
  · cases h
    exact ⟨rfl, rfl⟩

theorem turn_keeps (m : Machine) :
    m.turn.machine.config = m.config ∧ m.turn.machine.sink.manner = m.sink.manner := by
  unfold turn
  split
  · exact ⟨rfl, rfl⟩
  · split
    · exact ⟨rfl, rfl⟩
    · rename_i i hfetch
      cases hr : m.report? i with
      | none => exact ⟨rfl, rfl⟩
      | some reported =>
          obtain ⟨hconfig, hmanner⟩ := report?_manner hr
          obtain ⟨hconfig', hsink⟩ := dispatch_keeps { reported with steps := reported.steps + 1 } i
          exact ⟨hconfig'.trans hconfig, (congrArg Sink.manner hsink).trans hmanner⟩

def due? (m : Machine) : Option Instruction :=
  match m.limitReached? with
  | some _ => none
  | none => (m.state.memory.fetch m.state.pc).toOption

theorem due?_eq_some {m : Machine} {i : Instruction} (h : m.due? = some i) :
    m.limitReached? = none ∧ m.state.memory.fetch m.state.pc = .ok i := by
  unfold due? at h
  cases hl : m.limitReached? with
  | some limit =>
      rw [hl] at h
      cases h
  | none =>
      rw [hl] at h
      exact ⟨rfl, Except.eq_ok_of_toOption h⟩

theorem turn_of_due {m reported : Machine} {i : Instruction} (h : m.due? = some i)
    (hr : m.report? i = some reported) :
    m.turn = dispatch { reported with steps := reported.steps + 1 } i := by
  obtain ⟨hlimit, hfetch⟩ := due?_eq_some h
  simp only [turn, hlimit, hfetch, hr]

theorem turn_of_unreported {m : Machine} {i : Instruction} (h : m.due? = some i)
    (hr : m.report? i = none) : m.turn = .ends m .broken := by
  obtain ⟨hlimit, hfetch⟩ := due?_eq_some h
  simp only [turn, hlimit, hfetch, hr]

theorem turn_of_not_due {m : Machine} (h : m.due? = none) :
    ∃ kind, m.turn = .ends m (.faulted ⟨m.state.pc, none, kind⟩) := by
  unfold due? at h
  unfold turn
  cases hl : m.limitReached? with
  | some limit => exact ⟨_, rfl⟩
  | none =>
      rw [hl] at h
      cases hf : m.state.memory.fetch m.state.pc with
      | error kind => exact ⟨kind, rfl⟩
      | ok i =>
          rw [hf] at h
          cases h

theorem turn_of_unbroken {m : Machine} {i : Instruction} (h : m.due? = some i)
    (hm : ∀ last, m.turn ≠ .ends last .broken) :
    ∃ sink, m.turn = dispatch { m with sink := sink, steps := m.steps + 1 } i := by
  cases hr : m.report? i with
  | none => exact absurd (turn_of_unreported h hr) (hm m)
  | some reported =>
      refine ⟨reported.sink, ?_⟩
      rw [turn_of_due h hr, report?_eq_some hr]

theorem goTo_goesOn {m next : Machine} {i : Instruction} {target : Int}
    (h : m.goTo i target = .goesOn next) :
    next = { m with state := { m.state with pc := next.state.pc } } ∧ target = next.state.pc := by
  unfold goTo at h
  split at h
  · rename_i hin
    cases h
    exact ⟨rfl, (Int.toNat_of_nonneg hin.1).symm⟩
  · cases h

theorem turn_goesOn {m next : Machine} (h : m.turn = .goesOn next) :
    ∃ i flow t, m.due? = some i ∧ i.dispatch m.state = .ok flow t ∧
      i.onward m.state.pc flow = some (next.state.pc : Int) ∧
      next.state = { t with pc := next.state.pc } := by
  cases hdue : m.due? with
  | none =>
      obtain ⟨kind, hturn⟩ := turn_of_not_due hdue
      cases hturn.symm.trans h
  | some i =>
      have hunbroken : ∀ last, m.turn ≠ .ends last .broken := fun last hlast => by
        cases hlast.symm.trans h
      obtain ⟨sink, hturn⟩ := turn_of_unbroken hdue hunbroken
      rw [hturn] at h
      rcases dispatch_cases { m with sink := sink, steps := m.steps + 1 } i with
        ⟨kind, t, -, hd⟩ | ⟨t, -, hd⟩ | ⟨flow, t, target, hi, honward, hd⟩
      · cases hd.symm.trans h
      · cases hd.symm.trans h
      · obtain ⟨hnext, rfl⟩ := goTo_goesOn (hd.symm.trans h)
        exact ⟨i, flow, t, rfl, hi, honward, congrArg Machine.state hnext⟩

def Steady (m : Machine) : Prop := m.config.debug = true → m.sink.Sound

theorem Steady.report? {m : Machine} (hm : m.Steady) (i : Instruction) :
    ∃ reported, m.report? i = some reported := by
  unfold Machine.report?
  split
  · rename_i hdebug
    rw [Sink.take?_of_sound (hm hdebug)]
    exact ⟨_, rfl⟩
  · exact ⟨m, rfl⟩

theorem Steady.turn {m : Machine} (hm : m.Steady) : m.turn.machine.Steady := by
  obtain ⟨hconfig, hmanner⟩ := m.turn_keeps
  intro hdebug step
  rw [hmanner]
  exact hm (hconfig ▸ hdebug) step

theorem dispatch_ne_broken (m last : Machine) (i : Instruction) :
    m.dispatch i ≠ .ends last .broken := by
  intro h
  rcases m.dispatch_cases i with ⟨kind, t, -, hd⟩ | ⟨t, -, hd⟩ | ⟨flow, t, target, -, -, hd⟩
  · rw [hd] at h
    cases h
  · rw [hd] at h
    cases h
  · rw [hd] at h
    unfold goTo at h
    split at h <;> cases h

theorem Steady.turn_ne_broken {m : Machine} (hm : m.Steady) (last : Machine) :
    m.turn ≠ .ends last .broken := by
  cases hdue : m.due? with
  | none =>
      obtain ⟨kind, hturn⟩ := turn_of_not_due hdue
      rw [hturn]
      exact fun h => by cases h
  | some i =>
      obtain ⟨reported, hr⟩ := hm.report? i
      rw [turn_of_due hdue hr]
      exact dispatch_ne_broken _ last i

theorem Steady.run_ne_broken {m : Machine} (hm : m.Steady) (patience : Nat) :
    (m.run patience).2 ≠ some .broken := by
  intro h
  obtain ⟨head, hvisits, hturn⟩ := run_ends (Prod.ext rfl h)
  have hhead : head.Steady := visits_invariant (fun _ => Steady.turn) hvisits hm
  exact hhead.turn_ne_broken _ hturn

section Execute

variable {m first : Machine} {arguments : List String}

theorem execute_of_entry (h : m.entry arguments = .ok first) (patience : Nat) :
    m.execute patience arguments = finish (first.run patience) := by
  rw [execute_eq, h]

theorem execute_unfinished_iff (h : m.entry arguments = .ok first) (patience : Nat) :
    (m.execute patience arguments).2 = .unfinished ↔ (first.run patience).2 = none := by
  rw [execute_of_entry h]
  exact finish_eq_unfinished_iff _

theorem entry_start (h : m.entry arguments = .ok first) :
    first.steps = 0 ∧ first.config = m.config ∧ first.sink = m.sink := by
  obtain ⟨s, -, rfl⟩ := entry_eq_ok h
  exact ⟨rfl, rfl, rfl⟩

theorem execute_finished (h : m.entry arguments = .ok first) {turns patience : Nat}
    (hturns : (m.execute turns arguments).2 ≠ .unfinished) (hle : turns ≤ patience) :
    (m.execute patience arguments).2 ≠ .unfinished := by
  rw [Ne, execute_unfinished_iff h] at hturns ⊢
  obtain ⟨more, rfl⟩ := Nat.exists_eq_add_of_le hle
  rcases hr : first.run turns with ⟨last, _ | ending⟩
  · rw [hr] at hturns
    exact absurd rfl hturns
  · rw [run_of_finished hr]
    exact Option.some_ne_none ending

theorem execute_ne_crashed (h : m.entry arguments = .ok first) (hm : m.Steady) (patience : Nat) :
    (m.execute patience arguments).2 ≠ .crashed := by
  obtain ⟨-, hconfig, hsink⟩ := entry_start h
  have hfirst : first.Steady := by
    unfold Steady
    rw [hconfig, hsink]
    exact hm
  rw [execute_of_entry h, Ne, finish_eq_crashed_iff]
  exact hfirst.run_ne_broken patience

end Execute

end Machine

end RegisterMachine
