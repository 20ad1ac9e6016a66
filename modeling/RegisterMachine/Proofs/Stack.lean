import RegisterMachine.Proofs.Footprint
import RegisterMachine.Proofs.Seeding

namespace RegisterMachine

open Relation

theorem Word.toInt_of_sub_four {w : Word} (hlow : 0 ≤ (w - 4).toInt)
    (hhigh : (w - 4).toInt + 4 < 2147483648) : w.toInt = (w - 4).toInt + 4 := by
  have hadd := Int32.toInt_add (w - 4) 4
  rw [Int32.sub_add_cancel] at hadd
  rw [hadd, show (4 : Word).toInt = 4 from rfl]
  exact Int.bmod_eq_of_le (by omega) (by omega)

theorem Registers.update_value_update {r : Registers} {index : Nat} (h : index < r.size) (w : Word) :
    (r.update index w).update index (r.value index) = r := by
  refine ext_value (by rw [size_update, size_update]) fun other => ?_
  by_cases hother : other = index
  · rw [value_update _ _ _ _ (by rwa [size_update]), if_pos hother, hother]
  · rw [value_update_of_ne _ _ hother, value_update_of_ne _ _ hother]

theorem Memory.readWord_congr {m m' : Memory} {address : Int} (hsize : m.size = m'.size)
    (h : ∀ k : Nat, address ≤ k → k < address + 4 → m.byte k = m'.byte k) :
    m.readWord address = m'.readWord address := by
  rw [readWord_eq, readWord_eq, locate, locate, hsize]
  split
  · rename_i hfits
    obtain ⟨start, rfl⟩ := Int.eq_ofNat_of_zero_le hfits.1
    refine congrArg Except.ok ?_
    simp only [word, Int.toNat_natCast]
    rw [h _ (by omega) (by omega), h _ (by omega) (by omega), h _ (by omega) (by omega),
      h _ (by omega) (by omega)]
  · rfl

theorem Memory.readWord_put {m : Memory} {start : Nat} {w : Word} (h : start + 4 ≤ m.size) :
    (m.put start (Word.bytes w)).readWord start = .ok w := by
  have hpart := @readWord_put_part m start [] [] w (by simpa using h)
  simpa using hpart

namespace State

def moved (s : State) (w : Word) (m : Memory) : State :=
  { s with registers := s.registers.update s.registers.stackPointer w, memory := m }

variable {s : State}

theorem stackPointer_moved (w : Word) (m : Memory) :
    (s.moved w m).registers.stackPointer = s.registers.stackPointer := by
  rw [Registers.stackPointer, moved, Registers.size_update, Registers.stackPointer]

theorem HasStack.moved (hs : s.HasStack) (w : Word) (m : Memory) : (s.moved w m).HasStack where
  pos := by
    rw [State.moved, Registers.size_update]
    exact hs.pos
  le := by
    rw [State.moved, Registers.size_update]
    exact hs.le

theorem HasStack.top_moved (hs : s.HasStack) (w : Word) (m : Memory) : (s.moved w m).top = w := by
  rw [top, stackPointer_moved, State.moved, Registers.value_update _ _ _ _ hs.lt, if_pos rfl]

theorem HasStack.moved_back (hs : s.HasStack) (w : Word) (m m' : Memory) :
    (s.moved w m).moved s.top m' = { s with memory := m' } := by
  rw [State.moved, stackPointer_moved, State.moved, top,
    Registers.update_value_update hs.lt]

end State

namespace Effect

def pushAll : List Word → Effect Unit
  | [] => return ()
  | w :: ws => do
      push w
      pushAll ws

def popAll : Nat → Effect (List Word)
  | 0 => return []
  | count + 1 => do
      let w ← pop
      return w :: (← popAll count)

variable {s t u : State} {w : Word} {ws : List Word}

theorem popAll_succ {count : Nat} (h : popAll count s = .ok ws t) (hpop : pop t = .ok w u) :
    popAll (count + 1) s = .ok (ws ++ [w]) u := by
  induction count generalizing s ws with
  | zero =>
      cases h
      exact bind_of_ok hpop
  | succ count ih =>
      obtain ⟨first, v, hfirst, hrest⟩ := bind_eq_ok h
      obtain ⟨rest, v', hall, hdone⟩ := bind_eq_ok hrest
      cases hdone
      rw [popAll, bind_of_ok hfirst, bind_of_ok (ih hall)]
      rfl

theorem readWord_eq_ok {address : Word} (h : s.memory.readWord address.toInt = .ok w) :
    (s.access address 4).Fits ∧ s.wordAt address = w := by
  by_cases hfits : (s.access address 4).Fits
  · rw [readWord_of_fits hfits] at h
    exact ⟨hfits, Except.ok.inj h⟩
  · rw [Memory.readWord_eq, locate_of_not_fits hfits] at h
    cases h

section Once

variable (hs : s.HasStack)

include hs

theorem push_eq_ok (h : push w s = .ok () u) : (s.access (s.top - 4) 4).Fits ∧
    u = s.moved (s.top - 4) (s.memory.put (s.top - 4).toInt.toNat (Word.bytes w)) := by
  obtain ⟨hcauses, -, rfl⟩ := (behaves_push hs w).of_ok h
  exact ⟨demand_eq_nil_iff.mp hcauses, rfl⟩

theorem pop_of_readWord (h : s.memory.readWord s.top.toInt = .ok w) :
    pop s = .ok w (s.moved (s.top + 4) s.memory) := by
  obtain ⟨hfits, rfl⟩ := readWord_eq_ok h
  have hpop := behaves_pop hs
  rw [State.bars, demand_eq_nil_iff.mpr hfits] at hpop
  exact hpop

theorem pop_pushed (hpush : push w s = .ok () u) {m : Memory}
    (hword : m.readWord u.top.toInt = .ok w) :
    pop { u with memory := m } = .ok w { s with memory := m } := by
  obtain ⟨-, rfl⟩ := push_eq_ok hs hpush
  have htop := hs.top_moved (s.top - 4) m
  rw [hs.top_moved, ← htop] at hword
  have hpop := pop_of_readWord (hs.moved (s.top - 4) m) hword
  rw [htop, Int32.sub_add_cancel, hs.moved_back] at hpop
  exact hpop

end Once

structure Stacked (ws : List Word) (s t : State) : Prop where
  popped : popAll ws.length t = .ok ws.reverse { s with memory := t.memory }
  memory_size : t.memory.size = s.memory.size
  code_size : t.memory.codeSize = s.memory.codeSize
  room : ws ≠ [] → 4 * (ws.length : Int) ≤ s.top.toInt ∧ s.top.toInt ≤ s.memory.size
  word : ∀ (k : Nat) w, ws[k]? = some w → t.memory.readWord (s.top.toInt - 4 * (k + 1 : Nat)) = .ok w
  outside : ∀ address : Nat,
    (address : Int) < s.top.toInt - 4 * ws.length ∨ s.top.toInt ≤ address →
    t.memory.byte address = s.memory.byte address

theorem stacked_nil (s : State) : Stacked [] s s where
  popped := rfl
  memory_size := rfl
  code_size := rfl
  room := fun h => absurd rfl h
  word := fun k w h => by cases h
  outside := fun _ _ => rfl

theorem Stacked.cons (hs : s.HasStack) (hsize : s.memory.size < 2147483648)
    (hpush : push w s = .ok () u) (h : Stacked ws u t) : Stacked (w :: ws) s t := by
  obtain ⟨hfits, hu⟩ := push_eq_ok hs hpush
  obtain ⟨hlow, hhigh⟩ : 0 ≤ (s.top - 4).toInt ∧ (s.top - 4).toInt + (4 : Nat) ≤ s.memory.size := hfits
  have htop : u.top = s.top - 4 := by
    rw [hu]
    exact hs.top_moved _ _
  have hbelow : s.top.toInt = u.top.toInt + 4 := by
    rw [htop]
    exact Word.toInt_of_sub_four hlow (by omega)
  have hmemory : u.memory = s.memory.put u.top.toInt.toNat (Word.bytes w) := by
    rw [htop, hu, State.moved]
  obtain ⟨start, hstart⟩ : ∃ start : Nat, u.top.toInt = start := Int.eq_ofNat_of_zero_le (htop ▸ hlow)
  rw [← htop, hstart] at hhigh
  rw [hstart, Int.toNat_natCast] at hmemory
  have hend : start + 4 ≤ s.memory.size := by omega
  have hsize_u : u.memory.size = s.memory.size := by rw [hmemory, Memory.size_put]
  have hword : t.memory.readWord u.top.toInt = .ok w := by
    rw [Memory.readWord_congr h.memory_size fun k hk _ => h.outside k (.inr hk), hmemory, hstart]
    exact Memory.readWord_put hend
  refine ⟨?_, h.memory_size.trans hsize_u, h.code_size.trans (by rw [hmemory]; rfl), ?_, ?_, ?_⟩
  · have hpop := pop_pushed hs hpush hword
    have hpops := popAll_succ h.popped hpop
    rwa [← List.reverse_cons] at hpops
  · intro _
    by_cases hnil : ws = []
    · subst hnil
      simp only [List.length_cons, List.length_nil]
      omega
    · obtain ⟨hroom, -⟩ := h.room hnil
      rw [List.length_cons]
      omega
  · intro k w' hw'
    cases k with
    | zero =>
        cases hw'
        rw [hbelow]
        exact (congrArg _ (by omega)).trans hword
    | succ k =>
        rw [hbelow]
        exact (congrArg _ (by omega)).trans (h.word k w' hw')
  · intro address haway
    rw [List.length_cons] at haway
    rw [h.outside address (by omega), hmemory, Memory.byte_put _ _ _ _ hend,
      if_neg (by rw [Word.length_bytes]; omega)]

theorem stacked_of_pushAll (hs : s.HasStack) (hsize : s.memory.size < 2147483648)
    (h : pushAll ws s = .ok () t) : Stacked ws s t := by
  induction ws generalizing s with
  | nil =>
      cases h
      exact stacked_nil _
  | cons w ws ih =>
      obtain ⟨⟨⟩, u, hpush, hrest⟩ := bind_eq_ok h
      have hshape := keepsShape_push.of_ok hpush
      have hu : u.HasStack := by
        refine ⟨?_, ?_⟩
        · rw [hshape.register_count]
          exact hs.pos
        · rw [hshape.register_count]
          exact hs.le
      refine .cons hs hsize hpush (ih hu ?_ hrest)
      rwa [hshape.memory_size]

end Effect

namespace Machine

variable {config : Config} {m called later : Machine} {target : Word}

def Dispatches (a b : Machine) : Prop := ∃ i, a.dispatch i = .goesOn b

def Returns (m later : Machine) (turn : Turn) : Prop :=
  (m.state.pc + 5 < m.state.memory.size → ∃ next, turn = .goesOn next ∧
    next.state.pc = m.state.pc + 5 ∧ next.state.top = m.state.top) ∧
  (m.state.memory.size ≤ m.state.pc + 5 → ∃ last, turn = .ends last
    (.faulted ⟨later.state.pc, some "RET", .pcOutOfRange (m.state.pc + 5 : Nat)⟩))

theorem Invariant.memory_le (hm : m.Invariant config) : m.state.memory.size ≤ 268435456 :=
  hm.fits.memory_size ▸ hm.valid.ram_le

theorem Invariant.dispatches (hm : m.Invariant config) (h : ReflTransGen Dispatches m later) :
    later.Invariant config := by
  induction h with
  | refl => exact hm
  | tail _ hstep ih =>
      obtain ⟨i, hi⟩ := hstep
      have hnext := ih.dispatch i
      rwa [hi] at hnext

theorem no_cause_of_goesOn (hm : m.Invariant config) {i : Instruction} {next : Machine}
    (h : m.dispatch i = .goesOn next) : i.causes m.state = [] := by
  cases hcauses : i.causes m.state with
  | nil => rfl
  | cons kind rest =>
      obtain ⟨t, ht⟩ := dispatch_of_cause hm (congrArg List.head? hcauses)
      cases h.symm.trans ht

theorem dispatch_call (hm : m.Invariant config)
    (h : m.dispatch (.branch .call target) = .goesOn called) :
    (m.state.access (m.state.top - 4) 4).Fits ∧ called.state.top = m.state.top - 4 ∧
    called.state.memory.readWord called.state.top.toInt = .ok (Int32.ofNat (m.state.pc + 5)) := by
  have hcauses := no_cause_of_goesOn hm h
  have hmachine := machine_dispatch_of_no_cause hm hcauses
  rw [h] at hmachine
  obtain ⟨hlow, hhigh⟩ : (m.state.access (m.state.top - 4) 4).Fits :=
    Instruction.fits_of_unopposed hcauses rfl
  have hregisters : called.state.registers =
      m.state.registers.update m.state.registers.stackPointer (m.state.top - 4) :=
    congrArg (fun machine => machine.state.registers) hmachine
  have hmemory : called.state.memory = m.state.memory.put (m.state.top - 4).toInt.toNat
      (Word.bytes (Int32.ofNat (m.state.pc + 5))) :=
    congrArg (fun machine => machine.state.memory) hmachine
  have htop : called.state.top = m.state.top - 4 := by
    rw [State.top, hregisters]
    exact hm.hasStack.top_moved (m.state.top - 4) m.state.memory
  refine ⟨⟨hlow, hhigh⟩, htop, ?_⟩
  obtain ⟨start, hstart⟩ : ∃ start : Nat, (m.state.top - 4).toInt = start :=
    Int.eq_ofNat_of_zero_le hlow
  rw [htop, hmemory, hstart, Int.toNat_natCast]
  refine Memory.readWord_put ?_
  have hend : (m.state.top - 4).toInt + (4 : Nat) ≤ m.state.memory.size := hhigh
  omega

theorem dispatch_ret (hm : m.Invariant config) {w : Word}
    (h : m.state.memory.readWord m.state.top.toInt = .ok w) :
    m.dispatch (.plain .ret) = goTo { m with
      state := m.state.moved (m.state.top + 4) m.state.memory } (.plain .ret) w.toInt := by
  have hret : (Instruction.plain .ret).dispatch m.state =
      .ok (.jump w) (m.state.moved (m.state.top + 4) m.state.memory) :=
    Effect.bind_of_ok (Effect.pop_of_readWord hm.hasStack h)
  simp only [dispatch, hret]

theorem returns (hm : m.Invariant config) (hlater : later.Invariant config)
    (hcall : m.dispatch (.branch .call target) = .goesOn called)
    (htop : later.state.top = called.state.top)
    (hword : later.state.wordAt later.state.top = called.state.wordAt called.state.top) :
    Returns m later (later.dispatch (.plain .ret)) := by
  obtain ⟨hfits, hcalled, hpushed⟩ := dispatch_call hm hcall
  have hsize : later.state.memory.size = m.state.memory.size :=
    hlater.fits.memory_size.trans hm.fits.memory_size.symm
  have hread : later.state.memory.readWord later.state.top.toInt =
      .ok (Int32.ofNat (m.state.pc + 5)) := by
    rw [Effect.readWord_of_fits, hword, (Effect.readWord_eq_ok hpushed).2]
    rw [State.access, hsize, htop, hcalled]
    exact hfits
  have hplace : (Int32.ofNat (m.state.pc + 5)).toInt = (m.state.pc + 5 : Nat) := by
    have hpc := hm.fits.pc_lt
    have hle := hm.memory_le
    exact Int32.toInt_ofNat_of_lt (by omega)
  have hback : (later.state.moved (later.state.top + 4) later.state.memory).top = m.state.top := by
    rw [hlater.hasStack.top_moved, htop, hcalled, Int32.sub_add_cancel]
  rw [dispatch_ret hlater hread, hplace]
  refine ⟨fun hin => ?_, fun hout => ?_⟩
  · refine ⟨_, if_pos ⟨by omega, ?_⟩, Int.toNat_natCast _, hback⟩
    rw [State.moved, hsize]
    omega
  · refine ⟨_, if_neg fun hin => ?_⟩
    rw [State.moved, hsize] at hin
    omega

theorem last_in_first_out (hm : m.Invariant config) :
    (∀ ws t, Effect.pushAll ws m.state = .ok () t → Effect.Stacked ws m.state t) ∧
    (∀ target called later, m.dispatch (.branch .call target) = .goesOn called →
      ReflTransGen Dispatches called later → later.state.top = called.state.top →
      later.state.wordAt later.state.top = called.state.wordAt called.state.top →
      Returns m later (later.dispatch (.plain .ret))) ∧
    ∀ target called later, m.due? = some (.branch .call target) → m.turn = .goesOn called →
      called.Visits later → later.state.top = called.state.top →
      later.state.wordAt later.state.top = called.state.wordAt called.state.top →
      later.due? = some (.plain .ret) → later.Steady → Returns m later later.turn := by
  refine ⟨fun ws t h => ?_, ?_, ?_⟩
  · have hle := hm.memory_le
    exact Effect.stacked_of_pushAll hm.hasStack (by omega) h
  · intro target called later hcall hbetween htop hword
    have hcalled := hm.dispatch (.branch .call target)
    rw [hcall] at hcalled
    exact returns hm (Invariant.dispatches hcalled hbetween) hcall htop hword
  · intro target called later hdue hturn hvisits htop hword hret hsteady
    have hcalled := hm.turn
    rw [hturn] at hcalled
    have hlater := hcalled.visits hvisits
    cases hreport : m.report? (.branch .call target) with
    | none => cases (turn_of_unreported hdue hreport).symm.trans hturn
    | some reported =>
        obtain ⟨reported', hreport'⟩ := hsteady.report? (.plain .ret)
        have hready : ({ m with sink := reported.sink, steps := m.steps + 1 } : Machine).Invariant
            config := hm.sameShape rfl (.refl _)
        have hready' : ({ later with sink := reported'.sink, steps := later.steps + 1 } :
            Machine).Invariant config := hlater.sameShape rfl (.refl _)
        rw [turn_of_due hdue hreport, report?_eq_some hreport] at hturn
        rw [turn_of_due hret hreport', report?_eq_some hreport']
        have hreturns := returns hready hready' hturn htop hword
        exact hreturns

def heaped (size : Nat) : Machine :=
  ((blank ⟨size, 3, size, false, none⟩).perform 0 (.setRegister 2 (Int32.ofNat size))).1

theorem last_in_first_out_heaped :
    (∃ t, Effect.pushAll [1, 2, 3] (heaped 17).state = .ok () t ∧ Effect.popAll 3 t =
      .ok [3, 2, 1] { (heaped 17).state with memory := t.memory }) ∧
    (∃ called later next, (heaped 17).dispatch (.branch .call 8) = .goesOn called ∧
      ReflTransGen Dispatches called later ∧ later.state.pc = 12 ∧
      later.dispatch (.plain .ret) = .goesOn next ∧ next.state.pc = 5 ∧ next.state.top = 17) ∧
    ∃ called last, (heaped 5).dispatch (.branch .call 0) = .goesOn called ∧
      called.dispatch (.plain .ret) =
        .ends last (.faulted ⟨0, some "RET", .pcOutOfRange 5⟩) := by
  have hm (size : Nat) (h : Config.validate ⟨size, 3, size, false, none⟩ = .ok ()) :
      (heaped size).Invariant ⟨size, 3, size, false, none⟩ :=
    (invariant_blank ((Config.validate_eq_ok_iff _).mp h)).perform 0 _
  obtain ⟨hpushes, hcalls, -⟩ := last_in_first_out (hm 17 rfl)
  obtain ⟨-, hends, -⟩ := last_in_first_out (hm 5 rfl)
  refine ⟨?_, ?_, ?_⟩
  · have hok : Effect.pushAll [1, 2, 3] (heaped 17).state =
        .ok () (Effect.after (Effect.pushAll [1, 2, 3]) (heaped 17).state) := rfl
    exact ⟨_, hok, (hpushes _ _ hok).popped⟩
  · let called := ((heaped 17).dispatch (.branch .call 8)).machine
    let pushed := (called.dispatch (.unary .push 0)).machine
    let later := (pushed.dispatch (.unary .pop 1)).machine
    have hcall : (heaped 17).dispatch (.branch .call 8) = .goesOn called := by decide +kernel
    have hpush : called.dispatch (.unary .push 0) = .goesOn pushed := by decide +kernel
    have hpop : pushed.dispatch (.unary .pop 1) = .goesOn later := by decide +kernel
    have hbetween : ReflTransGen Dispatches called later :=
      .tail (.single ⟨_, hpush⟩) ⟨_, hpop⟩
    obtain ⟨hin, -⟩ := hcalls 8 called later hcall hbetween (by decide +kernel) (by decide +kernel)
    obtain ⟨next, hret, hpc, htop⟩ := hin (by decide +kernel)
    exact ⟨called, later, next, hcall, hbetween, by decide +kernel, hret, hpc,
      htop.trans (by decide +kernel)⟩
  · let called := ((heaped 5).dispatch (.branch .call 0)).machine
    have hcall : (heaped 5).dispatch (.branch .call 0) = .goesOn called := by decide +kernel
    obtain ⟨-, hout⟩ := hends 0 called called hcall .refl rfl rfl
    obtain ⟨last, hret⟩ := hout (by decide +kernel)
    exact ⟨called, last, hcall, hret⟩

end Machine

end RegisterMachine
