import Mathlib.Algebra.GroupWithZero.Nat
import RegisterMachine.Proofs.Invariant

namespace RegisterMachine

theorem eq_of_getD_eq {α : Type} {a b : Array α} {d : α} (hsize : a.size = b.size)
    (h : ∀ index, a.getD index d = b.getD index d) : a = b := by
  refine Array.ext hsize fun index ha hb => ?_
  have hindex := h index
  rw [Array.getD_eq_getD_getElem?, Array.getD_eq_getD_getElem?, Array.getElem?_eq_getElem ha,
    Array.getElem?_eq_getElem hb, Option.getD_some, Option.getD_some] at hindex
  exact hindex

namespace Memory

theorem ext_byte {m m' : Memory} (hcode : m.codeSize = m'.codeSize) (hsize : m.size = m'.size)
    (h : ∀ address, m.byte address = m'.byte address) : m = m' := by
  obtain ⟨bytes, codeSize⟩ := m
  obtain ⟨bytes', codeSize'⟩ := m'
  have hbytes : bytes = bytes' := eq_of_getD_eq hsize h
  rw [hbytes, show codeSize = codeSize' from hcode]

theorem loadCode_eq_ok_iff {m loaded : Memory} {image : List UInt8} :
    m.loadCode image = .ok loaded ↔ image.length ≤ m.codeSize ∧
      { m with bytes := (image ++ List.replicate (m.codeSize - image.length) 0).toArray ++
        m.bytes.extract m.codeSize m.size } = loaded := by
  unfold loadCode
  split
  · simp only [reduceCtorEq, false_iff]
    omega
  · simp only [Except.ok.injEq]
    exact ⟨fun h => ⟨by omega, h⟩, fun h => h.2⟩

theorem byte_loadCode {m loaded : Memory} {image : List UInt8}
    (h : m.loadCode image = .ok loaded) (address : Nat) :
    loaded.byte address =
      if address < m.codeSize then image.getD address 0 else m.byte address := by
  obtain ⟨hlen, rfl⟩ := loadCode_eq_ok_iff.mp h
  have hcode : (image ++ List.replicate (m.codeSize - image.length) 0).toArray.size = m.codeSize := by
    simp only [List.size_toArray, List.length_append, List.length_replicate]
    omega
  simp only [byte, Array.getD_eq_getD_getElem?, Array.getElem?_append, hcode]
  split
  · simp only [List.getElem?_toArray, List.getElem?_append, List.getElem?_replicate,
      List.getD_eq_getElem?_getD]
    split
    · rfl
    · rename_i hbeyond
      rw [List.getElem?_eq_none (by omega)]
      split <;> rfl
  · rename_i hcode
    simp only [Array.getElem?_extract, size]
    split
    · congr 2
      omega
    · rw [Array.getElem?_eq_none (by omega)]

end Memory

theorem Registers.ext_value {r r' : Registers} (hsize : r.size = r'.size)
    (h : ∀ index, r.value index = r'.value index) : r = r' := by
  obtain ⟨values⟩ := r
  obtain ⟨values'⟩ := r'
  exact congrArg Registers.mk (eq_of_getD_eq hsize h)

theorem Memory.byte_of_le {m : Memory} {address : Nat} (h : m.size ≤ address) :
    m.byte address = 0 := by
  rw [byte, Array.getD_eq_getD_getElem?, Array.getElem?_eq_none h, Option.getD_none]

theorem Registers.value_of_le {r : Registers} {index : Nat} (h : r.size ≤ index) :
    r.value index = 0 := by
  rw [value, Array.getD_eq_getD_getElem?, Array.getElem?_eq_none h, Option.getD_none]

theorem Registers.value_zeroed (count index : Nat) : (zeroed count).value index = 0 := by
  simp only [zeroed, value, Array.getD_eq_getD_getElem?, Array.getElem?_replicate]
  split <;> rfl

theorem Registers.value_seeded {r : Registers} (h : 3 ≤ r.size) (count base top : Word)
    (index : Nat) :
    (((r.update 0 count).update 1 base).update r.stackPointer top).value index =
      if index = r.stackPointer then top
      else if index = 1 then base
      else if index = 0 then count
      else r.value index := by
  have hlt : r.stackPointer < r.size := by
    rw [stackPointer]
    omega
  rw [value_update _ _ _ _ (by simp only [size_update]; exact hlt),
    value_update _ _ _ _ (by simp only [size_update]; omega), value_update _ _ _ _ (by omega)]

namespace Arguments

theorem length_block (base : Nat) (arguments : List (List UInt8)) :
    (block base arguments).length =
      4 * arguments.length + (arguments.map (fun a => a.length + 1)).sum := by
  rw [block, List.length_append, length_table, length_strings, List.sum, List.foldr_map]

end Arguments

namespace State

theorem seed_of_le {s : State} {arguments : List (List UInt8)}
    (h : s.memory.codeSize + (Arguments.block s.memory.codeSize arguments).length ≤ s.memory.size) :
    s.seed arguments = .ok { s with
      registers := ((s.registers.update 0 (Int32.ofNat arguments.length)).update 1
        (Int32.ofNat s.memory.codeSize)).update s.registers.stackPointer (Int32.ofNat s.memory.size)
      memory := s.memory.put s.memory.codeSize
        (Arguments.block s.memory.codeSize arguments) } := by
  unfold seed
  dsimp only
  rw [if_neg (Nat.not_lt.mpr h)]
  simp only [Registers.stackPointer, Registers.size_update]

end State

namespace Machine

def argumentsEnd (m : Machine) (arguments : List String) : Nat :=
  m.config.codeSize + 4 * arguments.length +
    (arguments.map (fun a => (Text.bytes a.toList).length + 1)).sum

structure Resembles (m : Machine) (arguments : List String) (m' : Machine) : Prop where
  config : m'.config = m.config
  idle : m.phase ≠ .running ∧ m'.phase ≠ .running
  output : m'.state.output = m.state.output
  registers : ∀ index, index ≠ 0 → index ≠ 1 → index ≠ m.state.registers.stackPointer →
    m'.state.registers.value index = m.state.registers.value index
  memory : ∀ address, m.argumentsEnd arguments ≤ address →
    m'.state.memory.byte address = m.state.memory.byte address

def withSink (sink : Sink) : Machine → Machine := refit id (fun _ => sink)

theorem load_eq_ok_iff {m loaded : Machine} {image : List UInt8} :
    m.load image = .ok loaded ↔ m.phase ≠ .running ∧ image ≠ [] ∧ ∃ memory,
      m.state.memory.loadCode image = .ok memory ∧ loaded =
        { m with state := { m.state with memory := memory, pc := 0 }, phase := .ready, steps := 0 } := by
  unfold load
  split
  · simp_all
  · split
    · simp_all
    · rename_i hphase hnil
      cases m.state.memory.loadCode image with
      | error e => simp
      | ok memory => simp [hphase, hnil, eq_comm]

theorem Invariant.codeSize_eq {config : Config} {m : Machine} (hm : m.Invariant config) :
    m.state.memory.codeSize = m.config.codeSize := by
  rw [hm.fits.code_size, hm.config_eq]

theorem Invariant.size_eq {config : Config} {m : Machine} (hm : m.Invariant config) :
    m.state.memory.size = m.config.ramSize := by
  rw [hm.fits.memory_size, hm.config_eq]

theorem Invariant.registers_eq {config : Config} {m : Machine} (hm : m.Invariant config) :
    m.state.registers.size = m.config.registerCount := by
  rw [hm.fits.register_count, hm.config_eq]

section Seed

variable {c c' : Config} {m m' : Machine} {arguments : List String}

theorem Resembles.update_registers (h : m.Resembles arguments m') (hm : m.Invariant c)
    (hm' : m'.Invariant c') (count base top : Word) :
    ((m'.state.registers.update 0 count).update 1 base).update m'.state.registers.stackPointer top =
      ((m.state.registers.update 0 count).update 1 base).update m.state.registers.stackPointer
        top := by
  have hthree := hm.three_le_registers
  have hsize : m'.state.registers.size = m.state.registers.size := by
    rw [hm'.registers_eq, hm.registers_eq, h.config]
  have hpointer : m'.state.registers.stackPointer = m.state.registers.stackPointer := by
    rw [Registers.stackPointer, Registers.stackPointer, hsize]
  refine Registers.ext_value (by simp only [Registers.size_update, hsize]) fun index => ?_
  rw [Registers.value_seeded (hsize ▸ hthree), Registers.value_seeded hthree, hpointer]
  refine ite_congr rfl (fun _ => rfl) fun htop => ?_
  refine ite_congr rfl (fun _ => rfl) fun hone => ?_
  refine ite_congr rfl (fun _ => rfl) fun hzero => ?_
  exact h.registers index hzero hone htop

theorem Resembles.put_block (h : m.Resembles arguments m') (hm : m.Invariant c)
    (hm' : m'.Invariant c') {image : List UInt8} {memory memory' : Memory}
    (hcode : m.state.memory.loadCode image = .ok memory)
    (hcode' : m'.state.memory.loadCode image = .ok memory') {block : List UInt8}
    (hend : m.config.codeSize + block.length = m.argumentsEnd arguments)
    (hfits : m.argumentsEnd arguments ≤ m.config.ramSize) :
    memory'.put m.config.codeSize block = memory.put m.config.codeSize block := by
  obtain ⟨hsize, hregion⟩ := Memory.size_loadCode hm.code_le hcode
  obtain ⟨hsize', hregion'⟩ := Memory.size_loadCode hm'.code_le hcode'
  rw [hm.size_eq] at hsize
  rw [hm'.size_eq, h.config] at hsize'
  rw [hm.codeSize_eq] at hregion
  rw [hm'.codeSize_eq, h.config] at hregion'
  refine Memory.ext_byte ?_ ?_ fun address => ?_
  · rw [Memory.codeSize_put, Memory.codeSize_put, hregion, hregion']
  · rw [Memory.size_put, Memory.size_put, hsize, hsize']
  · rw [Memory.byte_put _ _ _ _ (by omega), Memory.byte_put _ _ _ _ (by omega)]
    split
    · rfl
    · rw [Memory.byte_loadCode hcode, Memory.byte_loadCode hcode', hm.codeSize_eq, hm'.codeSize_eq,
        h.config]
      split
      · rfl
      · exact h.memory address (by omega)

theorem Resembles.entry (h : m.Resembles arguments m') (hm : m.Invariant c)
    (hm' : m'.Invariant c') {image : List UInt8} {loaded : Machine}
    (hload : m.load image = .ok loaded) (hfits : m.argumentsEnd arguments ≤ m.config.ramSize) :
    ∃ loaded' first, m'.load image = .ok loaded' ∧ loaded.entry arguments = .ok first ∧
      loaded'.entry arguments = .ok (first.withSink m'.sink) := by
  obtain ⟨-, hnil, memory, hcode, rfl⟩ := load_eq_ok_iff.mp hload
  have hregion : m'.state.memory.codeSize = m.state.memory.codeSize := by
    rw [hm'.codeSize_eq, hm.codeSize_eq, h.config]
  have hlen := (Memory.loadCode_eq_ok_iff.mp hcode).1
  rw [← hregion] at hlen
  obtain ⟨memory', hcode'⟩ : ∃ memory', m'.state.memory.loadCode image = .ok memory' :=
    ⟨_, Memory.loadCode_eq_ok_iff.mpr ⟨hlen, rfl⟩⟩
  obtain ⟨hsize, hcodeSize⟩ := Memory.size_loadCode hm.code_le hcode
  obtain ⟨hsize', hcodeSize'⟩ := Memory.size_loadCode hm'.code_le hcode'
  rw [hm.size_eq] at hsize
  rw [hm'.size_eq, h.config] at hsize'
  rw [hm.codeSize_eq] at hcodeSize
  rw [hm'.codeSize_eq, h.config] at hcodeSize'
  let texts := arguments.map (fun a => Text.bytes a.toList)
  have hend : m.config.codeSize + (Arguments.block m.config.codeSize texts).length =
      m.argumentsEnd arguments := by
    simp only [Arguments.length_block, argumentsEnd, texts, List.length_map, List.map_map,
      Function.comp_def]
    omega
  have hseed : State.seed { m.state with memory := memory, pc := 0 } texts = _ :=
    State.seed_of_le (by simp only [hcodeSize, hsize]; omega)
  have hseed' : State.seed { m'.state with memory := memory', pc := 0 } texts = _ :=
    State.seed_of_le (by simp only [hcodeSize', hsize']; omega)
  simp only [hcodeSize, hsize] at hseed
  simp only [hcodeSize', hsize', h.update_registers hm hm',
    h.put_block hm hm' hcode hcode' hend hfits] at hseed'
  refine ⟨_, _, load_eq_ok_iff.mpr ⟨h.idle.2, hnil, memory', hcode', rfl⟩,
    congrArg (Except.map (start _)) hseed, (congrArg (Except.map (start _)) hseed').trans ?_⟩
  simp only [Except.map, start, withSink, refit, h.config, h.output, id]

end Seed

variable {m : Machine} {sink : Sink}

theorem report?_eq_none_iff (m : Machine) (i : Instruction) :
    m.report? i = none ↔ m.config.debug = true ∧ m.sink.manner = .giveWay m.steps := by
  unfold report? Sink.take? record
  split
  · rename_i hdebug
    simp only [hdebug, Option.map_eq_none_iff, ite_eq_left_iff, reduceCtorEq, imp_false,
      Decidable.not_not, true_and]
  · rename_i hdebug
    simp [hdebug]

theorem turn_withSink (m : Machine) (sink : Sink) :
    (∃ sink', sink'.manner = sink.manner ∧
      (m.withSink sink).turn = m.turn.map (withSink sink')) ∨
    (m.sink.manner ≠ sink.manner ∧
      (m.turn = .ends m .broken ∨ (m.withSink sink).turn = .ends (m.withSink sink) .broken)) := by
  have hdue' : (m.withSink sink).due? = m.due? := rfl
  cases hdue : m.due? with
  | none =>
      refine .inl ⟨sink, rfl, ?_⟩
      have hlimit : (m.withSink sink).limitReached? = m.limitReached? := rfl
      have hstate : (m.withSink sink).state = m.state := rfl
      unfold due? at hdue
      simp only [turn, hlimit, hstate]
      cases hl : m.limitReached? with
      | some limit => rfl
      | none =>
          rw [hl] at hdue
          cases hf : m.state.memory.fetch m.state.pc with
          | error kind => rfl
          | ok i =>
              rw [hf] at hdue
              cases hdue
  | some i =>
      have hnone := m.report?_eq_none_iff i
      have hnone' := (m.withSink sink).report?_eq_none_iff i
      rw [hdue] at hdue'
      cases hr : m.report? i with
      | none =>
          cases hr' : (m.withSink sink).report? i with
          | none =>
              refine .inl ⟨sink, rfl, ?_⟩
              rw [turn_of_unreported hdue hr, turn_of_unreported hdue' hr']
              rfl
          | some reported' =>
              refine .inr ⟨fun hmanner => ?_, .inl (turn_of_unreported hdue hr)⟩
              obtain ⟨hdebug, hgive⟩ := hnone.mp hr
              rw [hnone'.mpr ⟨hdebug, hmanner ▸ hgive⟩] at hr'
              cases hr'
      | some reported =>
          cases hr' : (m.withSink sink).report? i with
          | none =>
              refine .inr ⟨fun hmanner => ?_, .inr (turn_of_unreported hdue' hr')⟩
              obtain ⟨hdebug, hgive⟩ := hnone'.mp hr'
              rw [hnone.mpr ⟨hdebug, hmanner.trans hgive⟩] at hr
              cases hr
          | some reported' =>
              refine .inl ⟨reported'.sink, (report?_manner hr').2, ?_⟩
              rw [turn_of_due hdue hr, turn_of_due hdue' hr', report?_eq_some hr,
                report?_eq_some hr']
              exact dispatch_refit id (fun _ => reported'.sink)
                { m with sink := reported.sink, steps := m.steps + 1 } i

def Concurs (m : Machine) (sink : Sink) (patience : Nat) : Prop :=
  m.sink.manner = sink.manner ∨
    ((m.run patience).2 ≠ some .broken ∧ ((m.withSink sink).run patience).2 ≠ some .broken)

theorem run_withSink {patience : Nat} (h : m.Concurs sink patience) :
    ∃ sink', (m.withSink sink).run patience =
      ((m.run patience).1.withSink sink', (m.run patience).2) := by
  induction patience generalizing m sink with
  | zero => exact ⟨sink, rfl⟩
  | succ patience ih =>
      rcases m.turn_withSink sink with ⟨sink', hmanner, hturn⟩ | ⟨hdiffer, hbreaks⟩
      · unfold Concurs at h
        rw [run, run, hturn] at h ⊢
        have hkeeps := m.turn_keeps.2
        cases ht : m.turn with
        | ends last ending => exact ⟨sink', rfl⟩
        | goesOn next =>
            rw [ht] at h hkeeps
            exact ih (h.imp_left fun heq => hkeeps.trans (heq.trans hmanner.symm))
      · rcases h with hsame | ⟨hrun, hrun'⟩
        · exact absurd hsame hdiffer
        · rw [run] at hrun hrun'
          rcases hbreaks with hbreak | hbreak
          · rw [hbreak] at hrun
            exact absurd rfl hrun
          · rw [hbreak] at hrun'
            exact absurd rfl hrun'

theorem rerun_forgets_past {c c' : Config} {m m' loaded : Machine} {image : List UInt8}
    {arguments : List String} (hm : m.Invariant c) (hm' : m'.Invariant c')
    (hsame : m.Resembles arguments m') (hload : m.load image = .ok loaded)
    (hfits : m.argumentsEnd arguments ≤ m.config.ramSize) :
    ∃ loaded', m'.load image = .ok loaded' ∧
      (∃ first, loaded.entry arguments = .ok first ∧
        loaded'.entry arguments = .ok (first.withSink m'.sink)) ∧
      ∀ patience,
        (m.sink.manner = m'.sink.manner ∨ ((loaded.execute patience arguments).2 ≠ .crashed ∧
          (loaded'.execute patience arguments).2 ≠ .crashed)) →
        ∃ sink, loaded'.execute patience arguments =
          ((loaded.execute patience arguments).1.withSink sink,
            (loaded.execute patience arguments).2) := by
  obtain ⟨loaded', first, hload', hentry, hentry'⟩ := hsame.entry hm hm' hload hfits
  refine ⟨loaded', hload', ⟨first, hentry, hentry'⟩, fun patience hsinks => ?_⟩
  rw [execute_of_entry hentry, execute_of_entry hentry'] at hsinks ⊢
  have hloaded : loaded.sink = m.sink := by
    obtain ⟨-, -, memory, -, rfl⟩ := load_eq_ok_iff.mp hload
    rfl
  rw [Ne, Ne, finish_eq_crashed_iff, finish_eq_crashed_iff, ← hloaded,
    ← (entry_start hentry).2.2] at hsinks
  obtain ⟨sink, hrun⟩ := run_withSink hsinks
  refine ⟨sink, ?_⟩
  rw [hrun]
  exact finish_refit id (fun _ => sink) _

def spent : Machine :=
  (((blank ⟨32, 4, 16, false, none⟩).perform 0
    (.load [0x44, 0x00, 0x09, 0x00, 0x00, 0x00, 0x01])).1.perform 9 (.execute ["c"])).1

theorem resembles_spent : (blank ⟨32, 4, 16, false, none⟩).Resembles ["ab"] spent where
  config := by decide +kernel
  idle := by decide +kernel
  output := by decide +kernel
  registers := by
    have hbelow : ∀ index, index < 4 → index ≠ 0 → index ≠ 1 → index ≠ 3 →
        spent.state.registers.value index = 0 := by decide +kernel
    have hsize : spent.state.registers.size = 4 := by decide +kernel
    intro index hzero hone htop
    by_cases hlt : index < 4
    · rw [hbelow index hlt hzero hone htop]
      exact (Registers.value_zeroed 4 index).symm
    · rw [Registers.value_of_le (by omega)]
      exact (Registers.value_zeroed 4 index).symm
  memory := by
    have hbelow : ∀ address, address < 32 → 23 ≤ address → spent.state.memory.byte address = 0 := by
      decide +kernel
    have hsize : spent.state.memory.size = 32 := by decide +kernel
    have hend : (blank ⟨32, 4, 16, false, none⟩).argumentsEnd ["ab"] = 23 := by decide +kernel
    intro address hbeyond
    rw [hend] at hbeyond
    by_cases hlt : address < 32
    · rw [hbelow address hlt hbeyond]
      exact (Memory.byte_zeroed 32 16 address).symm
    · rw [Memory.byte_of_le (by omega)]
      exact (Memory.byte_zeroed 32 16 address).symm

-- `JE 6`, `HLT`, `OUT R0` and `HLT`: the jump is taken, as the comparison of the past is forgotten, and
-- what is printed is the number of the new arguments.
theorem rerun_forgets_past_spent :
    spent.phase = .halted ∧ spent.state.comparison = .lt ∧ spent.state.registers.value 0 = 1 ∧
    ∃ fresh again sink, (blank ⟨32, 4, 16, false, none⟩).load
        [0x51, 0x06, 0x00, 0x00, 0x00, 0x01, 0x16, 0x00, 0x01] = .ok fresh ∧
      spent.load [0x51, 0x06, 0x00, 0x00, 0x00, 0x01, 0x16, 0x00, 0x01] = .ok again ∧
      again.execute 9 ["ab"] = ((fresh.execute 9 ["ab"]).1.withSink sink, .ok ()) ∧
      (fresh.execute 9 ["ab"]).1.state.output.written = #[49, 10] := by
  have hc : Config.Valid ⟨32, 4, 16, false, none⟩ := (Config.validate_eq_ok_iff _).mp rfl
  let fresh := ((blank ⟨32, 4, 16, false, none⟩).perform 0
    (.load [0x51, 0x06, 0x00, 0x00, 0x00, 0x01, 0x16, 0x00, 0x01])).1
  have hload : (blank ⟨32, 4, 16, false, none⟩).load
      [0x51, 0x06, 0x00, 0x00, 0x00, 0x01, 0x16, 0x00, 0x01] = .ok fresh := rfl
  obtain ⟨again, hagain, -, hrun⟩ := rerun_forgets_past (invariant_blank hc)
    (((invariant_blank hc).perform 0 _).perform 9 _) resembles_spent hload (by decide +kernel)
  obtain ⟨sink, hsame⟩ := hrun 9 (.inl (by decide +kernel))
  have hhalted : (fresh.execute 9 ["ab"]).2 = .ok () := by decide +kernel
  rw [hhalted] at hsame
  refine ⟨by decide +kernel, by decide +kernel, by decide +kernel, fresh, again, sink, hload, hagain,
    hsame, ?_⟩
  decide +kernel

end Machine

end RegisterMachine
