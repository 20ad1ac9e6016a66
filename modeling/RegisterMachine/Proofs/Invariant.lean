import RegisterMachine.Machine.Request
import RegisterMachine.Proofs.Execution

namespace RegisterMachine

open Relation

structure State.Fits (config : Config) (s : State) : Prop where
  memory_size : s.memory.size = config.ramSize
  code_size : s.memory.codeSize = config.codeSize
  register_count : s.registers.size = config.registerCount
  pc_lt : s.pc < s.memory.size

theorem State.Fits.sameShape {config : Config} {s t : State} (h : s.Fits config)
    (hst : s.SameShape t) : t.Fits config where
  memory_size := hst.memory_size.trans h.memory_size
  code_size := hst.code_size.trans h.code_size
  register_count := hst.register_count.trans h.register_count
  pc_lt := by
    rw [hst.pc, hst.memory_size]
    exact h.pc_lt

theorem Memory.size_loadCode {m m' : Memory} {image : List UInt8} (hm : m.codeSize ≤ m.size)
    (h : m.loadCode image = .ok m') : m'.size = m.size ∧ m'.codeSize = m.codeSize := by
  unfold loadCode at h
  split at h
  · cases h
  · rename_i hlen
    cases h
    refine ⟨?_, rfl⟩
    simp only [size] at hm ⊢
    simp only [Array.size_append, List.size_toArray, List.length_append, List.length_replicate,
      Array.size_extract]
    omega

theorem Memory.tail_ne_nil {m : Memory} {address : Nat} (h : address < m.size) :
    m.tail address ≠ [] := by
  intro hnil
  have hlen := congrArg List.length hnil
  simp only [tail, size, Array.toList_extract, List.extract, List.length_take, List.length_drop,
    Array.length_toList, List.length_nil] at hlen h
  omega

namespace Machine

structure Invariant (config : Config) (m : Machine) : Prop where
  valid : config.Valid
  config_eq : m.config = { config with debug := m.config.debug, limit := m.config.limit }
  fits : m.state.Fits config

def blank (config : Config) : Machine where
  config := config
  state := ⟨Registers.zeroed config.registerCount, Memory.zeroed config.ramSize config.codeSize, 0,
    .eq, Writer.unbounded⟩
  phase := .empty
  steps := 0
  sink := Sink.ofManner .collect

theorem create_eq_ok {config : Config} (h : config.validate = .ok ()) :
    create config = .ok (blank config) := by
  have hram := ((Config.validate_eq_ok_iff config).mp h).ram_le
  have hcapacity : Config.maxRamSize ≤ Memory.capacityLimit := by decide
  have hallocate : Memory.allocate Config.maxRamSize config.ramSize config.codeSize =
      .ok (Memory.zeroed config.ramSize config.codeSize) := by
    unfold Memory.allocate
    rw [if_neg (Nat.not_lt.mpr (Nat.le_trans hram hcapacity)), if_neg (Nat.not_lt.mpr hram)]
  unfold create
  rw [h, hallocate]
  rfl

theorem invariant_blank {config : Config} (hv : config.Valid) : (blank config).Invariant config := by
  refine ⟨hv, rfl, ?_, ?_, ?_, ?_⟩
  · exact Memory.size_zeroed ..
  · exact Nat.min_eq_left hv.code_le
  · exact Registers.size_zeroed _
  · exact (Memory.size_zeroed ..).symm ▸ hv.ram_pos

variable {config : Config} {m : Machine}

theorem Invariant.sameShape (hm : m.Invariant config) {after : Machine}
    (hc : after.config = m.config) (hs : m.state.SameShape after.state) :
    after.Invariant config := by
  refine ⟨hm.valid, ?_, hm.fits.sameShape hs⟩
  rw [hc]
  exact hm.config_eq

theorem Invariant.code_le (hm : m.Invariant config) :
    m.state.memory.codeSize ≤ m.state.memory.size := by
  rw [hm.fits.code_size, hm.fits.memory_size]
  exact hm.valid.code_le

theorem Invariant.goTo (hm : m.Invariant config) (i : Instruction) (target : Int) :
    (m.goTo i target).machine.Invariant config := by
  unfold Machine.goTo
  split
  · rename_i hin
    refine ⟨hm.valid, hm.config_eq, ?_⟩
    exact ⟨hm.fits.memory_size, hm.fits.code_size, hm.fits.register_count, by
      simp only [Turn.machine]; omega⟩
  · exact hm

theorem Invariant.dispatch (hm : m.Invariant config) (i : Instruction) :
    (m.dispatch i).machine.Invariant config := by
  have hs := i.keepsShape_dispatch m.state
  rcases m.dispatch_cases i with ⟨kind, t, hi, h⟩ | ⟨t, hi, h⟩ | ⟨flow, t, target, hi, -, h⟩
  · rw [h]
    exact hm.sameShape rfl (Effect.after_of_error hi ▸ hs)
  · rw [h]
    exact hm.sameShape rfl (Effect.after_of_ok hi ▸ hs)
  · rw [h]
    have ht : ({ m with state := t } : Machine).Invariant config :=
      hm.sameShape rfl (Effect.after_of_ok hi ▸ hs)
    exact ht.goTo i target

theorem Invariant.turn (hm : m.Invariant config) : m.turn.machine.Invariant config := by
  rcases m.turn_cases with ⟨kind, h, -⟩ | h | ⟨i, sink, -, -, h⟩
  · rw [h]
    exact hm
  · rw [h]
    exact hm
  · rw [h]
    have hready : ({ m with sink := sink, steps := m.steps + 1 } : Machine).Invariant config :=
      hm.sameShape rfl (.refl _)
    exact hready.dispatch i

theorem Invariant.entry (hm : m.Invariant config) {arguments : List String} {first : Machine}
    (h : m.entry arguments = .ok first) : first.Invariant config := by
  obtain ⟨s, hs, rfl⟩ := entry_eq_ok h
  unfold State.seed at hs
  dsimp only at hs
  split at hs
  · cases hs
  · cases hs
    refine ⟨hm.valid, hm.config_eq, ?_⟩
    refine ⟨?_, hm.fits.code_size, ?_, ?_⟩
    · exact (Memory.size_put ..).trans hm.fits.memory_size
    · simp only [start, Registers.size_update]
      exact hm.fits.register_count
    · simp only [start, Memory.size_put]
      exact Nat.lt_of_le_of_lt (Nat.zero_le _) hm.fits.pc_lt

theorem Invariant.visits (hm : m.Invariant config) {head : Machine} (h : m.Visits head) :
    head.Invariant config :=
  visits_invariant (fun _ => Invariant.turn) h hm

theorem Invariant.run (hm : m.Invariant config) (patience : Nat) :
    (m.run patience).1.Invariant config :=
  run_invariant (fun _ => Invariant.turn) patience hm

theorem Invariant.finish {r : Machine × Option Ending} (hr : r.1.Invariant config) :
    (finish r).1.Invariant config := by
  obtain ⟨m, _ | ending⟩ := r
  · exact hr
  · cases ending with
    | broken => exact hr
    | halted | faulted _ => exact hr.sameShape rfl (.refl _)

theorem Invariant.execute (hm : m.Invariant config) (patience : Nat) (arguments : List String) :
    (m.execute patience arguments).1.Invariant config := by
  rw [execute_eq]
  cases he : m.entry arguments with
  | error e => exact hm
  | ok first => exact ((hm.entry he).run patience).finish

theorem Invariant.load (hm : m.Invariant config) {image : List UInt8} {loaded : Machine}
    (h : m.load image = .ok loaded) : loaded.Invariant config := by
  unfold Machine.load at h
  split at h
  · cases h
  · split at h
    · cases h
    · cases hl : m.state.memory.loadCode image with
      | error e =>
          rw [hl] at h
          cases h
      | ok memory =>
          rw [hl] at h
          cases h
          obtain ⟨hsize, hcode⟩ := Memory.size_loadCode hm.code_le hl
          refine ⟨hm.valid, hm.config_eq, ?_⟩
          refine ⟨hsize.trans hm.fits.memory_size, hcode.trans hm.fits.code_size,
            hm.fits.register_count, ?_⟩
          exact hsize.symm ▸ Nat.lt_of_le_of_lt (Nat.zero_le _) hm.fits.pc_lt

theorem Invariant.loadFile (hm : m.Invariant config) {path : String}
    {opened : Except String File} {loaded : Machine} (h : m.loadFile path opened = .ok loaded) :
    loaded.Invariant config := by
  unfold Machine.loadFile at h
  split at h
  · cases h
  · split at h
    · cases h
    · exact hm.load h

theorem Invariant.setRegister (hm : m.Invariant config) {index : Int} {w : Word}
    {changed : Machine} (h : m.setRegister index w = .ok changed) : changed.Invariant config := by
  unfold Machine.setRegister Registers.set Registers.locate at h
  split at h
  · cases h
    exact hm.sameShape rfl ⟨rfl, rfl, rfl, Registers.size_update ..⟩
  · cases h

theorem Invariant.writeWord (hm : m.Invariant config) {address : Int} {w : Word}
    {changed : Machine} (h : m.writeWord address w = .ok changed) : changed.Invariant config := by
  unfold Machine.writeWord Memory.writeWord at h
  cases hl : m.state.memory.locate address 4 with
  | error access =>
      rw [hl] at h
      cases h
  | ok start =>
      rw [hl] at h
      cases h
      exact hm.sameShape rfl ⟨rfl, Memory.size_put .., rfl, rfl⟩

theorem Invariant.settle (hm : m.Invariant config) {change : Except Error Machine}
    (h : ∀ changed, change = .ok changed → changed.Invariant config) :
    (m.settle change).1.Invariant config := by
  cases change with
  | ok changed => exact h changed rfl
  | error e => exact hm

theorem Invariant.perform (hm : m.Invariant config) (patience : Nat) (request : Request) :
    (m.perform patience request).1.Invariant config := by
  cases request with
  | load image => exact hm.settle fun _ => hm.load
  | loadFile path opened => exact hm.settle fun _ => hm.loadFile
  | loadSource source =>
      simp only [Machine.perform]
      split
      · exact hm.settle fun _ => hm.load
      · exact hm
  | execute arguments => exact hm.execute patience arguments
  | setRegister index w => exact hm.settle fun _ => hm.setRegister
  | writeWord address w => exact hm.settle fun _ => hm.writeWord
  | setDebug on =>
      refine ⟨hm.valid, ?_, hm.fits⟩
      simp only [Machine.perform]
      rw [hm.config_eq]
  | setLimit limit =>
      refine ⟨hm.valid, ?_, hm.fits⟩
      simp only [Machine.perform]
      rw [hm.config_eq]
  | setSink manner => exact ⟨hm.valid, hm.config_eq, hm.fits⟩
  | setOutput writer => exact hm.sameShape rfl ⟨rfl, rfl, rfl, rfl⟩
  | getRegister _ | readWord _ | slice _ _ | runs | text => exact hm

def Performs (a b : Machine) : Prop := ∃ patience request, b = (a.perform patience request).1

def Reaches : Machine → Machine → Prop := ReflTransGen Performs

theorem Invariant.reaches (hm : m.Invariant config) {later : Machine} (h : m.Reaches later) :
    later.Invariant config := by
  induction h with
  | refl => exact hm
  | tail _ hp ih =>
      obtain ⟨patience, request, rfl⟩ := hp
      exact ih.perform patience request

theorem Invariant.three_le_registers (hm : m.Invariant config) : 3 ≤ m.state.registers.size := by
  rw [hm.fits.register_count]
  exact hm.valid.registers_ge

theorem Invariant.registers_le (hm : m.Invariant config) : m.state.registers.size ≤ 256 := by
  rw [hm.fits.register_count]
  exact hm.valid.registers_le

theorem Invariant.stackPointer_toNat (hm : m.Invariant config) :
    (UInt8.ofNat m.state.registers.stackPointer).toNat = m.state.registers.stackPointer := by
  have hge := hm.three_le_registers
  have hle := hm.registers_le
  simp only [UInt8.toNat_ofNat', Registers.stackPointer]
  omega

theorem Invariant.tail_ne_nil (hm : m.Invariant config) :
    m.state.memory.tail m.state.pc ≠ [] :=
  Memory.tail_ne_nil hm.fits.pc_lt

theorem Invariant.turn_ne_truncated_zero (hm : m.Invariant config) {last : Machine} {fault : Fault}
    (h : m.turn = .ends last (.faulted fault)) (width : Nat) :
    fault.kind ≠ .truncatedInstruction width 0 := by
  intro hkind
  rcases turn_faulted h with ⟨-, -, ⟨limit, -, hlimit⟩ | hfetch⟩ | ⟨i, -, -, herror | hgoes⟩
  · rw [hkind] at hlimit
    cases hlimit
  · rw [hkind, Memory.fetch_eq_decode_tail] at hfetch
    rcases Instruction.decode_eq_error hfetch with ⟨code, hcode⟩ | ⟨width', hlength⟩
    · cases hcode
    · injection hlength with _ hlength
      exact hm.tail_ne_nil (List.length_eq_zero_iff.mp hlength.symm)
  · rw [hkind] at herror
    rcases Instruction.dispatch_eq_error herror with ⟨hoperand | ⟨target, -, htarget⟩, -⟩
    · exact hoperand
    · cases htarget
  · obtain ⟨flow, target, -, -, -, htarget⟩ := hgoes
    rw [hkind] at htarget
    cases htarget

structure InBounds (config : Config) (m : Machine) : Prop where
  pc_lt : m.state.pc < m.state.memory.size
  ram_size : m.config.ramSize = config.ramSize ∧ m.state.memory.size = m.config.ramSize
  code_size : m.config.codeSize = config.codeSize ∧ m.state.memory.codeSize = m.config.codeSize
  code_le : m.state.memory.codeSize ≤ m.state.memory.size
  register_count : m.config.registerCount = config.registerCount ∧
    m.state.registers.size = m.config.registerCount
  three_le_registers : 3 ≤ m.state.registers.size
  registers_le : m.state.registers.size ≤ 256
  stackPointer_toNat :
    (UInt8.ofNat m.state.registers.stackPointer).toNat = m.state.registers.stackPointer

theorem Invariant.inBounds (hm : m.Invariant config) : m.InBounds config where
  pc_lt := hm.fits.pc_lt
  ram_size := by rw [hm.config_eq]; exact ⟨rfl, hm.fits.memory_size⟩
  code_size := by rw [hm.config_eq]; exact ⟨rfl, hm.fits.code_size⟩
  code_le := hm.code_le
  register_count := by rw [hm.config_eq]; exact ⟨rfl, hm.fits.register_count⟩
  three_le_registers := hm.three_le_registers
  registers_le := hm.registers_le
  stackPointer_toNat := hm.stackPointer_toNat

theorem inBounds_of_reaches (config : Config) (hc : config.validate = .ok ()) :
    create config = .ok (blank config) ∧ ∀ m, (blank config).Reaches m →
      m.InBounds config ∧
      (∀ arguments first head, m.entry arguments = .ok first → first.Visits head →
        head.InBounds config ∧ head.state.memory.tail head.state.pc ≠ []) ∧
      ∀ patience arguments after fault width,
        m.execute patience arguments = (after, .error (.fault fault)) →
          fault.kind ≠ .truncatedInstruction width 0 := by
  refine ⟨create_eq_ok hc, fun m hreaches => ?_⟩
  have hm := (invariant_blank ((Config.validate_eq_ok_iff config).mp hc)).reaches hreaches
  refine ⟨hm.inBounds, ?_, ?_⟩
  · intro arguments first head hentry hvisits
    have hhead := (hm.entry hentry).visits hvisits
    exact ⟨hhead.inBounds, hhead.tail_ne_nil⟩
  · intro patience arguments after fault width hrun
    obtain ⟨first, head, last, hentry, hvisits, hturn, -⟩ := execute_faulted hrun
    exact ((hm.entry hentry).visits hvisits).turn_ne_truncated_zero hturn width

def crowded : Machine :=
  ((blank ⟨8, 3, 8, false, none⟩).perform 0
    (.load [0x02, 0x02, 0x02, 0x02, 0x02, 0x02, 0x02, 0x40])).1

theorem inBounds_of_reaches_crowded :
    (blank ⟨8, 3, 8, false, none⟩).Reaches crowded ∧ crowded.InBounds ⟨8, 3, 8, false, none⟩ ∧
      (∃ first, crowded.entry [] = .ok first ∧ first.InBounds ⟨8, 3, 8, false, none⟩) ∧
      ∃ after, crowded.execute 9 [] = (after, .error (.fault ⟨7, none, .truncatedInstruction 6 1⟩)) ∧
        FaultKind.truncatedInstruction 6 1 ≠ .truncatedInstruction 6 0 := by
  have hload : (blank ⟨8, 3, 8, false, none⟩).Reaches crowded := .single ⟨0, _, rfl⟩
  obtain ⟨hm, hhead, hfault⟩ := (inBounds_of_reaches ⟨8, 3, 8, false, none⟩ rfl).2 _ hload
  have hexecute : crowded.execute 9 [] =
      ((crowded.execute 9 []).1, .error (.fault ⟨7, none, .truncatedInstruction 6 1⟩)) :=
    execute_of_snd (by decide +kernel)
  let first := (crowded.entry []).toOption.getD crowded
  have hentry : crowded.entry [] = .ok first := Except.eq_ok_of_toOption (by decide +kernel)
  have hfirst := (hhead [] first first hentry .refl).1
  exact ⟨hload, hm, ⟨first, hentry, hfirst⟩, _, hexecute, hfault 9 [] _ _ 6 hexecute⟩

end Machine

end RegisterMachine
