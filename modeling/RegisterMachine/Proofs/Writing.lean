import RegisterMachine.Proofs.Rerun

namespace RegisterMachine

namespace Memory

theorem putBytes_append (bytes : Array UInt8) (start : Nat) (data more : List UInt8) :
    putBytes bytes start (data ++ more) =
      putBytes (putBytes bytes start data) (start + data.length) more := by
  induction data generalizing bytes start with
  | nil => rfl
  | cons b data ih =>
      rw [List.cons_append, putBytes, putBytes, ih, List.length_cons, Nat.add_right_comm,
        Nat.add_assoc]

theorem put_append (m : Memory) (start : Nat) (data more : List UInt8) :
    m.put start (data ++ more) = (m.put start data).put (start + data.length) more :=
  congrArg (fun bytes => { m with bytes := bytes }) (putBytes_append m.bytes start data more)

theorem put_comm {m : Memory} {low high : Nat} {data more : List UInt8}
    (hlow : low + data.length ≤ high) (hhigh : high + more.length ≤ m.size) :
    (m.put high more).put low data = (m.put low data).put high more := by
  refine ext_byte rfl (by simp only [size_put]) (fun address => ?_)
  rw [byte_put _ _ _ _ (by rw [size_put]; omega), byte_put _ _ _ _ hhigh,
    byte_put _ _ _ _ (by rw [size_put]; omega), byte_put _ _ _ _ (by omega)]
  split
  · rw [if_neg (by omega)]
  · rfl

theorem writeBytes_of_le {m : Memory} {start : Nat} {data : List UInt8}
    (h : start + data.length ≤ m.size) : m.writeBytes start data = .ok (m.put start data) :=
  Except.bind_of_ok ((m.locate_eq_ok_iff _ _ _).mpr ⟨rfl, h⟩) _

theorem writeByte_of_lt {m : Memory} {start : Nat} (h : start < m.size) (b : UInt8) :
    m.writeByte start b = .ok (m.put start [b]) :=
  Except.bind_of_ok ((m.locate_eq_ok_iff _ _ _).mpr ⟨rfl, h⟩) _

theorem writeWord_of_le {m : Memory} {start : Nat} (h : start + 4 ≤ m.size) (w : Word) :
    m.writeWord start w = .ok (m.put start (Word.bytes w)) :=
  Except.bind_of_ok ((m.locate_eq_ok_iff _ _ _).mpr ⟨rfl, h⟩) _

theorem loadCode_eq_put {m : Memory} {image : List UInt8} (hm : m.codeSize ≤ m.size)
    (h : image.length ≤ m.codeSize) :
    m.loadCode image = .ok ((m.put 0 (List.replicate m.codeSize 0)).put 0 image) := by
  obtain ⟨loaded, hloaded⟩ : ∃ loaded, m.loadCode image = .ok loaded :=
    ⟨_, loadCode_eq_ok_iff.mpr ⟨h, rfl⟩⟩
  obtain ⟨hsize, hcode⟩ := size_loadCode hm hloaded
  rw [hloaded]
  refine congrArg Except.ok (ext_byte hcode (by simpa only [size_put] using hsize) fun address => ?_)
  rw [byte_loadCode hloaded, byte_put _ _ _ _ (by rw [size_put]; omega),
    byte_put _ _ _ _ (by rw [List.length_replicate]; omega), List.length_replicate]
  by_cases himage : address < image.length
  · rw [if_pos (by omega), if_pos (by omega), Nat.sub_zero]
  · rw [if_neg (c := _ ∧ _) (by omega), List.getD_eq_getElem?_getD, List.getElem?_eq_none (by omega)]
    split
    · rw [if_pos (by omega), List.getD_eq_getElem?_getD, List.getElem?_replicate]
      split <;> rfl
    · rw [if_neg (by omega)]

end Memory

abbrev Writes := EStateM Error Machine

namespace Writes

def attempt (f : Machine → Except Error Machine) : Writes Unit := fun m =>
  match f m with
  | .ok after => .ok () after
  | .error e => .error e m

def adjust (f : Machine → Machine) : Writes Unit := fun m => .ok () (f m)

def memory (f : Memory → Except Access Memory) : Writes Unit := attempt fun m => do
  let memory ← (f m.state.memory).mapError Error.memoryOutOfRange
  return { m with state := { m.state with memory := memory } }

def register (index : Nat) (w : Word) : Writes Unit := attempt (·.setRegister index w)

def argument (slot cursor : Nat) (a : List UInt8) : Writes Unit := do
  memory (·.writeWord slot (Int32.ofNat cursor))
  memory (·.writeBytes cursor a)
  memory (·.writeByte (cursor + a.length : Nat) 0)

def arguments (slot cursor : Nat) : List (List UInt8) → Writes Unit
  | [] => pure ()
  | a :: rest => do
      argument slot cursor a
      arguments (slot + 4) (cursor + a.length + 1) rest

def seed (texts : List (List UInt8)) : Writes Unit := fun m =>
  let base := m.state.memory.codeSize
  let size := m.state.memory.size
  let required := 4 * texts.length + (texts.map (fun a => a.length + 1)).sum
  if size < base + required then
    .error (.invalidArgument (.argumentsTooLong texts.length required (size - base))) m
  else (do
    arguments base (base + 4 * texts.length) texts
    register 0 (Int32.ofNat texts.length)
    register 1 (Int32.ofNat base)
    register m.state.registers.stackPointer (Int32.ofNat size)) m

def enter (texts : List String) : Writes Unit := fun m =>
  match m.phase with
  | .empty => .error .noProgram m
  | .running => .error .busy m
  | _ => (do
    seed (texts.map (fun a : String => Text.bytes a.toList))
    adjust fun m => { m with state := { m.state with pc := 0 } }
    adjust fun m => { m with steps := 0 }
    adjust fun m => { m with state := { m.state with comparison := .eq } }
    adjust fun m => { m with phase := .running }) m

def load (image : List UInt8) : Writes Unit := fun m =>
  if m.phase = .running then .error .busy m
  else if image = [] then .error .emptyImage m
  else if m.state.memory.codeSize < image.length then
    .error (.imageTooLarge image.length m.state.memory.codeSize) m
  else (do
    memory (·.writeBytes 0 (List.replicate m.state.memory.codeSize 0))
    memory (·.writeBytes 0 image)
    adjust fun m => { m with state := { m.state with pc := 0 } }
    adjust fun m => { m with steps := 0 }
    adjust fun m => { m with phase := .ready }) m

variable {m : Machine}

theorem attempt_of_ok {f : Machine → Except Error Machine} {after : Machine} (h : f m = .ok after) :
    attempt f m = .ok () after := by
  simp only [attempt, h]

theorem attempt_of_error {f : Machine → Except Error Machine} {e : Error} (h : f m = .error e) :
    attempt f m = .error e m := by
  simp only [attempt, h]

theorem memory_of_ok {f : Memory → Except Access Memory} {after : Memory}
    (h : f m.state.memory = .ok after) :
    memory f m = .ok () { m with state := { m.state with memory := after } } := by
  refine attempt_of_ok ?_
  rw [h]
  rfl

theorem register_of_lt {index : Nat} (h : index < m.state.registers.size) (w : Word) :
    register index w m = .ok ()
      { m with state := { m.state with registers := m.state.registers.update index w } } := by
  have hlocate : m.state.registers.locate index = .ok index :=
    if_pos ⟨Int.natCast_nonneg index, Int.ofNat_lt.mpr h⟩
  refine attempt_of_ok ?_
  unfold Machine.setRegister Registers.set
  rw [hlocate]
  rfl

theorem argument_of_le {slot cursor : Nat} {a : List UInt8} (hslot : slot + 4 ≤ cursor)
    (hcursor : cursor + a.length + 1 ≤ m.state.memory.size) :
    argument slot cursor a m = .ok () { m with state := { m.state with
      memory := (m.state.memory.put slot (Word.bytes (Int32.ofNat cursor))).put cursor
        (a ++ [0]) } } := by
  unfold argument
  rw [Effect.bind_of_ok (memory_of_ok (Memory.writeWord_of_le (by omega) _)),
    Effect.bind_of_ok (memory_of_ok (Memory.writeBytes_of_le (by
      dsimp only
      rw [Memory.size_put]
      omega))),
    memory_of_ok (Memory.writeByte_of_lt (by
      dsimp only
      rw [Memory.size_put, Memory.size_put]
      omega) _)]
  rw [Memory.put_append]

def entries (cursor : Nat) (texts : List (List UInt8)) : List UInt8 :=
  (Arguments.addresses cursor texts).flatMap (fun address => Word.bytes (Int32.ofNat address))

theorem entries_cons (cursor : Nat) (a : List UInt8) (rest : List (List UInt8)) :
    entries cursor (a :: rest) =
      Word.bytes (Int32.ofNat cursor) ++ entries (cursor + a.length + 1) rest := rfl

theorem length_entries (cursor : Nat) (texts : List (List UInt8)) :
    (entries cursor texts).length = 4 * texts.length := by
  induction texts generalizing cursor with
  | nil => rfl
  | cons a rest ih =>
      rw [entries_cons, List.length_append, ih, List.length_cons]
      exact (Nat.add_comm ..).trans (Nat.mul_succ ..).symm

theorem arguments_of_le {slot cursor : Nat} {texts : List (List UInt8)}
    (hslot : slot + 4 * texts.length ≤ cursor)
    (hcursor : cursor + (Arguments.strings texts).length ≤ m.state.memory.size) :
    arguments slot cursor texts m = .ok () { m with state := { m.state with
      memory := (m.state.memory.put slot (entries cursor texts)).put cursor
        (Arguments.strings texts) } } := by
  induction texts generalizing slot cursor m with
  | nil => rfl
  | cons a rest ih =>
      have hstrings : Arguments.strings (a :: rest) = (a ++ [0]) ++ Arguments.strings rest := rfl
      rw [hstrings, List.length_append, List.length_append, List.length_singleton] at hcursor
      rw [List.length_cons] at hslot
      -- The argument is written before the rest of the table, which stands before it in memory.
      have hcomm : ((m.state.memory.put slot (Word.bytes (Int32.ofNat cursor))).put cursor
            (a ++ [0])).put (slot + 4) (entries (cursor + a.length + 1) rest) =
          ((m.state.memory.put slot (Word.bytes (Int32.ofNat cursor))).put (slot + 4)
            (entries (cursor + a.length + 1) rest)).put cursor (a ++ [0]) := by
        refine Memory.put_comm ?_ ?_
        · rw [length_entries]
          omega
        · rw [Memory.size_put, List.length_append, List.length_singleton]
          omega
      unfold arguments
      rw [Effect.bind_of_ok (argument_of_le (by omega) (by omega)), ih (by omega) (by
        simp only [Memory.size_put]
        omega)]
      dsimp only
      rw [hcomm, hstrings, Memory.put_append _ cursor (a ++ [0]), entries_cons,
        Memory.put_append _ slot, List.length_append, List.length_singleton, Word.length_bytes,
        Nat.add_assoc cursor]

theorem register_seeds {registers : Registers} (hm : m.state.registers = registers)
    (h : 3 ≤ registers.size) (count base top : Word) :
    (do
      register 0 count
      register 1 base
      register registers.stackPointer top) m = .ok () { m with state := { m.state with
        registers := ((registers.update 0 count).update 1 base).update registers.stackPointer
          top } } := by
  subst hm
  have hlast : m.state.registers.stackPointer < m.state.registers.size := by
    unfold Registers.stackPointer
    omega
  rw [Effect.bind_of_ok (register_of_lt (by omega) _), Effect.bind_of_ok (register_of_lt (by
    simp only [Registers.size_update]
    omega) _), register_of_lt (by simpa only [Registers.size_update] using hlast)]

theorem seed_eq (h : 3 ≤ m.state.registers.size) (texts : List (List UInt8)) :
    seed texts m = attempt (fun m => (m.state.seed texts).map fun s => { m with state := s }) m := by
  have hlength := Arguments.length_block m.state.memory.codeSize texts
  unfold seed
  dsimp only
  split
  · rename_i hlong
    refine (attempt_of_error ?_).symm
    unfold State.seed
    dsimp only
    rw [hlength, if_pos hlong]
    rfl
  · rename_i hfits
    have hblock : (Arguments.table m.state.memory.codeSize texts ++ Arguments.strings texts).length =
        4 * texts.length + (texts.map fun a => a.length + 1).sum := hlength
    rw [List.length_append, Arguments.length_table] at hblock
    rw [Effect.bind_of_ok (arguments_of_le (Nat.le_refl _) (by omega))]
    refine (register_seeds ?_ h _ _ _).trans (attempt_of_ok ?_).symm
    · rfl
    · rw [State.seed_of_le (by omega), Arguments.block, Memory.put_append, Arguments.length_table]
      rfl

theorem enter_eq (h : 3 ≤ m.state.registers.size) (texts : List String) :
    enter texts m = attempt (·.entry texts) m := by
  have hseed := seed_eq h (texts.map (fun a => Text.bytes a.toList))
  unfold attempt at hseed
  unfold enter attempt Machine.entry
  dsimp only at hseed ⊢
  cases m.phase with
  | empty | running => rfl
  | ready | halted | faulted =>
      cases hs : m.state.seed (texts.map (fun a => Text.bytes a.toList)) with
      | error e =>
          rw [hs] at hseed
          exact Effect.bind_of_error hseed
      | ok s =>
          rw [hs] at hseed
          exact Effect.bind_of_ok hseed

theorem load_eq (hcode : m.state.memory.codeSize ≤ m.state.memory.size) (image : List UInt8) :
    load image m = attempt (·.load image) m := by
  unfold load attempt Machine.load
  dsimp only
  split
  · rfl
  · split
    · rfl
    · split
      · rename_i hlong
        rw [show m.state.memory.loadCode image = .error _ from if_pos hlong]
      · rename_i hfits
        have hzeros : 0 + (List.replicate m.state.memory.codeSize (0 : UInt8)).length ≤
            m.state.memory.size := by
          rw [List.length_replicate]
          omega
        rw [Memory.loadCode_eq_put hcode (by omega),
          Effect.bind_of_ok (memory_of_ok (Memory.writeBytes_of_le hzeros)),
          Effect.bind_of_ok (memory_of_ok (Memory.writeBytes_of_le (by
            dsimp only
            rw [Memory.size_put]
            omega)))]
        rfl

end Writes

end RegisterMachine
