import Mathlib.Data.List.GetD
import RegisterMachine.Proofs.Requests
import RegisterMachine.Proofs.Writing

namespace RegisterMachine

namespace Memory

variable {m : Memory} {start : Nat} {front data back : List UInt8}

theorem getElem?_bytes {address : Nat} (h : address < m.size) :
    m.bytes[address]? = some (m.byte address) := by
  have hbytes : address < m.bytes.size := h
  rw [byte, Array.getD_eq_getD_getElem?, Array.getElem?_eq_getElem hbytes, Option.getD_some]

theorem byte_put_part (h : start + (front ++ data ++ back).length ≤ m.size) {k : Nat}
    (hk : k < data.length) :
    (m.put start (front ++ data ++ back)).byte (start + front.length + k) = data.getD k 0 := by
  have hlength : (front ++ data ++ back).length = front.length + data.length + back.length := by
    simp only [List.length_append]
  rw [byte_put _ _ _ _ h, if_pos (by omega), Nat.add_assoc, Nat.add_sub_cancel_left,
    List.append_assoc, List.getD_append_right _ _ _ _ (Nat.le_add_right _ _),
    Nat.add_sub_cancel_left, List.getD_append _ _ _ _ hk]

theorem slice_put_part (h : start + (front ++ data ++ back).length ≤ m.size) :
    (m.put start (front ++ data ++ back)).slice (start + front.length : Nat) data.length =
      .ok data := by
  have hend : start + front.length + data.length ≤ (m.put start (front ++ data ++ back)).size := by
    simp only [List.length_append] at h
    rw [size_put]
    omega
  rw [slice, Except.bind_of_ok ((locate_eq_ok_iff _ _ _ _).mpr ⟨rfl, hend⟩)]
  refine congrArg Except.ok (List.ext_getElem? fun k => ?_)
  rw [Array.getElem?_toList, Array.getElem?_extract]
  by_cases hk : k < data.length
  · rw [if_pos (by simp only [size] at hend; omega), getElem?_bytes (by omega), byte_put_part h hk,
      List.getD_eq_getElem?_getD, List.getElem?_eq_getElem hk, Option.getD_some]
  · rw [if_neg (by omega), List.getElem?_eq_none (Nat.not_lt.mp hk)]

theorem readWord_put_part {w : Word} (h : start + (front ++ Word.bytes w ++ back).length ≤ m.size) :
    (m.put start (front ++ Word.bytes w ++ back)).readWord (start + front.length : Nat) = .ok w := by
  have hend : start + front.length + 4 ≤ (m.put start (front ++ Word.bytes w ++ back)).size := by
    simp only [List.length_append, Word.length_bytes] at h
    rw [size_put]
    omega
  have hbyte : ∀ k, k < 4 → (m.put start (front ++ Word.bytes w ++ back)).byte
      (start + front.length + k) = (Word.bytes w).getD k 0 := fun k hk => byte_put_part h hk
  rw [readWord, Except.bind_of_ok ((locate_eq_ok_iff _ _ _ _).mpr ⟨rfl, hend⟩)]
  rw [hbyte 1 (by decide), hbyte 2 (by decide), hbyte 3 (by decide), ← Nat.add_zero (_ + _),
    hbyte 0 (by decide)]
  exact congrArg Except.ok (Word.ofBytes_bytes w)

end Memory

namespace Arguments

theorem strings_append (texts more : List (List UInt8)) :
    strings (texts ++ more) = strings texts ++ strings more := List.flatMap_append

theorem addresses_append (address : Nat) (texts more : List (List UInt8)) :
    addresses address (texts ++ more) =
      addresses address texts ++ addresses (address + (strings texts).length) more := by
  induction texts generalizing address with
  | nil => rfl
  | cons a texts ih =>
      have hstrings : (strings (a :: texts)).length = a.length + 1 + (strings texts).length := by
        simp only [strings, List.flatMap_cons, List.length_append, List.length_singleton]
      rw [List.cons_append, addresses, addresses, ih, hstrings]
      simp only [Nat.add_assoc, List.cons_append]

def place (base : Nat) (texts : List (List UInt8)) (i : Nat) : Nat :=
  base + 4 * texts.length + (strings (texts.take i)).length

variable {base : Nat} {texts : List (List UInt8)} {i : Nat} {a : List UInt8}

theorem eq_take_append_drop (h : texts[i]? = some a) :
    texts = texts.take i ++ a :: texts.drop (i + 1) := by
  obtain ⟨hlt, rfl⟩ := List.getElem?_eq_some_iff.mp h
  rw [← List.drop_eq_getElem_cons hlt, List.take_append_drop]

theorem place_zero : place base texts 0 = base + 4 * texts.length := rfl

theorem place_succ (h : texts[i]? = some a) :
    place base texts (i + 1) = place base texts i + a.length + 1 := by
  obtain ⟨hlt, rfl⟩ := List.getElem?_eq_some_iff.mp h
  have hstrings : (strings [texts[i]]).length = texts[i].length + 1 := by
    simp only [strings, List.flatMap_singleton, List.length_append, List.length_singleton]
  unfold place
  rw [List.take_succ_eq_append_getElem hlt, strings_append, List.length_append, hstrings]
  omega

theorem place_le_place {j : Nat} (h : i ≤ j) : place base texts i ≤ place base texts j := by
  have htake : texts.take i = (texts.take j).take i := by
    rw [List.take_take, Nat.min_eq_left h]
  have hsplit : texts.take j = texts.take i ++ (texts.take j).drop i := by
    rw [htake, List.take_append_drop]
  unfold place
  rw [hsplit, strings_append, List.length_append]
  omega

theorem place_length : place base texts texts.length = base + (block base texts).length := by
  rw [place, List.take_length, block, List.length_append, length_table, Nat.add_assoc]

theorem block_eq_at_address (h : texts[i]? = some a) :
    block base texts = Writes.entries (base + 4 * texts.length) (texts.take i) ++
      Word.bytes (Int32.ofNat (place base texts i)) ++
      (Writes.entries (place base texts i + a.length + 1) (texts.drop (i + 1)) ++ strings texts) := by
  have htable : table base texts = Writes.entries (base + 4 * texts.length) texts := rfl
  have hentries : Writes.entries (base + 4 * texts.length) texts =
      Writes.entries (base + 4 * texts.length) (texts.take i) ++
        Writes.entries (place base texts i) (a :: texts.drop (i + 1)) := by
    unfold Writes.entries place
    rw [← List.flatMap_append, ← addresses_append, ← eq_take_append_drop h]
  rw [block, htable, hentries, Writes.entries_cons]
  simp only [List.append_assoc]

theorem block_eq_at_argument (h : texts[i]? = some a) :
    block base texts = (table base texts ++ strings (texts.take i)) ++ (a ++ [0]) ++
      strings (texts.drop (i + 1)) := by
  have hstrings : strings texts =
      strings (texts.take i) ++ ((a ++ [0]) ++ strings (texts.drop (i + 1))) := by
    rw [congrArg strings (eq_take_append_drop h), strings_append]
    rfl
  rw [block, hstrings]
  simp only [List.append_assoc]

end Arguments

namespace Machine

def argumentTexts (arguments : List String) : List (List UInt8) :=
  arguments.map (fun a => Text.bytes a.toList)

structure Seeded (m : Machine) (arguments : List String) (place : Nat → Nat) (first : Machine) :
    Prop where
  place_zero : place 0 = m.state.memory.codeSize + 4 * arguments.length
  place_succ : ∀ i a, arguments[i]? = some a →
    place (i + 1) = place i + (Text.bytes a.toList).length + 1
  place_length : place arguments.length = m.argumentsEnd arguments
  disjoint : ∀ i j a, i < j → arguments[i]? = some a →
    place i + (Text.bytes a.toList).length + 1 ≤ place j
  address : ∀ i, i < arguments.length →
    m.state.memory.codeSize + 4 * arguments.length ≤ place i ∧ ∃ w : Word, w.toInt = place i ∧
      first.state.memory.readWord (m.state.memory.codeSize + 4 * i : Nat) = .ok w
  string : ∀ i a, arguments[i]? = some a →
    first.state.memory.slice (place i) ((Text.bytes a.toList).length + 1) =
      .ok (Text.bytes a.toList ++ [0])
  memory_size : first.state.memory.size = m.state.memory.size
  code_size : first.state.memory.codeSize = m.state.memory.codeSize
  outside : ∀ address, address < m.state.memory.codeSize ∨ m.argumentsEnd arguments ≤ address →
    first.state.memory.byte address = m.state.memory.byte address
  register_count : first.state.registers.size = m.state.registers.size
  count : (first.state.registers.value 0).toInt = arguments.length
  base : (first.state.registers.value 1).toInt = m.state.memory.codeSize
  top : (first.state.registers.value m.state.registers.stackPointer).toInt = m.state.memory.size
  others : ∀ index, index ≠ 0 → index ≠ 1 → index ≠ m.state.registers.stackPointer →
    first.state.registers.value index = m.state.registers.value index
  pc : first.state.pc = 0
  steps : first.steps = 0
  comparison : first.state.comparison = .eq
  phase : first.phase = .running

variable {config : Config} {m : Machine} {arguments : List String}

theorem getElem?_argumentTexts {i : Nat} {a : String} (h : arguments[i]? = some a) :
    (argumentTexts arguments)[i]? = some (Text.bytes a.toList) := by
  rw [argumentTexts, List.getElem?_map, h, Option.map_some]

theorem Invariant.block_end (hm : m.Invariant config) (arguments : List String) :
    m.state.memory.codeSize +
      (Arguments.block m.state.memory.codeSize (argumentTexts arguments)).length =
      m.argumentsEnd arguments := by
  simp only [Arguments.length_block, argumentsEnd, argumentTexts, hm.codeSize_eq, List.length_map,
    List.map_map, Function.comp_def]
  omega

theorem entry_of_idle (hloaded : m.phase ≠ .empty) (hidle : m.phase ≠ .running)
    (arguments : List String) :
    m.entry arguments = (m.state.seed (argumentTexts arguments)).map m.start := by
  unfold entry
  cases h : m.phase with
  | empty => exact absurd h hloaded
  | running => exact absurd h hidle
  | ready | halted | faulted => rfl

theorem Invariant.toInt_ofNat (hm : m.Invariant config) {n : Nat} (h : n ≤ m.state.memory.size) :
    (Int32.ofNat n).toInt = n := by
  have hle := hm.valid.ram_le
  rw [← hm.fits.memory_size, Config.maxRamSize] at hle
  exact Int32.toInt_ofNat_of_lt (by omega)

theorem Invariant.place_le (hm : m.Invariant config)
    (hfits : m.argumentsEnd arguments ≤ m.state.memory.size) {i : Nat} (hi : i ≤ arguments.length) :
    Arguments.place m.state.memory.codeSize (argumentTexts arguments) i ≤ m.state.memory.size := by
  have hcount : (argumentTexts arguments).length = arguments.length := List.length_map _
  have hle : Arguments.place m.state.memory.codeSize (argumentTexts arguments) i ≤
      Arguments.place m.state.memory.codeSize (argumentTexts arguments)
        (argumentTexts arguments).length :=
    Arguments.place_le_place (hcount.symm ▸ hi)
  rw [Arguments.place_length, hm.block_end] at hle
  exact Nat.le_trans hle hfits

section Block

variable (hm : m.Invariant config) (hfits : m.argumentsEnd arguments ≤ m.state.memory.size)

include hm hfits

theorem Invariant.readWord_block {i : Nat} (hi : i < arguments.length) :
    (m.state.memory.put m.state.memory.codeSize
      (Arguments.block m.state.memory.codeSize (argumentTexts arguments))).readWord
        (m.state.memory.codeSize + 4 * i : Nat) =
      .ok (Int32.ofNat
        (Arguments.place m.state.memory.codeSize (argumentTexts arguments) i)) := by
  have hcount : (argumentTexts arguments).length = arguments.length := List.length_map _
  have hend := hm.block_end arguments
  have hfront : (Writes.entries (m.state.memory.codeSize + 4 * (argumentTexts arguments).length)
      ((argumentTexts arguments).take i)).length = 4 * i := by
    rw [Writes.length_entries, List.length_take, hcount, Nat.min_eq_left (Nat.le_of_lt hi)]
  rw [← hfront]
  rw [Arguments.block_eq_at_address
    (getElem?_argumentTexts (List.getElem?_eq_getElem hi))] at hend ⊢
  exact Memory.readWord_put_part (by omega)

theorem Invariant.slice_block {i : Nat} {a : String} (ha : arguments[i]? = some a) :
    (m.state.memory.put m.state.memory.codeSize
      (Arguments.block m.state.memory.codeSize (argumentTexts arguments))).slice
        (Arguments.place m.state.memory.codeSize (argumentTexts arguments) i)
        ((Text.bytes a.toList).length + 1) = .ok (Text.bytes a.toList ++ [0]) := by
  have hend := hm.block_end arguments
  have hfront : Arguments.place m.state.memory.codeSize (argumentTexts arguments) i =
      m.state.memory.codeSize + (Arguments.table m.state.memory.codeSize (argumentTexts arguments) ++
        Arguments.strings ((argumentTexts arguments).take i)).length := by
    rw [Arguments.place, List.length_append, Arguments.length_table, Nat.add_assoc]
  have hlength : (Text.bytes a.toList).length + 1 = (Text.bytes a.toList ++ [0]).length := by
    rw [List.length_append, List.length_singleton]
  rw [hfront, hlength]
  rw [Arguments.block_eq_at_argument (getElem?_argumentTexts ha)] at hend ⊢
  exact Memory.slice_put_part (by omega)

theorem Invariant.seeded :
    ∃ s, m.state.seed (argumentTexts arguments) = .ok s ∧ m.Seeded arguments
      (Arguments.place m.state.memory.codeSize (argumentTexts arguments)) (m.start s) := by
  have hend := hm.block_end arguments
  have hcount : (argumentTexts arguments).length = arguments.length := List.length_map _
  have hthree := hm.three_le_registers
  have hpointer : m.state.registers.stackPointer = m.state.registers.size - 1 := rfl
  have hvalue := Registers.value_seeded hthree (Int32.ofNat (argumentTexts arguments).length)
    (Int32.ofNat m.state.memory.codeSize) (Int32.ofNat m.state.memory.size)
  have hlast : m.state.memory.codeSize + 4 * arguments.length ≤ m.state.memory.size :=
    hcount ▸ Nat.le_trans (Nat.le_add_right _ _) (hm.place_le hfits (Nat.le_refl _))
  refine ⟨_, State.seed_of_le (hend.symm ▸ hfits), ?_⟩
  constructor
  case place_zero => rw [Arguments.place_zero, hcount]
  case place_succ => exact fun i a ha => Arguments.place_succ (getElem?_argumentTexts ha)
  case place_length => rw [← hcount, Arguments.place_length, hend]
  case disjoint =>
    intro i j a hij ha
    rw [← Arguments.place_succ (getElem?_argumentTexts ha)]
    exact Arguments.place_le_place hij
  case address =>
    intro i hi
    refine ⟨hcount ▸ Nat.le_add_right _ _, _, ?_, hm.readWord_block hfits hi⟩
    exact hm.toInt_ofNat (hm.place_le hfits (Nat.le_of_lt hi))
  case string => exact fun i a ha => hm.slice_block hfits ha
  case memory_size => exact Memory.size_put ..
  case code_size => rfl
  case outside =>
    intro address hout
    exact (Memory.byte_put _ _ _ _ (by omega)).trans (if_neg (by omega))
  case register_count => simp only [start, Registers.size_update]
  case count =>
    refine (congrArg Int32.toInt (hvalue 0)).trans ?_
    rw [if_neg (by omega), if_neg Nat.zero_ne_one, if_pos rfl, hcount]
    exact hm.toInt_ofNat (by omega)
  case base =>
    refine (congrArg Int32.toInt (hvalue 1)).trans ?_
    rw [if_neg (by omega), if_pos rfl]
    exact hm.toInt_ofNat hm.code_le
  case top =>
    refine (congrArg Int32.toInt (hvalue m.state.registers.stackPointer)).trans ?_
    rw [if_pos rfl]
    exact hm.toInt_ofNat (Nat.le_refl _)
  case others =>
    intro index hzero hone htop
    refine (hvalue index).trans ?_
    rw [if_neg htop, if_neg hone, if_neg hzero]
  case pc => rfl
  case steps => rfl
  case comparison => rfl
  case phase => rfl

end Block

theorem finish_ne_invalidArgument (r : Machine × Option Ending) (objection : Objection) :
    (finish r).2 ≠ .error (.invalidArgument objection) := by
  rcases r with ⟨m, _ | (_ | fault | _)⟩ <;> simp [finish]

theorem Invariant.entry_of_argumentsEnd_gt (hm : m.Invariant config) (hloaded : m.phase ≠ .empty)
    (hidle : m.phase ≠ .running) (hlong : m.state.memory.size < m.argumentsEnd arguments) :
    m.entry arguments = .error (.invalidArgument (.argumentsTooLong arguments.length
      (m.argumentsEnd arguments - m.state.memory.codeSize)
      (m.state.memory.size - m.state.memory.codeSize))) := by
  have hend := hm.block_end arguments
  have hlength : (Arguments.block m.state.memory.codeSize (argumentTexts arguments)).length =
      m.argumentsEnd arguments - m.state.memory.codeSize := by omega
  have hcount : (argumentTexts arguments).length = arguments.length := List.length_map _
  rw [entry_of_idle hloaded hidle, State.seed]
  dsimp only
  rw [if_pos (by omega), hlength, hcount]
  rfl

theorem Invariant.enter_of_argumentsEnd_le (hm : m.Invariant config) (hloaded : m.phase ≠ .empty)
    (hidle : m.phase ≠ .running) (hfits : m.argumentsEnd arguments ≤ m.state.memory.size) :
    ∃ place first, m.Seeded arguments place first ∧ m.entry arguments = .ok first ∧
      Writes.enter arguments m = .ok () first := by
  obtain ⟨s, hs, hseeded⟩ := hm.seeded hfits
  have hentry : m.entry arguments = .ok (m.start s) := by
    rw [entry_of_idle hloaded hidle, hs]
    rfl
  refine ⟨_, _, hseeded, hentry, ?_⟩
  rw [Writes.enter_eq hm.three_le_registers]
  exact Writes.attempt_of_ok hentry

theorem seeds_arguments (hm : m.Invariant config) (hloaded : m.phase ≠ .empty)
    (hidle : m.phase ≠ .running) (arguments : List String) :
    (∀ patience, (∃ objection,
        (m.execute patience arguments).2 = .error (.invalidArgument objection)) ↔
      m.state.memory.size < m.argumentsEnd arguments) ∧
    (m.state.memory.size < m.argumentsEnd arguments → ∀ patience,
      m.execute patience arguments = (m, .error (.invalidArgument (.argumentsTooLong
        arguments.length (m.argumentsEnd arguments - m.state.memory.codeSize)
        (m.state.memory.size - m.state.memory.codeSize))))) ∧
    (m.argumentsEnd arguments ≤ m.state.memory.size → ∃ place first,
      m.Seeded arguments place first ∧ Writes.enter arguments m = .ok () first ∧
      ∀ patience, m.execute patience arguments = finish (first.run patience)) := by
  have hlong : m.state.memory.size < m.argumentsEnd arguments → ∀ patience,
      m.execute patience arguments = (m, .error _) := fun hlong _ =>
    execute_of_refused (hm.entry_of_argumentsEnd_gt hloaded hidle hlong)
  have hshort : m.argumentsEnd arguments ≤ m.state.memory.size → ∃ place first,
      m.Seeded arguments place first ∧ m.entry arguments = .ok first ∧
      Writes.enter arguments m = .ok () first :=
    hm.enter_of_argumentsEnd_le hloaded hidle
  refine ⟨fun patience => ⟨?_, ?_⟩, hlong, fun hfits => ?_⟩
  · rintro ⟨objection, hrefused⟩
    refine Nat.not_le.mp fun hfits => ?_
    obtain ⟨place, first, -, hentry, -⟩ := hshort hfits
    rw [execute_of_entry hentry] at hrefused
    exact finish_ne_invalidArgument _ _ hrefused
  · intro h
    rw [hlong h]
    exact ⟨_, rfl⟩
  · obtain ⟨place, first, hseeded, hentry, hwrites⟩ := hshort hfits
    exact ⟨place, first, hseeded, hwrites, execute_of_entry hentry⟩

def snug : Machine := ((blank ⟨35, 4, 16, false, none⟩).perform 0 (.load [0x01])).1

theorem seeds_arguments_snug :
    snug.argumentsEnd ["é", "", "ab"] = snug.state.memory.size ∧
    (∃ place first, snug.Seeded ["é", "", "ab"] place first ∧
      place 0 = 28 ∧ place 1 = 31 ∧ place 2 = 32 ∧ place 3 = 35 ∧
      first.state.memory.slice 28 3 = .ok [0xC3, 0xA9, 0] ∧
      first.state.memory.slice 31 1 = .ok [0] ∧
      Writes.enter ["é", "", "ab"] snug = .ok () first ∧
      snug.execute 9 ["é", "", "ab"] = finish (first.run 9)) ∧
    snug.execute 9 ["é", "", "abc"] =
      (snug, .error (.invalidArgument (.argumentsTooLong 3 20 19))) := by
  have hc : Config.Valid ⟨35, 4, 16, false, none⟩ := (Config.validate_eq_ok_iff _).mp rfl
  have hm : snug.Invariant ⟨35, 4, 16, false, none⟩ := (invariant_blank hc).perform 0 _
  have hphase : snug.phase = .ready := by decide +kernel
  have hloaded : snug.phase ≠ .empty := by
    rw [hphase]
    decide
  have hidle : snug.phase ≠ .running := by
    rw [hphase]
    decide
  have hend : snug.argumentsEnd ["é", "", "ab"] = snug.state.memory.size := by decide +kernel
  have hlong : snug.state.memory.size < snug.argumentsEnd ["é", "", "abc"] := by decide +kernel
  have hcode : snug.state.memory.codeSize = 16 := by decide +kernel
  obtain ⟨-, -, hseeds⟩ := seeds_arguments hm hloaded hidle ["é", "", "ab"]
  obtain ⟨-, hrefuses, -⟩ := seeds_arguments hm hloaded hidle ["é", "", "abc"]
  obtain ⟨place, first, hseeded, hwrites, hrun⟩ := hseeds (Nat.le_of_eq hend)
  have hzero : place 0 = 28 := hseeded.place_zero.trans (by rw [hcode]; rfl)
  have hone : place 1 = 31 := (hseeded.place_succ 0 "é" rfl).trans (by rw [hzero]; decide +kernel)
  have htwo : place 2 = 32 := (hseeded.place_succ 1 "" rfl).trans (by rw [hone]; decide +kernel)
  have hthree : place 3 = 35 := (hseeded.place_succ 2 "ab" rfl).trans (by rw [htwo]; decide +kernel)
  have hfirst := hseeded.string 0 "é" rfl
  have hsecond := hseeded.string 1 "" rfl
  have hbytes : Text.bytes "é".toList = [0xC3, 0xA9] := by decide +kernel
  rw [hzero, hbytes] at hfirst
  rw [hone] at hsecond
  refine ⟨hend, ⟨place, first, hseeded, hzero, hone, htwo, hthree, hfirst, hsecond, hwrites, hrun 9⟩,
    (hrefuses hlong 9).trans ?_⟩
  decide +kernel

end Machine

end RegisterMachine
