import RegisterMachine.Proofs.Arithmetic
import RegisterMachine.Proofs.Stack

namespace RegisterMachine

def littleEndian : List UInt8 → Nat
  | [] => 0
  | b :: bs => b.toNat + 256 * littleEndian bs

theorem Word.toInt_ofBytes (b₀ b₁ b₂ b₃ : UInt8) :
    (ofBytes b₀ b₁ b₂ b₃).toInt = (littleEndian [b₀, b₁, b₂, b₃] : Int).bmod (2 ^ 32) := by
  have hsum : b₀.toNat + 256 * b₁.toNat + 65536 * b₂.toNat + 16777216 * b₃.toNat =
      littleEndian [b₀, b₁, b₂, b₃] := by
    simp only [littleEndian]
    omega
  rw [ofBytes, hsum, Int32.toInt_ofNat']
  rfl

def overlay (row : List UInt8) (start : Nat) (data : List UInt8) : List UInt8 :=
  row.take start ++ data ++ row.drop (start + data.length)

theorem length_overlay {row data : List UInt8} {start : Nat} (h : start + data.length ≤ row.length) :
    (overlay row start data).length = row.length := by
  simp only [overlay, List.length_append, List.length_take, List.length_drop]
  omega

theorem overlay_nil (row : List UInt8) (start : Nat) : overlay row start [] = row := by
  rw [overlay, List.append_nil, List.length_nil, Nat.add_zero, List.take_append_drop]

theorem overlay_cons {row : List UInt8} {start : Nat} (h : start < row.length) (b : UInt8)
    (data : List UInt8) :
    overlay row start (b :: data) = overlay (row.set start b) (start + 1) data := by
  have htake : (row.set start b).take (start + 1) = row.take start ++ [b] := by
    rw [List.take_succ_eq_append_getElem (by rwa [List.length_set]), List.getElem_set_self,
      List.take_set_of_le (Nat.le_refl start)]
  have hdrop : (row.set start b).drop (start + 1 + data.length) =
      row.drop (start + (data.length + 1)) := by
    rw [List.drop_set_of_lt (by omega)]
    congr 1
    omega
  rw [overlay, overlay, htake, hdrop, List.length_cons]
  simp only [List.append_assoc, List.singleton_append]

namespace Memory

theorem toList_putBytes {bytes : Array UInt8} {start : Nat} {data : List UInt8}
    (h : start + data.length ≤ bytes.size) :
    (putBytes bytes start data).toList = overlay bytes.toList start data := by
  induction data generalizing bytes start with
  | nil => exact (overlay_nil bytes.toList start).symm
  | cons b data ih =>
      rw [List.length_cons] at h
      rw [putBytes, ih (by rw [Array.size_setIfInBounds]; omega), Array.toList_setIfInBounds,
        overlay_cons (by rw [Array.length_toList]; omega)]

theorem toList_put {m : Memory} {start : Nat} {data : List UInt8} (h : start + data.length ≤ m.size) :
    (m.put start data).bytes.toList = overlay m.bytes.toList start data := toList_putBytes h

inductive Write where
  | word (address : Int) (w : Word)
  | byte (address : Int) (b : UInt8)
  | bytes (address : Int) (data : List UInt8)
  | code (image : List UInt8)

def write (m : Memory) : Write → Except Error Memory
  | .word address w => (m.writeWord address w).mapError .memoryOutOfRange
  | .byte address b => (m.writeByte address b).mapError .memoryOutOfRange
  | .bytes address data => (m.writeBytes address data).mapError .memoryOutOfRange
  | .code image => m.loadCode image

def written (m : Memory) (w : Write) : Memory :=
  match m.write w with
  | .ok after => after
  | .error _ => m

def afterAll (m : Memory) (writes : List Write) : Memory := writes.foldl written m

namespace Write

def address : Write → Int
  | .word address _ | .byte address _ | .bytes address _ => address
  | .code _ => 0

def data : Write → List UInt8
  | .word _ w => Word.bytes w
  | .byte _ b => [b]
  | .bytes _ data => data
  | .code image => image

def Fits (codeSize size : Nat) : Write → Prop
  | .code image => image.length ≤ codeSize
  | w => 0 ≤ w.address ∧ w.address + w.data.length ≤ size

def refusal (codeSize size : Nat) : Write → Error
  | .code image => .imageTooLarge image.length codeSize
  | w => .memoryOutOfRange ⟨w.address, w.data.length, size⟩

def on (codeSize : Nat) (row : List UInt8) : Write → List UInt8
  | .code image => overlay (overlay row 0 (List.replicate codeSize 0)) 0 image
  | w => overlay row w.address.toNat w.data

instance (codeSize size : Nat) (w : Write) : Decidable (w.Fits codeSize size) := by
  cases w <;> unfold Fits <;> infer_instance

def tried (codeSize : Nat) (row : List UInt8) (w : Write) : List UInt8 :=
  if w.Fits codeSize row.length then w.on codeSize row else row

def allTried (codeSize : Nat) (row : List UInt8) (writes : List Write) : List UInt8 :=
  writes.foldl (tried codeSize) row

end Write

variable {m : Memory}

theorem locate_eq (m : Memory) (address : Int) (width : Nat) : m.locate address width =
    if 0 ≤ address ∧ address + width ≤ m.size then .ok address.toNat
    else .error ⟨address, width, m.size⟩ := rfl

theorem locate_then_put (m : Memory) (address : Int) (data : List UInt8) :
    (m.locate address data.length >>= fun start => pure (m.put start data)).mapError
        Error.memoryOutOfRange =
      if 0 ≤ address ∧ address + data.length ≤ m.size then .ok (m.put address.toNat data)
      else .error (.memoryOutOfRange ⟨address, data.length, m.size⟩) := by
  rw [locate_eq]
  split <;> rfl

theorem put_cases {w : Write} (hcode : ∀ image, w ≠ .code image)
    (hw : m.write w = (m.locate w.address w.data.length >>= fun start =>
      pure (m.put start w.data)).mapError Error.memoryOutOfRange) :
    (w.Fits m.codeSize m.size ∧ ∃ after, m.write w = .ok after ∧ after.codeSize = m.codeSize ∧
      after.bytes.toList = w.on m.codeSize m.bytes.toList) ∨
    (¬ w.Fits m.codeSize m.size ∧ m.write w = .error (w.refusal m.codeSize m.size)) := by
  rw [hw, locate_then_put]
  split
  · rename_i h
    refine .inl ⟨?_, _, rfl, rfl, ?_⟩
    · cases w with
      | code image => exact absurd rfl (hcode image)
      | word | byte | bytes => exact h
    · rw [toList_put (by omega)]
      cases w with
      | code image => exact absurd rfl (hcode image)
      | word | byte | bytes => rfl
  · rename_i h
    cases w with
    | code image => exact absurd rfl (hcode image)
    | word | byte | bytes => exact .inr ⟨h, rfl⟩

theorem write_cases (hm : m.codeSize ≤ m.size) (w : Write) :
    (w.Fits m.codeSize m.size ∧ ∃ after, m.write w = .ok after ∧ after.codeSize = m.codeSize ∧
      after.bytes.toList = w.on m.codeSize m.bytes.toList) ∨
    (¬ w.Fits m.codeSize m.size ∧ m.write w = .error (w.refusal m.codeSize m.size)) := by
  cases w with
  | word address w => exact put_cases (by simp) rfl
  | byte address b => exact put_cases (by simp) rfl
  | bytes address data => exact put_cases (by simp) rfl
  | code image =>
      by_cases h : image.length ≤ m.codeSize
      · refine .inl ⟨h, _, loadCode_eq_put hm h, rfl, ?_⟩
        rw [toList_put (by rw [size_put]; omega), toList_put (by rw [List.length_replicate]; omega)]
        rfl
      · exact .inr ⟨h, if_pos (Nat.lt_of_not_le h)⟩

theorem size_eq_length (m : Memory) : m.size = m.bytes.toList.length := Array.length_toList.symm

theorem codeSize_written (hm : m.codeSize ≤ m.size) (w : Write) :
    (m.written w).codeSize = m.codeSize := by
  unfold written
  rcases write_cases hm w with ⟨-, after, hw, hcode, -⟩ | ⟨-, hw⟩
  · rw [hw]
    exact hcode
  · rw [hw]

theorem toList_written (hm : m.codeSize ≤ m.size) (w : Write) :
    (m.written w).bytes.toList = w.tried m.codeSize m.bytes.toList := by
  unfold written Write.tried
  rw [← size_eq_length]
  rcases write_cases hm w with ⟨hfits, after, hw, -, hbytes⟩ | ⟨hfits, hw⟩
  · rw [hw, if_pos hfits]
    exact hbytes
  · rw [hw, if_neg hfits]

theorem write_eq (hm : m.codeSize ≤ m.size) (w : Write) : m.write w =
    if w.Fits m.codeSize m.size then .ok (m.written w) else .error (w.refusal m.codeSize m.size) := by
  unfold written
  rcases write_cases hm w with ⟨hfits, after, hw, -⟩ | ⟨hfits, hw⟩
  · rw [hw, if_pos hfits]
  · rw [hw, if_neg hfits]

theorem Write.length_on {codeSize : Nat} {row : List UInt8} (hcode : codeSize ≤ row.length) {w : Write}
    (h : w.Fits codeSize row.length) : (w.on codeSize row).length = row.length := by
  cases w with
  | code image =>
      have hfits : image.length ≤ codeSize := h
      have hcleared : (overlay row 0 (List.replicate codeSize 0)).length = row.length :=
        length_overlay (by rw [List.length_replicate]; omega)
      rw [on, length_overlay (by omega), hcleared]
  | word address w | byte address b | bytes address data =>
      obtain ⟨hlow, hhigh⟩ := h
      exact length_overlay (by omega)

theorem size_written (hm : m.codeSize ≤ m.size) (w : Write) : (m.written w).size = m.size := by
  rw [size_eq_length, size_eq_length, toList_written hm, Write.tried]
  split
  · exact Write.length_on (by rwa [← size_eq_length]) ‹_›
  · rfl

theorem afterAll_eq (hm : m.codeSize ≤ m.size) (writes : List Write) :
    (m.afterAll writes).codeSize = m.codeSize ∧ (m.afterAll writes).size = m.size ∧
      (m.afterAll writes).bytes.toList = Write.allTried m.codeSize m.bytes.toList writes := by
  induction writes generalizing m with
  | nil => exact ⟨rfl, rfl, rfl⟩
  | cons w writes ih =>
      have hcode := codeSize_written hm w
      have hsize := size_written hm w
      obtain ⟨ihcode, ihsize, ihbytes⟩ := ih (by rwa [hcode, hsize])
      rw [hcode, toList_written hm w] at ihbytes
      exact ⟨ihcode.trans hcode, ihsize.trans hsize, ihbytes⟩

structure Shows (m : Memory) (row : List UInt8) : Prop where
  contents : m.bytes.toList = row
  size : m.size = row.length
  slice : ∀ (address : Int) (width : Nat), m.slice address width =
    if 0 ≤ address ∧ address + width ≤ row.length then .ok ((row.drop address.toNat).take width)
    else .error ⟨address, width, row.length⟩
  byte : ∀ address : Int,
    (∀ start : Nat, address = start → start < row.length →
      ∃ b, m.readByte address = .ok b ∧ row[start]? = some b) ∧
    (¬ (0 ≤ address ∧ address + 1 ≤ row.length) →
      m.readByte address = .error ⟨address, 1, row.length⟩)
  word : ∀ address : Int,
    (∀ start : Nat, address = start → start + 4 ≤ row.length →
      ∃ w, m.readWord address = .ok w ∧ Word.bytes w = (row.drop start).take 4 ∧
        w.toInt = (littleEndian ((row.drop start).take 4) : Int).bmod (2 ^ 32)) ∧
    (¬ (0 ≤ address ∧ address + 4 ≤ row.length) →
      m.readWord address = .error ⟨address, 4, row.length⟩)
  tail : ∀ address : Nat, m.tail address = row.drop address

theorem slice_eq (m : Memory) (address : Int) (width : Nat) : m.slice address width =
    (m.locate address width).map fun start => (m.bytes.toList.drop start).take width := by
  unfold slice
  cases m.locate address width with
  | error access => rfl
  | ok start =>
      refine congrArg Except.ok ?_
      rw [Array.toList_extract, List.extract, Nat.add_sub_cancel_left]

theorem getElem?_toList {start : Nat} (h : start < m.size) :
    m.bytes.toList[start]? = some (m.byte start) := by
  rw [Array.getElem?_toList, getElem?_bytes h]

theorem take_drop_toList {start : Nat} (h : start + 4 ≤ m.size) :
    (m.bytes.toList.drop start).take 4 =
      [m.byte start, m.byte (start + 1), m.byte (start + 2), m.byte (start + 3)] := by
  refine List.ext_getElem? fun k => ?_
  rw [List.getElem?_take, List.getElem?_drop]
  match k with
  | 0 | 1 | 2 | 3 => exact (if_pos (by decide)).trans (getElem?_toList (by omega))
  | k + 4 => exact if_neg (by omega)

theorem shows_toList (m : Memory) : m.Shows m.bytes.toList where
  contents := rfl
  size := size_eq_length m
  slice := by
    intro address width
    rw [slice_eq, locate_eq, size_eq_length]
    split <;> rfl
  byte := by
    refine fun address => ⟨?_, fun h => ?_⟩
    · rintro start rfl h
      rw [← size_eq_length] at h
      refine ⟨m.byte start, ?_, getElem?_toList h⟩
      rw [readByte_eq, (locate_eq_ok_iff _ _ _ _).mpr ⟨rfl, h⟩]
      rfl
    · have hout : ¬ (0 ≤ address ∧ address + (1 : Nat) ≤ m.bytes.toList.length) := h
      rw [readByte_eq, locate_eq, size_eq_length, if_neg hout]
      rfl
  word := by
    refine fun address => ⟨?_, fun h => ?_⟩
    · rintro start rfl h
      rw [← size_eq_length] at h
      refine ⟨m.word start, ?_, ?_, ?_⟩
      · rw [readWord_eq, (locate_eq_ok_iff _ _ _ _).mpr ⟨rfl, h⟩]
        rfl
      · rw [take_drop_toList h, Memory.word, Word.bytes_ofBytes]
      · rw [take_drop_toList h, Memory.word, Word.toInt_ofBytes]
    · have hout : ¬ (0 ≤ address ∧ address + (4 : Nat) ≤ m.bytes.toList.length) := h
      rw [readWord_eq, locate_eq, size_eq_length, if_neg hout]
      rfl
  tail := by
    intro address
    rw [Memory.tail, Array.toList_extract, List.extract, size_eq_length]
    exact List.take_of_length_le (by rw [List.length_drop])

-- A sum of 64-bit words that stays at the largest of them where it would begin again at zero.
def saturatingSum (a b : UInt64) : UInt64 := if a + b < a then 18446744073709551615 else a + b

theorem toNat_saturatingSum (a b : UInt64) :
    (saturatingSum a b).toNat = min (a.toNat + b.toNat) 18446744073709551615 := by
  have ha := a.toNat_lt
  have hb := b.toNat_lt
  unfold saturatingSum
  split
  · rename_i h
    rw [UInt64.lt_iff_toNat_lt, UInt64.toNat_add] at h
    have hmax : (18446744073709551615 : UInt64).toNat = 18446744073709551615 := rfl
    omega
  · rename_i h
    rw [UInt64.lt_iff_toNat_lt, UInt64.toNat_add] at h
    rw [UInt64.toNat_add]
    omega

def admits (size : UInt64) (address : Int64) (width : UInt64) : Bool :=
  decide (0 ≤ address) && decide (saturatingSum address.toUInt64 width ≤ size)

theorem admits_iff {size : Nat} (hsize : size ≤ capacityLimit) (address : Int64) (width : UInt64) :
    admits (UInt64.ofNat size) address width = true ↔
      0 ≤ address.toInt ∧ address.toInt + width.toNat ≤ size := by
  have hlow : 0 ≤ address ↔ 0 ≤ address.toInt := Int64.le_iff_toInt_le
  have htoNat : (UInt64.ofNat size).toNat = size := by
    rw [UInt64.toNat_ofNat']
    simp only [capacityLimit] at hsize
    omega
  rw [admits, Bool.and_eq_true, decide_eq_true_eq, decide_eq_true_eq, hlow, UInt64.le_iff_toNat_le,
    toNat_saturatingSum, htoNat]
  refine and_congr_right fun hnonneg => ?_
  have haddress : (address.toUInt64.toNat : Int) = address.toInt := by
    have hcond := BitVec.toInt_eq_toNat_cond address.toBitVec
    rw [Int64.toInt_toBitVec] at hcond
    have hbits : address.toBitVec.toNat = address.toUInt64.toNat := rfl
    have hlt := address.toUInt64.toNat_lt
    omega
  simp only [capacityLimit] at hsize
  omega

theorem readWord_put_overlap {start place : Nat} {v : Word} (hstart : start + 4 ≤ m.size)
    (hplace : place + 4 ≤ m.size) :
    ∃ w, (m.put start (Word.bytes v)).readWord place = .ok w ∧ ∀ k < 4, (Word.bytes w)[k]? =
      if start ≤ place + k ∧ place + k < start + 4 then (Word.bytes v)[place + k - start]?
      else m.bytes.toList[place + k]? := by
  have hplace' : place + 4 ≤ (m.put start (Word.bytes v)).size := by rwa [size_put]
  obtain ⟨w, hw, hbytes, -⟩ := ((shows_toList (m.put start (Word.bytes v))).word place).1 place rfl
    (by rwa [← size_eq_length])
  refine ⟨w, hw, fun k hk => ?_⟩
  have hbyte := byte_put m start (Word.bytes v) (place + k) hstart
  rw [hbytes, List.getElem?_take, if_pos hk, List.getElem?_drop, getElem?_toList (by omega), hbyte,
    Word.length_bytes]
  split
  · rw [List.getD_eq_getElem?_getD, List.getElem?_eq_getElem (by rw [Word.length_bytes]; omega),
      Option.getD_some]
  · exact (getElem?_toList (by omega)).symm

theorem written_word_of_le {start : Nat} (h : start + 4 ≤ m.size) (v : Word) :
    m.written (.word start v) = m.put start (Word.bytes v) := by
  rw [written, write, writeWord_of_le h]
  rfl

theorem written_word_of_outside {address : Int} (h : ¬ (0 ≤ address ∧ address + 4 ≤ m.size))
    (v : Word) : m.written (.word address v) = m := by
  have hout : ¬ (0 ≤ address ∧ address + (4 : Nat) ≤ m.size) := h
  rw [written, write, writeWord, locate_eq, if_neg hout]
  rfl

theorem readWord_written_apart {address other : Int} (h : 4 ≤ (address - other).natAbs) (v : Word) :
    (m.written (.word address v)).readWord other = m.readWord other := by
  by_cases hin : 0 ≤ address ∧ address + 4 ≤ m.size
  · obtain ⟨start, rfl⟩ := Int.eq_ofNat_of_zero_le hin.1
    have hstart : start + 4 ≤ m.size := by omega
    rw [written_word_of_le hstart]
    refine readWord_congr (size_put _ _ _) fun k hlow hhigh => ?_
    rw [byte_put _ _ _ _ hstart, Word.length_bytes]
    exact if_neg (by omega)
  · rw [written_word_of_outside hin]

theorem eq_zeroed_of_allocate {supply size codeSize : Nat}
    (h : allocate supply size codeSize = .ok m) : m = zeroed size codeSize := by
  unfold allocate at h
  dsimp only at h
  split at h
  · cases h
  · split at h
    · cases h
    · exact (Except.ok.inj h).symm

theorem behaves_as_row {size codeSize : Nat} (hsize : size ≤ capacityLimit) (writes : List Write) :
    let region := min codeSize size
    let m := (zeroed size codeSize).afterAll writes
    (∀ supply fresh, allocate supply size codeSize = .ok fresh → fresh = zeroed size codeSize) ∧
    m.Shows (Write.allTried region (List.replicate size 0) writes) ∧ m.size = size ∧
    (∀ w, m.write w =
      if w.Fits region size then .ok (m.written w) else .error (w.refusal region size)) ∧
    (∀ (address : Int64) (width : UInt64), admits (UInt64.ofNat size) address width = true ↔
      0 ≤ address.toInt ∧ address.toInt + width.toNat ≤ size) ∧
    (∀ (address : Int) (v : Word), 0 ≤ address ∧ address + 4 ≤ size →
      (m.written (.word address v)).readWord address = .ok v) ∧
    (∀ (address other : Int) (v : Word), 4 ≤ (address - other).natAbs →
      (m.written (.word address v)).readWord other = m.readWord other) ∧
    ∀ (start place : Nat) (v : Word), start + 4 ≤ size → place + 4 ≤ size →
      ∃ w, (m.written (.word start v)).readWord place = .ok w ∧ ∀ k < 4, (Word.bytes w)[k]? =
        if start ≤ place + k ∧ place + k < start + 4 then (Word.bytes v)[place + k - start]?
        else m.bytes.toList[place + k]? := by
  intro region m
  have hfresh : (zeroed size codeSize).codeSize ≤ (zeroed size codeSize).size := by
    rw [size_zeroed]
    exact Nat.min_le_right codeSize size
  obtain ⟨hcode, hlength, hcontents⟩ := afterAll_eq hfresh writes
  have hregion : m.codeSize = region := hcode
  have hmsize : m.size = size := hlength.trans (size_zeroed size codeSize)
  have hzeros : (zeroed size codeSize).bytes.toList = List.replicate size 0 := Array.toList_replicate
  rw [hzeros] at hcontents
  refine ⟨fun _ _ => eq_zeroed_of_allocate, hcontents ▸ shows_toList m, hmsize, fun w => ?_,
    admits_iff hsize, fun address v h => ?_, fun _ _ v h => readWord_written_apart h v,
    fun start place v hstart hplace => ?_⟩
  · rw [← hregion, ← hmsize]
    exact write_eq (by rw [hregion, hmsize]; exact Nat.min_le_right codeSize size) w
  · obtain ⟨start, rfl⟩ := Int.eq_ofNat_of_zero_le h.1
    rw [written_word_of_le (by omega)]
    exact readWord_put (by omega)
  · rw [written_word_of_le (hmsize ▸ hstart)]
    exact readWord_put_overlap (hmsize ▸ hstart) (hmsize ▸ hplace)

theorem behaves_as_row_overlapping :
    8 ≤ capacityLimit ∧
    ((zeroed 8 4).afterAll [.code [1, 2], .word 5 7, .word 3 (-2)]).bytes.toList =
      [1, 2, 0, 254, 255, 255, 255, 0] ∧
    ∃ w, (((zeroed 8 4).afterAll [.code [1, 2], .word 5 7, .word 3 (-2)]).written
        (.word 2 0x04030201)).readWord 4 = .ok w ∧ Word.bytes w = [3, 4, 255, 0] := by
  have hsize : 8 ≤ capacityLimit := by decide
  obtain ⟨-, hshows, -, -, -, -, -, hoverlap⟩ :=
    @behaves_as_row 8 4 hsize [.code [1, 2], .word 5 7, .word 3 (-2)]
  have hrow : ((zeroed 8 4).afterAll [.code [1, 2], .word 5 7, .word 3 (-2)]).bytes.toList =
      [1, 2, 0, 254, 255, 255, 255, 0] := hshows.contents.trans (by decide +kernel)
  refine ⟨hsize, hrow, ?_⟩
  obtain ⟨w, hw, hbytes⟩ := hoverlap 2 4 0x04030201 (by decide) (by decide)
  refine ⟨w, hw, List.ext_getElem? fun k => ?_⟩
  rw [hrow] at hbytes
  match k with
  | 0 => exact (hbytes 0 (by decide)).trans (by decide)
  | 1 => exact (hbytes 1 (by decide)).trans (by decide)
  | 2 => exact (hbytes 2 (by decide)).trans (by decide)
  | 3 => exact (hbytes 3 (by decide)).trans (by decide)
  | k + 4 => rfl

end Memory

end RegisterMachine
