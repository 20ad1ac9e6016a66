import Mathlib.Data.Nat.Digits.Defs
import RegisterMachine.Proofs.Arithmetic
import RegisterMachine.Proofs.Slots

namespace RegisterMachine

theorem Word.toNat_lowByte_ofInt (v : Int) :
    ((lowByte (Int32.ofInt v)).toNat : Int) = v % 256 := by
  have h : (Int32.ofInt v).toUInt32.toNat = (v % 4294967296).toNat := BitVec.toNat_ofInt v
  rw [lowByte, UInt8.toNat_ofNat', h]
  omega

namespace Numeral

theorem eq_toLower {α : Type} (f : Char → α)
    (hascii : ∀ k : Fin 128, f (Char.ofNat k.val).toLower = f (Char.ofNat k.val)) (c : Char) :
    f c.toLower = f c := by
  by_cases h : c.toNat < 128
  · simpa using hascii ⟨c.toNat, h⟩
  · have hupper : ¬ (c.val ≥ 'A'.val ∧ c.val ≤ 'Z'.val) := by
      rintro ⟨-, hz⟩
      exact h (Nat.lt_of_le_of_lt (UInt32.le_iff_toNat_le.mp hz) (by decide))
    have hlower : c.toLower = c := dif_neg hupper
    rw [hlower]

theorem digitValue_toLower (c : Char) : digitValue c.toLower = digitValue c :=
  eq_toLower digitValue (by decide +kernel) c

theorem isHexDigit_toLower (c : Char) : isHexDigit c.toLower = isHexDigit c :=
  eq_toLower isHexDigit (by decide +kernel) c

theorem isDigit_toLower (c : Char) : c.toLower.isDigit = c.isDigit :=
  eq_toLower Char.isDigit (by decide +kernel) c

end Numeral

namespace Source

structure Spells (base : Nat) (text : List Char) (digits : List Nat) : Prop where
  letters : text.map Char.toLower = digits.map Nat.digitChar
  lt : ∀ d ∈ digits, d < base
  ne : digits ≠ []

namespace Spells

variable {base : Nat} {text : List Char} {digits : List Nat} (h : Spells base text digits)

include h

theorem text_ne_nil : text ≠ [] := by
  rintro rfl
  exact h.ne (List.map_eq_nil_iff.mp h.letters.symm)

theorem forall_mem {p : Char → Bool} (hlower : ∀ c, p c.toLower = p c)
    (hdigit : ∀ d < base, p (Nat.digitChar d)) : ∀ c ∈ text, p c := by
  intro c hc
  have hmem : c.toLower ∈ digits.map Nat.digitChar := h.letters ▸ List.mem_map_of_mem hc
  obtain ⟨d, hd, hchar⟩ := List.mem_map.mp hmem
  rw [← hlower, ← hchar]
  exact hdigit d (h.lt d hd)

theorem map_digitValue (hbase : base ≤ 16) : text.map Numeral.digitValue = digits := by
  have hlower : (text.map Char.toLower).map Numeral.digitValue = text.map Numeral.digitValue := by
    rw [List.map_map]
    exact List.map_congr_left (fun c _ => Numeral.digitValue_toLower c)
  rw [← hlower, h.letters, List.map_map]
  have hid : ∀ d ∈ digits, (Numeral.digitValue ∘ Nat.digitChar) d = id d := by
    intro d hd
    exact Numeral.digitValue_digitChar (Nat.lt_of_lt_of_le (h.lt d hd) hbase)
  rw [List.map_congr_left hid, List.map_id]

theorem value_eq (hbase : base ≤ 16) :
    Numeral.value base text = Nat.ofDigits base digits.reverse := by
  rw [← h.map_digitValue hbase, Nat.ofDigits_eq_foldr, List.foldr_reverse, List.foldl_map,
    Numeral.value]
  simp only [Nat.add_comm, Nat.mul_comm, Nat.cast_id]

end Spells

theorem Spells.forall_isDigit {text : List Char} {digits : List Nat} (h : Spells 10 text digits) :
    ∀ c ∈ text, c.isDigit := by
  have hall : ∀ k : Fin 10, (Nat.digitChar k.val).isDigit := by decide
  exact h.forall_mem Numeral.isDigit_toLower (fun d hd => hall ⟨d, hd⟩)

theorem Spells.forall_isHexDigit {text : List Char} {digits : List Nat} (h : Spells 16 text digits) :
    ∀ c ∈ text, Numeral.isHexDigit c := by
  have hall : ∀ k : Fin 16, Numeral.isHexDigit (Nat.digitChar k.val) := by decide
  exact h.forall_mem Numeral.isHexDigit_toLower (fun d hd => hall ⟨d, hd⟩)

inductive Amounts : List Char → Nat → Prop
  | decimal {text : List Char} {digits : List Nat} (h : Spells 10 text digits) :
      Amounts text (Nat.ofDigits 10 digits.reverse)
  | hexadecimal {x : Char} (hx : x = 'x' ∨ x = 'X') {text : List Char} {digits : List Nat}
      (h : Spells 16 text digits) : Amounts ('0' :: x :: text) (Nat.ofDigits 16 digits.reverse)

inductive Denotes : List Char → Int → Prop
  | plain {text : List Char} {n : Nat} (h : Amounts text n) : Denotes text n
  | minus {text : List Char} {n : Nat} (h : Amounts text n) : Denotes ('-' :: text) (-n)

section Value

variable {text : List Char}

theorem Amounts.isMagnitude {n : Nat} (h : Amounts text n) : IsMagnitude text := by
  cases h with
  | decimal h => exact .decimal h.text_ne_nil h.forall_isDigit
  | hexadecimal hx h => exact .hexadecimal hx h.text_ne_nil h.forall_isHexDigit

theorem Amounts.magnitude_eq {n : Nat} (h : Amounts text n) : Literal.magnitude text = n := by
  cases h with
  | decimal h => rw [Literal.magnitude_decimal h.forall_isDigit, h.value_eq (by decide)]
  | hexadecimal hx h => rw [Literal.magnitude_hexadecimal hx, h.value_eq (by decide)]

theorem Denotes.isNumber {v : Int} (h : Denotes text v) : IsNumber text := by
  cases h with
  | plain h => exact .plain h.isMagnitude
  | minus h => exact .minus h.isMagnitude

theorem Denotes.value_eq {v : Int} (h : Denotes text v) : Literal.value text = v := by
  cases h with
  | plain h => rw [Literal.value_plain h.isMagnitude, h.magnitude_eq]
  | minus h => rw [Literal.value_minus, h.magnitude_eq]

theorem Denotes.asWord_eq {v : Int} (h : Denotes text v) (symbols : Symbols) (otherwise : Complaint) :
    (Operand.number (String.ofList text)).asWord symbols otherwise =
      if -2 ^ 31 ≤ v ∧ v ≤ 2 ^ 32 - 1 then .ok (Int32.ofInt v)
      else .error (.badLiteral (String.ofList text)) := by
  rw [Operand.asWord, Operand.word?, Literal.word?_eq, String.toList_ofList, h.value_eq]
  norm_num
  by_cases hrange : -2147483648 ≤ v ∧ v ≤ 4294967295
  · rw [if_pos hrange, if_pos hrange]
  · rw [if_neg hrange, if_neg hrange]

end Value

theorem Spells.asRegister_eq {text : List Char} {digits : List Nat} (h : Spells 10 text digits)
    (x : Char) (otherwise : Complaint) :
    (Operand.register (String.ofList (x :: text))).asRegister otherwise =
      if Nat.ofDigits 10 digits.reverse ≤ 255 then .ok (UInt8.ofNat (Nat.ofDigits 10 digits.reverse))
      else .error (.noSuchRegister (String.ofList (x :: text))) := by
  rw [Operand.asRegister, Operand.register?, Literal.register?_eq, String.toList_ofList,
    List.tail_cons, h.value_eq (by decide)]
  by_cases hrange : Nat.ofDigits 10 digits.reverse ≤ 255
  · rw [if_pos hrange, if_pos hrange, Option.getD_some]
  · rw [if_neg hrange, if_neg hrange, Option.getD_some]

inductive Holds (v : Int) : Slot → List UInt8 → Prop
  | word {w : Word} (h : ∀ u : Word, u.toInt ≡ v [ZMOD 2 ^ 32] ↔ u = w) : Holds v .word (Word.bytes w)
  | byte {b : UInt8} (h : (b.toNat : Int) = v % 256) : Holds v .byte [b]

inductive Names (n : Nat) : Slot → List UInt8 → Prop
  | register {r : Register} (h : r.toNat = n) : Names n .register [r]

end Source

namespace Assembly

open Source

def TurnsOn (source : String) (earlier : List (List Char)) (s : Statement) (k : Nat) (inRange : Prop)
    (filling : Slot → List UInt8 → Prop) (complaint : Complaint) : Prop :=
  ∃ place slot, s.slot? k = some (place, slot) ∧
    (inRange → ∃ a front here back, ofSource source = .ok a ∧ a.image = front ++ here ++ back ∧
      front.length = extent (earlier.filterMap Line.read?) + place ∧ filling slot here) ∧
    (¬ inRange → ofSource source = .error (.onLine (earlier.length + 1) complaint))

theorem RightBut.turnsOn {source : String} {earlier : List (List Char)} {s : Statement} {k : Nat}
    {o stand : Operand} (h : RightBut source earlier s k o stand) (hstand : ¬ stand.IsString)
    {inRange : Prop} [Decidable inRange] {filling : Slot → List UInt8 → Prop}
    {complaint : Complaint} (hfill : ∀ symbols otherwise slot,
      Except.Succeeds (Slot.fill symbols otherwise stand slot) →
      ∃ here, slot.fill symbols otherwise o = (if inRange then .ok here else .error complaint) ∧
        (inRange → filling slot here)) :
    TurnsOn source earlier s k inRange filling complaint := by
  obtain ⟨symbols, otherwise, place, slot, front, back, hslot, hgood, hfront, hsource⟩ :=
    h.ofSource_eq hstand
  obtain ⟨here, hhere, hfilling⟩ := hfill symbols otherwise slot hgood
  rw [hhere] at hsource
  refine ⟨place, slot, hslot, fun hrange => ?_, fun hrange => ?_⟩
  · rw [if_pos hrange] at hsource
    exact ⟨_, front, here, back, hsource, rfl, hfront, hfilling hrange⟩
  · rw [if_neg hrange] at hsource
    exact hsource

theorem turnsOn_number {literal : List Char} {v : Int} (h : Denotes literal v) {source : String}
    {earlier : List (List Char)} {s : Statement} {k : Nat}
    (hsource : RightBut source earlier s k (.number (String.ofList literal)) (.number "0")) :
    TurnsOn source earlier s k (-2 ^ 31 ≤ v ∧ v ≤ 2 ^ 32 - 1) (Holds v)
      (.badLiteral (String.ofList literal)) := by
  refine hsource.turnsOn id fun symbols otherwise slot hgood => ?_
  have hword := h.asWord_eq symbols otherwise
  cases slot with
  | register => exact absurd hgood (Except.not_succeeds_error otherwise)
  | word =>
      refine ⟨Word.bytes (Int32.ofInt v), ?_, fun _ => .word fun u => Word.modEq_iff⟩
      rw [Slot.fill, hword]
      split <;> rfl
  | byte =>
      refine ⟨[Word.lowByte (Int32.ofInt v)], ?_, fun _ => .byte (Word.toNat_lowByte_ofInt v)⟩
      rw [Slot.fill, hword]
      split <;> rfl

theorem turnsOn_register {x : Char} {text : List Char} {digits : List Nat} (h : Spells 10 text digits)
    {source : String} {earlier : List (List Char)} {s : Statement} {k : Nat}
    (hsource : RightBut source earlier s k (.register (String.ofList (x :: text)))
      (.register "R0")) :
    TurnsOn source earlier s k (Nat.ofDigits 10 digits.reverse ≤ 255)
      (Names (Nat.ofDigits 10 digits.reverse)) (.noSuchRegister (String.ofList (x :: text))) := by
  refine hsource.turnsOn id fun symbols otherwise slot hgood => ?_
  have hregister := h.asRegister_eq x otherwise
  cases slot with
  | word | byte => exact absurd hgood (Except.not_succeeds_error otherwise)
  | register =>
      refine ⟨[UInt8.ofNat (Nat.ofDigits 10 digits.reverse)], ?_, fun hrange => .register ?_⟩
      · rw [Slot.fill, hregister]
        split <;> rfl
      · rw [UInt8.toNat_ofNat']
        omega

theorem takes_by_value :
    (∀ literal v, Denotes literal v →
      (∀ rest, Stops continuesName rest →
        operand? (literal ++ rest) = some (.number (String.ofList literal), rest)) ∧
      (∀ symbols otherwise,
        Except.Succeeds ((Operand.number (String.ofList literal)).asWord symbols otherwise) ↔
          -2 ^ 31 ≤ v ∧ v ≤ 2 ^ 32 - 1) ∧
      ∀ source earlier s k,
        RightBut source earlier s k (.number (String.ofList literal)) (.number "0") →
        TurnsOn source earlier s k (-2 ^ 31 ≤ v ∧ v ≤ 2 ^ 32 - 1) (Holds v)
          (.badLiteral (String.ofList literal))) ∧
    ∀ x text digits, x = 'R' ∨ x = 'r' → Spells 10 text digits →
      (∀ rest, Stops continuesName rest →
        operand? (x :: text ++ rest) = some (.register (String.ofList (x :: text)), rest)) ∧
      (∀ otherwise,
        Except.Succeeds ((Operand.register (String.ofList (x :: text))).asRegister otherwise) ↔
          Nat.ofDigits 10 digits.reverse ≤ 255) ∧
      ∀ source earlier s k,
        RightBut source earlier s k (.register (String.ofList (x :: text))) (.register "R0") →
        TurnsOn source earlier s k (Nat.ofDigits 10 digits.reverse ≤ 255)
          (Names (Nat.ofDigits 10 digits.reverse)) (.noSuchRegister (String.ofList (x :: text))) := by
  refine ⟨fun literal v h => ⟨fun rest => operand?_number h.isNumber, fun symbols otherwise => ?_,
    fun source earlier s k => turnsOn_number h⟩, fun x text digits hx h =>
    ⟨fun rest => operand?_register hx h.text_ne_nil h.forall_isDigit, fun otherwise => ?_,
      fun source earlier s k => turnsOn_register h⟩⟩
  · rw [h.asWord_eq]
    split <;> simp_all [Except.Succeeds]
  · rw [h.asRegister_eq]
    split <;> simp_all [Except.Succeeds]

theorem takes_by_value_brimming :
    (Spells 10 "007".toList [0, 0, 7] ∧ ∃ a front back,
      ofSource "x:\nMOVI r007, -0X80000000" = .ok a ∧ a.image = front ++ [7] ++ back ∧
      front.length = 1) ∧
    (Denotes "-0X80000000".toList (-2 ^ 31) ∧ ∃ a front back,
      ofSource "x:\nMOVI r007, -0X80000000" = .ok a ∧
      a.image = front ++ [0, 0, 0, 0x80] ++ back ∧ front.length = 2) ∧
    Denotes "9223372036854775808".toList (2 ^ 63) ∧
      ofSource "x:\n.byte x, 9223372036854775808" =
        .error (.onLine 2 (.badLiteral "9223372036854775808")) := by
  have hseven : Spells 10 "007".toList [0, 0, 7] := ⟨by decide, by decide, by decide⟩
  have hdigits : Spells 16 "80000000".toList [8, 0, 0, 0, 0, 0, 0, 0] :=
    ⟨by decide, by decide, by decide⟩
  have hleast : Denotes "-0X80000000".toList (-2 ^ 31) := .minus (.hexadecimal (.inr rfl) hdigits)
  have hdecimal : Spells 10 "9223372036854775808".toList
      [9, 2, 2, 3, 3, 7, 2, 0, 3, 6, 8, 5, 4, 7, 7, 5, 8, 0, 8] := ⟨by decide, by decide, by decide⟩
  have hlarge : Denotes "9223372036854775808".toList (2 ^ 63) := .plain (.decimal hdecimal)
  let movi : Line := ⟨none, some (.operation "MOVI" [.register "r007", .number "-0X80000000"])⟩
  let byte : Line := ⟨none, some (.directive "byte" [.label "x", .number "9223372036854775808"])⟩
  have hothers : ∀ symbols, ∀ other ∈ ["x:".toList] ++ [], ∃ line, Line.read? other = some line ∧
      Except.Succeeds (line.bytes symbols) := by
    intro symbols other hother
    rw [List.append_nil, List.mem_singleton] at hother
    exact ⟨⟨some "x", none⟩, hother ▸ by decide +kernel, Except.succeeds_ok []⟩
  have hmovi : Survey.start.ofLines 1 (Source.lines "x:\nMOVI r007, -0X80000000") =
      .ok ⟨[movi, ⟨some "x", none⟩], ⟨[("x", 0)], []⟩, 6⟩ := by decide +kernel
  have hbyte : Survey.start.ofLines 1 (Source.lines "x:\n.byte x, 9223372036854775808") =
      .ok ⟨[byte, ⟨some "x", none⟩], ⟨[("x", 0)], []⟩, 2⟩ := by decide +kernel
  have hlines : Source.lines "x:\nMOVI r007, -0X80000000" =
      ["x:".toList] ++ "MOVI r007, -0X80000000".toList :: [] := by decide +kernel
  have hread : Line.read? "MOVI r007, -0X80000000".toList = some movi := by decide +kernel
  have hbyteLines : Source.lines "x:\n.byte x, 9223372036854775808" =
      ["x:".toList] ++ ".byte x, 9223372036854775808".toList :: [] := by decide +kernel
  have hbyteRead : Line.read? ".byte x, 9223372036854775808".toList = some byte := by decide +kernel
  refine ⟨⟨hseven, ?_⟩, ⟨hleast, ?_⟩, hlarge, ?_⟩
  · have hright := rightBut_of_survey (k := 0) hmovi hlines hread (hothers _) rfl
      (.register "R0") ⟨[0x40, 0, 0, 0, 0, 0x80], by decide +kernel⟩
    obtain ⟨place, slot, hfound, hin, -⟩ :=
      (takes_by_value.2 'r' _ _ (.inr rfl) hseven).2.2 _ _ _ _ hright
    cases hfound
    obtain ⟨a, front, here, back, ha, himage, hfront, hnames⟩ := hin (by decide)
    cases hnames with
    | @register r hr =>
      cases (UInt8.toNat_inj.mp hr : r = 7)
      exact ⟨a, front, back, ha, himage, hfront⟩
  · have hright := rightBut_of_survey (k := 1) hmovi hlines hread (hothers _) rfl
      (.number "0") ⟨[0x40, 7, 0, 0, 0, 0], by decide +kernel⟩
    obtain ⟨place, slot, hfound, hin, -⟩ := (takes_by_value.1 _ _ hleast).2.2 _ _ _ _ hright
    cases hfound
    obtain ⟨a, front, here, back, ha, himage, hfront, hholds⟩ := hin (by decide)
    cases hholds with
    | word hw =>
      cases (hw (-2147483648)).mp (by decide)
      exact ⟨a, front, back, ha, himage, hfront⟩
  · have hright := rightBut_of_survey (k := 1) hbyte hbyteLines hbyteRead (hothers _) rfl
      (.number "0") ⟨[0, 0], by decide +kernel⟩
    obtain ⟨place, slot, -, -, hout⟩ := (takes_by_value.1 _ _ hlarge).2.2 _ _ _ _ hright
    exact hout (by decide)

end Assembly

end RegisterMachine
