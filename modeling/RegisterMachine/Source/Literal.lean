import RegisterMachine.Numeral
import RegisterMachine.Text.Utf8
import RegisterMachine.Word

namespace RegisterMachine.Source.Literal

def magnitude : List Char → Nat
  | '0' :: 'x' :: ds => Numeral.value 16 ds
  | '0' :: 'X' :: ds => Numeral.value 16 ds
  | ds => Numeral.value 10 ds

def value : List Char → Int
  | '-' :: ds => -(magnitude ds : Int)
  | ds => magnitude ds

def magnitudeLimit : Nat := 9223372036854775807

def magnitude? : List Char → Option Nat
  | '0' :: 'x' :: ds => Numeral.bounded? magnitudeLimit 16 ds
  | '0' :: 'X' :: ds => Numeral.bounded? magnitudeLimit 16 ds
  | ds => Numeral.bounded? magnitudeLimit 10 ds

def integer? : List Char → Option Int
  | '-' :: ds => (magnitude? ds).map (fun n => -(n : Int))
  | ds => (magnitude? ds).map (fun n => (n : Int))

def word? (text : String) : Option Word :=
  match integer? text.toList with
  | some v => if -2147483648 ≤ v ∧ v ≤ 4294967295 then some (Int32.ofInt v) else none
  | none => none

def register? (text : String) : Option UInt8 :=
  (Numeral.bounded? 255 10 text.toList.tail).map UInt8.ofNat

def escape : Char → Char
  | 'n' => '\n'
  | 't' => '\t'
  | '0' => '\x00'
  | c => c

def unescape : List Char → List Char
  | [] => []
  | '\\' :: c :: s => escape c :: unescape s
  | c :: s => c :: unescape s

def stringBytes (raw : String) : List UInt8 := Text.bytes (unescape raw.toList) ++ [0]

theorem magnitude?_eq (ds : List Char) : magnitude? ds =
    if magnitude ds ≤ magnitudeLimit then some (magnitude ds) else none := by
  unfold magnitude? magnitude
  split
  · exact Numeral.bounded?_eq (by decide) _ _
  · exact Numeral.bounded?_eq (by decide) _ _
  · exact Numeral.bounded?_eq (by decide) _ _

theorem integer?_eq (ds : List Char) : integer? ds =
    if (value ds).natAbs ≤ magnitudeLimit then some (value ds) else none := by
  unfold integer? value
  split
  · rw [magnitude?_eq, Int.natAbs_neg, Int.natAbs_natCast]
    split <;> rfl
  · rw [magnitude?_eq, Int.natAbs_natCast]
    split <;> rfl

theorem word?_eq (text : String) : word? text =
    if -2147483648 ≤ value text.toList ∧ value text.toList ≤ 4294967295 then
      some (Int32.ofInt (value text.toList))
    else none := by
  rw [word?, integer?_eq]
  by_cases h : (value text.toList).natAbs ≤ magnitudeLimit
  · rw [if_pos h]
  · simp only [magnitudeLimit] at h
    rw [if_neg (by simpa [magnitudeLimit] using h), if_neg (by omega)]

theorem register?_eq (text : String) : register? text =
    if Numeral.value 10 text.toList.tail ≤ 255 then
      some (UInt8.ofNat (Numeral.value 10 text.toList.tail))
    else none := by
  rw [register?, Numeral.bounded?_eq (by decide)]
  split <;> rfl

end RegisterMachine.Source.Literal
