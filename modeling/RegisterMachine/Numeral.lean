namespace RegisterMachine.Numeral

def digits (base n : Nat) : List Char :=
  if _h : 2 ≤ base ∧ base ≤ n then digits base (n / base) ++ [Nat.digitChar (n % base)]
  else [Nat.digitChar n]
termination_by n
decreasing_by exact Nat.div_lt_self (by omega) (by omega)

def digitValue (c : Char) : Nat :=
  if c.isDigit then c.toNat - '0'.toNat
  else if 'a' ≤ c ∧ c ≤ 'f' then c.toNat - 'a'.toNat + 10
  else if 'A' ≤ c ∧ c ≤ 'F' then c.toNat - 'A'.toNat + 10
  else 0

def isHexDigit (c : Char) : Bool :=
  c.isDigit || ('a' ≤ c && c ≤ 'f') || ('A' ≤ c && c ≤ 'F')

def value (base : Nat) (ds : List Char) : Nat :=
  ds.foldl (fun n c => n * base + digitValue c) 0

def push? (limit base n : Nat) (c : Char) : Option Nat :=
  let next := n * base + digitValue c
  if next ≤ limit then some next else none

def bounded? (limit base : Nat) (ds : List Char) : Option Nat := ds.foldlM (push? limit base) 0

theorem value_concat (base : Nat) (ds : List Char) (c : Char) :
    value base (ds ++ [c]) = value base ds * base + digitValue c := by
  simp [value]

theorem digitValue_digitChar {n : Nat} (h : n < 16) : digitValue (Nat.digitChar n) = n := by
  have : ∀ k : Fin 16, digitValue (Nat.digitChar k.val) = k.val := by decide
  exact this ⟨n, h⟩

theorem value_digits {base : Nat} (hlow : 2 ≤ base) (hhigh : base ≤ 16) (n : Nat) :
    value base (digits base n) = n := by
  induction n using Nat.strongRecOn with
  | ind n ih =>
      rw [digits]
      split
      · rename_i h
        have hlt : n / base < n := Nat.div_lt_self (by omega) (by omega)
        have hmod : n % base < base := Nat.mod_lt _ (by omega)
        rw [value_concat, ih _ hlt, digitValue_digitChar (by omega)]
        exact Nat.div_add_mod' n base
      · rename_i h
        have hn : n < base := by omega
        simp [value, digitValue_digitChar (show n < 16 by omega)]

theorem le_foldl {base : Nat} (hbase : 0 < base) (n : Nat) (ds : List Char) :
    n ≤ ds.foldl (fun n c => n * base + digitValue c) n := by
  induction ds generalizing n with
  | nil => exact Nat.le_refl n
  | cons c ds ih =>
      have hmul : n ≤ n * base := Nat.le_mul_of_pos_right n hbase
      exact Nat.le_trans (Nat.le_trans hmul (Nat.le_add_right _ _)) (ih _)

theorem foldlM_push? {limit base : Nat} (hbase : 0 < base) {n : Nat} (hn : n ≤ limit)
    (ds : List Char) : ds.foldlM (push? limit base) n =
      if ds.foldl (fun n c => n * base + digitValue c) n ≤ limit then
        some (ds.foldl (fun n c => n * base + digitValue c) n)
      else none := by
  induction ds generalizing n with
  | nil => exact (if_pos hn).symm
  | cons c ds ih =>
      rw [List.foldlM_cons, List.foldl_cons]
      by_cases hnext : n * base + digitValue c ≤ limit
      · rw [push?, if_pos hnext]
        exact ih hnext
      · have hle := le_foldl hbase (n * base + digitValue c) ds
        rw [push?, if_neg hnext, if_neg (by omega)]
        rfl

theorem bounded?_eq {base : Nat} (hbase : 0 < base) (limit : Nat) (ds : List Char) :
    bounded? limit base ds = if value base ds ≤ limit then some (value base ds) else none :=
  foldlM_push? hbase (Nat.zero_le limit) ds

def decimal (n : Nat) : String := String.ofList (digits 10 n)

def signed (i : Int) : String :=
  if i < 0 then "-" ++ decimal i.natAbs else decimal i.natAbs

def hexDigits (places n : Nat) : List Char :=
  let ds := digits 16 n
  List.replicate (places - ds.length) '0' ++ ds

def hex (places n : Nat) : String := "0x" ++ String.ofList (hexDigits places n)

end RegisterMachine.Numeral
