namespace RegisterMachine.Text

def bytes (s : List Char) : List UInt8 := s.flatMap String.utf8EncodeChar

structure Lead where
  following : Nat
  value : Nat
  low : Nat
  high : Nat

def lead? (b : UInt8) : Option Lead :=
  let n := b.toNat
  if n < 0x80 then some ⟨0, n, 0x80, 0xBF⟩
  else if n < 0xC2 then none
  else if n < 0xE0 then some ⟨1, n - 0xC0, 0x80, 0xBF⟩
  else if n = 0xE0 then some ⟨2, 0, 0xA0, 0xBF⟩
  else if n = 0xED then some ⟨2, 0xD, 0x80, 0x9F⟩
  else if n < 0xF0 then some ⟨2, n - 0xE0, 0x80, 0xBF⟩
  else if n = 0xF0 then some ⟨3, 0, 0x90, 0xBF⟩
  else if n < 0xF4 then some ⟨3, n - 0xF0, 0x80, 0xBF⟩
  else if n = 0xF4 then some ⟨3, 4, 0x80, 0x8F⟩
  else none

-- A byte out of range stops it and is left over for the next character.
def follow : Lead → List UInt8 → Option Nat × List UInt8
  | ⟨0, value, _, _⟩, bs => (some value, bs)
  | ⟨_ + 1, _, _, _⟩, [] => (none, [])
  | ⟨owed + 1, value, low, high⟩, b :: bs =>
      if low ≤ b.toNat ∧ b.toNat ≤ high then
        follow ⟨owed, value * 64 + (b.toNat - 0x80), 0x80, 0xBF⟩ bs
      else (none, b :: bs)

theorem length_follow_le (l : Lead) (bs : List UInt8) : (follow l bs).2.length ≤ bs.length := by
  fun_induction follow l bs <;> simp_all
  omega

def characters (bs : List UInt8) : List (Option Char) :=
  match bs with
  | [] => []
  | b :: rest => match lead? b with
    | none => none :: characters rest
    | some l =>
        have : (follow l rest).2.length < rest.length + 1 := by
          have := length_follow_le l rest
          omega
        (follow l rest).1.map Char.ofNat :: characters (follow l rest).2
termination_by bs.length

def decode? (bs : List UInt8) : Option (List Char) := (characters bs).mapM id

def decodeLossy (bs : List UInt8) : List Char :=
  (characters bs).map (fun c => c.getD (Char.ofNat 0xFFFD))

end RegisterMachine.Text
