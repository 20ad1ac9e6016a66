namespace RegisterMachine

structure Symbols where
  labels : List (String × Nat)
  aliases : List (String × Nat)
deriving DecidableEq, Repr

namespace Symbols

def empty : Symbols := ⟨[], []⟩

def address? (s : Symbols) (name : String) : Option Nat :=
  (s.labels.lookup name).or (s.aliases.lookup name)

def name? (s : Symbols) (address : Nat) : Option String :=
  (s.labels.find? (fun entry => entry.2 == address)).map (·.1)

def insert (s : Symbols) (name : String) (address : Nat) : Except Nat Symbols :=
  match s.address? name with
  | some bound => .error bound
  | none => match s.name? address with
    | none => .ok { s with labels := (name, address) :: s.labels }
    | some _ => .ok { s with aliases := (name, address) :: s.aliases }

def size (s : Symbols) : Nat := s.labels.length + s.aliases.length

def isEmpty (s : Symbols) : Bool := s.size == 0

theorem insert_eq_error_iff (s : Symbols) (name : String) (address bound : Nat) :
    s.insert name address = .error bound ↔ s.address? name = some bound := by
  unfold insert
  cases h : s.address? name with
  | some b => simp
  | none => cases s.name? address <;> simp

theorem address?_insert {s t : Symbols} {name : String} {address : Nat}
    (h : s.insert name address = .ok t) (other : String) :
    t.address? other = if other = name then some address else s.address? other := by
  unfold insert at h
  cases ha : s.address? name with
  | some b => simp [ha] at h
  | none =>
      have hlabels : s.labels.lookup name = none := (Option.or_eq_none_iff.mp ha).1
      by_cases e : other = name
      · subst e
        rw [if_pos rfl]
        cases hn : s.name? address with
        | none =>
            simp only [ha, hn, Except.ok.injEq] at h
            subst h
            simp [address?]
        | some n =>
            simp only [ha, hn, Except.ok.injEq] at h
            subst h
            simp [address?, hlabels]
      · have hne : (other == name) = false := by simpa using e
        rw [if_neg e]
        cases hn : s.name? address with
        | none =>
            simp only [ha, hn, Except.ok.injEq] at h
            subst h
            simp [address?, List.lookup_cons, hne]
        | some n =>
            simp only [ha, hn, Except.ok.injEq] at h
            subst h
            simp [address?, List.lookup_cons, hne]

theorem size_insert {s t : Symbols} {name : String} {address : Nat}
    (h : s.insert name address = .ok t) : t.size = s.size + 1 := by
  unfold insert at h
  cases ha : s.address? name with
  | some b => simp [ha] at h
  | none =>
      cases hn : s.name? address with
      | none =>
          simp only [ha, hn, Except.ok.injEq] at h
          subst h
          simp only [size, List.length_cons]
          omega
      | some n =>
          simp only [ha, hn, Except.ok.injEq] at h
          subst h
          simp only [size, List.length_cons]
          omega

end Symbols

end RegisterMachine
