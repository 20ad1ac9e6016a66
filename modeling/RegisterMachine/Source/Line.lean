import RegisterMachine.Numeral
import RegisterMachine.Text.Letter

namespace RegisterMachine.Source

inductive Operand where
  | register (text : String)
  | number (text : String)
  | label (name : String)
  | quoted (raw : String)
deriving DecidableEq, Repr

inductive Statement where
  | operation (name : String) (operands : List Operand)
  | directive (name : String) (operands : List Operand)
deriving DecidableEq, Repr

structure Line where
  label : Option String
  statement : Option Statement
deriving DecidableEq, Repr

def isBlank (c : Char) : Bool := c == ' ' || c == '\t'

def skipBlanks (s : List Char) : List Char := s.dropWhile isBlank

def startsName (c : Char) : Bool := c.isAlpha || c == '_'

def continuesName (c : Char) : Bool := Text.isLetterOrNumeral c || c == '_'

def name? : List Char → Option (String × List Char)
  | [] => none
  | c :: s =>
      if startsName c then
        some (String.ofList (c :: s.takeWhile continuesName), s.dropWhile continuesName)
      else none

def run? (p : Char → Bool) (s : List Char) : Option (List Char × List Char) :=
  match s.takeWhile p with
  | [] => none
  | ds => some (ds, s.dropWhile p)

-- Without a digit behind `0x` the `0` is a number by itself.
def magnitude? (s : List Char) : Option (List Char × List Char) :=
  match s with
  | '0' :: x :: r =>
      if x == 'x' || x == 'X' then
        match run? Numeral.isHexDigit r with
        | some (ds, rest) => some ('0' :: x :: ds, rest)
        | none => run? Char.isDigit s
      else run? Char.isDigit s
  | _ => run? Char.isDigit s

def number? (s : List Char) : Option (String × List Char) :=
  match s with
  | '-' :: r => (magnitude? r).map (fun (ds, rest) => (String.ofList ('-' :: ds), rest))
  | _ => (magnitude? s).map (fun (ds, rest) => (String.ofList ds, rest))

def quoted? : List Char → Option (String × List Char)
  | '"' :: r => match r.dropWhile (· != '"') with
    | _ :: rest => some (String.ofList (r.takeWhile (· != '"')), rest)
    | [] => none
  | _ => none

def Operand.ofName (name : String) : Operand :=
  match name.toList with
  | c :: d :: ds =>
      if (c == 'R' || c == 'r') && (d :: ds).all Char.isDigit then .register name else .label name
  | _ => .label name

def operand? (s : List Char) : Option (Operand × List Char) :=
  match quoted? s with
  | some (raw, rest) => some (.quoted raw, rest)
  | none => match number? s with
    | some (text, rest) => some (.number text, rest)
    | none => (name? s).map (fun (name, rest) => (.ofName name, rest))

def comma? (s : List Char) : Option (List Char) :=
  match skipBlanks s with
  | ',' :: r => some (skipBlanks r)
  | _ => none

theorem length_dropWhile_le (p : Char → Bool) (s : List Char) :
    (s.dropWhile p).length ≤ s.length := by
  induction s with
  | nil => simp
  | cons c s ih =>
      rw [List.dropWhile_cons]
      split
      · exact Nat.le_succ_of_le ih
      · exact Nat.le_refl _

theorem comma?_length {s r : List Char} (h : comma? s = some r) : r.length < s.length := by
  unfold comma? at h
  have hs := length_dropWhile_le isBlank s
  split at h
  · rename_i t ht
    have hr := length_dropWhile_le isBlank t
    simp only [Option.some.injEq] at h
    subst h
    simp only [skipBlanks] at ht ⊢
    rw [ht, List.length_cons] at hs
    omega
  · simp at h

theorem run?_length {p : Char → Bool} {s ds r : List Char} (h : run? p s = some (ds, r)) :
    r.length < s.length := by
  cases s with
  | nil => simp [run?] at h
  | cons c s =>
      by_cases hc : p c
      · simp only [run?, List.takeWhile_cons, hc, if_true, List.dropWhile_cons, Option.some.injEq,
          Prod.mk.injEq] at h
        have := length_dropWhile_le p s
        rw [← h.2, List.length_cons]
        omega
      · simp [run?, hc] at h

theorem magnitude?_length {s ds r : List Char} (h : magnitude? s = some (ds, r)) :
    r.length < s.length := by
  unfold magnitude? at h
  split at h
  · rename_i x t
    split at h
    · split at h
      · rename_i hr
        have := run?_length hr
        simp only [Option.some.injEq, Prod.mk.injEq] at h
        rw [← h.2]
        simp only [List.length_cons]
        omega
      · exact run?_length h
    · exact run?_length h
  · exact run?_length h

theorem number?_length {s r : List Char} {text : String} (h : number? s = some (text, r)) :
    r.length < s.length := by
  unfold number? at h
  split at h
  · rename_i t
    cases hm : magnitude? t with
    | none => simp [hm] at h
    | some q =>
        have := magnitude?_length hm
        simp only [hm, Option.map_some, Option.some.injEq, Prod.mk.injEq] at h
        rw [← h.2, List.length_cons]
        omega
  · cases hm : magnitude? s with
    | none => simp [hm] at h
    | some q =>
        have := magnitude?_length hm
        simp only [hm, Option.map_some, Option.some.injEq, Prod.mk.injEq] at h
        rw [← h.2]
        omega

theorem quoted?_length {s r : List Char} {raw : String} (h : quoted? s = some (raw, r)) :
    r.length < s.length := by
  unfold quoted? at h
  split at h
  · rename_i t
    split at h
    · rename_i u hu
      have := length_dropWhile_le (· != '"') t
      simp only [Option.some.injEq, Prod.mk.injEq] at h
      rw [hu, List.length_cons] at this
      rw [← h.2, List.length_cons]
      omega
    · simp at h
  · simp at h

theorem name?_length {s r : List Char} {name : String} (h : name? s = some (name, r)) :
    r.length < s.length := by
  cases s with
  | nil => simp [name?] at h
  | cons c s =>
      simp only [name?] at h
      split at h
      · have := length_dropWhile_le continuesName s
        simp only [Option.some.injEq, Prod.mk.injEq] at h
        rw [← h.2, List.length_cons]
        omega
      · simp at h

theorem operand?_length {s r : List Char} {o : Operand} (h : operand? s = some (o, r)) :
    r.length < s.length := by
  unfold operand? at h
  cases hq : quoted? s with
  | some q =>
      simp only [hq, Option.some.injEq, Prod.mk.injEq] at h
      exact h.2 ▸ quoted?_length hq
  | none =>
      cases hn : number? s with
      | some q =>
          simp only [hq, hn, Option.some.injEq, Prod.mk.injEq] at h
          exact h.2 ▸ number?_length hn
      | none =>
          cases hi : name? s with
          | none => simp [hq, hn, hi] at h
          | some q =>
              simp only [hq, hn, hi, Option.map_some, Option.some.injEq, Prod.mk.injEq] at h
              exact h.2 ▸ name?_length hi

def moreOperands (s : List Char) : List Operand × List Char :=
  match _hc : comma? s with
  | none => ([], s)
  | some r => match _ho : operand? r with
    | none => ([], s)
    | some (o, t) =>
        let (os, rest) := moreOperands t
        (o :: os, rest)
termination_by s.length
decreasing_by
  have := comma?_length _hc
  have := operand?_length _ho
  omega

def operands (s : List Char) : List Operand × List Char :=
  match operand? s with
  | none => ([], s)
  | some (o, t) =>
      let (os, rest) := moreOperands t
      (o :: os, rest)

def named? (s : List Char) : Option ((String × List Operand) × List Char) :=
  (name? s).map (fun (name, r) =>
    let (os, rest) := operands (skipBlanks r)
    ((name, os), rest))

def statement? : List Char → Option (Statement × List Char)
  | '.' :: r => (named? r).map (fun ((name, os), rest) => (.directive name os, rest))
  | s => (named? s).map (fun ((name, os), rest) => (.operation name os, rest))

def label? (s : List Char) : Option String × List Char :=
  match name? s with
  | none => (none, s)
  | some (name, r) => match skipBlanks r with
    | ':' :: rest => (some name, rest)
    | _ => (none, s)

def isComment : List Char → Bool
  | [] => true
  | c :: _ => c == ';' || c == '#'

def Line.read? (s : List Char) : Option Line :=
  let (label, afterLabel) := label? (skipBlanks s)
  let body := skipBlanks afterLabel
  let (statement, rest) := match statement? body with
    | some (statement, rest) => (some statement, rest)
    | none => (none, body)
  if isComment (skipBlanks rest) then some ⟨label, statement⟩ else none

-- The part of the line already read is kept backwards.
def linesFrom (done : List Char) : List Char → List (List Char)
  | [] => match done with
    | [] => []
    | _ => [done.reverse]
  | c :: s =>
      if c = '\n' then
        (match done with
          | '\r' :: line => line.reverse
          | line => line.reverse) :: linesFrom [] s
      else linesFrom (c :: done) s

def lines (text : String) : List (List Char) := linesFrom [] text.toList

end RegisterMachine.Source
