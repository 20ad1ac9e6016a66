import RegisterMachine.Assembly
import RegisterMachine.Proofs.Except

namespace RegisterMachine

namespace Source

def Statement.operands : Statement → List Operand
  | .operation _ os => os
  | .directive _ os => os

def Statement.field? (s : Statement) (k : Nat) : Option (Nat × Nat) :=
  match s with
  | .operation name _ => match Opcode.ofName? name with
    | some (.immediate _) => if k = 1 then some (2, 4) else none
    | some (.branch _) => if k = 0 then some (1, 4) else none
    | _ => none
  | .directive name _ => match Directive.ofName? name with
    | some .int => some (4 * k, 4)
    | some .byte => some (k, 1)
    | _ => none

theorem Operand.asWord_label {symbols : Symbols} {otherwise : Complaint} {name : String} {w : Word}
    (h : (Operand.label name).asWord symbols otherwise = .ok w) :
    ∃ address, symbols.address? name = some address ∧ w = Int32.ofNat address := by
  cases ha : symbols.address? name with
  | none => simp [asWord, word?, ha] at h
  | some address =>
      simp only [asWord, word?, ha, Option.getD_some, Except.ok.injEq] at h
      exact ⟨address, rfl, h.symm⟩

theorem Operand.asRegister_label {otherwise : Complaint} {name : String} {r : Register} :
    (Operand.label name).asRegister otherwise ≠ .ok r := by
  simp [asRegister, register?]

theorem opcode_instruction {symbols : Symbols} {op : Opcode} {os : List Operand} {i : Instruction}
    (h : instruction symbols op os = .ok i) : i.opcode = op := by
  unfold instruction at h
  dsimp only at h
  split at h
  · cases h
    rfl
  · obtain ⟨r, -, h⟩ := Except.bind_eq_ok h
    cases h
    rfl
  · obtain ⟨r, -, h⟩ := Except.bind_eq_ok h
    obtain ⟨q, -, h⟩ := Except.bind_eq_ok h
    cases h
    rfl
  · obtain ⟨r, -, h⟩ := Except.bind_eq_ok h
    obtain ⟨w, -, h⟩ := Except.bind_eq_ok h
    cases h
    rfl
  · obtain ⟨w, -, h⟩ := Except.bind_eq_ok h
    cases h
    rfl
  · cases h

theorem Directive.bytes_cons_eq_ok {symbols : Symbols} {otherwise : Complaint} {d : Directive}
    {o : Operand} {os : List Operand} {bs : List UInt8}
    (h : d.bytes symbols otherwise (o :: os) = .ok bs) :
    ∃ here rest, d.piece symbols otherwise o = .ok here ∧
      d.bytes symbols otherwise os = .ok rest ∧ bs = here ++ rest := by
  obtain ⟨here, hhere, h⟩ := Except.bind_eq_ok h
  obtain ⟨rest, hrest, h⟩ := Except.bind_eq_ok h
  cases h
  exact ⟨here, rest, hhere, hrest, rfl⟩

theorem Directive.length_bytes {symbols : Symbols} {otherwise : Complaint} {d : Directive}
    {os : List Operand} {bs : List UInt8} (h : d.bytes symbols otherwise os = .ok bs) :
    bs.length = d.size os := by
  induction os generalizing bs with
  | nil =>
      cases h
      cases d <;> rfl
  | cons o os ih =>
      obtain ⟨here, rest, hhere, hrest, rfl⟩ := bytes_cons_eq_ok h
      rw [List.length_append, ih hrest]
      cases d with
      | int =>
          obtain ⟨w, -, rfl⟩ := Except.map_eq_ok hhere
          simp only [Word.length_bytes, Directive.size, List.length_cons]
          omega
      | byte =>
          obtain ⟨w, -, rfl⟩ := Except.map_eq_ok hhere
          simp only [Directive.size, List.length_cons, List.length_nil]
          omega
      | string =>
          cases o with
          | quoted raw =>
              cases hhere
              rfl
          | register _ | number _ | label _ => cases hhere

theorem Statement.bytes_eq_ok {symbols : Symbols} {s : Statement} {bs : List UInt8}
    (h : s.bytes symbols = .ok bs) :
    (∃ name os op i, s = .operation name os ∧ Opcode.ofName? name = some op ∧
      instruction symbols op os = .ok i ∧ bs = i.encode) ∨
    ∃ name os d, s = .directive name os ∧ Directive.ofName? name = some d ∧
      d.bytes symbols (.notADirective name) os = .ok bs := by
  cases s with
  | operation name os =>
      unfold bytes at h
      dsimp only at h
      cases hop : Opcode.ofName? name with
      | none =>
          rw [hop] at h
          cases h
      | some op =>
          rw [hop] at h
          obtain ⟨i, hi, rfl⟩ := Except.map_eq_ok h
          exact .inl ⟨name, os, op, i, rfl, hop, hi, rfl⟩
  | directive name os =>
      unfold bytes at h
      dsimp only at h
      cases hd : Directive.ofName? name with
      | none =>
          rw [hd] at h
          cases h
      | some d =>
          rw [hd] at h
          exact .inr ⟨name, os, d, rfl, hd, h⟩

theorem Statement.size_eq_length_bytes {symbols : Symbols} {s : Statement} {bs : List UInt8}
    (h : s.bytes symbols = .ok bs) : s.size = .ok bs.length := by
  rcases bytes_eq_ok h with ⟨name, os, op, i, rfl, hop, hi, rfl⟩ | ⟨name, os, d, rfl, hd, hbytes⟩
  · simp only [size, hop, Instruction.length_encode, Instruction.width, opcode_instruction hi]
  · simp only [size, hd, Directive.length_bytes hbytes]

theorem Line.read_eq_ok {text : List Char} {line : Line} (h : Line.read text = .ok line) :
    Line.read? text = some line := by
  unfold Line.read at h
  cases hread : Line.read? text with
  | none =>
      rw [hread] at h
      cases h
  | some other =>
      rw [hread] at h
      cases h
      rfl

theorem Line.size_eq_length_bytes {symbols : Symbols} {line : Line} {bs : List UInt8}
    (h : line.bytes symbols = .ok bs) : line.size = .ok bs.length := by
  unfold bytes at h
  unfold size
  cases hs : line.statement with
  | none =>
      rw [hs] at h
      cases h
      rfl
  | some statement =>
      rw [hs] at h
      exact Statement.size_eq_length_bytes h

def HoldsAt (row : List UInt8) (place width : Nat) (w : Word) : Prop :=
  ∃ front back, row = front ++ (Word.bytes w).take width ++ back ∧ front.length = place

theorem HoldsAt.within {row : List UInt8} {place width : Nat} {w : Word}
    (h : HoldsAt row place width w) (before after : List UInt8) :
    HoldsAt (before ++ row ++ after) (before.length + place) width w := by
  obtain ⟨front, back, rfl, rfl⟩ := h
  exact ⟨before ++ front, back ++ after, by simp, by simp⟩

theorem instruction_label {symbols : Symbols} {op : Opcode} {os : List Operand} {i : Instruction}
    (h : instruction symbols op os = .ok i) {k : Nat} {name : String}
    (hk : os[k]? = some (.label name)) :
    ∃ address place, symbols.address? name = some address ∧
      HoldsAt i.encode place 4 (Int32.ofNat address) ∧
      ((∃ m, op = .immediate m ∧ k = 1 ∧ place = 2) ∨ ∃ b, op = .branch b ∧ k = 0 ∧ place = 1) := by
  unfold instruction at h
  dsimp only at h
  split at h
  · cases hk
  · obtain ⟨r, hr, -⟩ := Except.bind_eq_ok h
    cases k with
    | zero =>
        cases hk
        exact absurd hr Operand.asRegister_label
    | succ k => cases hk
  · obtain ⟨r, hr, h⟩ := Except.bind_eq_ok h
    obtain ⟨q, hq, -⟩ := Except.bind_eq_ok h
    rcases k with _ | _ | k
    · cases hk
      exact absurd hr Operand.asRegister_label
    · cases hk
      exact absurd hq Operand.asRegister_label
    · cases hk
  · rename_i m x y
    obtain ⟨r, hr, h⟩ := Except.bind_eq_ok h
    obtain ⟨w, hw, h⟩ := Except.bind_eq_ok h
    cases h
    rcases k with _ | _ | k
    · cases hk
      exact absurd hr Operand.asRegister_label
    · cases hk
      obtain ⟨address, haddress, rfl⟩ := Operand.asWord_label hw
      refine ⟨address, 2, haddress, ⟨[(Opcode.immediate m).code, r], [], ?_, rfl⟩,
        .inl ⟨m, rfl, rfl, rfl⟩⟩
      simp [Instruction.encode, Word.bytes]
    · cases hk
  · rename_i b x
    obtain ⟨w, hw, h⟩ := Except.bind_eq_ok h
    cases h
    cases k with
    | zero =>
        cases hk
        obtain ⟨address, haddress, rfl⟩ := Operand.asWord_label hw
        refine ⟨address, 1, haddress, ⟨[(Opcode.branch b).code], [], ?_, rfl⟩,
          .inr ⟨b, rfl, rfl, rfl⟩⟩
        simp [Instruction.encode, Word.bytes]
    | succ k => cases hk
  · cases h

theorem Directive.bytes_label {symbols : Symbols} {otherwise : Complaint} {d : Directive}
    {os : List Operand} {bs : List UInt8} (h : d.bytes symbols otherwise os = .ok bs) {k : Nat}
    {name : String} (hk : os[k]? = some (.label name)) :
    ∃ address width, symbols.address? name = some address ∧
      HoldsAt bs (width * k) width (Int32.ofNat address) ∧
      (d = .int ∧ width = 4 ∨ d = .byte ∧ width = 1) := by
  induction os generalizing bs k with
  | nil => cases hk
  | cons o os ih =>
      obtain ⟨here, rest, hhere, hrest, rfl⟩ := bytes_cons_eq_ok h
      cases k with
      | zero =>
          simp only [List.getElem?_cons_zero, Option.some.injEq] at hk
          subst hk
          cases d with
          | int =>
              obtain ⟨w, hw, rfl⟩ := Except.map_eq_ok hhere
              obtain ⟨address, haddress, rfl⟩ := Operand.asWord_label hw
              exact ⟨address, 4, haddress, ⟨[], rest, rfl, rfl⟩, .inl ⟨rfl, rfl⟩⟩
          | byte =>
              obtain ⟨w, hw, rfl⟩ := Except.map_eq_ok hhere
              obtain ⟨address, haddress, rfl⟩ := Operand.asWord_label hw
              exact ⟨address, 1, haddress, ⟨[], rest, rfl, rfl⟩, .inr ⟨rfl, rfl⟩⟩
          | string => cases hhere
      | succ k =>
          obtain ⟨address, width, haddress, hholds, hd⟩ := ih hrest hk
          refine ⟨address, width, haddress, ?_, hd⟩
          have hlength : here.length = width := by
            rcases hd with ⟨rfl, rfl⟩ | ⟨rfl, rfl⟩
            · obtain ⟨w, -, rfl⟩ := Except.map_eq_ok hhere
              rfl
            · obtain ⟨w, -, rfl⟩ := Except.map_eq_ok hhere
              rfl
          have hwithin := hholds.within here []
          rw [List.append_nil, hlength] at hwithin
          rw [Nat.mul_succ, Nat.add_comm]
          exact hwithin

theorem Statement.bytes_label {symbols : Symbols} {s : Statement} {bs : List UInt8}
    (h : s.bytes symbols = .ok bs) {k : Nat} {name : String}
    (hk : s.operands[k]? = some (.label name)) :
    ∃ address place width, symbols.address? name = some address ∧
      s.field? k = some (place, width) ∧ HoldsAt bs place width (Int32.ofNat address) := by
  rcases bytes_eq_ok h with ⟨_, os, op, i, rfl, hop, hi, rfl⟩ | ⟨_, os, d, rfl, hd, hbytes⟩
  · obtain ⟨address, place, haddress, hholds, hplace⟩ := instruction_label hi hk
    refine ⟨address, place, 4, haddress, ?_, hholds⟩
    rcases hplace with ⟨m, rfl, rfl, rfl⟩ | ⟨b, rfl, rfl, rfl⟩
    · simp only [field?, hop, if_true]
    · simp only [field?, hop, if_true]
  · obtain ⟨address, width, haddress, hholds, hwidth⟩ := Directive.bytes_label hbytes hk
    refine ⟨address, width * k, width, haddress, ?_, hholds⟩
    rcases hwidth with ⟨rfl, rfl⟩ | ⟨rfl, rfl⟩
    · simp only [field?, hd]
    · simp only [field?, hd, Nat.one_mul]

end Source

namespace Assembly

open Source

def extent : List Line → Nat
  | [] => 0
  | line :: lines => line.size.toOption.getD 0 + extent lines

theorem extent_cons {line : Line} {size : Nat} (h : line.size = .ok size) (lines : List Line) :
    extent (line :: lines) = size + extent lines := by
  rw [extent, h]
  rfl

theorem extent_append (front back : List Line) :
    extent (front ++ back) = extent front + extent back := by
  induction front with
  | nil => exact (Nat.zero_add _).symm
  | cons line front ih =>
      rw [List.cons_append, extent, extent, ih, Nat.add_assoc]

theorem extent_reverse (lines : List Line) : extent lines.reverse = extent lines := by
  induction lines with
  | nil => rfl
  | cons line lines ih =>
      rw [List.reverse_cons, extent_append, ih, extent, extent, extent, Nat.add_zero, Nat.add_comm]

theorem blame_eq_ok {α : Type} {number : Nat} {x : Except Complaint α} {a : α}
    (h : blame number x = .ok a) : x = .ok a := by
  cases x with
  | error complaint => cases h
  | ok b =>
      cases h
      rfl

namespace Survey

-- The lines are kept backwards, so the lines before one are those behind it in the list.
structure Sound (s : Survey) : Prop where
  address_eq : s.address = extent s.lines
  address_le : s.address ≤ sizeLimit
  label_iff : ∀ name address, s.symbols.address? name = some address ↔
    ∃ later line earlier, s.lines = later ++ line :: earlier ∧ line.label = some name ∧
      address = extent earlier

theorem sound_start : start.Sound where
  address_eq := rfl
  address_le := Nat.zero_le _
  label_iff := by
    intro name address
    constructor
    · intro h
      cases h
    · rintro ⟨later, line, earlier, h, -, -⟩
      cases later <;> cases h

theorem extend_eq_ok {s t : Survey} {number : Nat} {text : List Char}
    (h : s.extend number text = .ok t) :
    ∃ line size, Line.read? text = some line ∧ line.define s.symbols s.address = .ok t.symbols ∧
      line.size = .ok size ∧ t.lines = line :: s.lines ∧ t.address = s.address + size ∧
      t.address ≤ sizeLimit := by
  obtain ⟨line, hline, h⟩ := Except.bind_eq_ok h
  obtain ⟨symbols, hsymbols, h⟩ := Except.bind_eq_ok h
  obtain ⟨size, hsize, h⟩ := Except.bind_eq_ok h
  have hread := Line.read_eq_ok (blame_eq_ok hline)
  dsimp only at h
  split at h
  · cases h
  · rename_i hle
    cases h
    exact ⟨line, size, hread, blame_eq_ok hsymbols, blame_eq_ok hsize, rfl, rfl, Nat.not_lt.mp hle⟩

theorem address?_define {line : Line} {symbols defined : Symbols} {place : Nat}
    (h : line.define symbols place = .ok defined) (name : String) :
    defined.address? name =
      if line.label = some name then some place else symbols.address? name := by
  unfold Line.define at h
  cases hlabel : line.label with
  | none =>
      rw [hlabel] at h
      cases h
      rfl
  | some own =>
      rw [hlabel] at h
      dsimp only at h
      cases hinsert : symbols.insert own place with
      | error bound =>
          rw [hinsert] at h
          cases h
      | ok extended =>
          rw [hinsert] at h
          cases h
          rw [Symbols.address?_insert hinsert]
          simp only [Option.some.injEq, eq_comm]

theorem define_fresh {line : Line} {symbols defined : Symbols} {place : Nat} {name : String}
    (h : line.define symbols place = .ok defined) (hlabel : line.label = some name) :
    symbols.address? name = none := by
  unfold Line.define at h
  rw [hlabel] at h
  dsimp only at h
  cases hbound : symbols.address? name with
  | none => rfl
  | some bound =>
      rw [(symbols.insert_eq_error_iff name place bound).mpr hbound] at h
      cases h

theorem Sound.extend {s t : Survey} {number : Nat} {text : List Char} (hs : s.Sound)
    (h : s.extend number text = .ok t) : t.Sound := by
  obtain ⟨line, size, -, hdefine, hsize, hlines, haddress, hle⟩ := extend_eq_ok h
  refine ⟨?_, hle, ?_⟩
  · rw [haddress, hlines, extent_cons hsize, hs.address_eq, Nat.add_comm]
  · intro name address
    rw [address?_define hdefine, hlines]
    constructor
    · intro hname
      by_cases hlabel : line.label = some name
      · rw [if_pos hlabel, Option.some.injEq] at hname
        exact ⟨[], line, s.lines, rfl, hlabel, by rw [← hname, hs.address_eq]⟩
      · rw [if_neg hlabel] at hname
        obtain ⟨later, other, earlier, hsplit, hother, rfl⟩ := (hs.label_iff name address).mp hname
        exact ⟨line :: later, other, earlier, by rw [hsplit]; rfl, hother, rfl⟩
    · rintro ⟨later, other, earlier, hsplit, hother, rfl⟩
      cases later with
      | nil =>
          simp only [List.nil_append, List.cons.injEq] at hsplit
          obtain ⟨rfl, rfl⟩ := hsplit
          rw [if_pos hother, hs.address_eq]
      | cons first later =>
          simp only [List.cons_append, List.cons.injEq] at hsplit
          obtain ⟨rfl, hsplit⟩ := hsplit
          have hbound := (hs.label_iff name (extent earlier)).mpr
            ⟨later, other, earlier, hsplit, hother, rfl⟩
          by_cases hlabel : line.label = some name
          · rw [define_fresh hdefine hlabel] at hbound
            cases hbound
          · rw [if_neg hlabel]
            exact hbound

theorem Sound.ofLines {s t : Survey} {number : Nat} {texts : List (List Char)} (hs : s.Sound)
    (h : s.ofLines number texts = .ok t) :
    t.Sound ∧ ∃ lines : List Line, texts.map Line.read? = lines.map some ∧
      t.lines = lines.reverse ++ s.lines := by
  induction texts generalizing s number with
  | nil =>
      cases h
      exact ⟨hs, [], rfl, rfl⟩
  | cons text rest ih =>
      unfold Survey.ofLines at h
      cases hextend : s.extend number text with
      | error e =>
          rw [hextend] at h
          cases h
      | ok next =>
          rw [hextend] at h
          obtain ⟨ht, lines, hread, hlines⟩ := ih (hs.extend hextend) h
          obtain ⟨line, -, hline, -, -, hnext, -, -⟩ := extend_eq_ok hextend
          refine ⟨ht, line :: lines, ?_, ?_⟩
          · rw [List.map_cons, hline, hread, List.map_cons]
          · rw [hlines, hnext, List.reverse_cons, List.append_assoc]
            rfl

end Survey

abbrev Row := Line × List UInt8

def content (rows : List Row) : List UInt8 := rows.flatMap (fun row => row.2)

@[simp] theorem content_cons (row : Row) (rows : List Row) :
    content (row :: rows) = row.2 ++ content rows := rfl

@[simp] theorem content_append (front back : List Row) :
    content (front ++ back) = content front ++ content back := List.flatMap_append

theorem write_eq_ok {symbols : Symbols} {lines : List Line} {written out : Array UInt8}
    {number : Nat} (h : write symbols written number lines = .ok out) :
    ∃ rows : List Row, rows.map Prod.fst = lines ∧
      (∀ row ∈ rows, row.1.bytes symbols = .ok row.2) ∧
      out.toList = written.toList ++ content rows := by
  induction lines generalizing written number with
  | nil =>
      cases h
      refine ⟨[], rfl, ?_, (List.append_nil _).symm⟩
      intro row hrow
      cases hrow
  | cons line rest ih =>
      unfold write at h
      cases hblame : blame number (line.bytes symbols) with
      | error e =>
          rw [hblame] at h
          cases h
      | ok bytes =>
          rw [hblame] at h
          obtain ⟨rows, hlines, hbytes, hout⟩ := ih h
          refine ⟨(line, bytes) :: rows, ?_, ?_, ?_⟩
          · rw [List.map_cons, hlines]
          · intro row hrow
            rcases List.mem_cons.mp hrow with rfl | hrow
            · exact blame_eq_ok hblame
            · exact hbytes row hrow
          · rw [hout, content_cons, Array.toList_appendList, List.append_assoc]

theorem extent_eq_length_content {symbols : Symbols} {rows : List Row}
    (h : ∀ row ∈ rows, row.1.bytes symbols = .ok row.2) :
    extent (rows.map Prod.fst) = (content rows).length := by
  induction rows with
  | nil => rfl
  | cons row rows ih =>
      have hsize := Line.size_eq_length_bytes (h row List.mem_cons_self)
      rw [List.map_cons, extent_cons hsize, content_cons, List.length_append,
        ih (fun other hother => h other (List.mem_cons_of_mem row hother))]

structure Layout (texts : List (List Char)) (a : Assembly) (rows : List Row) : Prop where
  read : texts.map Line.read? = rows.map (fun row => some row.1)
  written : ∀ row ∈ rows, row.1.bytes a.symbols = .ok row.2
  size_eq : ∀ row ∈ rows, row.1.size = .ok row.2.length
  image_eq : a.image = content rows
  image_le : a.image.length ≤ sizeLimit
  label_iff : ∀ name address, a.symbols.address? name = some address ↔
    ∃ before row after, rows = before ++ row :: after ∧ row.1.label = some name ∧
      address = (content before).length
  operand : ∀ before row after statement k name, rows = before ++ row :: after →
    row.1.statement = some statement → statement.operands[k]? = some (.label name) →
    ∃ address place width, ∃ w : Word, a.symbols.address? name = some address ∧
      w.toInt = address ∧ statement.field? k = some (place, width) ∧
      HoldsAt a.image ((content before).length + place) width w

theorem Survey.Sound.label_iff_content {s : Survey} (hs : s.Sound) {symbols : Symbols}
    {rows : List Row} (hlines : s.lines = (rows.map Prod.fst).reverse)
    (hbytes : ∀ row ∈ rows, row.1.bytes symbols = .ok row.2) (name : String) (address : Nat) :
    s.symbols.address? name = some address ↔
      ∃ before row after, rows = before ++ row :: after ∧ row.1.label = some name ∧
        address = (content before).length := by
  have hextent : ∀ before row after, rows = before ++ row :: after →
      extent (before.map Prod.fst) = (content before).length := by
    rintro before row after rfl
    exact extent_eq_length_content
      (fun other hother => hbytes other (List.mem_append_left _ hother))
  rw [hs.label_iff, hlines]
  constructor
  · rintro ⟨later, line, earlier, hsplit, hlabel, rfl⟩
    have hmap : rows.map Prod.fst = earlier.reverse ++ line :: later.reverse := by
      rw [List.reverse_eq_iff] at hsplit
      rw [hsplit]
      simp
    obtain ⟨before, rest, hrows, hbefore, hrest⟩ := List.map_eq_append_iff.mp hmap
    obtain ⟨row, after, rfl, rfl, -⟩ := List.map_eq_cons_iff.mp hrest
    refine ⟨before, row, after, hrows, hlabel, ?_⟩
    rw [← hextent before row after hrows, hbefore, extent_reverse]
  · rintro ⟨before, row, after, hrows, hlabel, rfl⟩
    refine ⟨(after.map Prod.fst).reverse, row.1, (before.map Prod.fst).reverse, ?_, hlabel, ?_⟩
    · rw [hrows]
      simp
    · rw [extent_reverse, hextent before row after hrows]

theorem holdsAt_content {symbols : Symbols} {rows before after : List Row} {row : Row}
    {statement : Statement} {k : Nat} {name : String} (hrows : rows = before ++ row :: after)
    (hbytes : row.1.bytes symbols = .ok row.2) (hstatement : row.1.statement = some statement)
    (hk : statement.operands[k]? = some (.label name)) :
    ∃ address place width, symbols.address? name = some address ∧
      statement.field? k = some (place, width) ∧
      HoldsAt (content rows) ((content before).length + place) width (Int32.ofNat address) := by
  unfold Line.bytes at hbytes
  rw [hstatement] at hbytes
  obtain ⟨address, place, width, haddress, hfield, hholds⟩ := Statement.bytes_label hbytes hk
  refine ⟨address, place, width, haddress, hfield, ?_⟩
  have hwithin := hholds.within (content before) (content after)
  rw [hrows, content_append, content_cons, ← List.append_assoc]
  exact hwithin

theorem layout_of_ofSource {text : String} {a : Assembly} (h : ofSource text = .ok a) :
    ∃ rows, a.Layout (Source.lines text) rows := by
  obtain ⟨survey, hsurvey, h⟩ := Except.bind_eq_ok h
  obtain ⟨image, hwrite, h⟩ := Except.bind_eq_ok h
  cases h
  obtain ⟨hs, lines, hread, hlines⟩ := Survey.sound_start.ofLines hsurvey
  have hreverse : survey.lines.reverse = lines := by
    rw [hlines]
    simp [Survey.start]
  obtain ⟨rows, hrows, hbytes, himage⟩ := write_eq_ok hwrite
  have hlines : survey.lines = (rows.map Prod.fst).reverse := by
    rw [hrows, List.reverse_reverse]
  have hextent : (content rows).length = survey.address := by
    rw [← extent_eq_length_content hbytes, hrows, extent_reverse, hs.address_eq]
  have hlabel := hs.label_iff_content hlines hbytes
  have hle : (content rows).length ≤ sizeLimit := hextent ▸ hs.address_le
  refine ⟨rows, ?_, hbytes, ?_, himage, ?_, hlabel, ?_⟩
  · rw [hread, ← hreverse, ← hrows, List.map_map]
    rfl
  · intro row hrow
    exact Line.size_eq_length_bytes (hbytes row hrow)
  · rw [himage]
    exact hle
  · intro before row after statement k name hsplit hstatement hk
    have hrow : row ∈ rows := hsplit ▸ List.mem_append_right before List.mem_cons_self
    obtain ⟨address, place, width, haddress, hfield, hholds⟩ :=
      holdsAt_content hsplit (hbytes row hrow) hstatement hk
    refine ⟨address, place, width, Int32.ofNat address, haddress, ?_, hfield, himage ▸ hholds⟩
    obtain ⟨front, defining, back, hfront, -, rfl⟩ := (hlabel name address).mp haddress
    apply Int32.toInt_ofNat_of_lt
    rw [hfront, content_append, List.length_append] at hle
    simp only [sizeLimit] at hle
    omega

def pointers : Assembly :=
  ⟨[0x50, 11, 0, 0, 0, 11, 5, 5, 0, 0, 0, 0x40, 0, 11, 0, 0, 0], ⟨[("start", 11), ("ptr", 5)], []⟩⟩

theorem layout_of_ofSource_pointers :
    ofSource "JMP start\nptr: .byte start, ptr\n.int ptr\nstart: MOVI R0, start" = .ok pointers ∧
      ∃ rows, pointers.Layout
        (Source.lines "JMP start\nptr: .byte start, ptr\n.int ptr\nstart: MOVI R0, start") rows := by
  have h : ofSource "JMP start\nptr: .byte start, ptr\n.int ptr\nstart: MOVI R0, start" =
      .ok pointers := Except.eq_ok_of_toOption (by decide +kernel)
  exact ⟨h, layout_of_ofSource h⟩

end Assembly

end RegisterMachine
