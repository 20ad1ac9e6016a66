import Mathlib.Order.Bounds.Basic
import RegisterMachine.Proofs.Layout

namespace RegisterMachine

theorem Opcode.ofMnemonic?_mnemonic (op : Opcode) : ofMnemonic? op.mnemonic = some op := by
  have hall : ∀ op ∈ all, ofMnemonic? op.mnemonic = some op := by decide +kernel
  exact hall op op.mem_all

theorem Opcode.ofName?_eq_some_iff {name : String} {op : Opcode} :
    ofName? name = some op ↔ op.mnemonic = String.ofList (Text.capitals name.toList) := by
  unfold ofName?
  constructor
  · intro h
    unfold ofMnemonic? at h
    have hfound := List.find?_some h
    exact eq_of_beq hfound
  · intro h
    rw [← h]
    exact op.ofMnemonic?_mnemonic

namespace Source

namespace Operand

def IsRegister : Operand → Prop
  | .register text => Numeral.value 10 text.toList.tail ≤ 255
  | _ => False

def IsValue (defined : String → Prop) : Operand → Prop
  | .number text =>
      -2147483648 ≤ Literal.value text.toList ∧ Literal.value text.toList ≤ 4294967295
  | .label name => defined name
  | _ => False

def IsString : Operand → Prop
  | .quoted _ => True
  | _ => False

theorem asRegister_succeeds_iff (otherwise : Complaint) (o : Operand) :
    Except.Succeeds (o.asRegister otherwise) ↔ o.IsRegister := by
  cases o with
  | register text =>
      simp only [asRegister, register?, Literal.register?_eq, IsRegister, Option.getD_some]
      split <;> simp_all [Except.Succeeds]
  | number | label | quoted => simp [asRegister, register?, IsRegister, Except.Succeeds]

variable {symbols : Symbols} {defined : String → Prop}
  (hdefined : ∀ name, (∃ address, symbols.address? name = some address) ↔ defined name)

include hdefined

theorem asWord_succeeds_iff (otherwise : Complaint) (o : Operand) :
    Except.Succeeds (o.asWord symbols otherwise) ↔ o.IsValue defined := by
  cases o with
  | number text =>
      simp only [asWord, word?, Literal.word?_eq, IsValue, Option.getD_some]
      split <;> simp_all [Except.Succeeds]
  | label name =>
      rw [IsValue, ← hdefined]
      cases h : symbols.address? name <;> simp [asWord, word?, h, Except.Succeeds]
  | register | quoted => simp [asWord, word?, IsValue, Except.Succeeds]

end Operand

def Takes (defined : String → Prop) : Format → List Operand → Prop
  | .nullary, [] => True
  | .register, [a] => a.IsRegister
  | .registerPair, [a, b] => a.IsRegister ∧ b.IsRegister
  | .registerImmediate, [a, b] => a.IsRegister ∧ b.IsValue defined
  | .immediate, [a] => a.IsValue defined
  | _, _ => False

namespace Statement

def Known : Statement → Prop
  | .operation name _ =>
      ∃ op : Opcode, op.mnemonic = String.ofList (Text.capitals name.toList)
  | .directive name _ => name ∈ ["int", "byte", "string"]

def Fits (defined : String → Prop) : Statement → Prop
  | .operation name os => ∀ op : Opcode,
      op.mnemonic = String.ofList (Text.capitals name.toList) → Takes defined op.format os
  | .directive name os => ∀ o ∈ os, if name = "string" then o.IsString else o.IsValue defined

end Statement

theorem Directive.ofName?_eq_none_iff {name : String} :
    Directive.ofName? name = none ↔ name ∉ ["int", "byte", "string"] := by
  unfold ofName?
  split <;> simp_all

theorem Directive.eq_string_iff {name : String} {d : Directive} (h : ofName? name = some d) :
    name = "string" ↔ d = .string := by
  unfold ofName? at h
  split at h <;> cases h <;> simp

theorem Statement.size_succeeds_iff (s : Statement) : Except.Succeeds s.size ↔ s.Known := by
  cases s with
  | operation name os =>
      simp only [size, Known, ← Opcode.ofName?_eq_some_iff]
      cases Opcode.ofName? name <;> simp [Except.Succeeds]
  | directive name os =>
      simp only [size, Known]
      cases hd : Directive.ofName? name with
      | none => simp [Except.Succeeds, Directive.ofName?_eq_none_iff.mp hd]
      | some d =>
          refine iff_of_true (Except.succeeds_ok _) (Decidable.not_not.mp fun hnot => ?_)
          rw [Directive.ofName?_eq_none_iff.mpr hnot] at hd
          cases hd

section Bytes

variable {symbols : Symbols} {defined : String → Prop}
  (hdefined : ∀ name, (∃ address, symbols.address? name = some address) ↔ defined name)

include hdefined

theorem instruction_succeeds_iff (op : Opcode) (os : List Operand) :
    Except.Succeeds (instruction symbols op os) ↔ Takes defined op.format os := by
  have hregister := Operand.asRegister_succeeds_iff (.wrongOperands op)
  have hword := Operand.asWord_succeeds_iff hdefined (.wrongOperands op)
  cases op with
  | plain p =>
      match os with
      | [] => exact iff_of_true (Except.succeeds_ok _) trivial
      | _ :: _ => exact iff_of_false (Except.not_succeeds_error _) id
  | unary u =>
      match os with
      | [a] => exact (Except.succeeds_bind_pure_iff _).trans (hregister a)
      | [] | _ :: _ :: _ => exact iff_of_false (Except.not_succeeds_error _) id
  | binary b =>
      match os with
      | [x, y] =>
          refine (Except.succeeds_bind_iff fun first => ?_).trans (and_congr_left' (hregister x))
          exact (Except.succeeds_bind_pure_iff _).trans (hregister y)
      | [] | [_] | _ :: _ :: _ :: _ => exact iff_of_false (Except.not_succeeds_error _) id
  | immediate i =>
      match os with
      | [x, y] =>
          refine (Except.succeeds_bind_iff fun register => ?_).trans (and_congr_left' (hregister x))
          exact (Except.succeeds_bind_pure_iff _).trans (hword y)
      | [] | [_] | _ :: _ :: _ :: _ => exact iff_of_false (Except.not_succeeds_error _) id
  | branch b =>
      match os with
      | [a] => exact (Except.succeeds_bind_pure_iff _).trans (hword a)
      | [] | _ :: _ :: _ => exact iff_of_false (Except.not_succeeds_error _) id

theorem Directive.piece_succeeds_iff (d : Directive) (otherwise : Complaint) (o : Operand) :
    Except.Succeeds (d.piece symbols otherwise o) ↔
      if d = .string then o.IsString else o.IsValue defined := by
  have hword := Operand.asWord_succeeds_iff hdefined otherwise o
  cases d with
  | int | byte => exact Except.succeeds_map_iff.trans hword
  | string =>
      cases o with
      | quoted raw => exact iff_of_true (Except.succeeds_ok _) trivial
      | register | number | label => exact iff_of_false (Except.not_succeeds_error _) id

omit hdefined in
theorem Directive.bytes_succeeds_iff (d : Directive) (otherwise : Complaint) (os : List Operand) :
    Except.Succeeds (d.bytes symbols otherwise os) ↔
      ∀ o ∈ os, Except.Succeeds (d.piece symbols otherwise o) := by
  induction os with
  | nil => exact iff_of_true (Except.succeeds_ok _) (fun o ho => absurd ho List.not_mem_nil)
  | cons o os ih =>
      rw [List.forall_mem_cons, ← ih]
      exact Except.succeeds_bind_iff fun here => Except.succeeds_bind_pure_iff _

theorem Statement.bytes_succeeds_iff {s : Statement} (hs : s.Known) :
    Except.Succeeds (s.bytes symbols) ↔ s.Fits defined := by
  rw [← s.size_succeeds_iff] at hs
  obtain ⟨size, hs⟩ := hs
  cases s with
  | operation name os =>
      cases hop : Opcode.ofName? name with
      | none =>
          rw [Statement.size, hop] at hs
          cases hs
      | some op =>
          simp only [bytes, hop, Fits, ← Opcode.ofName?_eq_some_iff, Option.some.injEq, forall_eq']
          rw [Except.succeeds_map_iff]
          exact instruction_succeeds_iff hdefined op os
  | directive name os =>
      cases hd : Directive.ofName? name with
      | none =>
          rw [Statement.size, hd] at hs
          cases hs
      | some d =>
          simp only [bytes, hd, Fits, Directive.eq_string_iff hd]
          rw [Directive.bytes_succeeds_iff]
          exact forall_congr' fun o => forall_congr' fun ho =>
            Directive.piece_succeeds_iff hdefined d _ o

end Bytes

theorem Line.size_succeeds_iff (line : Line) :
    Except.Succeeds line.size ↔ ∀ s, line.statement = some s → s.Known := by
  unfold Line.size
  cases hs : line.statement with
  | none => exact iff_of_true (Except.succeeds_ok _) (fun s h => by cases h)
  | some s => simp [Statement.size_succeeds_iff]

theorem Line.bytes_succeeds_iff {symbols : Symbols} {defined : String → Prop}
    (hdefined : ∀ name, (∃ address, symbols.address? name = some address) ↔ defined name)
    {line : Line} (hline : ∀ s, line.statement = some s → s.Known) :
    Except.Succeeds (line.bytes symbols) ↔ ∀ s, line.statement = some s → s.Fits defined := by
  unfold Line.bytes
  cases hs : line.statement with
  | none => exact iff_of_true (Except.succeeds_ok _) (fun s h => by cases h)
  | some s => simp [Statement.bytes_succeeds_iff hdefined (hline s hs)]

theorem Line.read_eq_error {text : List Char} {complaint : Complaint}
    (h : Line.read text = .error complaint) : Line.read? text = none := by
  unfold Line.read at h
  cases hread : Line.read? text with
  | none => rfl
  | some line =>
      rw [hread] at h
      cases h

theorem Line.define_eq_error {line : Line} {symbols : Symbols} {place : Nat} {complaint : Complaint}
    (h : line.define symbols place = .error complaint) :
    ∃ name, line.label = some name ∧ ∃ address, symbols.address? name = some address := by
  unfold Line.define at h
  cases hlabel : line.label with
  | none =>
      rw [hlabel] at h
      cases h
  | some name =>
      rw [hlabel] at h
      dsimp only at h
      cases hinsert : symbols.insert name place with
      | ok extended =>
          rw [hinsert] at h
          cases h
      | error bound =>
          exact ⟨name, rfl, bound, (symbols.insert_eq_error_iff name place bound).mp hinsert⟩

theorem Line.size_eq_error {line : Line} {complaint : Complaint} (h : line.size = .error complaint) :
    ∃ s, line.statement = some s ∧ ¬ s.Known := by
  unfold Line.size at h
  cases hs : line.statement with
  | none =>
      rw [hs] at h
      cases h
  | some s =>
      rw [hs] at h
      refine ⟨s, rfl, fun hknown => ?_⟩
      rw [← s.size_succeeds_iff, show s.size = .error complaint from h] at hknown
      exact Except.not_succeeds_error complaint hknown

def Defines (text : List Char) (name : String) : Prop :=
  ∃ line, Line.read? text = some line ∧ line.label = some name

def Defined (texts : List (List Char)) (name : String) : Prop := ∃ text ∈ texts, Defines text name

inductive Malformed (before : List (List Char)) (text : List Char) : Prop
  | unreadable (hread : Line.read? text = none)
  | duplicate {name : String} (hlabel : Defines text name) (hbefore : Defined before name)
  | unknown {line : Line} {s : Statement} (hread : Line.read? text = some line)
      (hs : line.statement = some s) (hunknown : ¬ s.Known)

def Misfits (texts : List (List Char)) (text : List Char) : Prop :=
  ∃ line s, Line.read? text = some line ∧ line.statement = some s ∧ ¬ s.Fits (Defined texts)

end Source

def places {α : Type} (P : Nat → α → Prop) (xs : List α) : Set Nat :=
  {k | ∃ x, xs[k]? = some x ∧ P k x}

section Places

variable {α : Type} {P : Nat → α → Prop} {x : α} {xs : List α}

theorem places_nil : places P [] = ∅ := by
  ext k
  simp [places]

theorem lt_length_of_mem_places {k : Nat} (h : k ∈ places P xs) : k < xs.length := by
  obtain ⟨x, hx, -⟩ := h
  exact (List.getElem?_eq_some_iff.mp hx).1

theorem zero_mem_places : 0 ∈ places P (x :: xs) ↔ P 0 x := by
  simp [places]

theorem succ_mem_places {k : Nat} :
    k + 1 ∈ places P (x :: xs) ↔ k ∈ places (fun j => P (j + 1)) xs := by
  simp [places]

theorem isLeast_places_zero (hx : P 0 x) : IsLeast (places P (x :: xs)) 0 :=
  ⟨zero_mem_places.mpr hx, fun _ _ => Nat.zero_le _⟩

theorem isLeast_places_succ (hx : ¬ P 0 x) {k : Nat}
    (hk : IsLeast (places (fun j => P (j + 1)) xs) k) : IsLeast (places P (x :: xs)) (k + 1) := by
  refine ⟨succ_mem_places.mpr hk.1, fun j hj => ?_⟩
  cases j with
  | zero => exact absurd (zero_mem_places.mp hj) hx
  | succ j => exact Nat.succ_le_succ (hk.2 (succ_mem_places.mp hj))

theorem places_cons_eq_empty (hx : ¬ P 0 x) (hxs : places (fun j => P (j + 1)) xs = ∅) :
    places P (x :: xs) = ∅ := by
  refine Set.eq_empty_iff_forall_notMem.mpr fun j hj => ?_
  cases j with
  | zero => exact hx (zero_mem_places.mp hj)
  | succ j => exact Set.eq_empty_iff_forall_notMem.mp hxs j (succ_mem_places.mp hj)

end Places

namespace Assembly

open Source

inductive Blames {β : Type} (result : Except AssemblyError β) (number : Nat) (bad : Set Nat) : Prop
  | taken (hbad : bad = ∅) {b : β} (hresult : result = .ok b)
  | blamed {k : Nat} (hk : IsLeast bad k) {complaint : Complaint}
      (hresult : result = .error (.onLine (number + k) complaint))

theorem blames_succ {α β : Type} {P : Nat → α → Prop} {x : α} {xs : List α} (hx : ¬ P 0 x)
    {result : Except AssemblyError β} {number : Nat}
    (h : Blames result (number + 1) (places (fun j => P (j + 1)) xs)) :
    Blames result number (places P (x :: xs)) := by
  cases h with
  | taken hbad hresult => exact .taken (places_cons_eq_empty hx hbad) hresult
  | @blamed k hk complaint hresult =>
      rw [Nat.add_assoc, Nat.add_comm 1] at hresult
      exact .blamed (isLeast_places_succ hx hk) hresult

theorem blames_write (symbols : Symbols) (written : Array UInt8) (number : Nat) (lines : List Line) :
    Blames (write symbols written number lines) number
      (places (fun _ line => ¬ Except.Succeeds (line.bytes symbols)) lines) := by
  induction lines generalizing written number with
  | nil => exact .taken places_nil rfl
  | cons line lines ih =>
      unfold write
      cases hbytes : line.bytes symbols with
      | error complaint =>
          have hbad : ¬ Except.Succeeds (line.bytes symbols) :=
            hbytes ▸ Except.not_succeeds_error complaint
          exact .blamed (isLeast_places_zero hbad) rfl
      | ok bytes =>
          have hgood : Except.Succeeds (line.bytes symbols) := ⟨bytes, hbytes⟩
          exact blames_succ (fun hbad => hbad hgood) (ih _ (number + 1))

theorem blame_eq_error {α : Type} {number : Nat} {x : Except Complaint α} {e : AssemblyError}
    (h : blame number x = .error e) :
    ∃ complaint, x = .error complaint ∧ e = .onLine number complaint := by
  cases x with
  | error complaint =>
      cases h
      exact ⟨complaint, rfl, rfl⟩
  | ok a => cases h

theorem filterMap_of_map {texts : List (List Char)} {lines : List Line}
    (h : texts.map Line.read? = lines.map some) : texts.filterMap Line.read? = lines := by
  have hread := congrArg (List.filterMap id) h
  rw [List.filterMap_map, List.filterMap_map] at hread
  exact hread.trans List.filterMap_some

structure Surveyed (before : List (List Char)) (s : Survey) : Prop where
  sound : s.Sound
  read : before.map Line.read? = s.lines.reverse.map some

theorem surveyed_start : Surveyed [] Survey.start := ⟨Survey.sound_start, rfl⟩

namespace Surveyed

variable {before rest : List (List Char)} {text : List Char} {s t : Survey} {number : Nat}

theorem mem_lines_iff (h : Surveyed before s) {line : Line} :
    line ∈ s.lines ↔ ∃ text ∈ before, Line.read? text = some line := by
  have hread : some line ∈ before.map Line.read? ↔ some line ∈ s.lines.reverse.map some := by
    rw [h.read]
  simpa using hread.symm

theorem defined_iff (h : Surveyed before s) (name : String) :
    (∃ address, s.symbols.address? name = some address) ↔ Defined before name := by
  constructor
  · rintro ⟨address, haddress⟩
    obtain ⟨later, line, earlier, hlines, hlabel, -⟩ := (h.sound.label_iff name address).mp haddress
    have hmem : line ∈ s.lines := hlines ▸ List.mem_append_right later List.mem_cons_self
    obtain ⟨text, htext, hread⟩ := h.mem_lines_iff.mp hmem
    exact ⟨text, htext, line, hread, hlabel⟩
  · rintro ⟨text, htext, line, hread, hlabel⟩
    obtain ⟨later, earlier, hlines⟩ := List.append_of_mem (h.mem_lines_iff.mpr ⟨text, htext, hread⟩)
    exact ⟨_, (h.sound.label_iff name _).mpr ⟨later, line, earlier, hlines, hlabel, rfl⟩⟩

theorem filterMap_read (h : Surveyed before s) : before.filterMap Line.read? = s.lines.reverse :=
  filterMap_of_map h.read

theorem address_eq (h : Surveyed before s) : s.address = extent (before.filterMap Line.read?) := by
  rw [h.filterMap_read, extent_reverse, h.sound.address_eq]

theorem extend_ok (h : Surveyed before s) (ht : s.extend number text = .ok t) :
    Surveyed (before ++ [text]) t ∧ ¬ Malformed before text := by
  obtain ⟨line, size, hread, hdefine, hsize, hlines, -, -⟩ := Survey.extend_eq_ok ht
  refine ⟨⟨h.sound.extend ht, ?_⟩, fun hmalformed => ?_⟩
  · rw [List.map_append, h.read, hlines, List.reverse_cons, List.map_append, List.map_singleton,
      List.map_singleton, hread]
  · cases hmalformed with
    | unreadable hnone =>
        rw [hread] at hnone
        cases hnone
    | duplicate hlabel hbefore =>
        obtain ⟨other, hother, hlabel⟩ := hlabel
        cases hread.symm.trans hother
        obtain ⟨address, haddress⟩ := (h.defined_iff _).mpr hbefore
        rw [Survey.define_fresh hdefine hlabel] at haddress
        cases haddress
    | unknown hother hs hunknown =>
        cases hread.symm.trans hother
        exact hunknown ((Line.size_succeeds_iff line).mp ⟨size, hsize⟩ _ hs)

theorem extend_error (h : Surveyed before s)
    (hfits : extent ((before ++ [text]).filterMap Line.read?) ≤ sizeLimit) {e : AssemblyError}
    (he : s.extend number text = .error e) :
    ∃ complaint, e = .onLine number complaint ∧ Malformed before text := by
  rcases Except.bind_eq_error he with hblame | ⟨line, hblame, he⟩
  · obtain ⟨complaint, hread, rfl⟩ := blame_eq_error hblame
    exact ⟨complaint, rfl, .unreadable (Line.read_eq_error hread)⟩
  have hread := Line.read_eq_ok (blame_eq_ok hblame)
  rcases Except.bind_eq_error he with hblame | ⟨symbols, -, he⟩
  · obtain ⟨complaint, hdefine, rfl⟩ := blame_eq_error hblame
    obtain ⟨name, hlabel, hbound⟩ := Line.define_eq_error hdefine
    exact ⟨complaint, rfl, .duplicate ⟨line, hread, hlabel⟩ ((h.defined_iff name).mp hbound)⟩
  rcases Except.bind_eq_error he with hblame | ⟨size, hblame, he⟩
  · obtain ⟨complaint, hsize, rfl⟩ := blame_eq_error hblame
    obtain ⟨statement, hs, hunknown⟩ := Line.size_eq_error hsize
    exact ⟨complaint, rfl, .unknown hread hs hunknown⟩
  · have hextent : extent ((before ++ [text]).filterMap Line.read?) = s.address + size := by
      rw [List.filterMap_append, extent_append, ← h.address_eq, List.filterMap_cons_some hread,
        extent_cons (blame_eq_ok hblame)]
      rfl
    dsimp only at he
    rw [if_neg (by omega)] at he
    cases he

theorem blames (h : Surveyed before s)
    (hfits : extent ((before ++ rest).filterMap Line.read?) ≤ sizeLimit) :
    Blames (s.ofLines (before.length + 1) rest) (before.length + 1)
      (places (fun k text => Malformed (before ++ rest.take k) text) rest) := by
  induction rest generalizing before s with
  | nil => exact .taken places_nil rfl
  | cons text rest ih =>
      have hsplit : before ++ text :: rest = (before ++ [text]) ++ rest := by simp
      unfold Survey.ofLines
      cases hextend : s.extend (before.length + 1) text with
      | error e =>
          have hfirst : extent ((before ++ [text]).filterMap Line.read?) ≤ sizeLimit := by
            rw [hsplit, List.filterMap_append, extent_append] at hfits
            omega
          obtain ⟨complaint, rfl, hbad⟩ := h.extend_error hfirst hextend
          refine .blamed (isLeast_places_zero ?_) rfl
          simpa using hbad
      | ok t =>
          obtain ⟨ht, hgood⟩ := h.extend_ok hextend
          refine blames_succ (by simpa using hgood) ?_
          have hrest := ih ht (hsplit ▸ hfits)
          simpa using hrest

theorem ofLines (h : Surveyed before s) (ht : s.ofLines number rest = .ok t) :
    Surveyed (before ++ rest) t := by
  obtain ⟨hsound, lines, hread, hlines⟩ := h.sound.ofLines ht
  refine ⟨hsound, ?_⟩
  rw [List.map_append, h.read, hread, hlines]
  simp

end Surveyed

def malformed (texts : List (List Char)) : Set Nat :=
  places (fun k text => Malformed (texts.take k) text) texts

def misfits (texts : List (List Char)) : Set Nat := places (fun _ text => Misfits texts text) texts

theorem misfits_iff {texts : List (List Char)} {text : List Char} {line : Line} {symbols : Symbols}
    (hdefined : ∀ name, (∃ address, symbols.address? name = some address) ↔ Defined texts name)
    (hread : Line.read? text = some line) (hknown : ∀ s, line.statement = some s → s.Known) :
    ¬ Except.Succeeds (line.bytes symbols) ↔ Misfits texts text := by
  rw [Line.bytes_succeeds_iff hdefined hknown]
  unfold Misfits
  rw [hread]
  simp only [not_forall, Option.some.injEq, exists_and_left, exists_eq_left', exists_prop]

theorem known_of_well_formed {texts : List (List Char)} (hgood : malformed texts = ∅)
    {text : List Char} (htext : text ∈ texts) {line : Line} (hread : Line.read? text = some line)
    {s : Statement} (hs : line.statement = some s) : s.Known := by
  obtain ⟨k, hk⟩ := List.getElem?_of_mem htext
  by_contra hunknown
  have hbad : k ∈ malformed texts := ⟨text, hk, .unknown hread hs hunknown⟩
  rw [hgood] at hbad
  exact hbad

theorem misfits_eq {texts : List (List Char)} {s : Survey} (hs : Surveyed texts s)
    (hgood : malformed texts = ∅) :
    places (fun _ line => ¬ Except.Succeeds (line.bytes s.symbols)) s.lines.reverse =
      misfits texts := by
  ext k
  have hplace : texts[k]?.map Line.read? = s.lines.reverse[k]?.map some := by
    rw [← List.getElem?_map, hs.read, List.getElem?_map]
  cases htext : texts[k]? with
  | none =>
      rw [htext, Option.map_none, eq_comm, Option.map_eq_none_iff] at hplace
      simp only [places, misfits, Set.mem_ofPred_eq, htext, hplace, reduceCtorEq, false_and,
        exists_false]
  | some text =>
      rw [htext, Option.map_some, eq_comm, Option.map_eq_some_iff] at hplace
      obtain ⟨line, hline, hread⟩ := hplace
      have hmisfits := misfits_iff hs.defined_iff hread.symm
        (fun _ => known_of_well_formed hgood (List.mem_of_getElem? htext) hread.symm)
      simp only [places, misfits, Set.mem_ofPred_eq, htext, hline, Option.some.injEq, exists_eq_left',
        hmisfits]

theorem ofLines_cases {texts : List (List Char)}
    (hfits : extent (texts.filterMap Line.read?) ≤ sizeLimit) :
    (malformed texts = ∅ ∧ misfits texts = ∅ ∧ ∃ a, ofLines texts = .ok a) ∨
    ∃ k complaint, (IsLeast (malformed texts) k ∨
      malformed texts = ∅ ∧ IsLeast (misfits texts) k) ∧
      ofLines texts = .error (.onLine (k + 1) complaint) := by
  have hsurvey : Blames (Survey.start.ofLines 1 texts) 1 (malformed texts) :=
    surveyed_start.blames hfits
  unfold ofLines
  cases hsurvey with
  | @blamed k hk complaint hresult =>
      refine .inr ⟨k, complaint, .inl hk, ?_⟩
      rw [hresult, Nat.add_comm 1]
      rfl
  | @taken hgood survey hresult =>
      have hs := surveyed_start.ofLines hresult
      have hwrite := blames_write survey.symbols #[] 1 survey.lines.reverse
      rw [misfits_eq hs hgood] at hwrite
      rw [Except.bind_of_ok hresult]
      cases hwrite with
      | @blamed k hk complaint hresult =>
          refine .inr ⟨k, complaint, .inr ⟨hgood, hk⟩, ?_⟩
          rw [hresult, Nat.add_comm 1]
          rfl
      | @taken hfit image hresult =>
          refine .inl ⟨hgood, hfit, ⟨image.toList, survey.symbols⟩, ?_⟩
          rw [hresult]
          rfl

theorem assembles_or_blames_first (text : String)
    (hsize : extent ((Source.lines text).filterMap Line.read?) ≤ sizeLimit) :
    ((∃ a, ofSource text = .ok a) ↔
      malformed (Source.lines text) = ∅ ∧ misfits (Source.lines text) = ∅) ∧
    ∀ e, ofSource text = .error e →
      ∃ k complaint, e = .onLine (k + 1) complaint ∧ k < (Source.lines text).length ∧
        (IsLeast (malformed (Source.lines text)) k ∨
          malformed (Source.lines text) = ∅ ∧ IsLeast (misfits (Source.lines text)) k) := by
  unfold ofSource
  rcases ofLines_cases hsize with ⟨hgood, hfit, a, ha⟩ | ⟨k, complaint, hk, herror⟩
  · rw [ha]
    exact ⟨iff_of_true ⟨a, rfl⟩ ⟨hgood, hfit⟩, fun e he => by cases he⟩
  · rw [herror]
    refine ⟨iff_of_false (fun ⟨a, ha⟩ => by cases ha) ?_, fun e he => ?_⟩
    · rintro ⟨hgood, hfit⟩
      rcases hk with hk | ⟨-, hk⟩
      · exact Set.notMem_empty k (hgood ▸ hk.1)
      · exact Set.notMem_empty k (hfit ▸ hk.1)
    · cases he
      refine ⟨k, complaint, rfl, ?_, hk⟩
      rcases hk with hk | ⟨-, hk⟩
      · exact lt_length_of_mem_places hk.1
      · exact lt_length_of_mem_places hk.1

theorem assembles_or_blames_first_label :
    (malformed (Source.lines "JMP x\nx: HLT") = ∅ ∧ misfits (Source.lines "JMP x\nx: HLT") = ∅) ∧
    ofSource "MOVI R300, y\nx: NOP\nx: HLT" = .error (.onLine 3 (.duplicateLabel "x")) ∧
      IsLeast (malformed (Source.lines "MOVI R300, y\nx: NOP\nx: HLT")) 2 := by
  have hok : ofSource "JMP x\nx: HLT" = .ok ⟨[0x50, 5, 0, 0, 0, 0x01], ⟨[("x", 5)], []⟩⟩ := by
    decide +kernel
  have herror : ofSource "MOVI R300, y\nx: NOP\nx: HLT" =
      .error (.onLine 3 (.duplicateLabel "x")) := by decide +kernel
  have hgood := (assembles_or_blames_first "JMP x\nx: HLT" (by decide +kernel)).1.mp ⟨_, hok⟩
  have hbad : 2 ∈ malformed (Source.lines "MOVI R300, y\nx: NOP\nx: HLT") := by
    refine ⟨"x: HLT".toList, by decide +kernel, ?_⟩
    have hagain : Defines "x: HLT".toList "x" :=
      ⟨⟨some "x", some (.operation "HLT" [])⟩, by decide +kernel, rfl⟩
    have hfirst : Defines "x: NOP".toList "x" :=
      ⟨⟨some "x", some (.operation "NOP" [])⟩, by decide +kernel, rfl⟩
    exact .duplicate hagain ⟨"x: NOP".toList, by decide +kernel, hfirst⟩
  obtain ⟨k, complaint, he, -, hk⟩ := (assembles_or_blames_first
    "MOVI R300, y\nx: NOP\nx: HLT" (by decide +kernel)).2 _ herror
  cases he
  rcases hk with hk | ⟨hempty, -⟩
  · exact ⟨hgood, herror, hk⟩
  · rw [hempty] at hbad
    exact absurd hbad (Set.notMem_empty 2)

end Assembly

end RegisterMachine
