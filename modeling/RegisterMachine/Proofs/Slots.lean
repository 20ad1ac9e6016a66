import Mathlib.Data.List.Basic
import RegisterMachine.Proofs.Acceptance
import RegisterMachine.Proofs.Reassembly

namespace RegisterMachine

namespace Source

inductive Slot where
  | register | word | byte
deriving DecidableEq, Repr

namespace Slot

def width : Slot → Nat
  | .register => 1
  | .word => 4
  | .byte => 1

def ofFormat : Format → List Slot
  | .nullary => []
  | .register => [.register]
  | .registerPair => [.register, .register]
  | .registerImmediate => [.register, .word]
  | .immediate => [.word]

def fill (symbols : Symbols) (otherwise : Complaint) (o : Operand) :
    Slot → Except Complaint (List UInt8)
  | .register => (o.asRegister otherwise).map (fun r => [r])
  | .word => (o.asWord symbols otherwise).map Word.bytes
  | .byte => (o.asWord symbols otherwise).map (fun w => [Word.lowByte w])

theorem length_fill {symbols : Symbols} {otherwise : Complaint} {o : Operand} {slot : Slot}
    {bs : List UInt8} (h : slot.fill symbols otherwise o = .ok bs) : bs.length = slot.width := by
  cases slot with
  | register =>
      obtain ⟨r, -, rfl⟩ := Except.map_eq_ok h
      rfl
  | word =>
      obtain ⟨w, -, rfl⟩ := Except.map_eq_ok h
      rfl
  | byte =>
      obtain ⟨w, -, rfl⟩ := Except.map_eq_ok h
      rfl

def locate? (place : Nat) : List Slot → Nat → Option (Nat × Slot)
  | [], _ => none
  | slot :: _, 0 => some (place, slot)
  | slot :: slots, k + 1 => locate? (place + slot.width) slots k

end Slot

def fills (symbols : Symbols) (otherwise : Complaint) :
    List Slot → List Operand → Except Complaint (List UInt8)
  | slot :: slots, o :: os => do
      let here ← slot.fill symbols otherwise o
      return here ++ (← fills symbols otherwise slots os)
  | _, _ => .ok []

theorem fills_set {symbols : Symbols} {otherwise : Complaint} {slots : List Slot} {os : List Operand}
    (hlength : slots.length = os.length) {k : Nat} (hk : k < os.length) {stand : Operand}
    {bs : List UInt8} (h : fills symbols otherwise slots (os.set k stand) = .ok bs) (place : Nat) :
    ∃ slot front back, Slot.locate? place slots k = some (place + front.length, slot) ∧
      ∀ o, fills symbols otherwise slots (os.set k o) =
        (slot.fill symbols otherwise o).map (fun here => front ++ here ++ back) := by
  induction slots generalizing os k bs place with
  | nil =>
      rw [← hlength] at hk
      exact absurd hk (Nat.not_lt_zero k)
  | cons slot slots ih =>
      obtain ⟨first, os, rfl⟩ := List.exists_cons_of_length_eq_add_one hlength.symm
      cases k with
      | zero =>
          obtain ⟨here, -, h⟩ := Except.bind_eq_ok h
          obtain ⟨rest, hrest, -⟩ := Except.bind_eq_ok h
          refine ⟨slot, [], rest, rfl, fun o => ?_⟩
          rw [List.set_cons_zero, fills, hrest]
          cases slot.fill symbols otherwise o <;> rfl
      | succ k =>
          obtain ⟨here, hhere, h⟩ := Except.bind_eq_ok h
          obtain ⟨rest, hrest, -⟩ := Except.bind_eq_ok h
          obtain ⟨found, front, back, hfound, hset⟩ :=
            ih (Nat.succ.inj hlength) (Nat.lt_of_succ_lt_succ hk) hrest (place + slot.width)
          refine ⟨found, here ++ front, back, ?_, fun o => ?_⟩
          · rw [Slot.locate?, hfound, List.length_append, Slot.length_fill hhere, Nat.add_assoc]
          · rw [List.set_cons_succ, fills, Except.bind_of_ok hhere, hset]
            cases found.fill symbols otherwise o with
            | error complaint => rfl
            | ok bytes => simp [Except.map, bind, Except.bind, pure, Except.pure]

structure Form where
  lead : List UInt8
  slots : List Slot
  otherwise : Complaint

namespace Statement

def form? : Statement → Option Form
  | .operation name os => match Opcode.ofName? name with
    | some op =>
        if (Slot.ofFormat op.format).length = os.length then
          some ⟨[op.code], Slot.ofFormat op.format, .wrongOperands op⟩
        else none
    | none => none
  | .directive name os => match Directive.ofName? name with
    | some .int => some ⟨[], List.replicate os.length .word, .notADirective name⟩
    | some .byte => some ⟨[], List.replicate os.length .byte, .notADirective name⟩
    | _ => none

def slot? (s : Statement) (k : Nat) : Option (Nat × Slot) :=
  s.form?.bind (fun form => Slot.locate? form.lead.length form.slots k)

def withOperand (k : Nat) (o : Operand) : Statement → Statement
  | .operation name os => .operation name (os.set k o)
  | .directive name os => .directive name (os.set k o)

theorem operands_withOperand (s : Statement) (k : Nat) (o : Operand) :
    (s.withOperand k o).operands = s.operands.set k o := by
  cases s <;> rfl

theorem withOperand_of_getElem? {s : Statement} {k : Nat} {o : Operand}
    (h : s.operands[k]? = some o) : s.withOperand k o = s := by
  obtain ⟨hk, rfl⟩ := List.getElem?_eq_some_iff.mp h
  cases s with
  | operation name os => exact congrArg (Statement.operation name) (List.set_getElem_self hk)
  | directive name os => exact congrArg (Statement.directive name) (List.set_getElem_self hk)

theorem form?_withOperand (s : Statement) (k : Nat) (o : Operand) :
    (s.withOperand k o).form? = s.form? := by
  cases s <;> simp only [withOperand, form?, List.length_set]

theorem known_withOperand (s : Statement) (k : Nat) (o : Operand) :
    (s.withOperand k o).Known ↔ s.Known := by
  cases s <;> rfl

end Statement

theorem length_of_takes {defined : String → Prop} {format : Format} {os : List Operand}
    (h : Takes defined format os) : (Slot.ofFormat format).length = os.length := by
  unfold Takes at h
  split at h
  · rfl
  · rfl
  · rfl
  · rfl
  · rfl
  · exact h.elim

theorem Statement.exists_form {defined : String → Prop} {s : Statement} (hknown : s.Known)
    (hfits : s.Fits defined) {o : Operand} (ho : o ∈ s.operands) (hstring : ¬ o.IsString) :
    ∃ form, s.form? = some form := by
  cases s with
  | operation name os =>
      obtain ⟨op, hop⟩ := hknown
      have hlength := length_of_takes (hfits op hop)
      refine ⟨⟨[op.code], Slot.ofFormat op.format, .wrongOperands op⟩, ?_⟩
      simp only [form?, Opcode.ofName?_eq_some_iff.mpr hop, if_pos hlength]
  | directive name os =>
      cases hd : Directive.ofName? name with
      | none => exact absurd hknown (Directive.ofName?_eq_none_iff.mp hd)
      | some d =>
          cases d with
          | int =>
              rw [form?, hd]
              exact ⟨_, rfl⟩
          | byte =>
              rw [form?, hd]
              exact ⟨_, rfl⟩
          | string =>
              have hfit := hfits o ho
              rw [if_pos ((Directive.eq_string_iff hd).mpr rfl)] at hfit
              exact absurd hfit hstring

section Bytes

variable (symbols : Symbols)

theorem map_encode_instruction {op : Opcode} {os : List Operand}
    (h : (Slot.ofFormat op.format).length = os.length) :
    (instruction symbols op os).map Instruction.encode =
      (fills symbols (.wrongOperands op) (Slot.ofFormat op.format) os).map (op.code :: ·) := by
  cases op with
  | plain p =>
      obtain rfl := List.length_eq_zero_iff.mp h.symm
      rfl
  | unary u =>
      obtain ⟨a, rfl⟩ := List.length_eq_one_iff.mp h.symm
      simp only [instruction, Opcode.format, Slot.ofFormat, fills, Slot.fill]
      cases a.asRegister (.wrongOperands (.unary u)) <;> rfl
  | binary b =>
      obtain ⟨x, y, rfl⟩ := List.length_eq_two.mp h.symm
      simp only [instruction, Opcode.format, Slot.ofFormat, fills, Slot.fill]
      cases x.asRegister (.wrongOperands (.binary b)) <;>
        cases y.asRegister (.wrongOperands (.binary b)) <;> rfl
  | immediate i =>
      obtain ⟨x, y, rfl⟩ := List.length_eq_two.mp h.symm
      simp only [instruction, Opcode.format, Slot.ofFormat, fills, Slot.fill]
      cases x.asRegister (.wrongOperands (.immediate i)) <;>
        cases y.asWord symbols (.wrongOperands (.immediate i)) <;> rfl
  | branch b =>
      obtain ⟨a, rfl⟩ := List.length_eq_one_iff.mp h.symm
      simp only [instruction, Opcode.format, Slot.ofFormat, fills, Slot.fill]
      cases a.asWord symbols (.wrongOperands (.branch b)) <;> rfl

theorem Directive.bytes_eq_fills {d : Directive} {slot : Slot} (otherwise : Complaint)
    (hslot : ∀ o, d.piece symbols otherwise o = slot.fill symbols otherwise o) (os : List Operand) :
    d.bytes symbols otherwise os =
      fills symbols otherwise (List.replicate os.length slot) os := by
  induction os with
  | nil => rfl
  | cons o os ih =>
      rw [bytes, List.length_cons, List.replicate_succ, fills, hslot, ih]

theorem Statement.bytes_of_form? {s : Statement} {form : Form} (h : s.form? = some form) :
    s.bytes symbols =
      (fills symbols form.otherwise form.slots s.operands).map (form.lead ++ ·) := by
  have hid : ∀ x : Except Complaint (List UInt8), x.map ([] ++ ·) = x := by
    intro x
    cases x <;> rfl
  cases s with
  | operation name os =>
      cases hop : Opcode.ofName? name with
      | none =>
          rw [form?, hop] at h
          cases h
      | some op =>
          simp only [form?, hop] at h
          split at h
          · rename_i hlength
            cases h
            simp only [bytes, hop]
            exact map_encode_instruction symbols hlength
          · cases h
  | directive name os =>
      cases hd : Directive.ofName? name with
      | none =>
          rw [form?, hd] at h
          cases h
      | some d =>
          simp only [bytes, hd]
          cases d with
          | int =>
              rw [form?, hd] at h
              cases h
              exact (Directive.bytes_eq_fills symbols _ (fun _ => rfl) os).trans (hid _).symm
          | byte =>
              rw [form?, hd] at h
              cases h
              exact (Directive.bytes_eq_fills symbols _ (fun _ => rfl) os).trans (hid _).symm
          | string =>
              rw [form?, hd] at h
              cases h

end Bytes

theorem Statement.length_slots {s : Statement} {form : Form} (h : s.form? = some form) :
    form.slots.length = s.operands.length := by
  unfold form? at h
  split at h
  · split at h
    · split at h
      · cases h
        assumption
      · cases h
    · cases h
  · split at h
    · cases h
      exact List.length_replicate
    · cases h
      exact List.length_replicate
    · cases h

theorem Statement.bytes_withOperand {symbols : Symbols} {s : Statement} {form : Form}
    (hform : s.form? = some form) {k : Nat} (hk : k < s.operands.length) {stand : Operand}
    {bs : List UInt8} (h : (s.withOperand k stand).bytes symbols = .ok bs) :
    ∃ slot front back, s.slot? k = some (front.length, slot) ∧
      ∀ o, (s.withOperand k o).bytes symbols =
        (slot.fill symbols form.otherwise o).map (fun here => front ++ here ++ back) := by
  have hbytes : ∀ o, (s.withOperand k o).bytes symbols =
      (fills symbols form.otherwise form.slots (s.operands.set k o)).map (form.lead ++ ·) := by
    intro o
    rw [Statement.bytes_of_form? symbols ((s.form?_withOperand k o).trans hform),
      operands_withOperand]
  rw [hbytes] at h
  obtain ⟨rest, hrest, -⟩ := Except.map_eq_ok h
  obtain ⟨slot, front, back, hslot, hset⟩ :=
    fills_set (length_slots hform) hk hrest form.lead.length
  refine ⟨slot, form.lead ++ front, back, ?_, fun o => ?_⟩
  · rw [slot?, hform, List.length_append]
    exact hslot
  · rw [hbytes, hset]
    cases slot.fill symbols form.otherwise o <;> simp [Except.map]

theorem Statement.bytes_eq_fill {symbols : Symbols} {defined : String → Prop}
    (hdefined : ∀ name, (∃ address, symbols.address? name = some address) ↔ defined name)
    {s : Statement} (hknown : s.Known) {k : Nat} {o stand : Operand} (ho : s.operands[k]? = some o)
    (hfits : (s.withOperand k stand).Fits defined) (hstand : ¬ stand.IsString) :
    ∃ otherwise slot front back, s.slot? k = some (front.length, slot) ∧
      Except.Succeeds (slot.fill symbols otherwise stand) ∧
      s.bytes symbols =
        (slot.fill symbols otherwise o).map (fun here => front ++ here ++ back) := by
  rw [← s.known_withOperand k stand] at hknown
  obtain ⟨hk, -⟩ := List.getElem?_eq_some_iff.mp ho
  have hmem : stand ∈ (s.withOperand k stand).operands := by
    rw [operands_withOperand]
    exact List.mem_set hk stand
  obtain ⟨form, hform⟩ := exists_form hknown hfits hmem hstand
  rw [form?_withOperand] at hform
  obtain ⟨bs, hbs⟩ := (bytes_succeeds_iff hdefined hknown).mpr hfits
  obtain ⟨slot, front, back, hslot, hset⟩ := bytes_withOperand hform hk hbs
  have hown := hset o
  rw [withOperand_of_getElem? ho] at hown
  rw [hset stand] at hbs
  obtain ⟨filled, hfilled, -⟩ := Except.map_eq_ok hbs
  exact ⟨form.otherwise, slot, front, back, hslot, ⟨filled, hfilled⟩, hown⟩

end Source

namespace Assembly

open Source

theorem exists_rows {symbols : Symbols} {lines : List Line}
    (h : ∀ line ∈ lines, Except.Succeeds (line.bytes symbols)) :
    ∃ rows : List Row, rows.map Prod.fst = lines ∧
      ∀ row ∈ rows, row.1.bytes symbols = .ok row.2 := by
  induction lines with
  | nil => exact ⟨[], rfl, List.forall_mem_nil _⟩
  | cons line lines ih =>
      obtain ⟨hline, hlines⟩ := List.forall_mem_cons.mp h
      obtain ⟨bytes, hbytes⟩ := hline
      obtain ⟨rows, hrows, hwritten⟩ := ih hlines
      exact ⟨(line, bytes) :: rows, congrArg (line :: ·) hrows,
        List.forall_mem_cons.mpr ⟨hbytes, hwritten⟩⟩

structure RightBut (source : String) (earlier : List (List Char)) (s : Statement) (k : Nat)
    (o stand : Operand) : Prop where
  lines : ∃ text later label, Source.lines source = earlier ++ text :: later ∧
    Line.read? text = some ⟨label, some s⟩ ∧
    ∀ other ∈ earlier ++ later, ¬ Misfits (Source.lines source) other
  operand : s.operands[k]? = some o
  fits : (s.withOperand k stand).Fits (Defined (Source.lines source))
  formed : malformed (Source.lines source) = ∅
  small : extent ((Source.lines source).filterMap Line.read?) ≤ sizeLimit

theorem write_around {symbols : Symbols} {before after : List Row}
    (hbefore : ∀ row ∈ before, row.1.bytes symbols = .ok row.2)
    (hafter : ∀ row ∈ after, row.1.bytes symbols = .ok row.2) (line : Line) (number : Nat) :
    write symbols #[] number (before.map Prod.fst ++ line :: after.map Prod.fst) =
      match line.bytes symbols with
      | .ok bytes => .ok (content before ++ bytes ++ content after).toArray
      | .error complaint => .error (.onLine (number + before.length) complaint) := by
  rw [write_append hbefore, write]
  cases line.bytes symbols with
  | error complaint => rfl
  | ok bytes =>
      dsimp only [blame]
      rw [write_of_bytes hafter]
      exact congrArg Except.ok (Array.toList_inj.mp (by simp))

theorem Surveyed.split {earlier later : List (List Char)} {text : List Char} {line : Line} {s : Survey}
    (hs : Surveyed (earlier ++ text :: later) s) (hread : Line.read? text = some line) :
    ∃ before after, s.lines.reverse = before ++ line :: after ∧
      earlier.map Line.read? = before.map some ∧ later.map Line.read? = after.map some := by
  have h := hs.read
  rw [List.map_append, List.map_cons, hread] at h
  obtain ⟨before, rest, hsplit, hbefore, hrest⟩ := List.map_eq_append_iff.mp h.symm
  obtain ⟨line, after, rfl, hline, hafter⟩ := List.map_eq_cons_iff.mp hrest
  cases hline
  exact ⟨before, after, hsplit, hbefore.symm, hafter.symm⟩

theorem Surveyed.rows {texts part : List (List Char)} {s : Survey} (hs : Surveyed texts s)
    (hgood : malformed texts = ∅) (hpart : ∀ text ∈ part, text ∈ texts ∧ ¬ Misfits texts text)
    {lines : List Line} (hread : part.map Line.read? = lines.map some) :
    ∃ rows : List Row, rows.map Prod.fst = lines ∧
      ∀ row ∈ rows, row.1.bytes s.symbols = .ok row.2 := by
  refine exists_rows fun line hline => ?_
  have hmem : some line ∈ part.map Line.read? := hread ▸ List.mem_map_of_mem hline
  obtain ⟨text, htext, hline⟩ := List.mem_map.mp hmem
  obtain ⟨hin, hfit⟩ := hpart text htext
  by_contra hbad
  exact hfit ((misfits_iff hs.defined_iff hline
    (fun _ => known_of_well_formed hgood hin hline)).mp hbad)

theorem mem_of_lines {texts earlier later : List (List Char)} {text : List Char}
    (h : texts = earlier ++ text :: later) : text ∈ texts ∧ earlier ++ later ⊆ texts := by
  rw [h]
  exact ⟨List.mem_append_right earlier List.mem_cons_self,
    ((List.sublist_cons_self text later).append_left earlier).subset⟩

theorem rightBut_of_survey {source : String} {survey : Survey}
    (hsurvey : Survey.start.ofLines 1 (Source.lines source) = .ok survey)
    {earlier later : List (List Char)} {text : List Char} {label : Option String} {s : Statement}
    (hlines : Source.lines source = earlier ++ text :: later)
    (hread : Line.read? text = some ⟨label, some s⟩)
    (hothers : ∀ other ∈ earlier ++ later, ∃ line, Line.read? other = some line ∧
      Except.Succeeds (line.bytes survey.symbols))
    {k : Nat} {o : Operand} (ho : s.operands[k]? = some o) (stand : Operand)
    (hstand : Except.Succeeds ((s.withOperand k stand).bytes survey.symbols)) :
    RightBut source earlier s k o stand := by
  have hs : Surveyed (Source.lines source) survey := surveyed_start.ofLines hsurvey
  have hsmall : extent ((Source.lines source).filterMap Line.read?) ≤ sizeLimit :=
    hs.address_eq ▸ hs.sound.address_le
  have hblames : Blames (Survey.start.ofLines 1 (Source.lines source)) 1
    (malformed (Source.lines source)) := surveyed_start.blames hsmall
  cases hblames with
  | blamed _ herror => cases hsurvey.symm.trans herror
  | taken hgood =>
      have hknown : ∀ other ∈ Source.lines source, ∀ line, Line.read? other = some line →
          ∀ t, line.statement = some t → t.Known :=
        fun other hother line hline t ht => known_of_well_formed hgood hother hline ht
      obtain ⟨htext, hrest⟩ := mem_of_lines hlines
      refine ⟨⟨text, later, label, hlines, hread, fun other hother hbad => ?_⟩, ho, ?_, hgood, hsmall⟩
      · obtain ⟨line, hline, hbytes⟩ := hothers other hother
        exact (misfits_iff hs.defined_iff hline (hknown other (hrest hother) line hline)).mpr
          hbad hbytes
      · exact (Statement.bytes_succeeds_iff hs.defined_iff ((s.known_withOperand k stand).mpr
          (hknown text htext _ hread s rfl))).mp hstand

theorem RightBut.ofSource_eq {source : String} {earlier : List (List Char)} {s : Statement} {k : Nat}
    {o stand : Operand} (h : RightBut source earlier s k o stand) (hstand : ¬ stand.IsString) :
    ∃ symbols otherwise place slot front back, s.slot? k = some (place, slot) ∧
      Except.Succeeds (slot.fill symbols otherwise stand) ∧
      front.length = extent (earlier.filterMap Line.read?) + place ∧
      ofSource source = match slot.fill symbols otherwise o with
        | .ok here => .ok ⟨front ++ here ++ back, symbols⟩
        | .error complaint => .error (.onLine (earlier.length + 1) complaint) := by
  obtain ⟨⟨text, later, label, hlines, hread, hothers⟩, hoperand, hfits, hgood, hsmall⟩ := h
  rw [ofSource]
  generalize Source.lines source = texts at *
  have hsurvey : Blames (Survey.start.ofLines 1 texts) 1 (malformed texts) :=
    surveyed_start.blames hsmall
  rw [hgood] at hsurvey
  cases hsurvey with
  | @blamed j hj => exact absurd hj.1 (Set.notMem_empty j)
  | @taken _ survey hsurvey =>
      have hs : Surveyed texts survey := surveyed_start.ofLines hsurvey
      obtain ⟨htext, hrest⟩ := mem_of_lines hlines
      obtain ⟨before, after, hsplit, hbefore, hafter⟩ := (hlines ▸ hs).split hread
      obtain ⟨rows, rfl, hrows⟩ := hs.rows hgood (fun other hother =>
        have hin := List.mem_append_left later hother
        ⟨hrest hin, hothers other hin⟩) hbefore
      obtain ⟨others, rfl, hbehind⟩ := hs.rows hgood (fun other hother =>
        have hin := List.mem_append_right earlier hother
        ⟨hrest hin, hothers other hin⟩) hafter
      obtain ⟨otherwise, slot, front, back, hslot, hfilled, hbytes⟩ :=
        Statement.bytes_eq_fill hs.defined_iff (known_of_well_formed hgood htext hread rfl)
          hoperand hfits hstand
      refine ⟨survey.symbols, otherwise, front.length, slot, content rows ++ front,
        back ++ content others, hslot, hfilled, ?_, ?_⟩
      · rw [filterMap_of_map hbefore, extent_eq_length_content hrows, List.length_append]
      · have hlength : earlier.length = rows.length := by
          simpa using congrArg List.length hbefore
        have hline : Line.bytes survey.symbols ⟨label, some s⟩ =
            (slot.fill survey.symbols otherwise o).map (fun here => front ++ here ++ back) := hbytes
        rw [ofLines, Except.bind_of_ok hsurvey, hsplit, write_around hrows hbehind, hline]
        cases slot.fill survey.symbols otherwise o with
        | error complaint =>
            rw [hlength, Nat.add_comm rows.length]
            rfl
        | ok here => simp [Except.map, bind, Except.bind, pure, Except.pure]

end Assembly

end RegisterMachine
