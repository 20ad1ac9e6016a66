import Mathlib.Data.List.Forall2
import RegisterMachine.Proofs.Drafts

namespace RegisterMachine

namespace Source

theorem Line.read?_pad {s : List Char} {line : Line} (h : Line.read? s = some line)
    {b z : List Char} (hb : Blanks b) (hz : Idle z) : Line.read? (b ++ (s ++ z)) = some line := by
  obtain ⟨d, hd, rfl, rfl⟩ := Line.read?_eq_some_iff.mp h
  refine Line.read?_eq_some_iff.mpr ⟨⟨b ++ d.indent, d.tag, d.wording, d.trail ++ z⟩,
    ⟨hb.append hd.indent, hd.tag, hd.wording, hd.trail.append hz⟩, ?_, rfl⟩
  simp only [Draft.text, List.append_assoc]

theorem Idle.of_append {s z : List Char} (h : Idle (s ++ z)) : Idle s := by
  obtain ⟨b, hb, hs⟩ := exists_blanks s
  have hstops : Stops isBlank (skipBlanks s) := stops_dropWhile isBlank s
  rw [Idle, hs, List.append_assoc, skipBlanks_append hb] at h
  rw [Idle]
  cases hskip : skipBlanks s with
  | nil => rfl
  | cons c t =>
      rw [hskip] at h hstops
      rw [List.cons_append, skipBlanks_of_stops (stops_cons (hstops c t rfl) _)] at h
      exact h

def Firm (s : List Char) : Prop := s.getLast? ≠ some '\r'

instance (s : List Char) : Decidable (Firm s) := inferInstanceAs (Decidable (_ ≠ _))

theorem Firm.append {s t : List Char} (hs : Firm s) (ht : Firm t) : Firm (s ++ t) := by
  rw [Firm, List.getLast?_append]
  cases hlast : t.getLast? with
  | none => exact hs
  | some c =>
      rw [Firm, hlast] at ht
      exact ht

theorem Firm.of_append {s t : List Char} (h : Firm (s ++ t)) : Firm t := by
  intro hlast
  apply h
  rw [List.getLast?_append, hlast]
  rfl

theorem OneLine.firm {s : List Char} (h : OneLine s) : Firm s :=
  fun hlast => (h _ (List.mem_of_getLast? hlast)).2 rfl

theorem Blanks.oneLine {b : List Char} (h : Blanks b) : OneLine b := by
  intro c hc
  have hblank := h c hc
  simp only [isBlank, Bool.or_eq_true, beq_iff_eq] at hblank
  rcases hblank with rfl | rfl <;> decide

theorem IsComma.oneLine {s : List Char} (h : IsComma s) : OneLine s := by
  obtain ⟨b, b', hb, hb', rfl⟩ := h
  have hcomma : OneLine [','] := by decide
  exact hb.oneLine.append (hcomma.append hb'.oneLine)

theorem Spelled.firm {s : List Char} {o : Operand} (h : Spelled s o) : Firm s := by
  cases h with
  | quoted h =>
      rw [Firm, ← List.cons_append, List.getLast?_concat]
      decide
  | number h => exact h.oneLine.firm
  | name h => exact (oneLine_of_isName h).firm

theorem Arranged.parts {is : List Item} (his : Arranged is) {i : Item} (hi : i ∈ is) :
    OneLine i.before ∧ Spelled i.text i.operand := by
  cases is with
  | nil => cases hi
  | cons j is =>
      rcases List.mem_cons.mp hi with rfl | hi
      · exact ⟨his.1.blanks.oneLine, his.1.spelled⟩
      · exact ⟨(his.2 i hi).comma.oneLine, (his.2 i hi).spelled⟩

theorem Arranged.spelled {is : List Item} (his : Arranged is) :
    ∀ i ∈ is, Spelled i.text i.operand := fun _ hi => (his.parts hi).2

theorem firm_itemsText {is : List Item} (h : ∀ i ∈ is, OneLine i.before ∧ Spelled i.text i.operand) :
    Firm (itemsText is) := by
  induction is with
  | nil => exact fun h => by cases h
  | cons i is ih =>
      obtain ⟨hbefore, hspelled⟩ := h i List.mem_cons_self
      rw [itemsText, List.flatMap_cons]
      exact (hbefore.firm.append hspelled.firm).append
        (ih (fun j hj => h j (List.mem_cons_of_mem i hj)))

theorem Wording.Sound.firm {w : Wording} (hw : w.Sound) : Firm w.text := by
  have hitems : Firm (itemsText w.items) := firm_itemsText (fun i hi => hw.arranged.parts hi)
  have hphrase : Firm w.phrase := (oneLine_of_isName hw.name).firm.append hitems
  unfold Wording.text
  cases w.dotted with
  | true =>
      have hdot : OneLine ['.'] := by decide
      exact hdot.firm.append hphrase
  | false => exact hphrase

theorem Tag.Sound.oneLine {t : Tag} (ht : t.Sound) : OneLine t.text := by
  have hcolon : OneLine [':'] := by decide
  exact (oneLine_of_isName ht.name).append (ht.inner.oneLine.append (hcolon.append ht.outer.oneLine))

-- A carriage return at the end of a line can only stand in its comment.
theorem Line.read?_of_return {s : List Char} {line : Line}
    (h : Line.read? (s ++ ['\r']) = some line) : Line.read? s = some line := by
  obtain ⟨d, hd, htext, rfl⟩ := Line.read?_eq_some_iff.mp h
  have hfirm : Firm (d.indent ++ (d.tag.elim [] Tag.text ++ d.wording.elim [] Wording.text)) := by
    refine hd.indent.oneLine.firm.append (Firm.append ?_ ?_)
    · cases ht : d.tag with
      | none => exact fun h => by cases h
      | some t => exact (hd.tag t ht).oneLine.firm
    · cases hw : d.wording with
      | none => exact fun h => by cases h
      | some w => exact (hd.wording w hw).firm
  rw [Draft.text, ← List.append_assoc, ← List.append_assoc, List.append_assoc d.indent] at htext
  rcases List.eq_nil_or_concat d.trail with htrail | ⟨z, c, htrail⟩
  · rw [htrail, List.append_nil] at htext
    rw [htext, Firm, List.getLast?_concat] at hfirm
    exact absurd rfl hfirm
  · rw [htrail, List.concat_eq_append, ← List.append_assoc] at htext
    obtain ⟨hs, -⟩ := List.append_inj' htext rfl
    have hz : Idle (z ++ [c]) := by
      rw [← List.concat_eq_append, ← htrail]
      exact hd.trail
    refine Line.read?_eq_some_iff.mpr ⟨⟨d.indent, d.tag, d.wording, z⟩,
      ⟨hd.indent, hd.tag, hd.wording, hz.of_append⟩, ?_, rfl⟩
    rw [← hs]
    simp only [Draft.text, List.append_assoc]

def Alike (s t : List Char) : Prop := t.map Char.toLower = s.map Char.toLower

instance (s t : List Char) : Decidable (Alike s t) := inferInstanceAs (Decidable (_ = _))

theorem Alike.append {s s' t t' : List Char} (h : Alike s s') (h' : Alike t t') :
    Alike (s ++ t) (s' ++ t') := by
  rw [Alike, List.map_append, List.map_append, h, h']

inductive Item.Recased : Item → Item → Prop
  | same (i : Item) : Recased i i
  | letter {i : Item} {written : String} (hi : i.operand = .register written) {x : Char}
      (hx : x = 'R' ∨ x = 'r') :
      Recased i ⟨i.before, x :: i.text.tail, .register (String.ofList (x :: i.text.tail))⟩

structure Wording.Recased (w w' : Wording) : Prop where
  dotted : w'.dotted = w.dotted
  directive : w.dotted = true → w'.name = w.name
  alike : Alike w.name.toList w'.name.toList
  items : List.Forall₂ Item.Recased w.items w'.items

inductive Draft.Recased : Draft → Draft → Prop
  | mk {w w' : Wording} (h : w.Recased w') (indent : List Char) (tag : Option Tag)
      (trail : List Char) : Recased ⟨indent, tag, some w, trail⟩ ⟨indent, tag, some w', trail⟩

theorem apply_toLower {β : Type} (f : Char → β)
    (h : ∀ k : Fin 26, f (Char.ofNat (65 + k.val)).toLower = f (Char.ofNat (65 + k.val))) (c : Char) :
    f c.toLower = f c := by
  by_cases hc : 65 ≤ c.toNat ∧ c.toNat ≤ 90
  · have hk := h ⟨c.toNat - 65, by omega⟩
    rwa [Nat.add_sub_cancel' hc.1, Char.ofNat_toNat] at hk
  · have hsame : c.toLower = c := dif_neg hc
    rw [hsame]

theorem startsName_toLower (c : Char) : startsName c.toLower = startsName c :=
  apply_toLower startsName (by decide) c

theorem continuesName_toLower (c : Char) : continuesName c.toLower = continuesName c :=
  apply_toLower continuesName (by decide +kernel) c

theorem isName_map_toLower (s : List Char) : isName (s.map Char.toLower) = isName s := by
  cases s with
  | nil => rfl
  | cons c s =>
      rw [List.map_cons, isName, isName, startsName_toLower, List.all_map]
      congr 2
      funext d
      exact continuesName_toLower d

theorem capitals_map_toLower (s : List Char) :
    Text.capitals (s.map Char.toLower) = Text.capitals s := by
  rw [Text.capitals, List.flatMap_map]
  congr 1
  funext c
  exact apply_toLower Text.capital (by decide +kernel) c

theorem Alike.isName {s t : List Char} (h : Alike s t) (hs : isName s) : isName t := by
  rwa [← isName_map_toLower, h, isName_map_toLower]

theorem Alike.capitals {s t : List Char} (h : Alike s t) : Text.capitals t = Text.capitals s := by
  rw [← capitals_map_toLower, h, capitals_map_toLower]

theorem Alike.length {s t : List Char} (h : Alike s t) : t.length = s.length := by
  have hlength := congrArg List.length h
  rwa [List.length_map, List.length_map] at hlength

theorem Alike.feed_not_mem {s t : List Char} (h : Alike s t) (hs : '\n' ∉ s) : '\n' ∉ t := by
  intro hmem
  have hlower : '\n' ∈ s.map Char.toLower := h ▸ List.mem_map.mpr ⟨'\n', hmem, rfl⟩
  obtain ⟨d, hd, hdown⟩ := List.mem_map.mp hlower
  have hsame : (d.toLower == '\n') = (d == '\n') := apply_toLower (· == '\n') (by decide) d
  rw [hdown, beq_self_eq_true] at hsame
  exact hs (beq_iff_eq.mp hsame.symm ▸ hd)

theorem Spelled.register {s : List Char} {written : String} (h : Spelled s (.register written)) :
    ∃ x ds, (x = 'R' ∨ x = 'r') ∧ ds ≠ [] ∧ (∀ c ∈ ds, c.isDigit) ∧ s = x :: ds ∧
      written = String.ofList s := by
  generalize ho : Operand.register written = o at h
  cases h with
  | quoted h => cases ho
  | number h => cases ho
  | @name name h =>
      unfold Operand.ofName at ho
      split at ho
      · rename_i c d ds hname
        split at ho
        · rename_i hregister
          cases ho
          simp only [Bool.and_eq_true, Bool.or_eq_true, beq_iff_eq, List.all_eq_true] at hregister
          exact ⟨c, d :: ds, hregister.1, List.cons_ne_nil _ _, hregister.2, hname,
            String.ofList_toList.symm⟩
        · cases ho
      · cases ho

theorem spelled_register {x : Char} (hx : x = 'R' ∨ x = 'r') {ds : List Char} (hne : ds ≠ [])
    (hds : ∀ c ∈ ds, c.isDigit) : Spelled (x :: ds) (.register (String.ofList (x :: ds))) := by
  have hname := isName_register hx hds
  rw [← String.toList_ofList (l := x :: ds)] at hname
  have hspelled := Spelled.name hname
  rwa [Operand.ofName_register hx hds hne, String.toList_ofList] at hspelled

structure Operand.Matches (o o' : Operand) : Prop where
  asRegister {otherwise : Complaint} {r : Register} (h : o.asRegister otherwise = .ok r) :
    o'.asRegister otherwise = .ok r
  asWord {symbols : Symbols} {otherwise : Complaint} {w : Word}
    (h : o.asWord symbols otherwise = .ok w) : o'.asWord symbols otherwise = .ok w
  quoted {raw : String} (h : o = .quoted raw) : o' = .quoted raw
  stringSize : o'.stringSize = o.stringSize

theorem Operand.matches_self (o : Operand) : o.Matches o := ⟨id, id, id, rfl⟩

theorem Operand.matches_register {written written' : String}
    (h : written'.toList.tail = written.toList.tail) :
    (Operand.register written).Matches (.register written') where
  asRegister := by
    intro otherwise r hr
    have hsame : Literal.register? written' = Literal.register? written := by
      rw [Literal.register?, Literal.register?, h]
    rw [Operand.asRegister, Operand.register?] at hr ⊢
    rw [hsame]
    cases hfound : Literal.register? written with
    | none =>
        rw [hfound] at hr
        cases hr
    | some found =>
        rw [hfound] at hr
        exact hr
  asWord := by
    intro symbols otherwise w hw
    cases hw
  quoted := by
    intro raw hraw
    cases hraw
  stringSize := rfl

namespace Item.Recased

variable {i j : Item} (h : i.Recased j)

include h

theorem before_eq : j.before = i.before := by
  cases h <;> rfl

theorem eq_or_letters (hi : Spelled i.text i.operand) :
    j = i ∨ ∃ x y ds, (x = 'R' ∨ x = 'r') ∧ (y = 'R' ∨ y = 'r') ∧ ds ≠ [] ∧
      (∀ c ∈ ds, c.isDigit) ∧ i = ⟨i.before, x :: ds, .register (String.ofList (x :: ds))⟩ ∧
      j = ⟨i.before, y :: ds, .register (String.ofList (y :: ds))⟩ := by
  obtain ⟨before, text, operand⟩ := i
  cases h with
  | same => exact .inl rfl
  | @letter written hoperand y hy =>
      dsimp only at hoperand hi ⊢
      subst hoperand
      obtain ⟨x, ds, hx, hne, hds, rfl, rfl⟩ := hi.register
      exact .inr ⟨x, y, ds, hx, hy, hne, hds, rfl, rfl⟩

theorem spelled (hi : Spelled i.text i.operand) : Spelled j.text j.operand := by
  rcases h.eq_or_letters hi with rfl | ⟨x, y, ds, -, hy, hne, hds, -, rfl⟩
  · exact hi
  · exact spelled_register hy hne hds

theorem operand_matches (hi : Spelled i.text i.operand) : i.operand.Matches j.operand := by
  rcases h.eq_or_letters hi with rfl | ⟨x, y, ds, -, -, -, -, hi', rfl⟩
  · exact j.operand.matches_self
  · rw [hi']
    exact Operand.matches_register (by simp only [String.toList_ofList, List.tail_cons])

theorem alike (hi : Spelled i.text i.operand) : Alike i.text j.text := by
  rcases h.eq_or_letters hi with rfl | ⟨x, y, ds, hx, hy, -, -, hi', rfl⟩
  · rfl
  · rw [hi', Alike, List.map_cons, List.map_cons]
    rcases hx with rfl | rfl <;> rcases hy with rfl | rfl <;> rfl

theorem leads (hi : i.Leads) : j.Leads where
  blanks := h.before_eq ▸ hi.blanks
  apart := by
    intro hnil
    rcases h.eq_or_letters hi.spelled with rfl | ⟨x, y, ds, hx, hy, -, -, hi', rfl⟩
    · exact hi.apart hnil
    · -- A register goes on with a name, so that it never stood right behind one.
      have hstops := hi.apart hnil x ds (congrArg Item.text hi')
      rcases hx with rfl | rfl
      · exact absurd hstops (by decide)
      · exact absurd hstops (by decide)
  spelled := h.spelled hi.spelled

theorem follows (hi : i.Follows) : j.Follows where
  comma := h.before_eq ▸ hi.comma
  spelled := h.spelled hi.spelled

end Item.Recased

theorem follows_of_recased {is js : List Item} (h : List.Forall₂ Item.Recased is js)
    (his : ∀ i ∈ is, i.Follows) : ∀ j ∈ js, j.Follows := by
  induction h with
  | nil => exact his
  | cons hi _ ih =>
      intro j hj
      rcases List.mem_cons.mp hj with rfl | hj
      · exact hi.follows (his _ List.mem_cons_self)
      · exact ih (fun i hmem => his i (List.mem_cons_of_mem _ hmem)) j hj

theorem arranged_of_recased {is js : List Item} (h : List.Forall₂ Item.Recased is js)
    (his : Arranged is) : Arranged js := by
  cases h with
  | nil => trivial
  | cons hi h => exact ⟨hi.leads his.1, follows_of_recased h his.2⟩

theorem alike_itemsText {is js : List Item} (h : List.Forall₂ Item.Recased is js)
    (his : ∀ i ∈ is, Spelled i.text i.operand) : Alike (itemsText is) (itemsText js) := by
  induction h with
  | nil => rfl
  | cons hi h ih =>
      have hspelled := his _ List.mem_cons_self
      rw [itemsText, itemsText, List.flatMap_cons, List.flatMap_cons, hi.before_eq]
      exact (Alike.append (Alike.append rfl (hi.alike hspelled)) (ih fun j hj =>
        his j (List.mem_cons_of_mem _ hj)))

theorem matches_operands {is js : List Item} (h : List.Forall₂ Item.Recased is js)
    (his : ∀ i ∈ is, Spelled i.text i.operand) :
    List.Forall₂ Operand.Matches (is.map Item.operand) (js.map Item.operand) := by
  induction h with
  | nil => exact .nil
  | cons hi h ih =>
      exact .cons (hi.operand_matches (his _ List.mem_cons_self))
        (ih fun j hj => his j (List.mem_cons_of_mem _ hj))

section Matches

variable {os os' : List Operand} (h : List.Forall₂ Operand.Matches os os') (symbols : Symbols)

include h

theorem instruction_of_matches {op : Opcode} {i : Instruction}
    (hi : instruction symbols op os = .ok i) : instruction symbols op os' = .ok i := by
  rcases h with _ | ⟨hfirst, _ | ⟨hsecond, _ | ⟨hthird, h⟩⟩⟩
  · cases op with
    | plain p => exact hi
    | unary | binary | immediate | branch => cases hi
  · cases op with
    | unary u =>
        obtain ⟨a, ha, hi⟩ := Except.bind_eq_ok hi
        exact (Except.bind_of_ok (hfirst.asRegister ha) _).trans hi
    | branch b =>
        obtain ⟨a, ha, hi⟩ := Except.bind_eq_ok hi
        exact (Except.bind_of_ok (hfirst.asWord ha) _).trans hi
    | plain | binary | immediate => cases hi
  · cases op with
    | binary b =>
        obtain ⟨x, hx, hi⟩ := Except.bind_eq_ok hi
        obtain ⟨y, hy, hi⟩ := Except.bind_eq_ok hi
        refine (Except.bind_of_ok (hfirst.asRegister hx) _).trans ?_
        exact (Except.bind_of_ok (hsecond.asRegister hy) _).trans hi
    | immediate i =>
        obtain ⟨x, hx, hi⟩ := Except.bind_eq_ok hi
        obtain ⟨y, hy, hi⟩ := Except.bind_eq_ok hi
        refine (Except.bind_of_ok (hfirst.asRegister hx) _).trans ?_
        exact (Except.bind_of_ok (hsecond.asWord hy) _).trans hi
    | plain | unary | branch => cases hi
  · cases op with
    | plain | unary | binary | immediate | branch => cases hi

theorem directive_bytes_of_matches {d : Directive} {otherwise : Complaint} {bs : List UInt8}
    (hbs : d.bytes symbols otherwise os = .ok bs) : d.bytes symbols otherwise os' = .ok bs := by
  induction h generalizing bs with
  | nil => exact hbs
  | @cons o o' os os' ho h ih =>
      obtain ⟨here, hhere, hbs⟩ := Except.bind_eq_ok hbs
      obtain ⟨rest, hrest, hbs⟩ := Except.bind_eq_ok hbs
      have hhere' : d.piece symbols otherwise o' = .ok here := by
        cases d with
        | int =>
            obtain ⟨w, hw, rfl⟩ := Except.map_eq_ok hhere
            rw [Directive.piece, ho.asWord hw]
            rfl
        | byte =>
            obtain ⟨w, hw, rfl⟩ := Except.map_eq_ok hhere
            rw [Directive.piece, ho.asWord hw]
            rfl
        | string =>
            cases o with
            | quoted raw => rwa [ho.quoted rfl]
            | register | number | label => cases hhere
      refine (Except.bind_of_ok hhere' _).trans ?_
      exact (Except.bind_of_ok (ih hrest) _).trans hbs

theorem directive_size_of_matches (d : Directive) : d.size os' = d.size os := by
  cases d with
  | int => rw [Directive.size, Directive.size, h.length_eq]
  | byte => rw [Directive.size, Directive.size, h.length_eq]
  | string =>
      induction h with
      | nil => rfl
      | cons ho h ih =>
          simp only [Directive.size, List.foldr_cons] at ih ⊢
          rw [ho.stringSize, ih]

end Matches

structure Line.Matches (line line' : Line) : Prop where
  label : line'.label = line.label
  size {n : Nat} (h : line.size = .ok n) : line'.size = .ok n
  bytes {symbols : Symbols} {bs : List UInt8} (h : line.bytes symbols = .ok bs) :
    line'.bytes symbols = .ok bs

theorem Line.matches_self (line : Line) : line.Matches line := ⟨rfl, id, id⟩

namespace Wording.Recased

variable {w w' : Wording} (h : w.Recased w')

include h

theorem ofName?_eq : Opcode.ofName? w'.name = Opcode.ofName? w.name := by
  rw [Opcode.ofName?, Opcode.ofName?, h.alike.capitals]

theorem sound (hw : w.Sound) : w'.Sound :=
  ⟨h.alike.isName hw.name, arranged_of_recased h.items hw.arranged⟩

theorem alike_text (hw : w.Sound) : Alike w.text w'.text := by
  have hphrase : Alike w.phrase w'.phrase :=
    h.alike.append (alike_itemsText h.items hw.arranged.spelled)
  rw [Wording.text, Wording.text, h.dotted]
  cases w.dotted with
  | true => exact Alike.append (s := ['.']) rfl hphrase
  | false => exact hphrase

theorem size (hw : w.Sound) {n : Nat} (hn : w.statement.size = .ok n) :
    w'.statement.size = .ok n := by
  have hoperands := matches_operands h.items hw.arranged.spelled
  unfold Wording.statement at hn ⊢
  rw [h.dotted]
  cases hdotted : w.dotted with
  | false =>
      rw [hdotted] at hn
      simp only [Bool.false_eq_true, if_false, Statement.size] at hn ⊢
      rw [h.ofName?_eq]
      cases hop : Opcode.ofName? w.name with
      | none =>
          rw [hop] at hn
          cases hn
      | some op =>
          rw [hop] at hn
          exact hn
  | true =>
      rw [hdotted] at hn
      simp only [if_true, Statement.size] at hn ⊢
      rw [h.directive hdotted]
      cases hd : Directive.ofName? w.name with
      | none =>
          rw [hd] at hn
          cases hn
      | some d =>
          rw [hd] at hn
          dsimp only at hn ⊢
          rwa [directive_size_of_matches hoperands]

theorem bytes (hw : w.Sound) {symbols : Symbols} {bs : List UInt8}
    (hbs : w.statement.bytes symbols = .ok bs) : w'.statement.bytes symbols = .ok bs := by
  have hoperands := matches_operands h.items hw.arranged.spelled
  unfold Wording.statement at hbs ⊢
  rw [h.dotted]
  cases hdotted : w.dotted with
  | false =>
      rw [hdotted] at hbs
      simp only [Bool.false_eq_true, if_false, Statement.bytes] at hbs ⊢
      rw [h.ofName?_eq]
      cases hop : Opcode.ofName? w.name with
      | none =>
          rw [hop] at hbs
          cases hbs
      | some op =>
          rw [hop] at hbs
          obtain ⟨i, hi, rfl⟩ := Except.map_eq_ok hbs
          dsimp only
          rw [instruction_of_matches hoperands symbols hi]
          rfl
  | true =>
      rw [hdotted] at hbs
      simp only [if_true, Statement.bytes] at hbs ⊢
      rw [h.directive hdotted]
      cases hd : Directive.ofName? w.name with
      | none =>
          rw [hd] at hbs
          cases hbs
      | some d =>
          rw [hd] at hbs
          exact directive_bytes_of_matches hoperands symbols hbs

end Wording.Recased

namespace Draft.Recased

variable {d d' : Draft} (h : d.Recased d') (hd : d.Sound)

include h hd

theorem sound : d'.Sound := by
  cases h with
  | mk h indent tag trail =>
      refine ⟨hd.indent, hd.tag, ?_, hd.trail⟩
      rintro _ ⟨⟩
      exact h.sound (hd.wording _ rfl)

theorem alike_text : Alike d.text d'.text := by
  cases h with
  | mk h indent tag trail =>
      have hwording := h.alike_text (hd.wording _ rfl)
      exact Alike.append rfl (Alike.append rfl (hwording.append rfl))

theorem line_matches : d.line.Matches d'.line := by
  cases h with
  | mk h indent tag trail =>
      have hw := hd.wording _ rfl
      exact ⟨rfl, h.size hw, h.bytes hw⟩

end Draft.Recased

end Source

end RegisterMachine
