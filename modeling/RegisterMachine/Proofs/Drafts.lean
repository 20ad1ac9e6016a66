import RegisterMachine.Proofs.Escapes

namespace RegisterMachine

namespace Source

def Blanks (s : List Char) : Prop := ∀ c ∈ s, isBlank c = true

instance (s : List Char) : Decidable (Blanks s) := List.decidableBAll _ s

def Idle (s : List Char) : Prop := isComment (skipBlanks s) = true

instance (s : List Char) : Decidable (Idle s) := inferInstanceAs (Decidable (_ = true))

def IsComma (s : List Char) : Prop := ∃ b b', Blanks b ∧ Blanks b' ∧ s = b ++ ',' :: b'

inductive Spelled : List Char → Operand → Prop
  | quoted {raw : String} (h : '"' ∉ raw.toList) :
      Spelled ('"' :: (raw.toList ++ ['"'])) (.quoted raw)
  | number {text : String} (h : IsNumber text.toList) : Spelled text.toList (.number text)
  | name {name : String} (h : isName name.toList) : Spelled name.toList (.ofName name)

structure Item where
  before : List Char
  text : List Char
  operand : Operand

def itemsText (is : List Item) : List Char := is.flatMap (fun i => i.before ++ i.text)

structure Item.Leads (i : Item) : Prop where
  blanks : Blanks i.before
  apart : i.before = [] → Stops continuesName i.text
  spelled : Spelled i.text i.operand

structure Item.Follows (i : Item) : Prop where
  comma : IsComma i.before
  spelled : Spelled i.text i.operand

def Arranged : List Item → Prop
  | [] => True
  | i :: is => i.Leads ∧ ∀ j ∈ is, j.Follows

structure Wording where
  dotted : Bool
  name : String
  items : List Item

namespace Wording

def phrase (w : Wording) : List Char := w.name.toList ++ itemsText w.items

def text (w : Wording) : List Char := if w.dotted then '.' :: w.phrase else w.phrase

def statement (w : Wording) : Statement :=
  if w.dotted then .directive w.name (w.items.map Item.operand)
  else .operation w.name (w.items.map Item.operand)

structure Sound (w : Wording) : Prop where
  name : isName w.name.toList
  arranged : Arranged w.items

end Wording

structure Tag where
  name : String
  inner : List Char
  outer : List Char

namespace Tag

def text (t : Tag) : List Char := t.name.toList ++ (t.inner ++ ':' :: t.outer)

structure Sound (t : Tag) : Prop where
  name : isName t.name.toList
  inner : Blanks t.inner
  outer : Blanks t.outer

end Tag

structure Draft where
  indent : List Char
  tag : Option Tag
  wording : Option Wording
  trail : List Char

namespace Draft

def text (d : Draft) : List Char :=
  d.indent ++ (d.tag.elim [] Tag.text ++ (d.wording.elim [] Wording.text ++ d.trail))

def line (d : Draft) : Line := ⟨d.tag.map Tag.name, d.wording.map Wording.statement⟩

structure Sound (d : Draft) : Prop where
  indent : Blanks d.indent
  tag : ∀ t, d.tag = some t → t.Sound
  wording : ∀ w, d.wording = some w → w.Sound
  trail : Idle d.trail

end Draft

theorem Blanks.append {b b' : List Char} (h : Blanks b) (h' : Blanks b') : Blanks (b ++ b') := by
  intro c hc
  rcases List.mem_append.mp hc with hc | hc
  · exact h c hc
  · exact h' c hc

theorem continuesName_of_isBlank {c : Char} (h : isBlank c = true) : continuesName c = false := by
  simp only [isBlank, Bool.or_eq_true, beq_iff_eq] at h
  rcases h with rfl | rfl <;> decide

theorem Blanks.stops {b : List Char} (hb : Blanks b) {s : List Char} (hs : Stops continuesName s) :
    Stops continuesName (b ++ s) := by
  cases b with
  | nil => exact hs
  | cons c b => exact stops_cons (continuesName_of_isBlank (hb c List.mem_cons_self)) _

theorem skipBlanks_append {b : List Char} (h : Blanks b) (s : List Char) :
    skipBlanks (b ++ s) = skipBlanks s :=
  List.dropWhile_append_of_pos h

theorem stops_dropWhile (p : Char → Bool) (s : List Char) : Stops p (s.dropWhile p) := by
  intro c t h
  have hhead := List.head?_dropWhile_not p s
  rw [h] at hhead
  simpa using hhead

theorem exists_blanks (s : List Char) : ∃ b, Blanks b ∧ s = b ++ skipBlanks s :=
  ⟨s.takeWhile isBlank, List.all_eq_true.mp List.all_takeWhile, List.takeWhile_append_dropWhile.symm⟩

theorem skipBlanks_skipBlanks (s : List Char) : skipBlanks (skipBlanks s) = skipBlanks s :=
  skipBlanks_of_stops (stops_dropWhile isBlank s)

theorem stops_of_isComment {p : Char → Bool} (hsemicolon : p ';' = false) (hhash : p '#' = false)
    {s : List Char} (h : isComment s) : Stops p s := by
  rintro c t rfl
  simp only [isComment, Bool.or_eq_true, beq_iff_eq] at h
  rcases h with rfl | rfl
  · exact hsemicolon
  · exact hhash

theorem idle_iff {s : List Char} :
    Idle s ↔ ∃ b c, Blanks b ∧ isComment c = true ∧ s = b ++ c := by
  constructor
  · intro h
    obtain ⟨b, hb, hs⟩ := exists_blanks s
    exact ⟨b, _, hb, h, hs⟩
  · rintro ⟨b, c, hb, hc, rfl⟩
    rw [Idle, skipBlanks_append hb, skipBlanks_of_stops (stops_of_isComment rfl rfl hc)]
    exact hc

namespace Idle

variable {s : List Char} (h : Idle s)

include h

theorem stops : Stops continuesName s := by
  obtain ⟨b, c, hb, hc, rfl⟩ := idle_iff.mp h
  exact hb.stops (stops_of_isComment (by decide) (by decide) hc)

theorem append {z : List Char} (hz : Idle z) : Idle (s ++ z) := by
  obtain ⟨b, c, hb, hc, rfl⟩ := idle_iff.mp h
  cases c with
  | nil =>
      rw [List.append_nil, Idle, skipBlanks_append hb]
      exact hz
  | cons x c => exact idle_iff.mpr ⟨b, x :: c ++ z, hb, hc, List.append_assoc ..⟩

theorem skip : Idle (skipBlanks s) := by
  rw [Idle, skipBlanks_skipBlanks]
  exact h

end Idle

theorem name?_of_isComment {s : List Char} (h : isComment s) : name? s = none := by
  cases s with
  | nil => rfl
  | cons c s =>
      have hstops : Stops startsName (c :: s) := stops_of_isComment rfl rfl h
      rw [name?, hstops c s rfl, if_neg Bool.false_ne_true]

theorem number?_of_isComment {s : List Char} (h : isComment s) : number? s = none := by
  cases s with
  | nil => rfl
  | cons c s =>
      simp only [isComment, Bool.or_eq_true, beq_iff_eq] at h
      rcases h with rfl | rfl <;> simp [number?, magnitude?, run?]

theorem operand?_of_isComment {s : List Char} (h : isComment s) : operand? s = none := by
  have hname := name?_of_isComment h
  have hnumber := number?_of_isComment h
  cases s with
  | nil => rfl
  | cons c s =>
      have hquote : c ≠ '"' := by
        rintro rfl
        cases h
      rw [operand?, quoted?_eq_none hquote, hnumber, hname]
      rfl

theorem isName_head {s : List Char} (h : isName s) : ∃ c t, s = c :: t ∧ startsName c = true := by
  cases s with
  | nil => cases h
  | cons c t => exact ⟨c, t, rfl, (Bool.and_eq_true_iff.mp h).1⟩

theorem startsName_of_isDigit {c : Char} (h : c.isDigit = true) : startsName c = false := by
  obtain ⟨hlow, hhigh⟩ := Bool.and_eq_true_iff.mp h
  have hfirst : 48 ≤ c.toNat := of_decide_eq_true hlow
  have hlast : c.toNat ≤ 57 := of_decide_eq_true hhigh
  have hdigits : ∀ k : Fin 10, startsName (Char.ofNat (48 + k.val)) = false := by decide
  have hdigit := hdigits ⟨c.toNat - 48, by omega⟩
  rwa [Nat.add_sub_cancel' hfirst, Char.ofNat_toNat] at hdigit

theorem number?_of_startsName {c : Char} (h : startsName c = true) (s : List Char) :
    number? (c :: s) = none := by
  have hdigit : c.isDigit = false := by
    refine Bool.eq_false_iff.mpr (fun hdigit => ?_)
    rw [startsName_of_isDigit hdigit] at h
    cases h
  have hminus : c ≠ '-' := by
    rintro rfl
    exact absurd h (by decide)
  have hzero : c ≠ '0' := by
    rintro rfl
    exact absurd h (by decide)
  have hmagnitude : magnitude? (c :: s) = none := by
    unfold magnitude?
    split
    · rename_i heq
      cases heq
      exact absurd rfl hzero
    · simp [run?, hdigit]
  unfold number?
  split
  · rename_i heq
    cases heq
    exact absurd rfl hminus
  · rw [hmagnitude]
    rfl

namespace Spelled

variable {s : List Char} {o : Operand} (h : Spelled s o)

include h

theorem head : ∃ c t, s = c :: t ∧ (c = '"' ∨ c = '-' ∨ continuesName c = true) := by
  cases h with
  | quoted h => exact ⟨_, _, rfl, .inl rfl⟩
  | number h =>
      obtain ⟨c, t, hs, hc⟩ := h.head
      exact ⟨c, t, hs, .inr (hc.imp_right continuesName_of_isDigit)⟩
  | name h =>
      obtain ⟨c, t, hs, hc⟩ := isName_head h
      exact ⟨c, t, hs, .inr (.inr (continuesName_of_startsName hc))⟩

theorem stops_isBlank (rest : List Char) : Stops isBlank (s ++ rest) := by
  obtain ⟨c, t, rfl, hc⟩ := h.head
  refine stops_cons ?_ _
  rcases hc with rfl | rfl | hc
  · rfl
  · rfl
  · exact isBlank_eq_false hc

theorem read {rest : List Char} (hrest : Stops continuesName rest) :
    operand? (s ++ rest) = some (o, rest) := by
  cases h with
  | quoted h =>
      have hread := quoted?_of_not_mem h rest
      rw [String.ofList_toList] at hread
      rw [List.cons_append, List.append_assoc, List.singleton_append, operand?, hread]
  | number h => rw [operand?_number h hrest, String.ofList_toList]
  | name h =>
      have hname := name?_of_isName h hrest
      obtain ⟨c, t, hs, hc⟩ := isName_head h
      have hquote : c ≠ '"' := by
        rintro rfl
        exact absurd hc (by decide)
      rw [hs, List.cons_append] at hname ⊢
      rw [operand?, quoted?_eq_none hquote, number?_of_startsName hc, hname]
      rfl

end Spelled

theorem run?_eq_some {p : Char → Bool} {s ds rest : List Char} (h : run? p s = some (ds, rest)) :
    s = ds ++ rest ∧ ds ≠ [] ∧ ∀ c ∈ ds, p c = true := by
  unfold run? at h
  split at h
  · cases h
  · rename_i hne
    cases h
    exact ⟨List.takeWhile_append_dropWhile.symm, hne, List.all_eq_true.mp List.all_takeWhile⟩

theorem magnitude?_eq_some {s ds rest : List Char} (h : magnitude? s = some (ds, rest)) :
    s = ds ++ rest ∧ IsMagnitude ds := by
  have hdecimal (h : run? Char.isDigit s = some (ds, rest)) : s = ds ++ rest ∧ IsMagnitude ds := by
    obtain ⟨hs, hne, hds⟩ := run?_eq_some h
    exact ⟨hs, .decimal hne hds⟩
  unfold magnitude? at h
  split at h
  · rename_i x r
    split at h
    · rename_i hx
      split at h
      · rename_i hexadecimal rest' hrun
        cases h
        obtain ⟨rfl, hne, hds⟩ := run?_eq_some hrun
        exact ⟨rfl, .hexadecimal (by simpa using hx) hne hds⟩
      · exact hdecimal h
    · exact hdecimal h
  · exact hdecimal h

theorem number?_eq_some {s rest : List Char} {text : String} (h : number? s = some (text, rest)) :
    s = text.toList ++ rest ∧ IsNumber text.toList := by
  unfold number? at h
  split at h
  · obtain ⟨⟨ds, rest'⟩, hread, h⟩ := Option.map_eq_some_iff.mp h
    cases h
    obtain ⟨rfl, hds⟩ := magnitude?_eq_some hread
    rw [String.toList_ofList]
    exact ⟨rfl, .minus hds⟩
  · obtain ⟨⟨ds, rest'⟩, hread, h⟩ := Option.map_eq_some_iff.mp h
    cases h
    obtain ⟨rfl, hds⟩ := magnitude?_eq_some hread
    rw [String.toList_ofList]
    exact ⟨rfl, .plain hds⟩

theorem name?_eq_some {s rest : List Char} {name : String} (h : name? s = some (name, rest)) :
    s = name.toList ++ rest ∧ isName name.toList ∧ Stops continuesName rest := by
  cases s with
  | nil => cases h
  | cons c s =>
      rw [name?] at h
      split at h
      · rename_i hc
        cases h
        rw [String.toList_ofList]
        refine ⟨?_, ?_, stops_dropWhile continuesName s⟩
        · rw [List.cons_append, List.takeWhile_append_dropWhile]
        · exact Bool.and_eq_true_iff.mpr ⟨hc, List.all_takeWhile⟩
      · cases h

theorem quoted?_eq_some {s rest : List Char} {raw : String} (h : quoted? s = some (raw, rest)) :
    s = '"' :: (raw.toList ++ '"' :: rest) ∧ '"' ∉ raw.toList := by
  unfold quoted? at h
  split at h
  · rename_i r
    split at h
    · rename_i q rest' hdrop
      cases h
      have hstops := stops_dropWhile (· != '"') r
      have hq : q = '"' := by simpa using hstops q rest hdrop
      rw [String.toList_ofList]
      refine ⟨?_, fun hmem => ?_⟩
      · rw [← hq, ← hdrop, hq, List.takeWhile_append_dropWhile]
      · exact absurd (List.all_eq_true.mp List.all_takeWhile _ hmem) (by decide)
    · cases h
  · cases h

theorem spelled_of_operand? {s rest : List Char} {o : Operand} (h : operand? s = some (o, rest)) :
    ∃ text, s = text ++ rest ∧ Spelled text o := by
  unfold operand? at h
  split at h
  · rename_i raw rest' hquoted
    cases h
    obtain ⟨rfl, hraw⟩ := quoted?_eq_some hquoted
    exact ⟨_, by simp, .quoted hraw⟩
  · split at h
    · rename_i text rest' hnumber
      cases h
      obtain ⟨rfl, htext⟩ := number?_eq_some hnumber
      exact ⟨_, rfl, .number htext⟩
    · obtain ⟨⟨name, rest'⟩, hread, h⟩ := Option.map_eq_some_iff.mp h
      cases h
      obtain ⟨rfl, hname, -⟩ := name?_eq_some hread
      exact ⟨_, rfl, .name hname⟩

theorem comma?_of_isComma {b s : List Char} (hb : IsComma b) (hs : Stops isBlank s) :
    comma? (b ++ s) = some s := by
  obtain ⟨c, c', hc, hc', rfl⟩ := hb
  have hcomma : Stops isBlank (',' :: (c' ++ s)) := stops_cons rfl _
  rw [List.append_assoc, List.cons_append, comma?, skipBlanks_append hc, skipBlanks_of_stops hcomma]
  exact congrArg some ((skipBlanks_append hc' s).trans (skipBlanks_of_stops hs))

theorem comma?_eq_some {s r : List Char} (h : comma? s = some r) : ∃ b, IsComma b ∧ s = b ++ r := by
  obtain ⟨b, hb, hs⟩ := exists_blanks s
  unfold comma? at h
  split at h
  · rename_i t ht
    cases h
    obtain ⟨b', hb', ht'⟩ := exists_blanks t
    refine ⟨b ++ ',' :: b', ⟨b, b', hb, hb', rfl⟩, ?_⟩
    rw [List.append_assoc, List.cons_append, ← ht', ← ht]
    exact hs
  · cases h

theorem comma?_of_idle {s : List Char} (h : Idle s) : comma? s = none := by
  unfold comma?
  split
  · rename_i t ht
    rw [Idle, ht] at h
    cases h
  · rfl

theorem moreOperands_of_idle {s : List Char} (h : Idle s) : moreOperands s = ([], s) := by
  have hcomma := comma?_of_idle h
  unfold moreOperands
  split
  · rfl
  · rename_i hsome
    rw [hcomma] at hsome
    cases hsome

theorem itemsText_nil (trail : List Char) : itemsText [] ++ trail = trail := rfl

theorem itemsText_cons (i : Item) (is : List Item) (trail : List Char) :
    itemsText (i :: is) ++ trail = i.before ++ (i.text ++ (itemsText is ++ trail)) := by
  simp [itemsText]

theorem stops_itemsText {is : List Item} (his : ∀ j ∈ is, j.Follows) {trail : List Char}
    (htrail : Idle trail) : Stops continuesName (itemsText is ++ trail) := by
  cases is with
  | nil => exact htrail.stops
  | cons i is =>
      obtain ⟨b, b', hb, -, hbefore⟩ := (his i List.mem_cons_self).comma
      rw [itemsText_cons, hbefore, List.append_assoc]
      exact hb.stops (stops_cons (by decide) _)

theorem operands_items {i : Item} (hi : Spelled i.text i.operand) {is : List Item}
    (his : ∀ j ∈ is, j.Follows) {trail : List Char} (htrail : Idle trail) :
    operands (i.text ++ (itemsText is ++ trail)) = ((i :: is).map Item.operand, trail) := by
  induction is generalizing i with
  | nil =>
      rw [operands, hi.read (stops_itemsText his htrail)]
      exact congrArg (fun r : List Operand × List Char => (i.operand :: r.1, r.2))
        (moreOperands_of_idle htrail)
  | cons j is ih =>
      have hj := his j List.mem_cons_self
      have hread := ih hj.spelled (fun k hk => his k (List.mem_cons_of_mem j hk))
      have hmore : moreOperands (itemsText (j :: is) ++ trail) =
          ((j :: is).map Item.operand, trail) := by
        rw [itemsText_cons, moreOperands_of_comma? (comma?_of_isComma hj.comma (hj.spelled.stops_isBlank _)),
          hread]
        rw [hread]
        exact List.cons_ne_nil _ _
      rw [operands, hi.read (stops_itemsText his htrail)]
      dsimp only
      rw [hmore]
      rfl

theorem items_of_moreOperands {s rest : List Char} {os : List Operand}
    (h : moreOperands s = (os, rest)) :
    ∃ is : List Item, (∀ j ∈ is, j.Follows) ∧ s = itemsText is ++ rest ∧ is.map Item.operand = os := by
  fun_induction moreOperands s generalizing os with
  | case1 s hcomma =>
      cases h
      exact ⟨[], by simp, rfl, rfl⟩
  | case2 s r hcomma hoperand =>
      cases h
      exact ⟨[], by simp, rfl, rfl⟩
  | case3 s r hcomma o t hoperand os' rest' hmore ih =>
      cases h
      obtain ⟨b, hb, rfl⟩ := comma?_eq_some hcomma
      obtain ⟨text, rfl, htext⟩ := spelled_of_operand? hoperand
      obtain ⟨is, his, rfl, rfl⟩ := ih hmore
      refine ⟨⟨b, text, o⟩ :: is, ?_, by simp [itemsText], rfl⟩
      rintro j hj
      rcases List.mem_cons.mp hj with rfl | hj
      · exact ⟨hb, htext⟩
      · exact his j hj

theorem Item.Leads.stops {i : Item} (h : i.Leads) (rest : List Char) :
    Stops continuesName (i.before ++ (i.text ++ rest)) := by
  cases hb : i.before with
  | nil =>
      obtain ⟨c, t, ht, -⟩ := h.spelled.head
      rw [List.nil_append, ht]
      exact stops_cons (h.apart hb c t ht) _
  | cons c b =>
      have hc : c ∈ i.before := hb ▸ List.mem_cons_self
      exact stops_cons (continuesName_of_isBlank (h.blanks c hc)) _

theorem Arranged.stops {is : List Item} (his : Arranged is) {trail : List Char}
    (htrail : Idle trail) : Stops continuesName (itemsText is ++ trail) := by
  cases is with
  | nil => exact htrail.stops
  | cons i is =>
      rw [itemsText_cons]
      exact his.1.stops _

theorem named?_of_arranged {name : String} (hname : isName name.toList) {is : List Item}
    (his : Arranged is) {trail : List Char} (htrail : Idle trail) :
    ∃ rest, named? (name.toList ++ (itemsText is ++ trail)) =
      some ((name, is.map Item.operand), rest) ∧ Idle rest := by
  have hread := name?_of_isName hname (his.stops htrail)
  cases is with
  | nil =>
      refine ⟨skipBlanks trail, ?_, htrail.skip⟩
      rw [named?, hread, Option.map_some]
      dsimp only
      rw [itemsText_nil, operands, operand?_of_isComment htrail]
      rfl
  | cons i is =>
      obtain ⟨hi, his⟩ := his
      refine ⟨trail, ?_, htrail⟩
      rw [named?, hread, Option.map_some]
      dsimp only
      rw [itemsText_cons, skipBlanks_append hi.blanks,
        skipBlanks_of_stops (hi.spelled.stops_isBlank _), operands_items hi.spelled his htrail]

theorem items_of_named? {s rest : List Char} {name : String} {os : List Operand}
    (h : named? s = some ((name, os), rest)) (hrest : Idle rest) :
    ∃ is trail, isName name.toList ∧ Arranged is ∧ s = name.toList ++ (itemsText is ++ trail) ∧
      is.map Item.operand = os ∧ Idle trail := by
  obtain ⟨⟨name', r⟩, hread, heq⟩ := Option.map_eq_some_iff.mp h
  dsimp only at heq
  obtain ⟨rfl, hname, hstops⟩ := name?_eq_some hread
  obtain ⟨b, hb, hr⟩ := exists_blanks r
  cases hoperand : operand? (skipBlanks r) with
  | none =>
      rw [operands, hoperand] at heq
      cases heq
      refine ⟨[], r, hname, trivial, rfl, rfl, ?_⟩
      rwa [Idle, skipBlanks_skipBlanks] at hrest
  | some read =>
      obtain ⟨o, t⟩ := read
      obtain ⟨text, htext, hspelled⟩ := spelled_of_operand? hoperand
      rcases hmore : moreOperands t with ⟨os', rest'⟩
      obtain ⟨is, his, ht, hos⟩ := items_of_moreOperands hmore
      rw [operands, hoperand] at heq
      dsimp only at heq
      rw [hmore] at heq
      cases heq
      refine ⟨⟨b, text, o⟩ :: is, rest', hname, ⟨⟨hb, ?_, hspelled⟩, his⟩, ?_, ?_, hrest⟩
      · rintro rfl c u rfl
        rw [List.nil_append, htext] at hr
        exact hstops c _ hr
      · rw [hr, htext, ht]
        simp [itemsText]
      · exact congrArg (o :: ·) hos

theorem startsName_ne_dot {c : Char} (h : startsName c = true) : c ≠ '.' := by
  rintro rfl
  exact absurd h (by decide)

theorem statement?_of_named? {s : List Char} (hs : ∀ t, s ≠ '.' :: t) :
    statement? s = (named? s).map (fun ((name, os), rest) => (.operation name os, rest)) := by
  unfold statement?
  split
  · exact absurd rfl (hs _)
  · rfl

theorem statement?_of_wording {w : Wording} (hw : w.Sound) {trail : List Char} (htrail : Idle trail) :
    ∃ rest, statement? (w.text ++ trail) = some (w.statement, rest) ∧ Idle rest := by
  obtain ⟨rest, hread, hrest⟩ := named?_of_arranged hw.name hw.arranged htrail
  refine ⟨rest, ?_, hrest⟩
  rw [← List.append_assoc] at hread
  unfold Wording.text Wording.statement Wording.phrase
  cases w.dotted with
  | true =>
      rw [if_pos rfl, if_pos rfl, List.cons_append, statement?, hread]
      rfl
  | false =>
      rw [if_neg Bool.false_ne_true, if_neg Bool.false_ne_true, statement?_of_named?, hread]
      · rfl
      · intro t heq
        obtain ⟨c, u, hname, hc⟩ := isName_head hw.name
        rw [hname] at heq
        exact startsName_ne_dot hc (List.cons.inj heq).1

theorem wording_of_statement? {s rest : List Char} {statement : Statement}
    (h : statement? s = some (statement, rest)) (hrest : Idle rest) :
    ∃ (w : Wording) (trail : List Char), w.Sound ∧ s = w.text ++ trail ∧ w.statement = statement ∧
      Idle trail := by
  unfold statement? at h
  split at h
  · obtain ⟨⟨⟨name, os⟩, rest'⟩, hread, heq⟩ := Option.map_eq_some_iff.mp h
    cases heq
    obtain ⟨is, trail, hname, his, hs, rfl, htrail⟩ := items_of_named? hread hrest
    refine ⟨⟨true, name, is⟩, trail, ⟨hname, his⟩, ?_, rfl, htrail⟩
    rw [hs, ← List.append_assoc]
    rfl
  · obtain ⟨⟨⟨name, os⟩, rest'⟩, hread, heq⟩ := Option.map_eq_some_iff.mp h
    cases heq
    obtain ⟨is, trail, hname, his, hs, rfl, htrail⟩ := items_of_named? hread hrest
    refine ⟨⟨false, name, is⟩, trail, ⟨hname, his⟩, ?_, rfl, htrail⟩
    rw [hs, ← List.append_assoc]
    rfl

theorem statement?_of_isComment {s : List Char} (h : isComment s) : statement? s = none := by
  rw [statement?_of_named?, named?, name?_of_isComment h]
  · rfl
  · rintro t rfl
    cases h

theorem label?_of_tag {t : Tag} (ht : t.Sound) (s : List Char) :
    label? (t.text ++ s) = (some t.name, t.outer ++ s) := by
  have hstops : Stops continuesName (t.inner ++ ':' :: (t.outer ++ s)) :=
    ht.inner.stops (stops_cons (by decide) _)
  have hskip : skipBlanks (t.inner ++ ':' :: (t.outer ++ s)) = ':' :: (t.outer ++ s) := by
    rw [skipBlanks_append ht.inner, skipBlanks_of_stops (stops_cons rfl _)]
  rw [Tag.text, List.append_assoc, List.append_assoc, List.cons_append, label?,
    name?_of_isName ht.name hstops]
  dsimp only
  rw [hskip]
  rfl

theorem label?_eq_some {s rest : List Char} {name : String} (h : label? s = (some name, rest)) :
    ∃ b, isName name.toList ∧ Blanks b ∧ s = name.toList ++ (b ++ ':' :: rest) := by
  unfold label? at h
  split at h
  · cases h
  · rename_i name' r hread
    split at h
    · rename_i rest' hcolon
      cases h
      obtain ⟨rfl, hname, -⟩ := name?_eq_some hread
      obtain ⟨b, hb, hr⟩ := exists_blanks r
      rw [hcolon] at hr
      exact ⟨b, hname, hb, congrArg (name.toList ++ ·) hr⟩
    · cases h

theorem label?_eq_none {s rest : List Char} (h : label? s = (none, rest)) : rest = s := by
  unfold label? at h
  split at h
  · cases h
    rfl
  · split at h
    · cases h
    · cases h
      rfl

-- What follows the name is an operand or a comment, and neither begins with a colon.
theorem Arranged.skip_ne_colon {is : List Item} (his : Arranged is) {trail : List Char}
    (htrail : Idle trail) (rest : List Char) : skipBlanks (itemsText is ++ trail) ≠ ':' :: rest := by
  intro heq
  cases is with
  | nil =>
      rw [itemsText_nil] at heq
      have hcomment : isComment (':' :: rest) = true := heq ▸ htrail
      cases hcomment
  | cons i is =>
      have hspelled := his.1.spelled
      obtain ⟨c, t, htext, hc⟩ := hspelled.head
      rw [itemsText_cons, skipBlanks_append his.1.blanks,
        skipBlanks_of_stops (hspelled.stops_isBlank _), htext] at heq
      cases heq
      exact absurd hc (by decide)

theorem label?_of_wording {w : Wording} (hw : w.Sound) {trail : List Char} (htrail : Idle trail) :
    label? (w.text ++ trail) = (none, w.text ++ trail) := by
  unfold Wording.text
  cases w.dotted with
  | true => rfl
  | false =>
      have hread := name?_of_isName hw.name (hw.arranged.stops htrail)
      rw [if_neg Bool.false_ne_true, Wording.phrase, List.append_assoc, label?, hread]
      dsimp only
      split
      · rename_i heq
        exact absurd heq (hw.arranged.skip_ne_colon htrail _)
      · rfl

theorem label?_of_isComment {s : List Char} (h : isComment s) : label? s = (none, s) := by
  rw [label?, name?_of_isComment h]

theorem stops_wording {w : Wording} (hw : w.Sound) (trail : List Char) :
    Stops isBlank (w.text ++ trail) := by
  obtain ⟨c, t, hname, hc⟩ := isName_head hw.name
  unfold Wording.text Wording.phrase
  cases w.dotted with
  | true => exact stops_cons rfl _
  | false =>
      rw [if_neg Bool.false_ne_true, hname]
      exact stops_cons (isBlank_eq_false (continuesName_of_startsName hc)) _

def Draft.body (d : Draft) : List Char := d.wording.elim [] Wording.text ++ d.trail

section Draft

variable {d : Draft} (hd : d.Sound)

include hd

theorem statement?_body :
    statement? (skipBlanks d.body) = none ∧ d.wording = none ∧ Idle d.body ∨
    ∃ w rest, statement? (skipBlanks d.body) = some (w.statement, rest) ∧ d.wording = some w ∧
      Idle rest := by
  unfold Draft.body
  cases hw : d.wording with
  | none => exact .inl ⟨statement?_of_isComment hd.trail, rfl, hd.trail⟩
  | some w =>
      have hsound := hd.wording w hw
      obtain ⟨rest, hread, hrest⟩ := statement?_of_wording hsound hd.trail
      refine .inr ⟨w, rest, ?_, rfl, hrest⟩
      rw [Option.elim_some, skipBlanks_of_stops (stops_wording hsound _), hread]

theorem label?_text : ∃ rest, skipBlanks rest = skipBlanks d.body ∧
    label? (skipBlanks d.text) = (d.tag.map Tag.name, rest) := by
  unfold Draft.text
  rw [skipBlanks_append hd.indent]
  cases ht : d.tag with
  | some t =>
      have hsound := hd.tag t ht
      obtain ⟨c, u, hname, hc⟩ := isName_head hsound.name
      have hstops : Stops isBlank (t.text ++ d.body) := by
        rw [Tag.text, hname]
        exact stops_cons (isBlank_eq_false (continuesName_of_startsName hc)) _
      refine ⟨t.outer ++ d.body, skipBlanks_append hsound.outer _, ?_⟩
      rw [Option.elim_some]
      change label? (skipBlanks (t.text ++ d.body)) = _
      rw [skipBlanks_of_stops hstops, label?_of_tag hsound]
      rfl
  | none =>
      refine ⟨skipBlanks d.body, skipBlanks_skipBlanks _, ?_⟩
      rw [Option.elim_none, List.nil_append]
      change label? (skipBlanks d.body) = _
      unfold Draft.body
      cases hw : d.wording with
      | none => exact label?_of_isComment hd.trail
      | some w =>
          have hsound := hd.wording w hw
          rw [Option.elim_some, skipBlanks_of_stops (stops_wording hsound _)]
          exact label?_of_wording hsound hd.trail

theorem read?_draft : Line.read? d.text = some d.line := by
  obtain ⟨body, hbody, hlabel⟩ := label?_text hd
  rw [Line.read?, hlabel]
  dsimp only
  rw [hbody, Draft.line]
  rcases statement?_body hd with ⟨hstatement, hw, hidle⟩ | ⟨w, rest, hstatement, hw, hidle⟩
  · rw [hstatement, hw]
    exact if_pos hidle.skip
  · rw [hstatement, hw]
    exact if_pos hidle

end Draft

theorem exists_tag {s after : List Char} {label : Option String}
    (h : label? (skipBlanks s) = (label, after)) :
    ∃ tag : Option Tag, (∀ t, tag = some t → t.Sound) ∧ tag.map Tag.name = label ∧
      skipBlanks s = tag.elim [] Tag.text ++ skipBlanks after := by
  cases label with
  | none =>
      refine ⟨none, by simp, rfl, ?_⟩
      rw [label?_eq_none h, skipBlanks_skipBlanks]
      rfl
  | some name =>
      obtain ⟨inner, hname, hinner, hskip⟩ := label?_eq_some h
      obtain ⟨outer, houter, hafter⟩ := exists_blanks after
      refine ⟨some ⟨name, inner, outer⟩, ?_, rfl, ?_⟩
      · rintro t ht
        cases ht
        exact ⟨hname, hinner, houter⟩
      · rw [Option.elim_some, Tag.text, List.append_assoc, List.append_assoc, List.cons_append,
          ← hafter]
        exact hskip

theorem exists_draft {s : List Char} {line : Line} (h : Line.read? s = some line) :
    ∃ d : Draft, d.Sound ∧ d.text = s ∧ d.line = line := by
  obtain ⟨indent, hindent, hs⟩ := exists_blanks s
  rcases hlabel : label? (skipBlanks s) with ⟨label, after⟩
  obtain ⟨tag, htag, rfl, htext⟩ := exists_tag hlabel
  rw [htext] at hs
  rw [Line.read?, hlabel] at h
  dsimp only at h
  cases hstatement : statement? (skipBlanks after) with
  | none =>
      rw [hstatement, Option.ite_none_right_eq_some] at h
      obtain ⟨hidle, hline⟩ := h
      exact ⟨⟨indent, tag, none, skipBlanks after⟩, ⟨hindent, htag, by simp, hidle⟩, hs.symm,
        Option.some.inj hline⟩
  | some read =>
      obtain ⟨statement, rest⟩ := read
      rw [hstatement, Option.ite_none_right_eq_some] at h
      obtain ⟨hidle, hline⟩ := h
      obtain ⟨w, trail, hw, hbody, rfl, htrail⟩ := wording_of_statement? hstatement hidle
      rw [hbody] at hs
      refine ⟨⟨indent, tag, some w, trail⟩, ⟨hindent, htag, ?_, htrail⟩, hs.symm,
        Option.some.inj hline⟩
      rintro w' hw'
      cases hw'
      exact hw

theorem Line.read?_eq_some_iff {s : List Char} {line : Line} :
    Line.read? s = some line ↔ ∃ d : Draft, d.Sound ∧ d.text = s ∧ d.line = line := by
  constructor
  · exact exists_draft
  · rintro ⟨d, hd, rfl, rfl⟩
    exact read?_draft hd

end Source

end RegisterMachine
