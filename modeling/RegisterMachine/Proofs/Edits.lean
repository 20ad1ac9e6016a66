import Mathlib.Logic.Relation
import RegisterMachine.Proofs.Layout
import RegisterMachine.Proofs.Recasing

namespace RegisterMachine

inductive Interspersed {α : Type} (R : α → α → Prop) (I : α → Prop) : List α → List α → Prop
  | nil : Interspersed R I [] []
  | extra {b : α} {as bs : List α} (hb : I b) (h : Interspersed R I as bs) :
      Interspersed R I as (b :: bs)
  | pair {a b : α} {as bs : List α} (hab : R a b) (h : Interspersed R I as bs) :
      Interspersed R I (a :: as) (b :: bs)

namespace Interspersed

variable {α : Type} {R : α → α → Prop} {I : α → Prop} {as bs cs ds : List α}

theorem refl (hR : ∀ a, R a a) (as : List α) : Interspersed R I as as := by
  induction as with
  | nil => exact .nil
  | cons a as ih => exact .pair (hR a) ih

theorem append (h : Interspersed R I as bs) (h' : Interspersed R I cs ds) :
    Interspersed R I (as ++ cs) (bs ++ ds) := by
  induction h with
  | nil => exact h'
  | extra hb _ ih => exact .extra hb ih
  | pair hab _ ih => exact .pair hab ih

theorem reverse (h : Interspersed R I as bs) : Interspersed R I as.reverse bs.reverse := by
  induction h with
  | nil => exact .nil
  | @extra b as bs hb _ ih =>
      rw [List.reverse_cons, ← List.append_nil as.reverse]
      exact ih.append (.extra hb .nil)
  | pair hab _ ih =>
      rw [List.reverse_cons, List.reverse_cons]
      exact ih.append (.pair hab .nil)

end Interspersed

open Source

namespace Source

def Repeats (s t : List Char) : Prop :=
  ∀ line, Line.read? s = some line → ∃ line', Line.read? t = some line' ∧ line.Matches line'

theorem repeats_self (s : List Char) : Repeats s s := fun line h => ⟨line, h, line.matches_self⟩

theorem Repeats.of_return {s t : List Char} (h : Repeats s (t ++ ['\r'])) : Repeats s t := by
  intro line hline
  obtain ⟨line', hread, hmatches⟩ := h line hline
  exact ⟨line', Line.read?_of_return hread, hmatches⟩

theorem Line.read?_of_idle {s : List Char} (h : Idle s) : Line.read? s = some ⟨none, none⟩ := by
  refine Line.read?_eq_some_iff.mpr ⟨⟨[], none, none, s⟩, ⟨?_, ?_, ?_, h⟩, rfl, rfl⟩
  · exact fun c hc => by cases hc
  · exact fun t ht => by cases ht
  · exact fun w hw => by cases hw

theorem Line.Matches.define {line line' : Line} (h : line.Matches line') (symbols : Symbols)
    (address : Nat) : line'.define symbols address = line.define symbols address := by
  rw [Line.define, Line.define, h.label]

end Source

namespace Assembly

namespace Survey

structure Matches (s s' : Survey) : Prop where
  symbols : s'.symbols = s.symbols
  address : s'.address = s.address
  lines : Interspersed Line.Matches (· = ⟨none, none⟩) s.lines s'.lines

theorem extend_of_ok {s : Survey} {text : List Char} {line : Line} {symbols : Symbols} {size : Nat}
    (hread : Line.read? text = some line) (hdefine : line.define s.symbols s.address = .ok symbols)
    (hsize : line.size = .ok size) (hle : s.address + size ≤ sizeLimit) (number : Nat) :
    s.extend number text = .ok ⟨line :: s.lines, symbols, s.address + size⟩ := by
  have hline : blame number (Line.read text) = .ok line := by
    rw [Line.read, hread]
    rfl
  have hsymbols : blame number (line.define s.symbols s.address) = .ok symbols := by
    rw [hdefine]
    rfl
  have hblame : blame number line.size = .ok size := by
    rw [hsize]
    rfl
  rw [extend, Except.bind_of_ok hline, Except.bind_of_ok hsymbols, Except.bind_of_ok hblame]
  exact if_neg (Nat.not_lt.mpr hle)

namespace Matches

variable {s s' u : Survey} (h : s.Matches s')

include h

theorem extend {text text' : List Char} (htexts : Repeats text text') {number : Nat}
    (hu : s.extend number text = .ok u) (number' : Nat) :
    ∃ u', s'.extend number' text' = .ok u' ∧ u.Matches u' := by
  obtain ⟨line, size, hread, hdefine, hsize, hlines, haddress, hle⟩ := extend_eq_ok hu
  obtain ⟨line', hread', hmatches⟩ := htexts line hread
  rw [← h.symbols, ← h.address, ← hmatches.define] at hdefine
  rw [haddress, ← h.address] at hle
  refine ⟨_, extend_of_ok hread' hdefine (hmatches.size hsize) hle number', rfl, ?_, ?_⟩
  · rw [haddress, h.address]
  · rw [hlines]
    exact .pair hmatches h.lines

theorem extend_idle (hs : s.address ≤ sizeLimit) {text : List Char} (ht : Idle text) (number' : Nat) :
    ∃ u', s'.extend number' text = .ok u' ∧ s.Matches u' := by
  have hle : s'.address + 0 ≤ sizeLimit := by rwa [Nat.add_zero, h.address]
  exact ⟨_, extend_of_ok (Line.read?_of_idle ht) rfl rfl hle number', h.symbols, h.address,
    .extra rfl h.lines⟩

theorem ofLines {texts texts' : List (List Char)} (htexts : Interspersed Repeats Idle texts texts')
    (hs : s.address ≤ sizeLimit) {number : Nat} (hu : s.ofLines number texts = .ok u)
    (number' : Nat) : ∃ u', s'.ofLines number' texts' = .ok u' ∧ u.Matches u' := by
  induction htexts generalizing s s' number number' with
  | nil =>
      cases hu
      exact ⟨s', rfl, h⟩
  | extra ht _ ih =>
      obtain ⟨v', hv', hmatches⟩ := h.extend_idle hs ht number'
      obtain ⟨u', hu', hlast⟩ := ih hmatches hs hu (number' + 1)
      refine ⟨u', ?_, hlast⟩
      rw [Survey.ofLines, hv']
      exact hu'
  | @pair text text' _ _ htext _ ih =>
      rw [Survey.ofLines] at hu
      cases hv : s.extend number text with
      | error e =>
          rw [hv] at hu
          cases hu
      | ok v =>
          rw [hv] at hu
          obtain ⟨-, -, -, -, -, -, -, hle⟩ := extend_eq_ok hv
          obtain ⟨v', hv', hmatches⟩ := h.extend htext hv number'
          obtain ⟨u', hu', hlast⟩ := ih hmatches hle hu (number' + 1)
          refine ⟨u', ?_, hlast⟩
          rw [Survey.ofLines, hv']
          exact hu'

end Matches

end Survey

theorem write_of_interspersed {symbols : Symbols} {lines lines' : List Line}
    (h : Interspersed Line.Matches (· = ⟨none, none⟩) lines lines') {written out : Array UInt8}
    {number : Nat} (hout : write symbols written number lines = .ok out) (number' : Nat) :
    write symbols written number' lines' = .ok out := by
  induction h generalizing written number number' with
  | nil => exact hout
  | extra hb _ ih =>
      subst hb
      have hrest := ih hout (number' + 1)
      rw [← @Array.append_empty _ written] at hrest
      exact hrest
  | @pair line line' _ _ hline _ ih =>
      rw [write] at hout ⊢
      cases hbytes : line.bytes symbols with
      | error complaint =>
          rw [hbytes] at hout
          cases hout
      | ok bytes =>
          rw [hbytes] at hout
          rw [hline.bytes hbytes]
          exact ih hout (number' + 1)

theorem ofLines_of_interspersed {texts texts' : List (List Char)}
    (h : Interspersed Repeats Idle texts texts') {a : Assembly} (ha : ofLines texts = .ok a) :
    ofLines texts' = .ok a := by
  obtain ⟨survey, hsurvey, ha⟩ := Except.bind_eq_ok ha
  obtain ⟨image, himage, ha⟩ := Except.bind_eq_ok ha
  have hstart : Survey.start.Matches Survey.start := ⟨rfl, rfl, .nil⟩
  obtain ⟨survey', hsurvey', hmatches⟩ := hstart.ofLines h (Nat.zero_le _) hsurvey 1
  have himage' := write_of_interspersed hmatches.lines.reverse himage 1
  rw [← hmatches.symbols] at himage'
  refine (Except.bind_of_ok hsurvey' _).trans ((Except.bind_of_ok himage' _).trans ?_)
  rw [hmatches.symbols]
  exact ha

end Assembly

namespace Source

def Fresh (front : List Char) : Prop := front = [] ∨ ∃ f, front = f ++ ['\n']

theorem linesFrom_front (done front s : List Char) :
    linesFrom done (front ++ '\n' :: s) = linesFrom done (front ++ ['\n']) ++ linesFrom [] s := by
  induction front generalizing done with
  | nil =>
      simp only [List.nil_append, linesFrom, if_true, List.cons_append]
  | cons c front ih =>
      simp only [List.cons_append, linesFrom]
      split
      · rw [ih, List.cons_append]
      · exact ih (c :: done)

theorem Fresh.linesFrom {front : List Char} (h : Fresh front) (s : List Char) :
    linesFrom [] (front ++ s) = linesFrom [] front ++ linesFrom [] s := by
  rcases h with rfl | ⟨f, rfl⟩
  · rfl
  · rw [List.append_assoc]
    exact linesFrom_front [] f s

theorem exists_fresh (s : List Char) : ∃ f t, s = f ++ t ∧ Fresh f ∧ '\n' ∉ t := by
  induction s with
  | nil => exact ⟨[], [], rfl, .inl rfl, List.not_mem_nil⟩
  | cons c s ih =>
      obtain ⟨f, t, rfl, hf, ht⟩ := ih
      rcases hf with rfl | ⟨g, rfl⟩
      · by_cases hc : c = '\n'
        · exact ⟨[c], t, rfl, .inr ⟨[], by rw [hc]; rfl⟩, ht⟩
        · exact ⟨[], c :: t, rfl, .inl rfl, List.not_mem_cons_of_ne_of_not_mem (Ne.symm hc) ht⟩
      · exact ⟨c :: (g ++ ['\n']), t, rfl, .inr ⟨c :: g, rfl⟩, ht⟩

theorem linesFrom_return {line : List Char} (h : '\n' ∉ line) (rest : List Char) :
    linesFrom [] (line ++ '\r' :: '\n' :: rest) = line :: linesFrom [] rest := by
  have hreturn : linesFrom line.reverse ('\r' :: '\n' :: rest) =
      line.reverse.reverse :: linesFrom [] rest := by
    simp only [linesFrom]
    rfl
  rw [linesFrom_append h, List.append_nil, hreturn, List.reverse_reverse]

theorem linesFrom_feed {line : List Char} (h : '\n' ∉ line) (hfirm : Firm line) (rest : List Char) :
    linesFrom [] (line ++ '\n' :: rest) = line :: linesFrom [] rest := by
  rw [linesFrom_append h, List.append_nil, linesFrom, if_pos rfl, List.reverse_reverse]
  intro front hfront
  rw [Firm, ← List.head?_reverse, hfront] at hfirm
  exact hfirm rfl

theorem exists_linesFrom {line : List Char} (h : '\n' ∉ line) (rest : List Char) :
    ∃ left, (left = line ∨ line = left ++ ['\r']) ∧
      linesFrom [] (line ++ '\n' :: rest) = left :: linesFrom [] rest := by
  by_cases hfirm : Firm line
  · exact ⟨line, .inl rfl, linesFrom_feed h hfirm rest⟩
  · obtain ⟨left, rfl⟩ := List.getLast?_eq_some_iff.mp (not_not.mp hfirm)
    refine ⟨left, .inr rfl, ?_⟩
    rw [List.append_assoc, List.singleton_append]
    exact linesFrom_return (fun hmem => h (List.mem_append_left _ hmem)) rest

inductive Rewritten : List Char → List Char → Prop
  | pad (line : List Char) {b b' comment : List Char} (hb : Blanks b) (hb' : Blanks b')
      (hcomment : isComment comment) (hline : '\n' ∉ comment) :
      Rewritten line (b ++ (line ++ (b' ++ comment)))
  | recase {d d' : Draft} (hd : d.Sound) (h : d.Recased d') : Rewritten d.text d'.text

inductive Ends (line : List Char) : List Char → Prop
  | last (hne : line ≠ []) : Ends line []
  | feed (hfirm : Firm line) (rest : List Char) : Ends line ('\n' :: rest)
  | both (rest : List Char) : Ends line ('\r' :: '\n' :: rest)

def IsLineEnd (e : List Char) : Prop := e = ['\n'] ∨ e = ['\r', '\n']

inductive Edit : List Char → List Char → Prop
  | insert {front line e : List Char} (hfront : Fresh front) (hidle : Idle line)
      (hline : '\n' ∉ line) (he : IsLineEnd e) (rest : List Char) :
      Edit (front ++ rest) (front ++ (line ++ (e ++ rest)))
  | attach {front line : List Char} (hfront : Fresh front) (hidle : Idle line) (hline : '\n' ∉ line) :
      Edit front (front ++ line)
  | close {front line e : List Char} (hfront : Fresh front) (hline : '\n' ∉ line) (hne : line ≠ [])
      (he : IsLineEnd e) : Edit (front ++ line) (front ++ (line ++ e))
  | widen {front : List Char} (hfront : Firm front) (rest : List Char) :
      Edit (front ++ '\n' :: rest) (front ++ '\r' :: '\n' :: rest)
  | rewrite {front line line' rest : List Char} (hfront : Fresh front) (hline : '\n' ∉ line)
      (hrest : Ends line rest) (h : Rewritten line line') :
      Edit (front ++ (line ++ rest)) (front ++ (line' ++ rest))

namespace Rewritten

variable {line line' : List Char} (h : Rewritten line line')

include h

theorem repeats : Repeats line line' := by
  cases h with
  | pad _ hb hb' hcomment hline =>
      intro found hread
      exact ⟨found, Line.read?_pad hread hb (idle_iff.mpr ⟨_, _, hb', hcomment, rfl⟩),
        found.matches_self⟩
  | recase hd h =>
      intro found hread
      rw [read?_draft hd] at hread
      cases hread
      exact ⟨_, read?_draft (h.sound hd), h.line_matches hd⟩

theorem feed_not_mem (hline : '\n' ∉ line) : '\n' ∉ line' := by
  cases h with
  | pad _ hb hb' hcomment hfeed =>
      simp only [List.mem_append, not_or]
      exact ⟨hb.oneLine.not_mem, hline, hb'.oneLine.not_mem, hfeed⟩
  | recase hd h => exact (h.alike_text hd).feed_not_mem hline

theorem ne_nil (hne : line ≠ []) : line' ≠ [] := by
  cases h with
  | pad _ hb hb' hcomment hfeed => simp [hne]
  | recase hd h =>
      have hlength := (h.alike_text hd).length
      rw [← List.length_pos_iff] at hne ⊢
      rwa [hlength]

end Rewritten

theorem exists_idle {line : List Char} (hidle : Idle line) (hline : '\n' ∉ line) {e : List Char}
    (he : IsLineEnd e) (rest : List Char) :
    ∃ left, Idle left ∧ linesFrom [] (line ++ (e ++ rest)) = left :: linesFrom [] rest := by
  rcases he with rfl | rfl
  · obtain ⟨left, hleft, hlines⟩ := exists_linesFrom hline rest
    refine ⟨left, ?_, hlines⟩
    rcases hleft with rfl | rfl
    · exact hidle
    · exact hidle.of_append
  · exact ⟨line, hidle, linesFrom_return hline rest⟩

theorem interspersed_self (texts : List (List Char)) : Interspersed Repeats Idle texts texts :=
  .refl repeats_self texts

theorem Edit.interspersed {s t : List Char} (h : Edit s t) :
    Interspersed Repeats Idle (linesFrom [] s) (linesFrom [] t) := by
  cases h with
  | @insert front line e hfront hidle hline he rest =>
      obtain ⟨left, hleft, hlines⟩ := exists_idle hidle hline he rest
      rw [hfront.linesFrom, hfront.linesFrom, hlines]
      exact (interspersed_self _).append (.extra hleft (interspersed_self _))
  | @attach _ line hfront hidle hline =>
      have hlast : Interspersed Repeats Idle [] (linesFrom [] line) := by
        by_cases hne : line = []
        · rw [hne]
          exact .nil
        · rw [linesFrom_last hline hne]
          exact .extra hidle .nil
      have happend := (interspersed_self (linesFrom [] s)).append hlast
      rw [List.append_nil] at happend
      rw [hfront.linesFrom]
      exact happend
  | @close front line e hfront hline hne he =>
      rw [hfront.linesFrom, hfront.linesFrom, linesFrom_last hline hne]
      refine (interspersed_self _).append ?_
      rcases he with rfl | rfl
      · obtain ⟨left, hleft, hlines⟩ := exists_linesFrom hline []
        rw [hlines]
        refine .pair ?_ .nil
        rcases hleft with rfl | rfl
        · exact repeats_self left
        · exact (repeats_self _).of_return
      · rw [linesFrom_return hline []]
        exact .pair (repeats_self line) .nil
  | @widen front hfirm rest =>
      obtain ⟨f, line, rfl, hf, hline⟩ := exists_fresh front
      rw [List.append_assoc, List.append_assoc, hf.linesFrom, hf.linesFrom,
        linesFrom_feed hline hfirm.of_append, linesFrom_return hline]
      exact interspersed_self _
  | @rewrite front line line' rest hfront hline hrest h =>
      have hline' := h.feed_not_mem hline
      rw [hfront.linesFrom, hfront.linesFrom]
      refine (interspersed_self _).append ?_
      cases hrest with
      | last hne =>
          rw [List.append_nil, List.append_nil, linesFrom_last hline hne,
            linesFrom_last hline' (h.ne_nil hne)]
          exact .pair h.repeats .nil
      | feed hfirm rest =>
          obtain ⟨left, hleft, hlines⟩ := exists_linesFrom hline' rest
          rw [linesFrom_feed hline hfirm, hlines]
          refine .pair ?_ (interspersed_self _)
          rcases hleft with rfl | rfl
          · exact h.repeats
          · exact h.repeats.of_return
      | both rest =>
          rw [linesFrom_return hline, linesFrom_return hline']
          exact .pair h.repeats (interspersed_self _)

end Source

namespace Assembly

open Relation

theorem ignores_layout :
    (∀ s line, Line.read? s = some line → ∀ b b' comment, Blanks b → Blanks b' → isComment comment →
      Line.read? (b ++ (s ++ (b' ++ comment))) = some line) ∧
    (∀ s line, Line.read? s = some line ↔ ∃ d : Draft, d.Sound ∧ d.text = s ∧ d.line = line) ∧
    ∀ s t : String, ReflTransGen Edit s.toList t.toList →
      ∀ a, ofSource s = .ok a → ofSource t = .ok a := by
  refine ⟨fun s line hread b b' comment hb hb' hcomment => ?_, fun s line => Line.read?_eq_some_iff,
    fun s t hedits a ha => ?_⟩
  · exact Line.read?_pad hread hb (idle_iff.mpr ⟨_, _, hb', hcomment, rfl⟩)
  · rw [ofSource, Source.lines] at ha ⊢
    generalize t.toList = edited at hedits ⊢
    induction hedits with
    | refl => exact ha
    | tail _ hedit ih => exact ofLines_of_interspersed hedit.interspersed ih

def increment (name : String) (letter : Char) : Draft :=
  ⟨[], none, some ⟨false, name, [⟨[' '], [letter, '7'], .register (String.ofList [letter, '7'])⟩]⟩, []⟩

theorem sound_increment : (increment "inc" 'r').Sound := by
  have hspelled : Spelled ['r', '7'] (.register (String.ofList ['r', '7'])) :=
    spelled_register (.inr rfl) (by decide) (List.forall_mem_singleton.mpr rfl)
  refine ⟨by decide, nofun, ?_, by decide⟩
  rintro _ ⟨⟩
  exact ⟨by decide +kernel, ⟨by decide, nofun, hspelled⟩, nofun⟩

theorem recased_increment : (increment "inc" 'r').Recased (increment "Inc" 'R') := by
  unfold increment
  refine .mk ?_ [] none []
  exact ⟨rfl, nofun, by decide +kernel, .cons (.letter rfl (.inl rfl)) .nil⟩

theorem ignores_layout_increment :
    Line.read? "\tInc R7 ;,R8".toList = some ⟨none, some (.operation "Inc" [.register "R7"])⟩ ∧
    ofSource "#\n\tInc R7 ;,R8\r\n" = .ok ⟨[0x10, 7], Symbols.empty⟩ := by
  obtain ⟨hpad, -, hsource⟩ := ignores_layout
  have hplain : "inc r7".toList = (increment "inc" 'r').text := by decide +kernel
  have hcapital : "Inc R7".toList = (increment "Inc" 'R').text := by decide +kernel
  have hpadded : "\tInc R7 ;,R8".toList =
      ['\t'] ++ ("Inc R7".toList ++ ([' '] ++ [';', ',', 'R', '8'])) := by decide +kernel
  refine ⟨?_, hsource "inc r7" _ ?_ _ (Except.eq_ok_of_toOption (by decide +kernel))⟩
  · rw [hpadded]
    refine hpad _ _ ?_ _ _ _ (by decide) (by decide) rfl
    decide +kernel
  · have hrecased : Edit ([] ++ ("inc r7".toList ++ [])) ([] ++ ("Inc R7".toList ++ [])) := by
      rw [hplain, hcapital]
      exact .rewrite (.inl rfl) (by decide +kernel) (.last (by decide +kernel))
        (.recase sound_increment recased_increment)
    have hpad : Rewritten "Inc R7".toList "\tInc R7 ;,R8".toList := by
      rw [hpadded]
      exact .pad _ (by decide) (by decide) rfl (by decide)
    have hwider : Edit ([] ++ ("Inc R7".toList ++ [])) ([] ++ ("\tInc R7 ;,R8".toList ++ [])) :=
      .rewrite (.inl rfl) (by decide +kernel) (.last (by decide +kernel)) hpad
    have hclosed : Edit ([] ++ "\tInc R7 ;,R8".toList) ([] ++ ("\tInc R7 ;,R8".toList ++ ['\n'])) :=
      .close (.inl rfl) (by decide +kernel) (by decide +kernel) (.inl rfl)
    have hwidened : Edit ("\tInc R7 ;,R8".toList ++ ['\n'])
        ("\tInc R7 ;,R8".toList ++ ['\r', '\n']) := .widen (by decide +kernel) []
    have hinserted : ∀ rest, Edit ([] ++ rest) ([] ++ (['#'] ++ (['\n'] ++ rest))) :=
      .insert (.inl rfl) (by decide) (by decide) (.inl rfl)
    simp only [List.nil_append, List.append_nil] at hrecased hwider hclosed hinserted
    have hlast : "#\n\tInc R7 ;,R8\r\n".toList =
        ['#'] ++ (['\n'] ++ ("\tInc R7 ;,R8".toList ++ ['\r', '\n'])) := by decide +kernel
    rw [hlast]
    exact .tail (.tail (.tail (.tail (.single hrecased) hwider) hclosed) hwidened) (hinserted _)

end Assembly

end RegisterMachine
