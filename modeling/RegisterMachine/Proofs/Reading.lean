import RegisterMachine.Assembly

namespace RegisterMachine

namespace Numeral

theorem digits_ne_nil (base n : Nat) : digits base n ≠ [] := by
  rw [digits]
  split <;> simp

theorem mem_digits {base n : Nat} {c : Char} (hbase : 2 ≤ base) (h : c ∈ digits base n) :
    ∃ d, d < base ∧ c = Nat.digitChar d := by
  induction n using Nat.strongRecOn with
  | ind n ih =>
      rw [digits] at h
      split at h
      · rename_i hle
        rcases List.mem_append.mp h with h | h
        · exact ih (n / base) (Nat.div_lt_self (by omega) (by omega)) h
        · exact ⟨n % base, Nat.mod_lt _ (by omega), List.mem_singleton.mp h⟩
      · exact ⟨n, by omega, List.mem_singleton.mp h⟩

theorem isDigit_of_mem_digits {n : Nat} {c : Char} (h : c ∈ digits 10 n) : c.isDigit := by
  obtain ⟨d, hd, rfl⟩ := mem_digits (by decide) h
  have hall : ∀ k : Fin 10, (Nat.digitChar k.val).isDigit := by decide
  exact hall ⟨d, hd⟩

theorem isHexDigit_of_mem_hexDigits {places n : Nat} {c : Char} (h : c ∈ hexDigits places n) :
    isHexDigit c := by
  rcases List.mem_append.mp h with h | h
  · rw [List.eq_of_mem_replicate h]
    decide
  · obtain ⟨d, hd, rfl⟩ := mem_digits (by decide) h
    have hall : ∀ k : Fin 16, isHexDigit (Nat.digitChar k.val) := by decide
    exact hall ⟨d, hd⟩

theorem value_hexDigits (places n : Nat) : value 16 (hexDigits places n) = n := by
  have hzeros : ∀ count,
      (List.replicate count '0').foldl (fun n c => n * 16 + digitValue c) 0 = 0 := by
    intro count
    induction count with
    | zero => rfl
    | succ count ih =>
        rw [List.replicate_succ, List.foldl_cons]
        exact ih
  rw [hexDigits, value, List.foldl_append, hzeros]
  exact value_digits (by decide) (by decide) n

theorem toList_decimal (n : Nat) : (decimal n).toList = digits 10 n := String.toList_ofList

theorem toList_hex (places n : Nat) :
    (hex places n).toList = '0' :: 'x' :: hexDigits places n := by
  rw [hex, String.toList_append, @String.toList_ofList (hexDigits places n)]
  rfl

end Numeral

namespace Source

def Stops (p : Char → Bool) (rest : List Char) : Prop := ∀ c s, rest = c :: s → p c = false

theorem stops_nil (p : Char → Bool) : Stops p [] := by
  intro c s h
  cases h

theorem stops_cons {p : Char → Bool} {c : Char} (h : p c = false) (s : List Char) :
    Stops p (c :: s) := by
  intro d t heq
  cases heq
  exact h

theorem Stops.mono {p q : Char → Bool} {rest : List Char} (h : Stops q rest)
    (hpq : ∀ c, p c = true → q c = true) : Stops p rest := by
  intro c s heq
  cases hc : p c with
  | false => rfl
  | true => exact absurd (hpq c hc) (by simp [h c s heq])

theorem takeWhile_of_stops {p : Char → Bool} {front rest : List Char} (hfront : ∀ c ∈ front, p c)
    (hrest : Stops p rest) : (front ++ rest).takeWhile p = front := by
  rw [List.takeWhile_append_of_pos hfront]
  cases rest with
  | nil => simp
  | cons c s => simp [hrest c s rfl]

theorem dropWhile_of_stops {p : Char → Bool} {front rest : List Char} (hfront : ∀ c ∈ front, p c)
    (hrest : Stops p rest) : (front ++ rest).dropWhile p = rest := by
  rw [List.dropWhile_append_of_pos hfront]
  cases rest with
  | nil => rfl
  | cons c s => simp [hrest c s rfl]

theorem skipBlanks_of_stops {s : List Char} (h : Stops isBlank s) : skipBlanks s = s := by
  cases s with
  | nil => rfl
  | cons c s => simp [skipBlanks, h c s rfl]

theorem run?_of_stops {p : Char → Bool} {front rest : List Char} (hne : front ≠ [])
    (hfront : ∀ c ∈ front, p c) (hrest : Stops p rest) :
    run? p (front ++ rest) = some (front, rest) := by
  rw [run?, takeWhile_of_stops hfront hrest, dropWhile_of_stops hfront hrest]
  cases front with
  | nil => exact absurd rfl hne
  | cons c front => rfl

theorem isHexDigit_of_isDigit {c : Char} (h : c.isDigit = true) : Numeral.isHexDigit c = true := by
  simp [Numeral.isHexDigit, h]

theorem continuesName_of_isHexDigit {c : Char} (h : Numeral.isHexDigit c = true) :
    continuesName c = true := by
  have hlt : c.toNat < 128 := by
    simp only [Numeral.isHexDigit, Char.isDigit, Bool.or_eq_true, Bool.and_eq_true,
      decide_eq_true_eq] at h
    rcases h with (⟨-, h⟩ | ⟨-, h⟩) | ⟨-, h⟩
    · exact Nat.lt_of_le_of_lt (UInt32.le_iff_toNat_le.mp h) (by decide)
    · exact Nat.lt_of_le_of_lt (UInt32.le_iff_toNat_le.mp h) (by decide)
    · exact Nat.lt_of_le_of_lt (UInt32.le_iff_toNat_le.mp h) (by decide)
  have hall : ∀ k : Fin 128, Numeral.isHexDigit (Char.ofNat k.val) = true →
      continuesName (Char.ofNat k.val) = true := by decide +kernel
  have hc := hall ⟨c.toNat, hlt⟩
  simp only [Char.ofNat_toNat] at hc
  exact hc h

theorem continuesName_of_isDigit {c : Char} (h : c.isDigit = true) : continuesName c = true :=
  continuesName_of_isHexDigit (isHexDigit_of_isDigit h)

theorem continuesName_of_startsName {c : Char} (h : startsName c = true) :
    continuesName c = true := by
  rcases Bool.or_eq_true_iff.mp h with halpha | hunder
  · have hlt : c.toNat < 128 := by
      rcases Bool.or_eq_true_iff.mp halpha with hc | hc
      · have hle := (of_decide_eq_true hc).2
        exact Nat.lt_of_le_of_lt (UInt32.le_iff_toNat_le.mp hle) (by decide)
      · have hle := of_decide_eq_true (Bool.and_eq_true_iff.mp hc).2
        exact Nat.lt_of_le_of_lt (UInt32.le_iff_toNat_le.mp hle) (by decide)
    simp [continuesName, Text.isLetterOrNumeral_ascii hlt, Char.isAlphanum, halpha]
  · simp [continuesName, hunder]

theorem isBlank_eq_false {c : Char} (h : continuesName c = true) : isBlank c = false := by
  cases hb : isBlank c with
  | false => rfl
  | true =>
      simp only [isBlank, Bool.or_eq_true, beq_iff_eq] at hb
      rcases hb with rfl | rfl
      · exact absurd h (by decide)
      · exact absurd h (by decide)

inductive IsMagnitude : List Char → Prop
  | decimal {ds : List Char} (hne : ds ≠ []) (hds : ∀ c ∈ ds, c.isDigit) : IsMagnitude ds
  | hexadecimal {x : Char} (hx : x = 'x' ∨ x = 'X') {ds : List Char} (hne : ds ≠ [])
      (hds : ∀ c ∈ ds, Numeral.isHexDigit c) : IsMagnitude ('0' :: x :: ds)

inductive IsNumber : List Char → Prop
  | plain {s : List Char} (h : IsMagnitude s) : IsNumber s
  | minus {s : List Char} (h : IsMagnitude s) : IsNumber ('-' :: s)

theorem IsMagnitude.head {s : List Char} (h : IsMagnitude s) :
    ∃ c t, s = c :: t ∧ c.isDigit := by
  cases h with
  | decimal hne hds =>
      obtain ⟨c, t, rfl⟩ := List.exists_cons_of_ne_nil hne
      exact ⟨c, t, rfl, hds c List.mem_cons_self⟩
  | hexadecimal hx hne hds => exact ⟨'0', _, rfl, by decide⟩

theorem IsMagnitude.continues {s : List Char} (h : IsMagnitude s) :
    ∀ c ∈ s, continuesName c := by
  intro c hc
  cases h with
  | decimal hne hds => exact continuesName_of_isDigit (hds c hc)
  | hexadecimal hx hne hds =>
      rcases List.mem_cons.mp hc with rfl | hc
      · decide
      · rcases List.mem_cons.mp hc with rfl | hc
        · rcases hx with rfl | rfl <;> decide
        · exact continuesName_of_isHexDigit (hds c hc)

-- A lone `0` could go on as `0x`, were it not that what follows goes on with no letter.
theorem magnitude?_decimal {ds rest : List Char} (hne : ds ≠ []) (hds : ∀ c ∈ ds, c.isDigit)
    (hrest : Stops continuesName rest) : magnitude? (ds ++ rest) = some (ds, rest) := by
  have hrun : run? Char.isDigit (ds ++ rest) = some (ds, rest) :=
    run?_of_stops hne hds (hrest.mono (fun c => continuesName_of_isDigit))
  unfold magnitude?
  split
  · rename_i x r heq
    have hx : x.isDigit = true ∨ continuesName x = false := by
      obtain ⟨d, ds, rfl⟩ := List.exists_cons_of_ne_nil hne
      simp only [List.cons_append, List.cons.injEq] at heq
      cases ds with
      | nil => exact .inr (hrest x r heq.2)
      | cons e ds =>
          simp only [List.cons_append, List.cons.injEq] at heq
          exact .inl (heq.2.1 ▸ hds e (by simp))
    have hsmall : x ≠ 'x' := by
      rintro rfl
      exact absurd hx (by decide)
    have hcapital : x ≠ 'X' := by
      rintro rfl
      exact absurd hx (by decide)
    simpa [hsmall, hcapital, heq] using hrun
  · exact hrun

theorem IsMagnitude.read {s rest : List Char} (h : IsMagnitude s)
    (hrest : Stops continuesName rest) : magnitude? (s ++ rest) = some (s, rest) := by
  cases h with
  | decimal hne hds => exact magnitude?_decimal hne hds hrest
  | @hexadecimal x hx ds hne hds =>
      have hrun : run? Numeral.isHexDigit (ds ++ rest) = some (ds, rest) :=
        run?_of_stops hne hds (hrest.mono (fun c => continuesName_of_isHexDigit))
      simp [magnitude?, hrun, hx]

theorem IsNumber.head {s : List Char} (h : IsNumber s) :
    ∃ c t, s = c :: t ∧ (c = '-' ∨ c.isDigit = true) := by
  cases h with
  | plain h =>
      obtain ⟨c, t, rfl, hc⟩ := h.head
      exact ⟨c, t, rfl, .inr hc⟩
  | minus h => exact ⟨'-', _, rfl, .inl rfl⟩

theorem IsNumber.read {s rest : List Char} (h : IsNumber s)
    (hrest : Stops continuesName rest) :
    number? (s ++ rest) = some (String.ofList s, rest) := by
  cases h with
  | plain h =>
      have hread := h.read hrest
      obtain ⟨c, t, rfl, hc⟩ := h.head
      have hminus : c ≠ '-' := by
        rintro rfl
        exact absurd hc (by decide)
      unfold number?
      split
      · rename_i heq
        simp only [List.cons_append, List.cons.injEq] at heq
        exact absurd heq.1 hminus
      · rw [hread]
        rfl
  | minus h =>
      rw [List.cons_append, number?, h.read hrest]
      rfl

theorem isMagnitude_digits (n : Nat) : IsMagnitude (Numeral.digits 10 n) :=
  .decimal (Numeral.digits_ne_nil 10 n) (fun _ => Numeral.isDigit_of_mem_digits)

theorem isNumber_signed (i : Int) : IsNumber (Numeral.signed i).toList := by
  unfold Numeral.signed
  split
  · rw [String.toList_append, Numeral.toList_decimal]
    exact .minus (isMagnitude_digits i.natAbs)
  · rw [Numeral.toList_decimal]
    exact .plain (isMagnitude_digits i.natAbs)

theorem isNumber_hex (places n : Nat) : IsNumber (Numeral.hex places n).toList := by
  rw [Numeral.toList_hex]
  refine .plain (.hexadecimal (.inl rfl) ?_ (fun _ => Numeral.isHexDigit_of_mem_hexDigits))
  simp [Numeral.hexDigits, Numeral.digits_ne_nil]

def OneLine (s : List Char) : Prop := ∀ c ∈ s, c ≠ '\n' ∧ c ≠ '\r'

instance (s : List Char) : Decidable (OneLine s) := List.decidableBAll _ s

theorem OneLine.append {s t : List Char} (hs : OneLine s) (ht : OneLine t) : OneLine (s ++ t) := by
  intro c hc
  rcases List.mem_append.mp hc with hc | hc
  · exact hs c hc
  · exact ht c hc

theorem OneLine.not_mem {s : List Char} (h : OneLine s) : '\n' ∉ s :=
  fun hmem => (h '\n' hmem).1 rfl

theorem OneLine.reverse {s : List Char} (h : OneLine s) : OneLine s.reverse :=
  fun c hc => h c (List.mem_reverse.mp hc)

theorem OneLine.ne_return {s : List Char} (h : OneLine s) (t : List Char) : s ≠ '\r' :: t := by
  rintro rfl
  exact (h '\r' List.mem_cons_self).2 rfl

theorem oneLine_of_continuesName {s : List Char} (h : ∀ c ∈ s, continuesName c) : OneLine s := by
  intro c hc
  have hname := h c hc
  refine ⟨?_, ?_⟩
  · rintro rfl
    exact absurd hname (by decide)
  · rintro rfl
    exact absurd hname (by decide)

theorem IsNumber.oneLine {s : List Char} (h : IsNumber s) : OneLine s := by
  cases h with
  | plain h => exact oneLine_of_continuesName h.continues
  | minus h =>
      have hminus : OneLine ['-'] := by decide
      exact hminus.append (oneLine_of_continuesName h.continues)

def isName : List Char → Bool
  | [] => false
  | c :: s => startsName c && s.all continuesName

theorem name?_of_isName {name : String} {rest : List Char} (hname : isName name.toList)
    (hrest : Stops continuesName rest) : name? (name.toList ++ rest) = some (name, rest) := by
  cases hs : name.toList with
  | nil => simp [hs, isName] at hname
  | cons c s =>
      simp only [hs, isName, Bool.and_eq_true, List.all_eq_true] at hname
      obtain ⟨hc, hs'⟩ := hname
      rw [List.cons_append, name?, if_pos hc, takeWhile_of_stops hs' hrest,
        dropWhile_of_stops hs' hrest, ← hs, String.ofList_toList]

theorem continuesName_of_mem {name : List Char} (h : isName name) {c : Char} (hc : c ∈ name) :
    continuesName c = true := by
  cases name with
  | nil => cases hc
  | cons d s =>
      simp only [isName, Bool.and_eq_true, List.all_eq_true] at h
      rcases List.mem_cons.mp hc with rfl | hc
      · exact continuesName_of_startsName h.1
      · exact h.2 c hc

theorem oneLine_of_isName {name : List Char} (h : isName name) : OneLine name :=
  oneLine_of_continuesName (fun _ => continuesName_of_mem h)

theorem toList_registerText (r : Register) :
    (Register.text r).toList = 'R' :: Numeral.digits 10 r.toNat := by
  rw [Register.text, String.toList_append, Numeral.toList_decimal]
  rfl

section Register

variable {x : Char} {ds : List Char} (hx : x = 'R' ∨ x = 'r') (hds : ∀ c ∈ ds, c.isDigit)

include hx hds

theorem isName_register : isName (x :: ds) := by
  simp only [isName, Bool.and_eq_true, List.all_eq_true]
  refine ⟨?_, fun c hc => continuesName_of_isDigit (hds c hc)⟩
  rcases hx with rfl | rfl <;> decide

theorem Operand.ofName_register (hne : ds ≠ []) :
    Operand.ofName (String.ofList (x :: ds)) = .register (String.ofList (x :: ds)) := by
  obtain ⟨d, ds, rfl⟩ := List.exists_cons_of_ne_nil hne
  have hall : (d :: ds).all Char.isDigit = true := List.all_eq_true.mpr hds
  have hletter : (x == 'R' || x == 'r') = true := by simpa using hx
  unfold Operand.ofName
  rw [String.toList_ofList]
  dsimp only
  rw [hall, hletter]
  rfl

end Register

theorem isName_registerText (r : Register) : isName (Register.text r).toList := by
  rw [toList_registerText]
  exact isName_register (.inl rfl) (fun _ => Numeral.isDigit_of_mem_digits)

theorem quoted?_eq_none {c : Char} (h : c ≠ '"') (s : List Char) : quoted? (c :: s) = none := by
  unfold quoted?
  split
  · rename_i heq
    cases heq
    exact absurd rfl h
  · rfl

theorem operand?_number {s rest : List Char} (h : IsNumber s) (hrest : Stops continuesName rest) :
    operand? (s ++ rest) = some (.number (String.ofList s), rest) := by
  have hread := h.read hrest
  obtain ⟨c, t, rfl, hc⟩ := h.head
  have hquote : c ≠ '"' := by
    rintro rfl
    exact absurd hc (by decide)
  rw [List.cons_append] at hread ⊢
  rw [operand?, hread, quoted?_eq_none hquote]

theorem operand?_register {x : Char} {ds rest : List Char} (hx : x = 'R' ∨ x = 'r') (hne : ds ≠ [])
    (hds : ∀ c ∈ ds, c.isDigit) (hrest : Stops continuesName rest) :
    operand? (x :: ds ++ rest) = some (.register (String.ofList (x :: ds)), rest) := by
  have hname : name? (x :: ds ++ rest) = some (String.ofList (x :: ds), rest) := by
    have h : isName (String.ofList (x :: ds)).toList := by
      rw [String.toList_ofList]
      exact isName_register hx hds
    have hread := name?_of_isName h hrest
    rwa [String.toList_ofList] at hread
  have hnumber : number? (x :: ds ++ rest) = none := by
    rcases hx with rfl | rfl <;> simp [number?, magnitude?, run?]
  have hquoted : quoted? (x :: ds ++ rest) = none := by
    refine quoted?_eq_none ?_ _
    rcases hx with rfl | rfl <;> decide
  rw [operand?, hquoted, hnumber, hname]
  dsimp only [Option.map_some]
  rw [Operand.ofName_register hx hds hne]

structure Written where
  operand : Operand
  text : String
  read : ∀ rest, Stops continuesName rest → operand? (text.toList ++ rest) = some (operand, rest)
  head : ∃ c s, text.toList = c :: s ∧ (c = '-' ∨ continuesName c = true)
  oneLine : OneLine text.toList

namespace Written

def ofNumber (text : String) (h : IsNumber text.toList) : Written where
  operand := .number text
  text := text
  read := by
    intro rest hrest
    rw [operand?_number h hrest, String.ofList_toList]
  head := by
    obtain ⟨c, s, hs, hc⟩ := h.head
    exact ⟨c, s, hs, hc.imp_right continuesName_of_isDigit⟩
  oneLine := h.oneLine

def ofRegister (r : Register) : Written where
  operand := .register (Register.text r)
  text := Register.text r
  read := by
    intro rest hrest
    have hread := operand?_register (.inl rfl) (Numeral.digits_ne_nil 10 r.toNat)
      (fun _ => Numeral.isDigit_of_mem_digits) hrest
    rwa [← toList_registerText, String.ofList_toList] at hread
  head := ⟨'R', Numeral.digits 10 r.toNat, toList_registerText r, .inr (by decide)⟩
  oneLine := oneLine_of_isName (isName_registerText r)

def ofWord (w : Word) : Written := ofNumber (Word.text w) (isNumber_signed w.toInt)

def ofHex (places n : Nat) : Written := ofNumber (Numeral.hex places n) (isNumber_hex places n)

theorem head_solid (w : Written) :
    ∃ c s, w.text.toList = c :: s ∧ isBlank c = false ∧ c ≠ ':' := by
  obtain ⟨c, s, hs, hc⟩ := w.head
  refine ⟨c, s, hs, ?_, ?_⟩
  · rcases hc with rfl | hc
    · rfl
    · exact isBlank_eq_false hc
  · rintro rfl
    exact absurd hc (by decide)

end Written

def listed (ws : List Written) : String := String.intercalate ", " (ws.map Written.text)

theorem toList_listed_singleton (w : Written) : (listed [w]).toList = w.text.toList := by
  rw [listed, List.map_singleton, String.intercalate_singleton]

theorem toList_listed_cons (w v : Written) (ws : List Written) :
    (listed (w :: v :: ws)).toList = w.text.toList ++ ',' :: ' ' :: (listed (v :: ws)).toList := by
  simp only [listed, List.map_cons, String.intercalate_cons_cons, String.toList_append,
    List.append_assoc]
  rfl

theorem listed_head (w : Written) (ws : List Written) :
    ∃ c s, (listed (w :: ws)).toList = c :: s ∧ isBlank c = false ∧ c ≠ ':' := by
  obtain ⟨c, s, hs, hc⟩ := w.head_solid
  cases ws with
  | nil => exact ⟨c, s, by rw [toList_listed_singleton, hs], hc⟩
  | cons v ws => exact ⟨c, _, by rw [toList_listed_cons, hs, List.cons_append], hc⟩

theorem stops_listed (w : Written) (ws : List Written) :
    Stops isBlank (listed (w :: ws)).toList := by
  obtain ⟨c, s, hs, hblank, -⟩ := listed_head w ws
  rw [hs]
  exact stops_cons hblank s

theorem comma?_of_stops {s : List Char} (h : Stops isBlank s) : comma? (',' :: ' ' :: s) = some s := by
  have hskip : skipBlanks (' ' :: s) = s := skipBlanks_of_stops h
  rw [comma?, skipBlanks_of_stops (stops_cons (by decide) _)]
  exact congrArg some hskip

theorem moreOperands_of_comma? {s r : List Char} (h : comma? s = some r)
    (hne : (operands r).1 ≠ []) : moreOperands s = operands r := by
  unfold moreOperands
  split
  · rename_i hnone
    rw [h] at hnone
    cases hnone
  · rename_i r' hsome
    rw [h] at hsome
    cases hsome
    unfold operands at hne ⊢
    split
    · rename_i hnone
      rw [hnone] at hne
      exact absurd rfl hne
    · rename_i o t hsome
      rw [hsome]

theorem operands_listed (w : Written) (ws : List Written) :
    operands (listed (w :: ws)).toList = ((w :: ws).map Written.operand, []) := by
  induction ws generalizing w with
  | nil =>
      have hread := w.read [] (stops_nil continuesName)
      rw [List.append_nil] at hread
      have hmore : moreOperands [] = ([], []) := by simp [moreOperands, comma?, skipBlanks]
      rw [toList_listed_singleton, operands, hread]
      dsimp only
      rw [hmore]
      rfl
  | cons v ws ih =>
      have hread := w.read (',' :: ' ' :: (listed (v :: ws)).toList) (stops_cons (by decide) _)
      have hmore : moreOperands (',' :: ' ' :: (listed (v :: ws)).toList) =
          ((v :: ws).map Written.operand, []) := by
        rw [moreOperands_of_comma? (comma?_of_stops (stops_listed v ws)) (by simp [ih v]), ih v]
      rw [toList_listed_cons, operands, hread]
      dsimp only
      rw [hmore]
      rfl

def trailing : List Written → List Char
  | [] => []
  | ws => ' ' :: (listed ws).toList

theorem stops_trailing (ws : List Written) : Stops continuesName (trailing ws) := by
  cases ws with
  | nil => exact stops_nil continuesName
  | cons w ws => exact stops_cons (by decide) _

theorem skipBlanks_trailing (w : Written) (ws : List Written) :
    skipBlanks (trailing (w :: ws)) = (listed (w :: ws)).toList :=
  skipBlanks_of_stops (stops_listed w ws)

theorem operands_trailing (ws : List Written) :
    operands (skipBlanks (trailing ws)) = (ws.map Written.operand, []) := by
  cases ws with
  | nil => rfl
  | cons w ws => rw [skipBlanks_trailing, operands_listed]

theorem named?_phrase {name : String} (hname : isName name.toList) (ws : List Written) :
    named? (name.toList ++ trailing ws) = some ((name, ws.map Written.operand), []) := by
  rw [named?, name?_of_isName hname (stops_trailing ws), Option.map_some]
  dsimp only
  rw [operands_trailing]

theorem label?_phrase {name : String} (hname : isName name.toList) (ws : List Written) :
    label? (name.toList ++ trailing ws) = (none, name.toList ++ trailing ws) := by
  rw [label?, name?_of_isName hname (stops_trailing ws)]
  cases ws with
  | nil => rfl
  | cons w ws =>
      obtain ⟨c, s, hs, -, hcolon⟩ := listed_head w ws
      dsimp only
      rw [skipBlanks_trailing, hs]
      split
      · rename_i heq
        cases heq
        exact absurd rfl hcolon
      · rfl

theorem Line.read?_of_statement? {s : List Char} {statement : Statement} (hblank : Stops isBlank s)
    (hlabel : label? s = (none, s)) (hstatement : statement? s = some (statement, [])) :
    Line.read? s = some ⟨none, some statement⟩ := by
  rw [Line.read?, skipBlanks_of_stops hblank, hlabel]
  dsimp only
  rw [skipBlanks_of_stops hblank, hstatement]
  rfl

theorem Line.read?_operation {name : String} (hname : isName name.toList) (ws : List Written) :
    Line.read? (name.toList ++ trailing ws) =
      some ⟨none, some (.operation name (ws.map Written.operand))⟩ := by
  have hlabel := label?_phrase hname ws
  have hnamed := named?_phrase hname ws
  cases hs : name.toList with
  | nil =>
      rw [hs] at hname
      cases hname
  | cons c s =>
      rw [hs] at hname hlabel hnamed
      have hc : startsName c = true := (Bool.and_eq_true_iff.mp hname).1
      have hblank : isBlank c = false := isBlank_eq_false (continuesName_of_startsName hc)
      refine Line.read?_of_statement? (stops_cons hblank _) hlabel ?_
      unfold statement?
      split
      · rename_i heq
        cases heq
        exact absurd hc (by decide)
      · rw [hnamed]
        rfl

theorem Line.read?_directive {name : String} (hname : isName name.toList) (ws : List Written) :
    Line.read? ('.' :: (name.toList ++ trailing ws)) =
      some ⟨none, some (.directive name (ws.map Written.operand))⟩ := by
  refine Line.read?_of_statement? (stops_cons (by decide) _) rfl ?_
  rw [statement?, named?_phrase hname ws]
  rfl

theorem oneLine_listed (w : Written) (ws : List Written) : OneLine (listed (w :: ws)).toList := by
  induction ws generalizing w with
  | nil =>
      rw [toList_listed_singleton]
      exact w.oneLine
  | cons v ws ih =>
      have hcomma : OneLine [',', ' '] := by decide
      rw [toList_listed_cons]
      exact w.oneLine.append (hcomma.append (ih v))

theorem oneLine_phrase {name : String} (hname : OneLine name.toList) (ws : List Written) :
    OneLine (name.toList ++ trailing ws) := by
  cases ws with
  | nil =>
      rw [trailing, List.append_nil]
      exact hname
  | cons w ws =>
      have hblank : OneLine [' '] := by decide
      exact hname.append (hblank.append (oneLine_listed w ws))

-- The part already read is general for the induction. A carriage return ends no line by itself.
theorem linesFrom_append {line : List Char} (hline : '\n' ∉ line) (done rest : List Char) :
    linesFrom done (line ++ rest) = linesFrom (line.reverse ++ done) rest := by
  induction line generalizing done with
  | nil => rfl
  | cons c line ih =>
      have hc : c ≠ '\n' := (List.ne_of_not_mem_cons hline).symm
      have hstep : linesFrom done (c :: (line ++ rest)) = linesFrom (c :: done) (line ++ rest) :=
        if_neg hc
      rw [List.cons_append, hstep, ih (List.not_mem_of_not_mem_cons hline), List.reverse_cons,
        List.append_assoc]
      rfl

theorem linesFrom_line {line : List Char} (h : OneLine line) (rest : List Char) :
    linesFrom [] (line ++ '\n' :: rest) = line :: linesFrom [] rest := by
  rw [linesFrom_append h.not_mem, List.append_nil, linesFrom, if_pos rfl, List.reverse_reverse]
  exact h.reverse.ne_return

theorem linesFrom_last {line : List Char} (h : '\n' ∉ line) (hne : line ≠ []) :
    linesFrom [] line = [line] := by
  have happend := linesFrom_append h [] []
  rw [List.append_nil, List.append_nil] at happend
  rw [happend, linesFrom, List.reverse_reverse]
  exact fun hnil => hne (List.reverse_eq_nil_iff.mp hnil)

theorem lines_join {texts : List String} (h : ∀ text ∈ texts, OneLine text.toList) :
    lines (String.join (texts.map (· ++ "\n"))) = texts.map String.toList := by
  rw [lines]
  induction texts with
  | nil => rfl
  | cons text texts ih =>
      have hsplit : (String.join ((text :: texts).map (· ++ "\n"))).toList =
          text.toList ++ '\n' :: (String.join (texts.map (· ++ "\n"))).toList := by
        simp [String.toList_join]
      rw [hsplit, linesFrom_line (h text List.mem_cons_self),
        ih (fun other hother => h other (List.mem_cons_of_mem text hother))]
      rfl

theorem lines_intercalate {texts : List String}
    (h : ∀ text ∈ texts, OneLine text.toList ∧ text.toList ≠ []) :
    lines (String.intercalate "\n" texts) = texts.map String.toList := by
  rw [lines]
  induction texts with
  | nil => rfl
  | cons text texts ih =>
      obtain ⟨hline, hne⟩ := h text List.mem_cons_self
      cases texts with
      | nil =>
          rw [String.intercalate_singleton, linesFrom_last hline.not_mem hne]
          rfl
      | cons next texts =>
          have hsplit : (String.intercalate "\n" (text :: next :: texts)).toList =
              text.toList ++ '\n' :: (String.intercalate "\n" (next :: texts)).toList := by
            simp [String.intercalate_cons_cons]
          rw [hsplit, linesFrom_line hline,
            ih (fun other hother => h other (List.mem_cons_of_mem text hother))]
          rfl

namespace Literal

theorem magnitude_decimal {ds : List Char} (hds : ∀ c ∈ ds, c.isDigit) :
    magnitude ds = Numeral.value 10 ds := by
  unfold magnitude
  split
  · exact absurd (hds 'x' (by simp)) (by decide)
  · exact absurd (hds 'X' (by simp)) (by decide)
  · rfl

theorem magnitude_hexadecimal {x : Char} (hx : x = 'x' ∨ x = 'X') (ds : List Char) :
    magnitude ('0' :: x :: ds) = Numeral.value 16 ds := by
  rcases hx with rfl | rfl <;> rfl

theorem magnitude_digits (n : Nat) : magnitude (Numeral.digits 10 n) = n := by
  rw [magnitude_decimal (fun _ => Numeral.isDigit_of_mem_digits),
    Numeral.value_digits (by decide) (by decide)]

theorem value_minus (s : List Char) : value ('-' :: s) = -(magnitude s : Int) := rfl

theorem value_plain {s : List Char} (h : IsMagnitude s) : value s = magnitude s := by
  obtain ⟨c, t, rfl, hc⟩ := h.head
  unfold value
  split
  · rename_i heq
    cases heq
    exact absurd hc (by decide)
  · rfl

theorem value_signed (i : Int) : value (Numeral.signed i).toList = i := by
  unfold Numeral.signed
  split
  · rw [String.toList_append, Numeral.toList_decimal]
    show value ('-' :: Numeral.digits 10 i.natAbs) = i
    rw [value_minus, magnitude_digits]
    omega
  · rw [Numeral.toList_decimal, value_plain (isMagnitude_digits i.natAbs), magnitude_digits]
    omega

theorem word?_text (w : Word) : word? (Word.text w) = some w := by
  have hlow := Int32.le_toInt w
  have hhigh := Int32.toInt_lt w
  rw [word?_eq, Word.text, value_signed]
  rw [if_pos (by omega), Int32.ofInt_toInt]

theorem word?_hex (places : Nat) {n : Nat} (h : n ≤ 4294967295) :
    word? (Numeral.hex places n) = some (Int32.ofNat n) := by
  have hvalue : value (Numeral.hex places n).toList = n := by
    rw [Numeral.toList_hex]
    exact congrArg Int.ofNat (Numeral.value_hexDigits places n)
  rw [word?_eq, hvalue]
  rw [if_pos (by omega), Int32.ofInt_eq_ofNat]

theorem register?_text (r : Register) : register? (Register.text r) = some r := by
  have hlt := r.toNat_lt
  rw [register?_eq, toList_registerText, List.tail_cons, Numeral.value_digits (by decide) (by decide)]
  rw [if_pos (by omega), UInt8.ofNat_toNat]

end Literal

theorem Written.asRegister_ofRegister (otherwise : Complaint) (r : Register) :
    (ofRegister r).operand.asRegister otherwise = .ok r := by
  simp [ofRegister, Operand.asRegister, Operand.register?, Literal.register?_text]

theorem Written.asWord_ofWord (symbols : Symbols) (otherwise : Complaint) (w : Word) :
    (ofWord w).operand.asWord symbols otherwise = .ok w := by
  simp [ofWord, ofNumber, Operand.asWord, Operand.word?, Literal.word?_text]

theorem Written.asWord_ofHex (symbols : Symbols) (otherwise : Complaint) (places : Nat) {n : Nat}
    (h : n ≤ 4294967295) :
    (ofHex places n).operand.asWord symbols otherwise = .ok (Int32.ofNat n) := by
  simp [ofHex, ofNumber, Operand.asWord, Operand.word?, Literal.word?_hex places h]

end Source

end RegisterMachine
