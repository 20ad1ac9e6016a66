import RegisterMachine.Proofs.Reassembly

namespace RegisterMachine

namespace Source

namespace Literal

def escapeChar : Char → List Char
  | '\\' => ['\\', '\\']
  | '\n' => ['\\', 'n']
  | '\t' => ['\\', 't']
  | '\x00' => ['\\', '0']
  | c => [c]

def escaped (s : String) : String := String.ofList (s.toList.flatMap escapeChar)

theorem toList_escaped (s : String) : (escaped s).toList = s.toList.flatMap escapeChar :=
  String.toList_ofList

theorem unescape_escapeChar (c : Char) (rest : List Char) :
    unescape (escapeChar c ++ rest) = c :: unescape rest := by
  unfold escapeChar
  split
  · rfl
  · rfl
  · rfl
  · rfl
  · rename_i hslash _ _ _
    exact unescape.eq_3 c rest (fun _ _ hc _ => hslash hc)

theorem unescape_escaped (s : String) : unescape (escaped s).toList = s.toList := by
  rw [toList_escaped]
  induction s.toList with
  | nil => rfl
  | cons c cs ih => rw [List.flatMap_cons, unescape_escapeChar, ih]

theorem mem_escapeChar {c d : Char} (h : d ∈ escapeChar c) :
    d ∈ ['\\', 'n', 't', '0'] ∨ d = c ∧ c ≠ '\n' := by
  unfold escapeChar at h
  split at h
  · exact .inl ((by decide : ['\\', '\\'] ⊆ ['\\', 'n', 't', '0']) h)
  · exact .inl ((by decide : ['\\', 'n'] ⊆ ['\\', 'n', 't', '0']) h)
  · exact .inl ((by decide : ['\\', 't'] ⊆ ['\\', 'n', 't', '0']) h)
  · exact .inl ((by decide : ['\\', '0'] ⊆ ['\\', 'n', 't', '0']) h)
  · rename_i _ hfeed _ _
    exact .inr ⟨List.mem_singleton.mp h, hfeed⟩

theorem line_feed_not_mem_escaped (s : String) : '\n' ∉ (escaped s).toList := by
  rw [toList_escaped, List.mem_flatMap]
  rintro ⟨c, -, h⟩
  rcases mem_escapeChar h with h | ⟨hc, hne⟩
  · exact absurd h (by decide)
  · exact hne hc.symm

theorem quote_not_mem_escaped {s : String} (hs : '"' ∉ s.toList) : '"' ∉ (escaped s).toList := by
  rw [toList_escaped, List.mem_flatMap]
  rintro ⟨c, hc, h⟩
  rcases mem_escapeChar h with h | ⟨rfl, -⟩
  · exact absurd h (by decide)
  · exact hs hc

def terminated (s : String) : List UInt8 := s.toUTF8.data.toList ++ [0]

theorem stringBytes_escaped (s : String) : stringBytes (escaped s) = terminated s := by
  rw [stringBytes, unescape_escaped, terminated, String.toUTF8, ← String.utf8Encode_toList,
    List.utf8Encode, List.toList_data_toByteArray, Text.bytes]

end Literal

theorem quoted?_of_not_mem {raw : List Char} (h : '"' ∉ raw) (rest : List Char) :
    quoted? ('"' :: (raw ++ '"' :: rest)) = some (String.ofList raw, rest) := by
  have hfront : ∀ c ∈ raw, (c != '"') = true := fun c hc => bne_iff_ne.mpr (fun hq => h (hq ▸ hc))
  have hstops : Stops (· != '"') ('"' :: rest) := stops_cons (by decide) rest
  rw [quoted?, dropWhile_of_stops hfront hstops, takeWhile_of_stops hfront hstops]

def stringLine (raw : String) : String := ".string \"" ++ raw ++ "\""

theorem toList_stringLine (raw : String) :
    (stringLine raw).toList = '.' :: ("string".toList ++ ' ' :: '"' :: (raw.toList ++ ['"'])) := by
  simp only [stringLine, String.toList_append, List.append_assoc]
  rfl

theorem Line.read?_stringLine {raw : String} (h : '"' ∉ raw.toList) :
    Line.read? (stringLine raw).toList =
      some ⟨none, some (.directive "string" [.quoted raw])⟩ := by
  have hname : name? ("string".toList ++ ' ' :: '"' :: (raw.toList ++ ['"'])) =
      some ("string", ' ' :: '"' :: (raw.toList ++ ['"'])) :=
    name?_of_isName (by decide) (stops_cons (by decide) _)
  have hquote : Stops isBlank ('"' :: (raw.toList ++ ['"'])) := stops_cons (by decide) _
  have hskip : skipBlanks (' ' :: '"' :: (raw.toList ++ ['"'])) = '"' :: (raw.toList ++ ['"']) :=
    skipBlanks_of_stops hquote
  have hoperand : operand? ('"' :: (raw.toList ++ ['"'])) = some (.quoted raw, []) := by
    rw [operand?, quoted?_of_not_mem h, String.ofList_toList]
  have hmore : moreOperands [] = ([], []) := by simp [moreOperands, comma?, skipBlanks]
  rw [toList_stringLine]
  refine Line.read?_of_statement? (stops_cons (by decide) _) rfl ?_
  rw [statement?, named?, hname, Option.map_some]
  dsimp only
  rw [hskip, operands, hoperand]
  dsimp only
  rw [hmore]
  rfl

theorem lines_stringLine {raw : String} (h : '\n' ∉ raw.toList) :
    lines (stringLine raw) = [(stringLine raw).toList] := by
  refine linesFrom_last ?_ (by rw [toList_stringLine]; exact List.cons_ne_nil _ _)
  rw [toList_stringLine]
  simpa using h

end Source

namespace Assembly

open Source

theorem bytes_escaped (symbols : Symbols) (s : String) :
    Line.bytes symbols ⟨none, some (.directive "string" [.quoted (Literal.escaped s)])⟩ =
      .ok (Literal.terminated s) := by
  rw [← Literal.stringBytes_escaped]
  exact congrArg Except.ok (List.append_nil _)

theorem ofSource_stringLine_escaped {s : String} (h : '"' ∉ s.toList) :
    ofSource (stringLine (Literal.escaped s)) =
      if (Literal.terminated s).length ≤ sizeLimit then .ok ⟨Literal.terminated s, Symbols.empty⟩
      else .error (.tooLarge (Literal.terminated s).length) := by
  rw [ofSource, lines_stringLine (Literal.line_feed_not_mem_escaped s)]
  exact ofLines_singleton (Line.read?_stringLine (Literal.quote_not_mem_escaped h)) rfl
    (bytes_escaped Symbols.empty s)

theorem takes_any_text (s : String) (h : '"' ∉ s.toList) :
    Source.lines (stringLine (Literal.escaped s)) = [(stringLine (Literal.escaped s)).toList] ∧
    Line.read? (stringLine (Literal.escaped s)).toList =
      some ⟨none, some (.directive "string" [.quoted (Literal.escaped s)])⟩ ∧
    Statement.size (.directive "string" [.quoted (Literal.escaped s)]) =
      .ok (Literal.terminated s).length ∧
    ((Literal.terminated s).length ≤ sizeLimit →
      ofSource (stringLine (Literal.escaped s)) = .ok ⟨Literal.terminated s, Symbols.empty⟩) := by
  have hlines := lines_stringLine (Literal.line_feed_not_mem_escaped s)
  have hread := Line.read?_stringLine (Literal.quote_not_mem_escaped h)
  have hbytes := bytes_escaped Symbols.empty s
  refine ⟨hlines, hread, Statement.size_eq_length_bytes hbytes, fun hfits => ?_⟩
  rw [ofSource_stringLine_escaped h, if_pos hfits]

def motley : String := "a\\n;b\n\t\x00, c:#d\r é😀\\"

theorem takes_any_text_motley :
    '"' ∉ motley.toList ∧ (Literal.terminated motley).length ≤ sizeLimit ∧
    stringLine (Literal.escaped motley) = ".string \"a\\\\n;b\\n\\t\\0, c:#d\r é😀\\\\\"" ∧
    ofSource (stringLine (Literal.escaped motley)) = .ok ⟨[0x61, 0x5C, 0x6E, 0x3B, 0x62, 0x0A, 0x09,
      0x00, 0x2C, 0x20, 0x63, 0x3A, 0x23, 0x64, 0x0D, 0x20, 0xC3, 0xA9, 0xF0, 0x9F, 0x98, 0x80,
      0x5C, 0], Symbols.empty⟩ := by
  have hquote : '"' ∉ motley.toList := by decide +kernel
  have hbytes : Literal.terminated motley = [0x61, 0x5C, 0x6E, 0x3B, 0x62, 0x0A, 0x09, 0x00, 0x2C,
      0x20, 0x63, 0x3A, 0x23, 0x64, 0x0D, 0x20, 0xC3, 0xA9, 0xF0, 0x9F, 0x98, 0x80, 0x5C, 0] := by
    decide +kernel
  have hfits : (Literal.terminated motley).length ≤ sizeLimit := by
    rw [hbytes]
    decide
  obtain ⟨-, -, -, hassembled⟩ := takes_any_text motley hquote
  have htaken := hassembled hfits
  rw [hbytes] at htaken
  exact ⟨hquote, hfits, by decide +kernel, htaken⟩

def letters (n : Nat) : String := String.ofList (List.replicate n 'a')

theorem quote_not_mem_letters (n : Nat) : '"' ∉ (letters n).toList := by
  rw [letters, String.toList_ofList, List.mem_replicate]
  exact fun h => absurd h.2 (by decide)

theorem length_terminated_letters (n : Nat) : (Literal.terminated (letters n)).length = n + 1 := by
  have hbytes : Literal.terminated (letters n) = Text.bytes (List.replicate n 'a') ++ [0] := by
    rw [← Literal.stringBytes_escaped, Literal.stringBytes, Literal.unescape_escaped, letters,
      String.toList_ofList]
  have hone : (String.utf8EncodeChar 'a').length = 1 := by decide
  rw [hbytes, Text.bytes, List.length_append, List.length_flatMap, List.map_replicate, hone,
    List.sum_replicate_nat, Nat.mul_one, List.length_singleton]

theorem letters_not_taken :
    '"' ∉ (letters 2147483647).toList ∧
    ofSource (stringLine (Literal.escaped (letters 2147483647))) = .error (.tooLarge 2147483648) ∧
    ¬ ∀ s : String, '"' ∉ s.toList →
      ofSource (stringLine (Literal.escaped s)) = .ok ⟨Literal.terminated s, Symbols.empty⟩ := by
  have hquote := quote_not_mem_letters 2147483647
  have hlong : ¬ (Literal.terminated (letters 2147483647)).length ≤ sizeLimit := by
    rw [length_terminated_letters]
    decide
  have hrefused := ofSource_stringLine_escaped hquote
  rw [if_neg hlong, length_terminated_letters] at hrefused
  refine ⟨hquote, hrefused, fun htaken => ?_⟩
  rw [htaken _ hquote] at hrefused
  cases hrefused

end Assembly

end RegisterMachine
