import RegisterMachine.Error

namespace RegisterMachine

namespace Text

theorem follow_tail {owed value low high d : Nat} (hd : d < 64) (hlow : low ≤ d + 128)
    (hhigh : d + 128 ≤ high) (rest : List UInt8) :
    follow ⟨owed + 1, value, low, high⟩ (UInt8.ofNat (d + 128) :: rest) =
      follow ⟨owed, value * 64 + d, 0x80, 0xBF⟩ rest := by
  have htoNat : (UInt8.ofNat (d + 128)).toNat = d + 128 :=
    UInt8.toNat_ofNat_of_lt' (Nat.lt_of_lt_of_le (Nat.add_lt_add_right hd 128) (by decide))
  rw [follow, htoNat, if_pos ⟨hlow, hhigh⟩, Nat.add_sub_cancel]

theorem lead?_two {v : Nat} (hlow : 127 < v) (hhigh : v ≤ 2047) :
    lead? (UInt8.ofNat (v / 64 % 32 + 192)) = some ⟨1, v / 64, 0x80, 0xBF⟩ := by
  have htoNat : (UInt8.ofNat (v / 64 % 32 + 192)).toNat = v / 64 + 192 := by
    rw [UInt8.toNat_ofNat_of_lt' (show _ < 256 by omega)]
    omega
  rw [lead?, htoNat, if_neg (by omega), if_neg (by omega), if_pos (by omega), Nat.add_sub_cancel]

theorem lead?_three {v : Nat} (hlow : 2047 < v) (hhigh : v ≤ 65535)
    (hvalid : v < 0xD800 ∨ 0xDFFF < v) :
    ∃ low high, lead? (UInt8.ofNat (v / 4096 % 16 + 224)) = some ⟨2, v / 4096, low, high⟩ ∧
      low ≤ v / 64 % 64 + 128 ∧ v / 64 % 64 + 128 ≤ high := by
  have htoNat : (UInt8.ofNat (v / 4096 % 16 + 224)).toNat = v / 4096 + 224 := by
    rw [UInt8.toNat_ofNat_of_lt' (show _ < 256 by omega)]
    omega
  rw [lead?, htoNat, if_neg (by omega), if_neg (by omega), if_neg (by omega)]
  by_cases hfirst : v / 4096 = 0
  · exact ⟨0xA0, 0xBF, by rw [hfirst]; rfl, by omega, by omega⟩
  · by_cases hsurrogate : v / 4096 = 13
    · exact ⟨0x80, 0x9F, by rw [hsurrogate]; rfl, by omega, by omega⟩
    · refine ⟨0x80, 0xBF, ?_, by omega, by omega⟩
      rw [if_neg (by omega), if_neg (by omega), if_pos (by omega), Nat.add_sub_cancel]

theorem lead?_four {v : Nat} (hlow : 65535 < v) (hhigh : v < 0x110000) :
    ∃ low high, lead? (UInt8.ofNat (v / 262144 % 8 + 240)) = some ⟨3, v / 262144, low, high⟩ ∧
      low ≤ v / 4096 % 64 + 128 ∧ v / 4096 % 64 + 128 ≤ high := by
  have htoNat : (UInt8.ofNat (v / 262144 % 8 + 240)).toNat = v / 262144 + 240 := by
    rw [UInt8.toNat_ofNat_of_lt' (show _ < 256 by omega)]
    omega
  rw [lead?, htoNat, if_neg (by omega), if_neg (by omega), if_neg (by omega), if_neg (by omega),
    if_neg (by omega), if_neg (by omega)]
  by_cases hfirst : v / 262144 = 0
  · exact ⟨0x90, 0xBF, by rw [hfirst]; rfl, by omega, by omega⟩
  · by_cases hlast : v / 262144 = 4
    · exact ⟨0x80, 0x8F, by rw [hlast]; rfl, by omega, by omega⟩
    · refine ⟨0x80, 0xBF, ?_, by omega, by omega⟩
      rw [if_neg (by omega), if_pos (by omega), Nat.add_sub_cancel]

theorem characters_of_follow {b : UInt8} {l : Lead} {tail rest : List UInt8} {c : Char}
    (hlead : lead? b = some l) (hfollow : follow l tail = (some c.val.toNat, rest)) :
    characters (b :: tail) = some c :: characters rest := by
  rw [characters, hlead]
  dsimp only
  rw [hfollow]
  exact congrArg (some · :: characters rest) (Char.ofNat_toNat c)

theorem characters_encode (c : Char) (rest : List UInt8) :
    characters (String.utf8EncodeChar c ++ rest) = some c :: characters rest := by
  have hvalid : c.val.toNat < 0xD800 ∨ 0xDFFF < c.val.toNat ∧ c.val.toNat < 0x110000 := c.valid
  unfold String.utf8EncodeChar
  dsimp only
  split
  · rename_i hone
    have htoNat : (UInt8.ofNat c.val.toNat).toNat = c.val.toNat :=
      UInt8.toNat_ofNat_of_lt' (Nat.lt_of_le_of_lt hone (by decide))
    refine characters_of_follow (l := ⟨0, c.val.toNat, 0x80, 0xBF⟩) ?_ (by rw [follow]; rfl)
    rw [lead?, htoNat, if_pos (Nat.lt_succ_of_le hone)]
  · split
    · rename_i hone htwo
      simp only [List.cons_append, List.nil_append]
      refine characters_of_follow (lead?_two (by omega) htwo) ?_
      rw [follow_tail (by omega) (by omega) (by omega), follow]
      exact Prod.ext (congrArg some (by omega)) rfl
    · split
      · rename_i hone htwo hthree
        obtain ⟨low, high, hlead, hlow, hhigh⟩ := lead?_three (by omega) hthree (by omega)
        simp only [List.cons_append, List.nil_append]
        refine characters_of_follow hlead ?_
        rw [follow_tail (by omega) hlow hhigh, follow_tail (by omega) (by omega) (by omega), follow]
        exact Prod.ext (congrArg some (by omega)) rfl
      · rename_i hone htwo hthree
        obtain ⟨low, high, hlead, hlow, hhigh⟩ := lead?_four (v := c.val.toNat) (by omega) (by omega)
        simp only [List.cons_append, List.nil_append]
        refine characters_of_follow hlead ?_
        rw [follow_tail (by omega) hlow hhigh, follow_tail (by omega) (by omega) (by omega),
          follow_tail (by omega) (by omega) (by omega), follow]
        exact Prod.ext (congrArg some (by omega)) rfl

theorem characters_bytes (s : List Char) : characters (bytes s) = s.map some := by
  induction s with
  | nil => rw [bytes, List.flatMap_nil, characters, List.map_nil]
  | cons c s ih => rw [bytes, List.flatMap_cons, characters_encode, List.map_cons, ← ih, bytes]

theorem decodeLossy_bytes (s : List Char) : decodeLossy (bytes s) = s := by
  rw [decodeLossy, characters_bytes, List.map_map]
  exact List.map_id s

theorem eq_zero_of_ofNat {n : Nat} (hn : n < 256) (h : 0 = UInt8.ofNat n) : n = 0 := by
  have htoNat := congrArg UInt8.toNat h
  rw [UInt8.toNat_ofNat_of_lt' hn] at htoNat
  exact htoNat.symm

theorem zero_mem_encode {c : Char} : 0 ∈ String.utf8EncodeChar c ↔ c = '\x00' := by
  constructor
  · intro h
    unfold String.utf8EncodeChar at h
    dsimp only at h
    -- Only a character encoded as itself can be zero: the other bytes are 128 or more.
    split at h
    · have hzero := eq_zero_of_ofNat (by omega) (List.mem_singleton.mp h)
      exact Char.toNat_inj.mp hzero
    · exfalso
      split at h
      · simp only [List.mem_cons, List.not_mem_nil, or_false] at h
        rcases h with h | h <;> exact absurd (eq_zero_of_ofNat (by omega) h) (by omega)
      · split at h
        · simp only [List.mem_cons, List.not_mem_nil, or_false] at h
          rcases h with h | h | h <;> exact absurd (eq_zero_of_ofNat (by omega) h) (by omega)
        · simp only [List.mem_cons, List.not_mem_nil, or_false] at h
          rcases h with h | h | h | h <;> exact absurd (eq_zero_of_ofNat (by omega) h) (by omega)
  · rintro rfl
    decide

theorem zero_mem_bytes {s : List Char} : 0 ∈ bytes s ↔ '\x00' ∈ s := by
  rw [bytes, List.mem_flatMap]
  constructor
  · rintro ⟨c, hc, hzero⟩
    rwa [zero_mem_encode.mp hzero] at hc
  · exact fun h => ⟨'\x00', h, zero_mem_encode.mpr rfl⟩

end Text

theorem CString.text_of_bytes {s : CString} {text : String} (h : s.bytes = Text.bytes text.toList) :
    s.text = text := by
  rw [CString.text, h, Text.decodeLossy_bytes, String.ofList_toList]

theorem CString.bytes_of_ofText? {text : String} {s : CString} (h : ofText? text = some s) :
    s.bytes = Text.bytes text.toList := by
  unfold ofText? at h
  split at h
  · cases h
  · cases h
    rfl

namespace Channel

theorem zero_not_mem_printable (text : String) : 0 ∉ Text.bytes (printable text).toList := by
  rw [Text.zero_mem_bytes, printable, String.toList_ofList, List.mem_flatMap]
  rintro ⟨c, -, hc⟩
  split at hc
  · simp at hc
  · rename_i hzero
    exact hzero (List.mem_singleton.mp hc).symm

theorem exists_ofText?_printable (text : String) :
    ∃ s, CString.ofText? (printable text) = some s :=
  ⟨_, dif_neg (zero_not_mem_printable text)⟩

theorem bytes_of_held_record (c : Channel) {e : Error} {s : CString}
    (h : (c.record e).held = some s) : s.bytes = Text.bytes (printable e.message).toList := by
  obtain ⟨s', hs⟩ := exists_ofText?_printable e.message
  rw [record, hs] at h
  cases h
  exact CString.bytes_of_ofText? hs

theorem message_record (c : Channel) (e : Error) :
    (c.record e).message = some (printable e.message) :=
  congrArg some (CString.text_of_bytes (c.bytes_of_held_record rfl))

end Channel

end RegisterMachine
