import RegisterMachine.Proofs.Naming

namespace RegisterMachine

theorem Item.length_bytes (i : Item) : i.bytes.length = i.width := by
  cases i with
  | instruction i => exact i.length_encode
  | byte b => rfl

namespace Listing

def Tiles : Nat → List Row → Nat → Prop
  | low, [], high => low = high
  | low, row :: rows, high => row.address = low ∧ Tiles (low + row.item.width) rows high

theorem Tiles.low_le {low high : Nat} {rows : List Row} (h : Tiles low rows high) : low ≤ high := by
  induction rows generalizing low with
  | nil => exact Nat.le_of_eq h
  | cons row rows ih =>
      have hrest := ih h.2
      omega

theorem Tiles.within {low high : Nat} {rows : List Row} (h : Tiles low rows high) {row : Row}
    (hrow : row ∈ rows) : low ≤ row.address ∧ row.address + row.item.width ≤ high := by
  induction rows generalizing low with
  | nil => cases hrow
  | cons head rows ih =>
      obtain ⟨hhead, htail⟩ := h
      rcases List.mem_cons.mp hrow with rfl | hrow
      · have hle := htail.low_le
        omega
      · obtain ⟨hlow, hhigh⟩ := ih htail hrow
        omega

theorem Tiles.exists_unique {low high : Nat} {rows : List Row} (h : Tiles low rows high) {p : Nat}
    (hlow : low ≤ p) (hhigh : p < high) :
    ∃! row, row ∈ rows ∧ row.address ≤ p ∧ p < row.address + row.item.width := by
  induction rows generalizing low with
  | nil =>
      have hend : low = high := h
      omega
  | cons head rows ih =>
      obtain ⟨hhead, htail⟩ := h
      by_cases hp : p < low + head.item.width
      · refine ⟨head, ⟨List.mem_cons_self, by omega, by omega⟩, ?_⟩
        rintro row ⟨hrow, hstart, hend⟩
        rcases List.mem_cons.mp hrow with rfl | hrow
        · rfl
        · have hbehind := (htail.within hrow).1
          omega
      · obtain ⟨row, ⟨hrow, hstart, hend⟩, hunique⟩ := ih htail (Nat.not_lt.mp hp)
        refine ⟨row, ⟨List.mem_cons_of_mem _ hrow, hstart, hend⟩, ?_⟩
        rintro other ⟨hother, hother_start, hother_end⟩
        rcases List.mem_cons.mp hother with rfl | hother
        · omega
        · exact hunique other ⟨hother, hother_start, hother_end⟩

theorem tiles_rowsFrom (symbols : Option Symbols) (address : Nat) (is : List Item) :
    Tiles address (rowsFrom symbols address is) (address + (is.map Item.width).sum) := by
  induction is generalizing address with
  | nil => rfl
  | cons i is ih =>
      refine ⟨rfl, ?_⟩
      rw [List.map_cons, List.sum_cons, ← Nat.add_assoc]
      exact ih (address + i.width)

theorem sum_width_items (image : List UInt8) : ((items image).map Item.width).sum = image.length := by
  have hbytes := congrArg List.length (flatMap_bytes_items image)
  rw [List.length_flatMap] at hbytes
  simpa only [Item.length_bytes] using hbytes

theorem mem_rowsFrom_items {symbols : Option Symbols} {address : Nat} {image : List UInt8} {r : Row}
    (h : r ∈ rowsFrom symbols address (items image)) :
    ∃ offset b rest, image.drop offset = b :: rest ∧
      r = row symbols (address + offset) (item b rest) := by
  fun_induction items image generalizing address with
  | case1 => cases h
  | case2 b rest ih =>
      rcases List.mem_cons.mp h with rfl | h
      · exact ⟨0, b, rest, rfl, rfl⟩
      · obtain ⟨offset, c, more, hdrop, rfl⟩ := ih h
        refine ⟨(item b rest).width + offset, c, more, ?_, ?_⟩
        · rw [← List.drop_drop, hdrop]
        · rw [Nat.add_assoc]

theorem item_eq_instruction_iff {b : UInt8} {rest : List UInt8} {i : Instruction} :
    item b rest = .instruction i ↔ Instruction.decode (b :: rest) = .ok i := by
  unfold item
  cases Instruction.decode (b :: rest) <;> simp

theorem item_eq_byte_iff {b c : UInt8} {rest : List UInt8} :
    item b rest = .byte c ↔ c = b ∧ ∃ kind, Instruction.decode (b :: rest) = .error kind := by
  unfold item
  cases Instruction.decode (b :: rest) <;> simp [eq_comm]

theorem branchAddress?_branch {op : Branch} {word : Word} (h : 0 ≤ word.toInt) :
    branchAddress? (.instruction (.branch op word)) = some word.toInt.toNat := if_pos h

theorem branchAddress?_eq_none {i : Item}
    (h : ∀ op word, i = .instruction (.branch op word) → word.toInt < 0) :
    branchAddress? i = none := by
  unfold branchAddress?
  split
  · exact if_neg (Int.not_le.mpr (h _ _ rfl))
  · rfl

structure Shows (symbols : Option Symbols) (image : List UInt8) (r : Row) : Prop where
  instruction_iff : ∀ i, r.item = .instruction i ↔
    Instruction.decode (image.drop r.address) = .ok i
  byte_iff : ∀ b, r.item = .byte b ↔ image[r.address]? = some b ∧
    ∃ kind, Instruction.decode (image.drop r.address) = .error kind
  label : r.label = symbols.bind (·.name? r.address)
  target : ∀ op word, r.item = .instruction (.branch op word) → 0 ≤ word.toInt →
    r.target = symbols.bind (·.name? word.toInt.toNat)
  target_none : (∀ op word, r.item = .instruction (.branch op word) → word.toInt < 0) →
    r.target = none

variable {symbols : Option Symbols} {image : List UInt8} {rows : List Row} {r : Row}

theorem shows_row {address : Nat} {b : UInt8} {rest : List UInt8}
    (hdrop : image.drop address = b :: rest) :
    Shows symbols image (row symbols address (item b rest)) where
  instruction_iff := fun i => by
    rw [row, hdrop]
    exact item_eq_instruction_iff
  byte_iff := fun c => by
    have hget : image[address]? = some b := by rw [← List.head?_drop, hdrop, List.head?_cons]
    rw [row, hdrop, hget, Option.some_inj, eq_comm (b := c)]
    exact item_eq_byte_iff
  label := rfl
  target := fun op word hbranch hword => by
    have hitem : item b rest = .instruction (.branch op word) := hbranch
    rw [row, hitem, branchAddress?_branch hword]
    rfl
  target_none := fun hneg => by
    have hnone : branchAddress? (item b rest) = none := branchAddress?_eq_none hneg
    rw [row, hnone]
    cases symbols <;> rfl

theorem Shows.item_eq (h : Shows symbols image r) :
    ∃ b rest, image.drop r.address = b :: rest ∧ r.item = item b rest := by
  have hinstruction := h.instruction_iff
  have hbyte := h.byte_iff
  rw [← List.head?_drop] at hbyte
  cases hdrop : image.drop r.address with
  | nil =>
      rw [hdrop] at hinstruction hbyte
      cases hitem : r.item with
      | instruction i => cases (hinstruction i).mp hitem
      | byte b => cases ((hbyte b).mp hitem).1
  | cons b rest =>
      rw [hdrop] at hinstruction hbyte
      refine ⟨b, rest, rfl, ?_⟩
      cases hfound : item b rest with
      | instruction i => exact (hinstruction i).mpr (item_eq_instruction_iff.mp hfound)
      | byte c =>
          obtain ⟨rfl, hkind⟩ := item_eq_byte_iff.mp hfound
          exact (hbyte c).mpr ⟨rfl, hkind⟩

theorem Shows.target_eq (h : Shows symbols image r) :
    r.target = symbols.bind fun s => (branchAddress? r.item).bind s.name? := by
  by_cases hbranch : ∃ op word, r.item = .instruction (.branch op word) ∧ 0 ≤ word.toInt
  · obtain ⟨op, word, hitem, hword⟩ := hbranch
    rw [h.target op word hitem hword, hitem, branchAddress?_branch hword]
    rfl
  · have hneg : ∀ op word, r.item = .instruction (.branch op word) → word.toInt < 0 :=
      fun op word hitem => Int.not_le.mp fun hword => hbranch ⟨op, word, hitem, hword⟩
    rw [h.target_none hneg, branchAddress?_eq_none hneg]
    cases symbols <;> rfl

theorem Shows.eq_row (h : Shows symbols image r) :
    ∃ b rest, image.drop r.address = b :: rest ∧ r = row symbols r.address (item b rest) := by
  obtain ⟨b, rest, hdrop, hitem⟩ := h.item_eq
  have hlabel := h.label
  have htarget := h.target_eq
  refine ⟨b, rest, hdrop, ?_⟩
  rw [← hitem]
  obtain ⟨address, label, shown, target⟩ := r
  rw [row, Row.mk.injEq]
  exact ⟨rfl, hlabel, rfl, htarget⟩

structure Covers (symbols : Option Symbols) (image : List UInt8) (rows : List Row) : Prop where
  tiles : Tiles 0 rows image.length
  shows : ∀ row ∈ rows, Shows symbols image row

theorem covers_ofImage (symbols : Option Symbols) (image : List UInt8) :
    Covers symbols image (ofImage symbols image) := by
  refine ⟨?_, fun r hr => ?_⟩
  · have htiles := tiles_rowsFrom symbols 0 (items image)
    rwa [Nat.zero_add, sum_width_items] at htiles
  · obtain ⟨offset, b, rest, hdrop, rfl⟩ := mem_rowsFrom_items hr
    rw [Nat.zero_add]
    exact shows_row hdrop

theorem eq_rowsFrom_of_tiles {low : Nat} (htiles : Tiles low rows image.length)
    (hshows : ∀ row ∈ rows, Shows symbols image row) :
    rows = rowsFrom symbols low (items (image.drop low)) := by
  induction rows generalizing low with
  | nil =>
      have hend : low = image.length := htiles
      rw [hend, List.drop_length, items, rowsFrom]
  | cons head rows ih =>
      obtain ⟨hhead, htail⟩ := htiles
      obtain ⟨b, rest, hdrop, hrow⟩ := (hshows head List.mem_cons_self).eq_row
      have hitem : head.item = item b rest := congrArg Row.item hrow
      have hrest := ih htail fun row hmem => hshows row (List.mem_cons_of_mem _ hmem)
      rw [← hhead, hdrop, items, rowsFrom, ← hrow]
      rw [← List.drop_drop, ← hhead, hdrop, hitem] at hrest
      exact congrArg (head :: ·) hrest

theorem places_rowsFrom (symbols other : Option Symbols) (address : Nat) (is : List Item) :
    (rowsFrom symbols address is).map (fun r => (r.address, r.item)) =
      (rowsFrom other address is).map (fun r => (r.address, r.item)) := by
  induction is generalizing address with
  | nil => rfl
  | cons i is ih =>
      rw [rowsFrom, rowsFrom, List.map_cons, List.map_cons, ih]
      rfl

theorem covers_image (h : image.length < 4294967296) (symbols : Option Symbols) :
    Covers symbols image (ofImage symbols image) ∧
    (∀ rows, Covers symbols image rows → rows = ofImage symbols image) ∧
    (∀ r ∈ ofImage symbols image, r.address < 4294967296) ∧
    (ofImage symbols image).flatMap (fun r => r.item.bytes) = image ∧
    (∀ p, p < image.length → ∃! r, r ∈ ofImage symbols image ∧
      r.address ≤ p ∧ p < r.address + r.item.width) ∧
    (∀ other, (ofImage symbols image).map (fun r => (r.address, r.item)) =
      (ofImage other image).map (fun r => (r.address, r.item))) ∧
    ∀ program, (ofImage symbols (Instruction.encodeAll program)).map Row.item =
      program.map Item.instruction := by
  have hcovers := covers_ofImage symbols image
  refine ⟨hcovers, fun rows hrows => eq_rowsFrom_of_tiles hrows.tiles hrows.shows, fun r hr => ?_,
    ?_, fun p hp => ?_, fun other => ?_, fun program => ?_⟩
  · have hwidth := item_width_pos r.item
    have hend := (hcovers.tiles.within hr).2
    omega
  · rw [← List.flatMap_map, ofImage, map_item_rowsFrom, flatMap_bytes_items]
  · exact hcovers.tiles.exists_unique (Nat.zero_le p) hp
  · exact places_rowsFrom symbols other 0 (items image)
  · rw [ofImage, map_item_rowsFrom, items_encodeAll]

def cut : List UInt8 := [0x50, 0, 0, 0, 0, 0x50, 0x01]

theorem covers_image_cut :
    cut.length < 4294967296 ∧
    Covers (some ⟨[("top", 0)], []⟩) cut
      [⟨0, some "top", .instruction (.branch .jmp 0), some "top"⟩, ⟨5, none, .byte 0x50, none⟩,
        ⟨6, none, .instruction (.plain .hlt), none⟩] ∧
    (ofImage none cut).map (fun r => (r.address, r.item)) =
      [(0, .instruction (.branch .jmp 0)), (5, .byte 0x50), (6, .instruction (.plain .hlt))] := by
  have hjump : item 0x50 [0, 0, 0, 0, 0x50, 0x01] = .instruction (.branch .jmp 0) := by
    decide +kernel
  have hcut : item 0x50 [0x01] = .byte 0x50 := by decide +kernel
  have hhalt : item 0x01 [] = .instruction (.plain .hlt) := by decide +kernel
  have hitems : items cut = [.instruction (.branch .jmp 0), .byte 0x50, .instruction (.plain .hlt)] := by
    simp [cut, items, hjump, hcut, hhalt, Item.width, Instruction.width, Instruction.opcode,
      Opcode.width, Opcode.format, Format.width]
  have hlength : cut.length < 4294967296 := by decide
  obtain ⟨hcovers, -, -, -, -, hplaces, -⟩ := covers_image hlength (some ⟨[("top", 0)], []⟩)
  have hrows : ofImage (some ⟨[("top", 0)], []⟩) cut =
      [⟨0, some "top", .instruction (.branch .jmp 0), some "top"⟩, ⟨5, none, .byte 0x50, none⟩,
        ⟨6, none, .instruction (.plain .hlt), none⟩] := by
    rw [ofImage, hitems]
    decide +kernel
  rw [hrows] at hcovers hplaces
  exact ⟨hlength, hcovers, (hplaces none).symm⟩

end Listing

end RegisterMachine
