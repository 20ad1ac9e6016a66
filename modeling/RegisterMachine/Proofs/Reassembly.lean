import RegisterMachine.Listing
import RegisterMachine.Proofs.Code
import RegisterMachine.Proofs.Layout
import RegisterMachine.Proofs.Reading

namespace RegisterMachine

open Source

namespace Instruction

def writing : Instruction → List Written
  | .plain _ => []
  | .unary _ r => [.ofRegister r]
  | .binary _ a b => [.ofRegister a, .ofRegister b]
  | .immediate _ r v => [.ofRegister r, .ofWord v]
  | .branch _ t => [.ofWord t]

theorem map_text_writing (i : Instruction) : i.writing.map Written.text = i.operands := by
  cases i <;> rfl

theorem toList_written (op : Opcode) (ws : List Written) :
    (written op (ws.map Written.text)).toList = op.mnemonic.toList ++ trailing ws := by
  cases ws with
  | nil => simp [written, trailing]
  | cons w ws =>
      rw [List.map_cons, written, String.toList_append, String.toList_append, List.append_assoc]
      · rfl
      · simp

theorem toList_text (i : Instruction) :
    i.text.toList = i.opcode.mnemonic.toList ++ trailing i.writing := by
  rw [text, ← map_text_writing, toList_written]

theorem instruction_writing (symbols : Symbols) (i : Instruction) :
    Source.instruction symbols i.opcode (i.writing.map Written.operand) = .ok i := by
  have hregister := Written.asRegister_ofRegister (.wrongOperands i.opcode)
  have hword := Written.asWord_ofWord symbols (.wrongOperands i.opcode)
  cases i with
  | plain op => rfl
  | unary op r => exact Except.bind_of_ok (hregister r) _
  | binary op a b =>
      exact (Except.bind_of_ok (hregister a) _).trans (Except.bind_of_ok (hregister b) _)
  | immediate op r v =>
      exact (Except.bind_of_ok (hregister r) _).trans (Except.bind_of_ok (hword v) _)
  | branch op t => exact Except.bind_of_ok (hword t) _

end Instruction

namespace Opcode

theorem isName_mnemonic (op : Opcode) : isName op.mnemonic.toList := by
  have hall : ∀ op ∈ all, isName op.mnemonic.toList := by decide +kernel
  exact hall op op.mem_all

theorem ofName?_mnemonic (op : Opcode) : ofName? op.mnemonic = some op := by
  have hall : ∀ op ∈ all, ofName? op.mnemonic = some op := by decide +kernel
  exact hall op op.mem_all

end Opcode

namespace Item

def statement : Item → Statement
  | .instruction i => .operation i.opcode.mnemonic (i.writing.map Written.operand)
  | .byte b => .directive "byte" [(Written.ofHex 2 b.toNat).operand]

theorem lowByte_ofNat (b : UInt8) : Word.lowByte (Int32.ofNat b.toNat) = b := by
  have hlt := b.toNat_lt
  apply UInt8.toNat_inj.mp
  simp only [Word.lowByte, Int32.toUInt32_ofNat', UInt32.toNat_ofNat', UInt8.toNat_ofNat']
  omega

theorem bytes_statement (symbols : Symbols) (item : Item) :
    item.statement.bytes symbols = .ok item.bytes := by
  cases item with
  | instruction i =>
      rw [statement, Statement.bytes, Opcode.ofName?_mnemonic]
      dsimp only
      rw [Instruction.instruction_writing]
      rfl
  | byte b =>
      have hle : b.toNat ≤ 4294967295 := Nat.le_trans (Nat.le_of_lt b.toNat_lt) (by decide)
      have hpiece : Directive.byte.piece symbols (.notADirective "byte")
          (Written.ofHex 2 b.toNat).operand = .ok [b] := by
        rw [Directive.piece, Written.asWord_ofHex symbols _ 2 hle, Except.map, lowByte_ofNat]
      show Directive.byte.bytes symbols (.notADirective "byte")
        [(Written.ofHex 2 b.toNat).operand] = .ok [b]
      rw [Directive.bytes, hpiece]
      rfl

theorem toList_text_byte (b : UInt8) :
    (text (.byte b)).toList = '.' :: ("byte".toList ++ trailing [Written.ofHex 2 b.toNat]) := by
  rw [text, String.toList_append, trailing, toList_listed_singleton]
  · rfl
  · simp

theorem read?_text (item : Item) : Line.read? item.text.toList = some ⟨none, some item.statement⟩ := by
  cases item with
  | instruction i =>
      rw [text, Instruction.toList_text, Line.read?_operation i.opcode.isName_mnemonic]
      rfl
  | byte b =>
      rw [toList_text_byte, Line.read?_directive (by decide)]
      rfl

theorem oneLine_text (item : Item) : OneLine item.text.toList := by
  cases item with
  | instruction i =>
      rw [text, Instruction.toList_text]
      exact oneLine_phrase (oneLine_of_isName i.opcode.isName_mnemonic) i.writing
  | byte b =>
      have hdot : OneLine ['.'] := by decide
      have hname : OneLine "byte".toList := oneLine_of_isName (by decide)
      have hphrase := oneLine_phrase hname [Written.ofHex 2 b.toNat]
      rw [toList_text_byte]
      exact hdot.append hphrase

theorem text_ne_nil (item : Item) : item.text.toList ≠ [] := by
  intro hnil
  have hread := item.read?_text
  rw [hnil] at hread
  cases hread

end Item

namespace Listing

theorem bytes_item (b : UInt8) (rest : List UInt8) :
    (item b rest).bytes ++ (b :: rest).drop (item b rest).width = b :: rest := by
  unfold item
  split
  · rename_i i hdecode
    exact Instruction.encode_of_decode hdecode
  · rfl

theorem flatMap_bytes_items (image : List UInt8) : (items image).flatMap Item.bytes = image := by
  fun_induction items image with
  | case1 => rfl
  | case2 b rest ih => rw [List.flatMap_cons, ih, bytes_item]

theorem map_item_rowsFrom (symbols : Option Symbols) (address : Nat) (is : List Item) :
    (rowsFrom symbols address is).map Row.item = is := by
  induction is generalizing address with
  | nil => rfl
  | cons i is ih => rw [rowsFrom, List.map_cons, ih, row]

theorem text_rowsFrom_none {address : Nat} {is : List Item} {r : Row}
    (h : r ∈ rowsFrom none address is) :
    r.text = Numeral.hex 4 r.address ++ ":  " ++ r.item.text := by
  induction is generalizing address with
  | nil => cases h
  | cons i is ih =>
      rcases List.mem_cons.mp h with rfl | h
      · cases i <;> simp [Row.text, row]
      · exact ih h

end Listing

namespace Assembly

theorem Survey.extend_of_read? {s : Survey} {text : List Char} {line : Line} {size : Nat}
    (number : Nat) (hread : Line.read? text = some line) (hlabel : line.label = none)
    (hsize : line.size = .ok size) :
    s.extend number text =
      if sizeLimit < s.address + size then .error (.tooLarge (s.address + size))
      else .ok ⟨line :: s.lines, s.symbols, s.address + size⟩ := by
  have hline : blame number (Line.read text) = .ok line := by
    rw [Line.read, hread]
    rfl
  have hdefine : blame number (line.define s.symbols s.address) = .ok s.symbols := by
    rw [Line.define, hlabel]
    rfl
  have hcount : blame number line.size = .ok size := by
    rw [hsize]
    rfl
  rw [Survey.extend, Except.bind_of_ok hline, Except.bind_of_ok hdefine, Except.bind_of_ok hcount]

theorem Survey.ofLines_of_unlabelled {symbols : Symbols} {rows : List Row}
    {texts : List (List Char)} (hread : texts.map Line.read? = rows.map (fun row => some row.1))
    (hlabel : ∀ row ∈ rows, row.1.label = none)
    (hbytes : ∀ row ∈ rows, row.1.bytes symbols = .ok row.2) (s : Survey) (number : Nat)
    (hle : s.address + (content rows).length ≤ sizeLimit) :
    s.ofLines number texts = .ok ⟨(rows.map Prod.fst).reverse ++ s.lines, s.symbols,
      s.address + (content rows).length⟩ := by
  induction rows generalizing texts s number with
  | nil =>
      rw [List.map_nil, List.map_eq_nil_iff] at hread
      rw [hread]
      rfl
  | cons row rows ih =>
      obtain ⟨text, rest, rfl, hrow, hrest⟩ := List.map_eq_cons_iff.mp hread
      rw [content_cons, List.length_append] at hle ⊢
      have hextend := Survey.extend_of_read? (s := s) number hrow (hlabel row List.mem_cons_self)
        (Line.size_eq_length_bytes (hbytes row List.mem_cons_self))
      rw [if_neg (by omega)] at hextend
      rw [Survey.ofLines, hextend]
      dsimp only
      rw [ih hrest (fun other h => hlabel other (List.mem_cons_of_mem row h))
        (fun other h => hbytes other (List.mem_cons_of_mem row h)) _ _ (by dsimp only; omega)]
      simp [Nat.add_assoc]

theorem write_append {symbols : Symbols} {rows : List Row}
    (h : ∀ row ∈ rows, row.1.bytes symbols = .ok row.2) (written : Array UInt8) (number : Nat)
    (lines : List Line) :
    write symbols written number (rows.map Prod.fst ++ lines) =
      write symbols (written ++ content rows) (number + rows.length) lines := by
  induction rows generalizing written number with
  | nil => simp [content]
  | cons row rows ih =>
      rw [List.map_cons, List.cons_append, write, h row List.mem_cons_self]
      dsimp only [blame]
      rw [ih (fun other hother => h other (List.mem_cons_of_mem row hother)), content_cons,
        List.length_cons, Nat.add_right_comm, Nat.add_assoc]
      exact congrArg (write symbols · _ lines) (Array.toList_inj.mp (by simp))

theorem write_of_bytes {symbols : Symbols} {rows : List Row}
    (h : ∀ row ∈ rows, row.1.bytes symbols = .ok row.2) (written : Array UInt8) (number : Nat) :
    write symbols written number (rows.map Prod.fst) = .ok (written ++ content rows) := by
  have happend := write_append h written number []
  rwa [List.append_nil] at happend

theorem ofLines_of_unlabelled {rows : List Row} {texts : List (List Char)}
    (hread : texts.map Line.read? = rows.map (fun row => some row.1))
    (hlabel : ∀ row ∈ rows, row.1.label = none)
    (hbytes : ∀ row ∈ rows, row.1.bytes Symbols.empty = .ok row.2)
    (hle : (content rows).length ≤ sizeLimit) :
    ofLines texts = .ok ⟨content rows, Symbols.empty⟩ := by
  have hsurvey := Survey.ofLines_of_unlabelled hread hlabel hbytes Survey.start 1
    (by simpa [Survey.start] using hle)
  have hlines : ((rows.map Prod.fst).reverse ++ Survey.start.lines).reverse = rows.map Prod.fst := by
    simp [Survey.start]
  have hwrite : write Survey.start.symbols #[] 1
      ((rows.map Prod.fst).reverse ++ Survey.start.lines).reverse =
      .ok ((#[] : Array UInt8) ++ content rows) := by
    rw [hlines]
    exact write_of_bytes hbytes #[] 1
  rw [ofLines, Except.bind_of_ok hsurvey]
  dsimp only
  rw [Except.bind_of_ok hwrite]
  simp [Survey.start, pure, Except.pure]

theorem ofLines_singleton {text : List Char} {line : Line} {bs : List UInt8}
    (hread : Line.read? text = some line) (hlabel : line.label = none)
    (hbytes : line.bytes Symbols.empty = .ok bs) :
    ofLines [text] =
      if bs.length ≤ sizeLimit then .ok ⟨bs, Symbols.empty⟩ else .error (.tooLarge bs.length) := by
  by_cases hle : bs.length ≤ sizeLimit
  · have hrows := @ofLines_of_unlabelled [(line, bs)] [text]
    simpa [hread, hlabel, hbytes, content, hle] using hrows
  · have hextend := Survey.extend_of_read? (s := Survey.start) 1 hread hlabel
      (Line.size_eq_length_bytes hbytes)
    have haddress : Survey.start.address + bs.length = bs.length := Nat.zero_add _
    rw [haddress, if_pos (Nat.not_le.mp hle)] at hextend
    rw [if_neg hle, ofLines, Survey.ofLines, hextend]
    rfl

def itemRow (item : Item) : Row := (⟨none, some item.statement⟩, item.bytes)

theorem ofLines_items {image : List UInt8} (h : image.length ≤ sizeLimit) :
    ofLines ((Listing.items image).map (fun item => item.text.toList)) =
      .ok ⟨image, Symbols.empty⟩ := by
  let rows := (Listing.items image).map itemRow
  have hcontent : content rows = image := by
    rw [content, List.flatMap_map]
    exact Listing.flatMap_bytes_items image
  have hread : ((Listing.items image).map (fun item => item.text.toList)).map Line.read? =
      rows.map (fun row => some row.1) := by
    simp [rows, itemRow, Item.read?_text]
  have hlabel : ∀ row ∈ rows, row.1.label = none := by
    simp [rows, itemRow]
  have hbytes : ∀ row ∈ rows, row.1.bytes Symbols.empty = .ok row.2 := by
    simp [rows, itemRow, Line.bytes, Item.bytes_statement]
  rw [ofLines_of_unlabelled hread hlabel hbytes (by rw [hcontent]; exact h), hcontent]

theorem reassembles_listing {image : List UInt8} (h : image.length ≤ sizeLimit) :
    (∀ row ∈ Listing.ofImage none image,
      row.text = Numeral.hex 4 row.address ++ ":  " ++ row.item.text) ∧
    ofSource (String.join ((Listing.ofImage none image).map (fun row => row.item.text ++ "\n"))) =
      .ok ⟨image, Symbols.empty⟩ ∧
    ofSource (String.intercalate "\n"
      ((Listing.ofImage none image).map (fun row => row.item.text))) =
      .ok ⟨image, Symbols.empty⟩ := by
  let texts := (Listing.items image).map Item.text
  have htexts : (Listing.ofImage none image).map (fun row => row.item.text) = texts := by
    have hmap : ((Listing.ofImage none image).map Row.item).map Item.text = texts := by
      rw [Listing.ofImage, Listing.map_item_rowsFrom]
    rw [← hmap, List.map_map]
    rfl
  have hended : (Listing.ofImage none image).map (fun row => row.item.text ++ "\n") =
      texts.map (· ++ "\n") := by
    rw [← htexts, List.map_map]
    rfl
  have hitems : ofLines (texts.map String.toList) = .ok ⟨image, Symbols.empty⟩ := by
    rw [List.map_map]
    exact ofLines_items h
  have hsolid : ∀ text ∈ texts, OneLine text.toList ∧ text.toList ≠ [] := by
    intro text htext
    obtain ⟨item, -, rfl⟩ := List.mem_map.mp htext
    exact ⟨item.oneLine_text, item.text_ne_nil⟩
  refine ⟨fun row hrow => Listing.text_rowsFrom_none hrow, ?_, ?_⟩
  · rw [hended, ofSource, lines_join (fun text htext => (hsolid text htext).1), hitems]
  · rw [htexts, ofSource, lines_intercalate hsolid, hitems]

def ragged : List UInt8 := [0x40, 3, 0, 0, 0, 0x80, 0x00, 0x45, 4]

theorem reassembles_listing_ragged :
    ragged.length ≤ sizeLimit ∧
    (Listing.ofImage none ragged).map (fun row => row.item.text) =
      ["MOVI R3, -2147483648", ".byte 0x00", ".byte 0x45", ".byte 0x04"] ∧
    ofSource "MOVI R3, -2147483648\n.byte 0x00\n.byte 0x45\n.byte 0x04" =
      .ok ⟨ragged, Symbols.empty⟩ := by
  have hmovi : Listing.item 0x40 [3, 0, 0, 0, 0x80, 0x00, 0x45, 4] =
      .instruction (.immediate .movi 3 (-2147483648)) := by decide +kernel
  have hzero : Listing.item 0x00 [0x45, 4] = .byte 0x00 := by decide +kernel
  have hcut : Listing.item 0x45 [4] = .byte 0x45 := by decide +kernel
  have hlast : Listing.item 4 [] = .byte 4 := by decide +kernel
  have hitems : Listing.items ragged = [.instruction (.immediate .movi 3 (-2147483648)),
      .byte 0x00, .byte 0x45, .byte 4] := by
    simp [ragged, Listing.items, hmovi, hzero, hcut, hlast, Item.width, Instruction.width,
      Instruction.opcode, Opcode.width, Opcode.format, Format.width]
  have htexts : (Listing.ofImage none ragged).map (fun row => row.item.text) =
      ["MOVI R3, -2147483648", ".byte 0x00", ".byte 0x45", ".byte 0x04"] := by
    rw [Listing.ofImage, hitems]
    decide +kernel
  have hlength : ragged.length ≤ sizeLimit := by decide
  obtain ⟨-, -, hassembled⟩ := reassembles_listing hlength
  have hsource : String.intercalate "\n"
      ["MOVI R3, -2147483648", ".byte 0x00", ".byte 0x45", ".byte 0x04"] =
      "MOVI R3, -2147483648\n.byte 0x00\n.byte 0x45\n.byte 0x04" := by
    decide +kernel
  rw [htexts, hsource] at hassembled
  exact ⟨hlength, htexts, hassembled⟩

end Assembly

end RegisterMachine
