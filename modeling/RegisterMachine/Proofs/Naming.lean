import Mathlib.Algebra.GroupWithZero.Nat
import Mathlib.Data.List.Forall2
import Mathlib.Data.List.Nodup
import RegisterMachine.Listing
import RegisterMachine.Proofs.Acceptance
import RegisterMachine.Proofs.Reassembly

namespace RegisterMachine

namespace Symbols

abbrev Bindings := List (String × Nat)

def Bindings.first? (bindings : Bindings) (address : Nat) : Option String :=
  (bindings.find? (fun binding => binding.2 == address)).map (fun binding => binding.1)

structure Records (s : Symbols) (bindings : Bindings) : Prop where
  nodup : (bindings.map Prod.fst).Nodup
  address?_eq : ∀ name, s.address? name = bindings.lookup name
  name?_eq : ∀ address, s.name? address = bindings.first? address

theorem Bindings.first?_append (earlier later : Bindings) (address : Nat) :
    first? (earlier ++ later) address = (earlier.first? address).or (later.first? address) := by
  rw [first?, List.find?_append, Option.map_or]
  rfl

theorem Bindings.lookup_of_mem {bindings : Bindings} (h : (bindings.map Prod.fst).Nodup)
    {name : String} {address : Nat} (hmem : (name, address) ∈ bindings) :
    bindings.lookup name = some address := by
  obtain ⟨earlier, later, rfl⟩ := List.append_of_mem hmem
  rw [List.map_append, List.map_cons, List.nodup_middle, List.nodup_cons] at h
  refine List.lookup_eq_some_iff.mpr ⟨earlier, later, rfl, fun binding hbinding => ?_⟩
  rw [bne_iff_ne]
  intro heq
  exact h.1 (List.mem_append_left _ (List.mem_map.mpr ⟨binding, hbinding, heq.symm⟩))

theorem Bindings.mem_of_lookup {bindings : Bindings} {name : String} {address : Nat}
    (h : bindings.lookup name = some address) : (name, address) ∈ bindings := by
  obtain ⟨earlier, later, rfl, -⟩ := List.lookup_eq_some_iff.mp h
  exact List.mem_append_right earlier List.mem_cons_self

theorem Bindings.lookup_first? {bindings : Bindings} (h : (bindings.map Prod.fst).Nodup)
    {name : String} {address : Nat} (hname : bindings.lookup name = some address) :
    ∃ shown, bindings.first? address = some shown ∧ bindings.lookup shown = some address := by
  obtain ⟨binding, hfind⟩ : ∃ binding, bindings.find? (fun b => b.2 == address) = some binding :=
    Option.isSome_iff_exists.mp
      (List.find?_isSome.mpr ⟨_, mem_of_lookup hname, beq_self_eq_true address⟩)
  have haddress : binding.2 = address := by
    simpa using List.find?_some hfind
  refine ⟨binding.1, ?_, lookup_of_mem h ?_⟩
  · rw [first?, hfind]
    rfl
  · rw [← haddress]
    exact List.mem_of_find?_eq_some hfind

theorem name?_insert {s t : Symbols} {name : String} {address : Nat}
    (h : s.insert name address = .ok t) (other : Nat) :
    t.name? other = (s.name? other).or (if address = other then some name else none) := by
  unfold insert at h
  cases ha : s.address? name with
  | some bound => simp [ha] at h
  | none =>
      cases hn : s.name? address with
      | none =>
          simp only [ha, hn, Except.ok.injEq] at h
          subst h
          by_cases e : address = other
          · subst e
            rw [hn]
            simp [name?]
          · simp [name?, e]
      | some first =>
          simp only [ha, hn, Except.ok.injEq] at h
          subst h
          by_cases e : address = other
          · subst e
            rw [hn]
            exact hn
          · simp [name?, e]

theorem records_empty : empty.Records [] := ⟨List.nodup_nil, fun _ => rfl, fun _ => rfl⟩

theorem Records.insert {s t : Symbols} {bindings : Bindings} (hs : s.Records bindings)
    {name : String} {address : Nat} (h : s.insert name address = .ok t) :
    t.Records (bindings ++ [(name, address)]) := by
  have hfresh : bindings.lookup name = none := by
    rw [← hs.address?_eq]
    cases hbound : s.address? name with
    | none => rfl
    | some bound =>
        rw [(s.insert_eq_error_iff name address bound).mpr hbound] at h
        cases h
  refine ⟨?_, fun other => ?_, fun other => ?_⟩
  · rw [List.map_append, List.nodup_append]
    refine ⟨hs.nodup, List.nodup_singleton _, ?_⟩
    intro own hown other hother
    obtain ⟨binding, hbinding, rfl⟩ := List.mem_map.mp hown
    cases List.mem_singleton.mp hother
    have hne := List.lookup_eq_none_iff.mp hfresh binding hbinding
    exact fun heq => bne_iff_ne.mp hne heq.symm
  · rw [address?_insert h, List.lookup_append, ← hs.address?_eq]
    by_cases e : other = name
    · subst e
      rw [hs.address?_eq, hfresh]
      simp
    · rw [if_neg e, List.lookup_cons, beq_false_of_ne e]
      exact Option.or_none.symm
  · rw [name?_insert h, Bindings.first?_append, ← hs.name?_eq]
    by_cases e : address = other <;> simp [Bindings.first?, e]

end Symbols

open Source

namespace Assembly

open Symbols

def bindings (address : Nat) : List Line → Bindings
  | [] => []
  | line :: lines => (line.label.map (·, address)).toList ++ bindings (address + extent [line]) lines

theorem bindings_append (address : Nat) (front back : List Line) :
    bindings address (front ++ back) =
      bindings address front ++ bindings (address + extent front) back := by
  induction front generalizing address with
  | nil => rfl
  | cons line front ih =>
      have hextent : extent [line] + extent front = extent (line :: front) := Nat.add_zero _ ▸ rfl
      rw [List.cons_append, bindings, ih, bindings, List.append_assoc, Nat.add_assoc, hextent]

theorem le_of_mem_bindings {address place : Nat} {lines : List Line} {name : String}
    (h : (name, place) ∈ bindings address lines) : place ≤ address + extent lines := by
  induction lines generalizing address with
  | nil => cases h
  | cons line lines ih =>
      rcases List.mem_append.mp h with h | h
      · have hplace : place = address := by
          cases hlabel : line.label with
          | none => simp [hlabel] at h
          | some own =>
              rw [hlabel] at h
              cases List.mem_singleton.mp h
              rfl
        omega
      · have hle := ih h
        simp only [extent] at hle ⊢
        omega

theorem records_define {line : Line} {symbols defined : Symbols} {earlier : Bindings}
    (hs : symbols.Records earlier) {place : Nat} (h : line.define symbols place = .ok defined) :
    defined.Records (earlier ++ bindings place [line]) := by
  unfold Line.define at h
  cases hlabel : line.label with
  | none =>
      rw [hlabel] at h
      cases h
      simpa [bindings, hlabel] using hs
  | some name =>
      rw [hlabel] at h
      dsimp only at h
      cases hinsert : symbols.insert name place with
      | error bound =>
          rw [hinsert] at h
          cases h
      | ok extended =>
          rw [hinsert] at h
          cases h
          simpa [bindings, hlabel] using hs.insert hinsert

def Survey.Recorded (s : Survey) : Prop := s.symbols.Records (bindings 0 s.lines.reverse)

theorem Survey.Recorded.extend {s t : Survey} {number : Nat} {text : List Char} (hs : s.Sound)
    (hr : s.Recorded) (h : s.extend number text = .ok t) : t.Recorded := by
  obtain ⟨line, size, -, hdefine, -, hlines, -, -⟩ := extend_eq_ok h
  unfold Recorded
  rw [hlines, List.reverse_cons, bindings_append, extent_reverse, Nat.zero_add, ← hs.address_eq]
  exact records_define hr hdefine

theorem Survey.Recorded.ofLines {s t : Survey} {number : Nat} {texts : List (List Char)}
    (hs : s.Sound) (hr : s.Recorded) (h : s.ofLines number texts = .ok t) : t.Recorded := by
  induction texts generalizing s number with
  | nil =>
      cases h
      exact hr
  | cons text rest ih =>
      unfold Survey.ofLines at h
      cases hextend : s.extend number text with
      | error e =>
          rw [hextend] at h
          cases h
      | ok next =>
          rw [hextend] at h
          exact ih (hs.extend hextend) (Recorded.extend hs hr hextend) h

def parsed (text : String) : List Line := (Source.lines text).filterMap Line.read?

theorem ofSource_eq_ok {text : String} {a : Assembly} (h : ofSource text = .ok a) :
    ∃ rows : List Row, rows.map Prod.fst = parsed text ∧
      (Source.lines text).map Line.read? = (parsed text).map some ∧
      (∀ row ∈ rows, row.1.bytes a.symbols = .ok row.2) ∧ a.image = content rows ∧
      extent (parsed text) ≤ sizeLimit ∧ a.symbols.Records (bindings 0 (parsed text)) := by
  obtain ⟨survey, hsurvey, h⟩ := Except.bind_eq_ok h
  obtain ⟨image, hwrite, h⟩ := Except.bind_eq_ok h
  cases h
  have hs := surveyed_start.ofLines hsurvey
  have hr := Survey.Recorded.ofLines Survey.sound_start records_empty hsurvey
  obtain ⟨rows, hrows, hbytes, himage⟩ := write_eq_ok hwrite
  have hlines : survey.lines.reverse = parsed text := hs.filterMap_read.symm
  refine ⟨rows, hrows.trans hlines, hlines ▸ hs.read, hbytes, himage, ?_, hlines ▸ hr⟩
  rw [← hlines, extent_reverse, ← hs.sound.address_eq]
  exact hs.sound.address_le

end Assembly

namespace Source

def Encodes (symbols : Symbols) (s : Statement) (i : Instruction) : Prop :=
  ∃ name os op, s = .operation name os ∧ Opcode.ofName? name = some op ∧
    instruction symbols op os = .ok i

theorem Encodes.branch {symbols : Symbols} {i : Instruction} {name label : String} {b : Branch}
    (h : Encodes symbols (.operation name [.label label]) i)
    (hname : Opcode.ofName? name = some (.branch b)) :
    ∃ place, symbols.address? label = some place ∧ i = .branch b (Int32.ofNat place) := by
  obtain ⟨_, _, op, hs, hop, hi⟩ := h
  cases hs
  cases hname.symm.trans hop
  obtain ⟨w, hw, hi⟩ := Except.bind_eq_ok hi
  cases hi
  obtain ⟨place, hplace, rfl⟩ := Operand.asWord_label hw
  exact ⟨place, hplace, rfl⟩

end Source

namespace Assembly

theorem exists_instructions {symbols : Symbols} {rows : List Row}
    (hbytes : ∀ row ∈ rows, row.1.bytes symbols = .ok row.2)
    (hops : ∀ row ∈ rows, ∀ name os, row.1.statement ≠ some (.directive name os)) :
    ∃ is, List.Forall₂ (Encodes symbols) ((rows.map Prod.fst).filterMap Line.statement) is ∧
      content rows = Instruction.encodeAll is := by
  induction rows with
  | nil => exact ⟨[], .nil, rfl⟩
  | cons row rows ih =>
      obtain ⟨is, hencodes, hcontent⟩ := ih (fun other h => hbytes other (List.mem_cons_of_mem row h))
        (fun other h => hops other (List.mem_cons_of_mem row h))
      have hrow := hbytes row List.mem_cons_self
      have hop := hops row List.mem_cons_self
      rw [List.map_cons, content_cons]
      unfold Line.bytes at hrow
      cases hs : row.1.statement with
      | none =>
          rw [hs] at hrow
          rw [List.filterMap_cons_none hs, ← Except.ok.inj hrow]
          exact ⟨is, hencodes, hcontent⟩
      | some statement =>
          rw [hs] at hrow hop
          rw [List.filterMap_cons_some hs]
          rcases Statement.bytes_eq_ok hrow with
            ⟨name, os, op, i, rfl, hname, hi, hi'⟩ | ⟨name, os, d, rfl, -, -⟩
          · refine ⟨i :: is, .cons ⟨name, os, op, rfl, hname, hi⟩ hencodes, ?_⟩
            rw [hi', hcontent]
            rfl
          · exact absurd rfl (hop name os)

end Assembly

namespace Listing

theorem items_encodeAll (is : List Instruction) :
    items (Instruction.encodeAll is) = is.map Item.instruction := by
  induction is with
  | nil => rw [Instruction.encodeAll, List.flatMap_nil, items, List.map_nil]
  | cons i is ih =>
      have hencode : Instruction.encodeAll (i :: is) = i.encode ++ Instruction.encodeAll is := rfl
      have hdecode := Instruction.decode_encode_append i (Instruction.encodeAll is)
      have hdrop : (i.encode ++ Instruction.encodeAll is).drop i.width = Instruction.encodeAll is := by
        rw [← Instruction.length_encode]
        exact List.drop_left
      rw [hencode]
      cases hbytes : i.encode ++ Instruction.encodeAll is with
      | nil => exact absurd (List.append_eq_nil_iff.mp hbytes).1 (Instruction.encode_ne_nil i)
      | cons b rest =>
          rw [hbytes] at hdecode hdrop
          have hitem : item b rest = .instruction i := by
            rw [item, hdecode]
          rw [items, hitem, Item.width, hdrop, ih, List.map_cons]

theorem getElem?_rowsFrom (symbols : Option Symbols) (address : Nat) (is : List Item) (k : Nat) :
    (rowsFrom symbols address is)[k]? =
      is[k]?.map (row symbols (address + ((is.take k).map Item.width).sum)) := by
  induction is generalizing address k with
  | nil => rfl
  | cons i is ih =>
      cases k with
      | zero => rfl
      | succ k =>
          rw [rowsFrom, List.getElem?_cons_succ, ih, List.getElem?_cons_succ, List.take_succ_cons,
            List.map_cons, List.sum_cons, Nat.add_assoc]

theorem getElem?_ofImage_encodeAll (symbols : Option Symbols) (is : List Instruction) (k : Nat) :
    (ofImage symbols (Instruction.encodeAll is))[k]? =
      is[k]?.map (fun i => row symbols ((is.take k).map Instruction.width).sum (.instruction i)) := by
  rw [ofImage, items_encodeAll, getElem?_rowsFrom, List.getElem?_map, Option.map_map, Nat.zero_add,
    ← List.map_take, List.map_map]
  rfl

theorem target_row_branch (symbols : Symbols) (address : Nat) (b : Branch) {place : Nat}
    (h : place ≤ Assembly.sizeLimit) :
    (row (some symbols) address (.instruction (.branch b (Int32.ofNat place)))).target =
      symbols.name? place := by
  have htoInt : (Int32.ofNat place).toInt = place := by
    apply Int32.toInt_ofNat_of_lt
    simp only [Assembly.sizeLimit] at h
    omega
  simp [row, branchAddress?, htoInt]

end Listing

namespace Assembly

structure Shows (a : Assembly) (lines : List Line) (is : List Instruction)
    (listing : List RegisterMachine.Row) : Prop where
  item : listing.map Row.item = is.map Item.instruction
  address : ∀ (k : Nat) (row : RegisterMachine.Row), listing[k]? = some row →
    row.address = ((is.take k).map Instruction.width).sum
  label : ∀ row ∈ listing, row.label = (bindings 0 lines).first? row.address
  target : ∀ (k : Nat) (row : RegisterMachine.Row) name b label, listing[k]? = some row →
    (lines.filterMap Line.statement)[k]? = some (.operation name [.label label]) →
    Opcode.ofName? name = some (.branch b) →
    ∃ place target, (bindings 0 lines).lookup label = some place ∧
      row.item = .instruction (.branch b (Int32.ofNat place)) ∧ row.target = some target ∧
      (bindings 0 lines).first? place = some target ∧
      a.symbols.address? target = a.symbols.address? label

theorem lists_operations {text : String} {a : Assembly} (h : ofSource text = .ok a)
    (hops : ∀ line ∈ parsed text, ∀ name os, line.statement ≠ some (.directive name os)) :
    (Source.lines text).map Line.read? = (parsed text).map some ∧
    ∃ is, List.Forall₂ (Encodes a.symbols) ((parsed text).filterMap Line.statement) is ∧
      a.Shows (parsed text) is (Listing.ofImage (some a.symbols) a.image) := by
  obtain ⟨rows, hlines, hread, hbytes, himage, hle, hrecords⟩ := ofSource_eq_ok h
  obtain ⟨is, hencodes, hcontent⟩ := exists_instructions hbytes fun row hrow =>
    hops row.1 (hlines ▸ List.mem_map_of_mem hrow)
  rw [hlines] at hencodes
  rw [himage, hcontent]
  have hrow : ∀ k row, (Listing.ofImage (some a.symbols) (Instruction.encodeAll is))[k]? = some row →
      ∃ i, is[k]? = some i ∧ row = Listing.row (some a.symbols)
        ((is.take k).map Instruction.width).sum (.instruction i) := by
    intro k row hk
    rw [Listing.getElem?_ofImage_encodeAll] at hk
    obtain ⟨i, hi, rfl⟩ := Option.map_eq_some_iff.mp hk
    exact ⟨i, hi, rfl⟩
  refine ⟨hread, is, hencodes, ⟨?_, ?_, ?_, ?_⟩⟩
  · rw [Listing.ofImage, Listing.map_item_rowsFrom, Listing.items_encodeAll]
  · intro k row hk
    obtain ⟨i, -, rfl⟩ := hrow k row hk
    rfl
  · intro row hmem
    obtain ⟨k, hk⟩ := List.mem_iff_getElem?.mp hmem
    obtain ⟨i, -, rfl⟩ := hrow k row hk
    exact hrecords.name?_eq _
  · intro k row name b label hk hstatement hname
    obtain ⟨i, hi, rfl⟩ := hrow k row hk
    have hencoded : Encodes a.symbols (.operation name [.label label]) i := by
      obtain ⟨hs, hs'⟩ := List.getElem?_eq_some_iff.mp hstatement
      obtain ⟨hi, hi'⟩ := List.getElem?_eq_some_iff.mp hi
      rw [← hs', ← hi']
      exact hencodes.get hs hi
    obtain ⟨place, hplace, rfl⟩ := hencoded.branch hname
    rw [hrecords.address?_eq] at hplace
    obtain ⟨target, hfirst, htarget⟩ := Symbols.Bindings.lookup_first? hrecords.nodup hplace
    have hwithin : place ≤ sizeLimit :=
      Nat.le_trans (le_of_mem_bindings (Symbols.Bindings.mem_of_lookup hplace)) (by omega)
    refine ⟨place, target, hplace, rfl, ?_, hfirst, ?_⟩
    · rw [Listing.target_row_branch a.symbols _ b hwithin, hrecords.name?_eq, hfirst]
    · rw [hrecords.address?_eq, hrecords.address?_eq, htarget, hplace]

def aliases : Assembly :=
  ⟨[0x02, 0x50, 0, 0, 0, 0, 0x51, 11, 0, 0, 0],
    ⟨[("end", 11), ("a", 0)], [("fin", 11), ("b", 0)]⟩⟩

theorem lists_operations_aliases :
    ofSource "a:\nb: NOP\nJMP b\nJE fin\nend:\nfin:" = .ok aliases ∧
    (∀ line ∈ parsed "a:\nb: NOP\nJMP b\nJE fin\nend:\nfin:", ∀ name os,
      line.statement ≠ some (.directive name os)) ∧
    ∃ is, List.Forall₂ (Encodes aliases.symbols) [.operation "NOP" [],
        .operation "JMP" [.label "b"], .operation "JE" [.label "fin"]] is ∧
      aliases.Shows (parsed "a:\nb: NOP\nJMP b\nJE fin\nend:\nfin:") is
        (Listing.ofImage (some aliases.symbols) aliases.image) := by
  have hsource : ofSource "a:\nb: NOP\nJMP b\nJE fin\nend:\nfin:" = .ok aliases :=
    Except.eq_ok_of_toOption (by decide +kernel)
  have hparsed : parsed "a:\nb: NOP\nJMP b\nJE fin\nend:\nfin:" =
      [⟨some "a", none⟩, ⟨some "b", some (.operation "NOP" [])⟩,
        ⟨none, some (.operation "JMP" [.label "b"])⟩,
        ⟨none, some (.operation "JE" [.label "fin"])⟩, ⟨some "end", none⟩, ⟨some "fin", none⟩] := by
    decide +kernel
  have hops : ∀ line ∈ parsed "a:\nb: NOP\nJMP b\nJE fin\nend:\nfin:", ∀ name os,
      line.statement ≠ some (.directive name os) := by
    simp [hparsed]
  obtain ⟨-, is, hencodes, hshows⟩ := lists_operations hsource hops
  rw [hparsed] at hencodes
  exact ⟨hsource, hops, is, hencodes, hshows⟩

end Assembly

end RegisterMachine
