import Mathlib.Data.Finset.Card
import Mathlib.Data.Finset.Dedup
import RegisterMachine.Proofs.Naming

namespace RegisterMachine

namespace Symbols

variable {s t : Symbols} {bindings inserts : Bindings} {name : String} {address : Nat}

def insertAll (s : Symbols) : Bindings → Symbols
  | [] => s
  | (name, address) :: rest => match s.insert name address with
    | .ok t => t.insertAll rest
    | .error _ => s.insertAll rest

def taken (s : Symbols) : Bindings → Bindings
  | [] => []
  | (name, address) :: rest => match s.insert name address with
    | .ok t => (name, address) :: t.taken rest
    | .error _ => s.taken rest

theorem taken_ok (h : s.insert name address = .ok t) (rest : Bindings) :
    s.taken ((name, address) :: rest) = (name, address) :: t.taken rest := by
  rw [taken, h]

theorem taken_error {bound : Nat} (h : s.insert name address = .error bound) (rest : Bindings) :
    s.taken ((name, address) :: rest) = s.taken rest := by
  rw [taken, h]

theorem Records.insertAll (hs : s.Records bindings) (inserts : Bindings) :
    (s.insertAll inserts).Records (bindings ++ s.taken inserts) := by
  fun_induction Symbols.insertAll s inserts generalizing bindings with
  | case1 s =>
      rw [taken, List.append_nil]
      exact hs
  | case2 s name address rest t h ih =>
      rw [taken_ok h, List.append_cons]
      exact ih (hs.insert h)
  | case3 s name address rest bound h ih =>
      rw [taken_error h]
      exact ih hs

theorem taken_sublist (s : Symbols) (inserts : Bindings) : (s.taken inserts).Sublist inserts := by
  fun_induction taken s inserts with
  | case1 => exact .slnil
  | case2 s name address rest t h ih => exact ih.cons_cons _
  | case3 s name address rest bound h ih => exact ih.cons _

theorem Records.lookup_taken (hs : s.Records bindings) (inserts : Bindings) (name : String) :
    (bindings ++ s.taken inserts).lookup name = (bindings ++ inserts).lookup name := by
  fun_induction taken s inserts generalizing bindings with
  | case1 => rfl
  | case2 s other address rest t h ih => rw [List.append_cons, ih (hs.insert h), ← List.append_cons]
  | case3 s other address rest bound h ih =>
      have hbound : bindings.lookup other = some bound := by
        rw [← hs.address?_eq]
        exact (s.insert_eq_error_iff other address bound).mp h
      rw [ih hs, List.lookup_append, List.lookup_append, List.lookup_cons]
      by_cases hname : name = other
      · rw [hname, hbound]
        rfl
      · rw [beq_false_of_ne hname]

theorem size_insertAll (s : Symbols) (inserts : Bindings) :
    (s.insertAll inserts).size = s.size + (s.taken inserts).length := by
  fun_induction insertAll s inserts with
  | case1 => rfl
  | case2 s name address rest t h ih =>
      rw [ih, taken_ok h, size_insert h, List.length_cons]
      omega
  | case3 s name address rest bound h ih => rw [ih, taken_error h]

theorem mem_names_iff : name ∈ bindings.map Prod.fst ↔ ∃ address, bindings.lookup name = some address := by
  constructor
  · intro h
    obtain ⟨binding, hbinding, rfl⟩ := List.mem_map.mp h
    cases hlookup : bindings.lookup binding.1 with
    | none => exact absurd (List.lookup_eq_none_iff.mp hlookup binding hbinding) (by simp)
    | some address => exact ⟨address, rfl⟩
  · rintro ⟨address, h⟩
    exact List.mem_map.mpr ⟨_, Bindings.mem_of_lookup h, rfl⟩

structure Linked (s : Symbols) : Prop where
  names : (s.labels.map Prod.fst).Nodup
  addresses : (s.labels.map Prod.snd).Nodup
  disjoint : (s.labels.map Prod.fst).Disjoint (s.aliases.map Prod.fst)
  shown : ∀ entry ∈ s.aliases, entry.2 ∈ s.labels.map Prod.snd

theorem linked_empty : empty.Linked :=
  ⟨List.nodup_nil, List.nodup_nil, List.disjoint_nil_left _, fun _ h => absurd h List.not_mem_nil⟩

theorem name?_eq_none_iff : s.name? address = none ↔ address ∉ s.labels.map Prod.snd := by
  rw [name?, Option.map_eq_none_iff, List.find?_eq_none, List.mem_map]
  simp only [beq_iff_eq, not_exists, not_and]

theorem Linked.insert (hs : s.Linked) (h : s.insert name address = .ok t) : t.Linked := by
  unfold Symbols.insert at h
  cases haddress : s.address? name with
  | some bound => simp [haddress] at h
  | none =>
      obtain ⟨hlabels, haliases⟩ := Option.or_eq_none_iff.mp haddress
      have hlabel : name ∉ s.labels.map Prod.fst := by
        rw [mem_names_iff, hlabels]
        simp
      have halias : name ∉ s.aliases.map Prod.fst := by
        rw [mem_names_iff, haliases]
        simp
      cases hname : s.name? address with
      | none =>
          simp only [haddress, hname, Except.ok.injEq] at h
          subst h
          refine ⟨List.nodup_cons.mpr ⟨hlabel, hs.names⟩,
            List.nodup_cons.mpr ⟨name?_eq_none_iff.mp hname, hs.addresses⟩,
            List.disjoint_cons_left.mpr ⟨halias, hs.disjoint⟩, fun entry hentry => ?_⟩
          exact List.mem_cons_of_mem _ (hs.shown entry hentry)
      | some first =>
          simp only [haddress, hname, Except.ok.injEq] at h
          subst h
          refine ⟨hs.names, hs.addresses, List.disjoint_cons_right.mpr ⟨hlabel, hs.disjoint⟩, ?_⟩
          intro entry hentry
          rcases List.mem_cons.mp hentry with rfl | hentry
          · by_contra hshown
            have hnone : s.name? address = none := name?_eq_none_iff.mpr hshown
            rw [hname] at hnone
            cases hnone
          · exact hs.shown entry hentry

theorem Linked.insertAll (hs : s.Linked) (inserts : Bindings) : (s.insertAll inserts).Linked := by
  fun_induction Symbols.insertAll s inserts with
  | case1 => exact hs
  | case2 s name address rest t h ih => exact ih (hs.insert h)
  | case3 s name address rest bound h ih => exact ih hs

end Symbols

structure TwoWay (β : Type) where
  empty : β
  address? : β → String → Option Nat
  name? : β → Nat → Option String
  insertNew : β → String → Nat → Option β
  size : β → Nat

structure TwoWay.Lawful {β : Type} (map : TwoWay β) : Prop where
  address?_empty : ∀ name, map.address? map.empty name = none
  name?_empty : ∀ address, map.name? map.empty address = none
  size_empty : map.size map.empty = 0
  insertNew_eq_none_iff : ∀ p name address, map.insertNew p name address = none ↔
    ¬ (map.address? p name = none ∧ map.name? p address = none)
  address?_insertNew : ∀ {p q name address}, map.insertNew p name address = some q →
    ∀ other, map.address? q other = if other = name then some address else map.address? p other
  name?_insertNew : ∀ {p q name address}, map.insertNew p name address = some q →
    ∀ other, map.name? q other = if other = address then some name else map.name? p other
  size_insertNew : ∀ {p q name address}, map.insertNew p name address = some q →
    map.size q = map.size p + 1

structure Table (β : Type) where
  shown : β
  aliases : Symbols.Bindings

namespace Table

variable {β : Type} (map : TwoWay β)

def address? (t : Table β) (name : String) : Option Nat :=
  (map.address? t.shown name).or (t.aliases.lookup name)

def insert (t : Table β) (name : String) (address : Nat) : Except Nat (Table β) :=
  match t.address? map name with
  | some bound => .error bound
  | none => match map.insertNew t.shown name address with
    | some shown => .ok { t with shown := shown }
    | none => .ok { t with aliases := (name, address) :: t.aliases }

def insertAll (t : Table β) : Symbols.Bindings → Table β
  | [] => t
  | (name, address) :: rest => match t.insert map name address with
    | .ok u => u.insertAll rest
    | .error _ => t.insertAll rest

def size (t : Table β) : Nat := map.size t.shown + t.aliases.length

structure Mirrors (t : Table β) (s : Symbols) : Prop where
  shown : ∀ name, map.address? t.shown name = s.labels.lookup name
  name?_eq : ∀ address, map.name? t.shown address = s.name? address
  aliases : t.aliases = s.aliases
  size_shown : map.size t.shown = s.labels.length

variable {map} {t : Table β} {s : Symbols} {name : String} {address : Nat}

theorem Mirrors.address?_eq (h : t.Mirrors map s) (name : String) :
    t.address? map name = s.address? name := by
  rw [address?, h.shown, h.aliases, Symbols.address?]

theorem Mirrors.size_eq (h : t.Mirrors map s) : t.size map = s.size := by
  rw [size, h.size_shown, h.aliases, Symbols.size]

theorem mirrors_empty (hmap : map.Lawful) : Mirrors map ⟨map.empty, []⟩ Symbols.empty :=
  ⟨hmap.address?_empty, hmap.name?_empty, rfl, hmap.size_empty⟩

theorem Mirrors.insert (hmap : map.Lawful) (h : t.Mirrors map s) (name : String) (address : Nat) :
    (∃ bound, t.insert map name address = .error bound ∧ s.insert name address = .error bound) ∨
    ∃ t' s', t.insert map name address = .ok t' ∧ s.insert name address = .ok s' ∧
      t'.Mirrors map s' := by
  unfold Table.insert Symbols.insert
  rw [h.address?_eq]
  cases haddress : s.address? name with
  | some bound => exact .inl ⟨bound, rfl, rfl⟩
  | none =>
      have hlabels : s.labels.lookup name = none := (Option.or_eq_none_iff.mp haddress).1
      refine .inr ?_
      cases hname : s.name? address with
      | none =>
          obtain ⟨shown, hshown⟩ : ∃ shown, map.insertNew t.shown name address = some shown := by
            refine Option.ne_none_iff_exists'.mp fun hnone => ?_
            refine (hmap.insertNew_eq_none_iff _ _ _).mp hnone ⟨?_, ?_⟩
            · rw [h.shown, hlabels]
            · rw [h.name?_eq, hname]
          simp only [hshown]
          refine ⟨_, _, rfl, rfl, fun other => ?_, fun other => ?_, h.aliases, ?_⟩
          · rw [hmap.address?_insertNew hshown, h.shown, List.lookup_cons]
            by_cases hother : other = name
            · simp [hother]
            · rw [if_neg hother, beq_false_of_ne hother]
          · rw [hmap.name?_insertNew hshown, h.name?_eq]
            by_cases hother : address = other
            · simp [Symbols.name?, hother]
            · simp [Symbols.name?, hother, Ne.symm hother]
          · rw [hmap.size_insertNew hshown, h.size_shown, List.length_cons]
      | some first =>
          have hshown : map.insertNew t.shown name address = none := by
            rw [hmap.insertNew_eq_none_iff, h.name?_eq, hname]
            simp
          simp only [hshown]
          exact ⟨_, _, rfl, rfl, h.shown, h.name?_eq, by rw [h.aliases], h.size_shown⟩

theorem Mirrors.insertAll (hmap : map.Lawful) (h : t.Mirrors map s) (inserts : Symbols.Bindings) :
    (t.insertAll map inserts).Mirrors map (s.insertAll inserts) := by
  induction inserts generalizing t s with
  | nil => exact h
  | cons entry rest ih =>
      obtain ⟨name, address⟩ := entry
      rcases h.insert hmap name address with ⟨bound, ht, hs⟩ | ⟨t', s', ht, hs, h'⟩
      · simp only [Table.insertAll, Symbols.insertAll, ht, hs]
        exact ih h
      · simp only [Table.insertAll, Symbols.insertAll, ht, hs]
        exact ih h'

theorem Mirrors.insert_eq_error_iff (hmap : map.Lawful) (h : t.Mirrors map s) (name : String)
    (address bound : Nat) :
    t.insert map name address = .error bound ↔ s.insert name address = .error bound := by
  rcases h.insert hmap name address with ⟨bound, ht, hs⟩ | ⟨t', s', ht, hs, -⟩
  · rw [ht, hs, Except.error.injEq, Except.error.injEq]
  · simp only [ht, hs, reduceCtorEq]

end Table

namespace Symbols

-- Names are inserted once each, so that they can be counted.
theorem Records.length_eq {s : Symbols} {bindings inserts : Bindings} (hs : s.Records bindings)
    (h : ∀ name, bindings.lookup name = inserts.lookup name) :
    bindings.length = (inserts.map Prod.fst).toFinset.card := by
  have hnames : (bindings.map Prod.fst).toFinset = (inserts.map Prod.fst).toFinset := by
    ext name
    rw [List.mem_toFinset, List.mem_toFinset, mem_names_iff, mem_names_iff, h]
  rw [← hnames, List.toFinset_card_of_nodup hs.nodup, List.length_map]

theorem Records.address?_of_name? {s : Symbols} {bindings : Bindings} (hs : s.Records bindings)
    {name : String} {address : Nat} (h : s.name? address = some name) :
    s.address? name = some address := by
  rw [hs.name?_eq] at h
  obtain ⟨binding, hfind, rfl⟩ := Option.map_eq_some_iff.mp h
  have haddress : binding.2 = address := by
    simpa using List.find?_some hfind
  rw [hs.address?_eq, ← haddress]
  exact Bindings.lookup_of_mem hs.nodup (List.mem_of_find?_eq_some hfind)

theorem Records.name?_eq_none_iff {s : Symbols} {bindings : Bindings} (hs : s.Records bindings)
    (address : Nat) : s.name? address = none ↔ ∀ name, s.address? name ≠ some address := by
  constructor
  · intro hnone name hname
    rw [hs.address?_eq] at hname
    obtain ⟨shown, hshown, -⟩ := Bindings.lookup_first? hs.nodup hname
    rw [hs.name?_eq, hshown] at hnone
    cases hnone
  · intro h
    cases hshown : s.name? address with
    | none => rfl
    | some name => exact absurd (hs.address?_of_name? hshown) (h name)

theorem keeps_first_bindings {β : Type} {map : TwoWay β} (hmap : map.Lawful) (inserts : Bindings) :
    let s := empty.insertAll inserts
    let done := empty.taken inserts
    let table := Table.insertAll map ⟨map.empty, []⟩ inserts
    (done.Sublist inserts ∧ (done.map Prod.fst).Nodup ∧
      ∀ name, done.lookup name = inserts.lookup name) ∧
    (∀ name address bound, s.insert name address = .error bound ↔ done.lookup name = some bound) ∧
    (∀ name, s.address? name = inserts.lookup name) ∧
    (∀ address, s.name? address = done.first? address) ∧
    (∀ address, s.name? address = none ↔ ∀ name, s.address? name ≠ some address) ∧
    (∀ address name, s.name? address = some name → s.address? name = some address) ∧
    s.size = (inserts.map Prod.fst).toFinset.card ∧
    s.Linked ∧
    table.Mirrors map s ∧ (∀ name, table.address? map name = s.address? name) ∧
    (∀ name address bound, table.insert map name address = .error bound ↔
      s.insert name address = .error bound) ∧
    table.size map = s.size := by
  intro s done table
  have hrecords : s.Records done := records_empty.insertAll inserts
  have hlookup : ∀ name, done.lookup name = inserts.lookup name := records_empty.lookup_taken inserts
  have hmirrors : table.Mirrors map s := (Table.mirrors_empty hmap).insertAll hmap inserts
  have hsize : s.size = done.length := (size_insertAll empty inserts).trans (Nat.zero_add _)
  refine ⟨⟨taken_sublist empty inserts, hrecords.nodup, hlookup⟩, fun name address bound => ?_,
    fun name => (hrecords.address?_eq name).trans (hlookup name), hrecords.name?_eq,
    hrecords.name?_eq_none_iff, fun _ _ => hrecords.address?_of_name?,
    hsize.trans (hrecords.length_eq hlookup), linked_empty.insertAll inserts, hmirrors,
    hmirrors.address?_eq, hmirrors.insert_eq_error_iff hmap, hmirrors.size_eq⟩
  rw [s.insert_eq_error_iff, hrecords.address?_eq]

def pairs : TwoWay Bindings where
  empty := []
  address? p name := p.lookup name
  name? p address := p.first? address
  insertNew p name address :=
    if p.lookup name = none ∧ p.first? address = none then some (p ++ [(name, address)]) else none
  size p := p.length

theorem lawful_pairs : pairs.Lawful where
  address?_empty _ := rfl
  name?_empty _ := rfl
  size_empty := rfl
  insertNew_eq_none_iff p name address := by
    simp only [pairs, ite_eq_right_iff, reduceCtorEq, imp_false]
  address?_insertNew {p q name address} h other := by
    simp only [pairs, Option.ite_none_right_eq_some, Option.some.injEq] at h ⊢
    obtain ⟨⟨hname, -⟩, rfl⟩ := h
    rw [List.lookup_append]
    by_cases hother : other = name
    · simp [hother, hname]
    · simp [List.lookup_cons, hother, beq_false_of_ne hother]
  name?_insertNew {p q name address} h other := by
    simp only [pairs, Option.ite_none_right_eq_some, Option.some.injEq] at h ⊢
    obtain ⟨⟨-, hname⟩, rfl⟩ := h
    rw [Bindings.first?_append]
    by_cases hother : other = address
    · rw [if_pos hother, hother, hname]
      simp [Bindings.first?]
    · simp [Bindings.first?, hother, Ne.symm hother]
  size_insertNew {p q name address} h := by
    simp only [pairs, Option.ite_none_right_eq_some, Option.some.injEq] at h ⊢
    obtain ⟨-, rfl⟩ := h
    rw [List.length_append, List.length_singleton]

theorem keeps_first_bindings_contested :
    pairs.Lawful ∧
    (empty.insertAll [("start", 4), ("entry", 4), ("entry", 9), ("end", 11)]).address? "entry" = some 4 ∧
    (empty.insertAll [("start", 4), ("entry", 4), ("entry", 9), ("end", 11)]).name? 4 = some "start" ∧
    (empty.insertAll [("start", 4), ("entry", 4), ("entry", 9), ("end", 11)]).name? 9 = none ∧
    (empty.insertAll [("start", 4), ("entry", 4), ("entry", 9), ("end", 11)]).insert "end" 0 =
      .error 11 ∧
    (Table.insertAll pairs ⟨[], []⟩ [("start", 4), ("entry", 4), ("entry", 9), ("end", 11)]).size
      pairs = 3 := by
  obtain ⟨-, hrefused, haddress, hname, -, -, hsize, -, -, -, -, htable⟩ :=
    keeps_first_bindings lawful_pairs [("start", 4), ("entry", 4), ("entry", 9), ("end", 11)]
  exact ⟨lawful_pairs, (haddress _).trans (by decide), (hname _).trans (by decide),
    (hname _).trans (by decide), (hrefused _ _ _).mpr (by decide),
    htable.trans (hsize.trans (by decide))⟩

end Symbols

end RegisterMachine
