import RegisterMachine.Proofs.History

namespace RegisterMachine

namespace Handle

def slot? (h : Handle) : Option Nat := (split? h).map Prod.fst

theorem split?_lt {h : Handle} {index : Nat} {generation : UInt32}
    (hsplit : split? h = some (index, generation)) : index + 1 < 4294967296 := by
  unfold split? at hsplit
  dsimp only at hsplit
  split at hsplit
  · cases hsplit
  · cases hsplit
    omega

theorem make_eq_word {h : Handle} {index : Nat} {generation : UInt32}
    (hsplit : split? h = some (index, generation)) : make index generation = h.word := by
  unfold split? at hsplit
  dsimp only at hsplit
  split at hsplit
  · cases hsplit
  · cases hsplit
    simp only [make, word, UInt32.toNat_ofNat']
    omega

theorem slot?_make {index : Nat} (generation : UInt32) (h : index + 1 < 4294967296) :
    slot? (make index generation) = some index := by
  rw [slot?, split?_make generation h]
  rfl

theorem make_inj {i j : Nat} {g k : UInt32} (hi : i + 1 < 4294967296) (hj : j + 1 < 4294967296)
    (h : make i g = make j k) : i = j ∧ g = k := by
  have hsplit := split?_make g hi
  rw [h, split?_make k hj] at hsplit
  cases hsplit
  exact ⟨rfl, rfl⟩

end Handle

namespace Event

def isIssue : Event → Bool
  | .issued _ => true
  | .released _ => false

def isReleaseOf (slot : Nat) : Event → Bool
  | .issued _ => false
  | .released h => Handle.slot? h == some slot

end Event

def issues (log : List Event) : Nat := log.countP Event.isIssue

def releases (slot : Nat) (log : List Event) : Nat := log.countP (Event.isReleaseOf slot)

theorem releases_append (slot : Nat) (log log' : List Event) :
    releases slot (log ++ log') = releases slot log + releases slot log' := List.countP_append

theorem releases_issued_cons (slot : Nat) (h : Handle) (log : List Event) :
    releases slot (.issued h :: log) = releases slot log := List.countP_cons_of_neg Bool.false_ne_true

theorem releases_pos {slot : Nat} {generation : UInt32} {log : List Event}
    (h : slot + 1 < 4294967296) (hmem : .released (Handle.make slot generation) ∈ log) :
    0 < releases slot log := by
  refine List.countP_pos_iff.mpr ⟨_, hmem, ?_⟩
  rw [Event.isReleaseOf, Handle.slot?_make generation h]
  exact beq_self_eq_true _

theorem releases_released {slot : Nat} (generation : UInt32) (h : slot + 1 < 4294967296) (j : Nat) :
    releases j [.released (Handle.make slot generation)] = if j = slot then 1 else 0 := by
  have hslot := Handle.slot?_make generation h
  by_cases hj : j = slot
  · simp [releases, Event.isReleaseOf, hslot, hj]
  · simp [releases, Event.isReleaseOf, hslot, hj, Ne.symm hj]

theorem concat_eq_append_cons {log before after : List Event} {e e' : Event}
    (h : log ++ [e] = before ++ e' :: after) :
    (before = log ∧ e' = e ∧ after = []) ∨
      ∃ rest, after = rest ++ [e] ∧ log = before ++ e' :: rest := by
  rcases List.eq_nil_or_concat after with rfl | ⟨rest, last, rfl⟩
  · obtain ⟨hbefore, hlast⟩ := List.append_inj' h rfl
    cases hlast
    exact .inl ⟨hbefore.symm, rfl, rfl⟩
  · rw [List.concat_eq_append, ← List.cons_append, ← List.append_assoc] at h
    obtain ⟨hlog, hlast⟩ := List.append_inj' h rfl
    cases hlast
    exact .inr ⟨rest, List.concat_eq_append, hlog⟩

namespace Registry

theorem resolve?_eq_some_iff {r : Registry} {h : Handle} {number : Nat} :
    r.resolve? h = some number ↔ ∃ index generation,
      Handle.split? h = some (index, generation) ∧
        r.slots[index]? = some ⟨generation, some number⟩ := by
  unfold resolve?
  constructor
  · intro hresolve
    obtain ⟨⟨index, generation⟩, hsplit, hresolve⟩ := Option.bind_eq_some_iff.mp hresolve
    obtain ⟨⟨current, tenant⟩, hslot, hresolve⟩ := Option.bind_eq_some_iff.mp hresolve
    dsimp only at hresolve
    split at hresolve
    · rename_i heq
      rw [heq, hresolve] at hslot
      exact ⟨index, generation, hsplit, hslot⟩
    · cases hresolve
  · rintro ⟨index, generation, hsplit, hslot⟩
    simp [hsplit, hslot]

theorem resolve?_make_iff {r : Registry} {slot number : Nat} {generation : UInt32}
    (h : slot + 1 < 4294967296) : r.resolve? (Handle.make slot generation) = some number ↔
      r.slots[slot]? = some ⟨generation, some number⟩ := by
  have hsplit := Handle.split?_make generation h
  rw [resolve?_eq_some_iff]
  constructor
  · rintro ⟨index, other, hother, htenant⟩
    rw [hsplit] at hother
    cases hother
    exact htenant
  · exact fun htenant => ⟨slot, generation, hsplit, htenant⟩

structure Orderly (r : Registry) : Prop where
  free_nodup : r.free.Nodup
  mem_free_iff : ∀ index, index ∈ r.free ↔ ∃ generation, r.slots[index]? = some ⟨generation, none⟩

structure Lets (r : Registry) (index : Nat) (generation : UInt32) (s : Registry) : Prop where
  vacant : r.slots[index]? = some ⟨generation, none⟩ ∨ index = r.slots.size ∧ generation = 0
  slots : ∀ j, s.slots[j]? =
    if j = index then some ⟨generation, some r.instances.size⟩ else r.slots[j]?
  size_le : r.slots.size ≤ s.slots.size
  free_nodup : s.free.Nodup
  mem_free_iff : ∀ j, j ∈ s.free ↔ j ∈ r.free ∧ j ≠ index
  instances : s.instances.size = r.instances.size + 1

structure Frees (r : Registry) (index : Nat) (generation : UInt32) (s : Registry) : Prop where
  tenant : ∃ number, r.slots[index]? = some ⟨generation, some number⟩
  slots : ∀ j, s.slots[j]? = if j = index then some ⟨generation + 1, none⟩ else r.slots[j]?
  size_eq : s.slots.size = r.slots.size
  free : s.free = index :: r.free
  instances : s.instances = r.instances

theorem insert_of_nil {r : Registry} (h : r.free = []) (i : Instance) :
    r.insert i = (⟨r.slots.push ⟨0, some r.instances.size⟩, [], r.instances.push i⟩,
      Handle.make r.slots.size 0) := by
  simp only [insert, h]

theorem insert_of_cons {r : Registry} {index : Nat} {free : List Nat} {generation : UInt32}
    {tenant : Option Nat} (h : r.free = index :: free)
    (hslot : r.slots[index]? = some ⟨generation, tenant⟩) (i : Instance) :
    r.insert i = (⟨r.slots.setIfInBounds index ⟨generation, some r.instances.size⟩, free,
      r.instances.push i⟩, Handle.make index generation) := by
  simp only [insert, h, hslot, Option.map_some, Option.getD_some]

theorem getElem?_setIfInBounds_of_some {slots : Array Slot} {index : Nat} {slot : Slot}
    (h : slots[index]? = some slot) (other : Slot) (j : Nat) :
    (slots.setIfInBounds index other)[j]? = if j = index then some other else slots[j]? := by
  obtain ⟨hlt, -⟩ := Array.getElem?_eq_some_iff.mp h
  rw [Array.getElem?_setIfInBounds]
  by_cases hj : index = j
  · subst hj
    rw [if_pos rfl, if_pos hlt, if_pos rfl]
  · rw [if_neg hj, if_neg (Ne.symm hj)]

theorem Orderly.lets_insert {r : Registry} (hr : r.Orderly) (i : Instance) :
    ∃ index generation, (r.insert i).2 = Handle.make index generation ∧
      r.Lets index generation (r.insert i).1 := by
  cases hfree : r.free with
  | nil =>
      rw [insert_of_nil hfree]
      refine ⟨r.slots.size, 0, rfl, .inr ⟨rfl, rfl⟩, ?_, ?_, List.nodup_nil, ?_, ?_⟩
      · intro j
        exact Array.getElem?_push
      · simp
      · intro j
        simp [hfree]
      · exact Array.size_push _
  | cons index free =>
      obtain ⟨generation, hslot⟩ := (hr.mem_free_iff index).mp (hfree ▸ List.mem_cons_self)
      have hnodup := hr.free_nodup
      rw [hfree, List.nodup_cons] at hnodup
      rw [insert_of_cons hfree hslot]
      refine ⟨index, generation, rfl, .inl hslot, ?_, ?_, hnodup.2, ?_, ?_⟩
      · exact getElem?_setIfInBounds_of_some hslot _
      · simp
      · intro j
        rw [hfree, List.mem_cons]
        constructor
        · intro hj
          exact ⟨.inr hj, fun heq => hnodup.1 (heq ▸ hj)⟩
        · rintro ⟨rfl | hj, hne⟩
          · exact absurd rfl hne
          · exact hj
      · exact Array.size_push _

theorem frees_erase? {r s : Registry} {h : Handle} (he : r.erase? h = some s) :
    ∃ index generation, Handle.split? h = some (index, generation) ∧
      r.Frees index generation s := by
  obtain ⟨number, hresolve, he⟩ := Option.bind_eq_some_iff.mp he
  obtain ⟨index, generation, hsplit, hslot⟩ := resolve?_eq_some_iff.mp hresolve
  rw [hsplit] at he
  cases he
  refine ⟨index, generation, hsplit, ⟨number, hslot⟩, ?_, ?_, rfl, rfl⟩
  · exact getElem?_setIfInBounds_of_some hslot _
  · exact Array.size_setIfInBounds

theorem orderly_empty : empty.Orderly where
  free_nodup := List.nodup_nil
  mem_free_iff := by
    intro index
    simp [empty]

theorem Lets.orderly {r s : Registry} {index : Nat} {generation : UInt32} (hr : r.Orderly)
    (h : r.Lets index generation s) : s.Orderly where
  free_nodup := h.free_nodup
  mem_free_iff := by
    intro j
    rw [h.mem_free_iff, hr.mem_free_iff, h.slots]
    by_cases hj : j = index
    · simp [hj]
    · simp [hj]

theorem Frees.orderly {r s : Registry} {index : Nat} {generation : UInt32} (hr : r.Orderly)
    (h : r.Frees index generation s) : s.Orderly where
  free_nodup := by
    obtain ⟨number, hslot⟩ := h.tenant
    rw [h.free, List.nodup_cons]
    refine ⟨?_, hr.free_nodup⟩
    intro hmem
    obtain ⟨other, hvacant⟩ := (hr.mem_free_iff index).mp hmem
    rw [hslot] at hvacant
    cases hvacant
  mem_free_iff := by
    intro j
    rw [h.free, List.mem_cons, hr.mem_free_iff, h.slots]
    by_cases hj : j = index
    · simp [hj]
    · simp [hj]

theorem Moves.orderly {r s : Registry} {log : List Event} (h : r.Moves log s) (hr : r.Orderly) :
    s.Orderly := by
  induction h with
  | insert r i =>
      obtain ⟨index, generation, -, hlets⟩ := hr.lets_insert i
      exact hlets.orderly hr
  | erase he =>
      obtain ⟨index, generation, -, hfrees⟩ := frees_erase? he
      exact hfrees.orderly hr
  | update r number f => exact ⟨hr.free_nodup, hr.mem_free_iff⟩
  | refl r => exact hr
  | trans _ _ ih ih' => exact ih' (ih hr)

def Houses (log : List Event) (index : Nat) (generation : UInt32) (number : Nat) : Prop :=
  ∃ before after, log = before ++ .issued (Handle.make index generation) :: after ∧
    releases index after = 0 ∧ issues before = number

theorem houses_concat_iff {log : List Event} {e : Event} {index : Nat} {generation : UInt32}
    {number : Nat} : Houses (log ++ [e]) index generation number ↔
      (e = .issued (Handle.make index generation) ∧ issues log = number) ∨
        (Houses log index generation number ∧ e.isReleaseOf index = false) := by
  constructor
  · rintro ⟨before, after, hlog, hafter, hnumber⟩
    rcases concat_eq_append_cons hlog with ⟨rfl, he, -⟩ | ⟨rest, rfl, rfl⟩
    · exact .inl ⟨he.symm, hnumber⟩
    · rw [releases_append] at hafter
      refine .inr ⟨⟨before, rest, rfl, by omega, hnumber⟩, ?_⟩
      have hlast : releases index [e] = 0 := by omega
      simpa [releases] using hlast
  · rintro (⟨rfl, hnumber⟩ | ⟨⟨before, after, rfl, hafter, hnumber⟩, he⟩)
    · exact ⟨log, [], rfl, rfl, hnumber⟩
    · refine ⟨before, after ++ [e], by simp, ?_, hnumber⟩
      rw [releases_append, hafter]
      simp [releases, he]

structure Follows (r : Registry) (log : List Event) : Prop where
  generation_eq : ∀ index slot, r.slots[index]? = some slot →
    slot.generation = UInt32.ofNat (releases index log)
  unopened : ∀ index, r.slots.size ≤ index → releases index log = 0
  tenant_iff : ∀ index generation number, index + 1 < 4294967296 →
    (r.slots[index]? = some ⟨generation, some number⟩ ↔ Houses log index generation number)
  event_eq : ∀ before e after, log = before ++ e :: after → ∃ index, index < r.slots.size ∧
    (e = .issued (Handle.make index (UInt32.ofNat (releases index before))) ∨
      e = .released (Handle.make index (UInt32.ofNat (releases index before))))
  instances_eq : r.instances.size = issues log

variable {r s : Registry} {log : List Event} {index : Nat} {generation : UInt32}

theorem follows_empty : empty.Follows [] where
  generation_eq := by
    intro index slot h
    simp [empty] at h
  unopened := fun _ _ => rfl
  tenant_iff := by
    intro index generation number _
    constructor
    · intro h
      simp [empty] at h
    · rintro ⟨before, after, h, -, -⟩
      simp at h
  event_eq := by
    intro before e after h
    simp at h
  instances_eq := rfl

theorem Lets.generation_eq (h : r.Lets index generation s) (hr : r.Follows log) :
    generation = UInt32.ofNat (releases index log) := by
  rcases h.vacant with hslot | ⟨rfl, rfl⟩
  · exact hr.generation_eq index _ hslot
  · rw [hr.unopened _ (Nat.le_refl _)]
    rfl

theorem Lets.lt_size (h : r.Lets index generation s) : index < s.slots.size := by
  have hslot := h.slots index
  rw [if_pos rfl] at hslot
  exact (Array.getElem?_eq_some_iff.mp hslot).1

theorem Lets.follows (h : r.Lets index generation s) (hsize : s.slots.size < 4294967296)
    (hr : r.Follows log) : s.Follows (log ++ [.issued (Handle.make index generation)]) where
  generation_eq := by
    intro j slot hslot
    rw [releases_append, releases_issued_cons]
    rw [h.slots] at hslot
    split at hslot
    · rename_i hj
      cases hslot
      subst hj
      exact h.generation_eq hr
    · exact hr.generation_eq j slot hslot
  unopened := by
    intro j hj
    rw [releases_append, releases_issued_cons]
    exact hr.unopened j (Nat.le_trans h.size_le hj)
  tenant_iff := by
    intro j generation' number hj
    rw [houses_concat_iff, ← hr.tenant_iff j generation' number hj, h.slots]
    by_cases hindex : j = index
    · subst hindex
      have hvacant : r.slots[j]? ≠ some ⟨generation', some number⟩ := by
        rcases h.vacant with hslot | ⟨rfl, -⟩
        · rw [hslot]
          simp
        · simp
      rw [if_pos rfl, hr.instances_eq]
      constructor
      · intro hslot
        cases hslot
        exact .inl ⟨rfl, rfl⟩
      · rintro (⟨hmake, hnumber⟩ | ⟨hslot, -⟩)
        · obtain ⟨-, rfl⟩ := Handle.make_inj hj hj (Event.issued.inj hmake)
          rw [hnumber]
        · exact absurd hslot hvacant
    · rw [if_neg hindex]
      constructor
      · exact fun hslot => .inr ⟨hslot, rfl⟩
      · rintro (⟨hmake, -⟩ | ⟨hslot, -⟩)
        · have hlt := h.lt_size
          exact absurd (Handle.make_inj (by omega) hj (Event.issued.inj hmake)).1.symm hindex
        · exact hslot
  event_eq := by
    intro before e after hlog
    rcases concat_eq_append_cons hlog with ⟨rfl, rfl, -⟩ | ⟨rest, -, rfl⟩
    · exact ⟨index, h.lt_size, .inl (by rw [← h.generation_eq hr])⟩
    · obtain ⟨j, hj, he⟩ := hr.event_eq before e rest rfl
      exact ⟨j, Nat.lt_of_lt_of_le hj h.size_le, he⟩
  instances_eq := by
    rw [h.instances, hr.instances_eq]
    simp [issues, Event.isIssue]

theorem Frees.lt_size (h : r.Frees index generation s) : index < r.slots.size := by
  obtain ⟨number, hslot⟩ := h.tenant
  exact (Array.getElem?_eq_some_iff.mp hslot).1

theorem Frees.follows (h : r.Frees index generation s) (hsize : s.slots.size < 4294967296)
    (hr : r.Follows log) : s.Follows (log ++ [.released (Handle.make index generation)]) := by
  have hlt := h.lt_size
  rw [h.size_eq] at hsize
  obtain ⟨number, htenant⟩ := h.tenant
  have hgeneration := hr.generation_eq index _ htenant
  have hslot := Handle.slot?_make generation (by omega : index + 1 < 4294967296)
  have hcount := releases_released generation (by omega : index + 1 < 4294967296)
  refine ⟨?_, ?_, ?_, ?_, ?_⟩
  · intro j slot hj
    rw [releases_append, hcount]
    rw [h.slots] at hj
    split at hj
    · rename_i hindex
      cases hj
      rw [if_pos hindex, UInt32.ofNat_add, hindex, ← hgeneration]
      rfl
    · rename_i hindex
      rw [if_neg hindex, Nat.add_zero]
      exact hr.generation_eq j slot hj
  · intro j hj
    rw [h.size_eq] at hj
    rw [releases_append, hcount, if_neg (by omega), hr.unopened j hj]
  · intro j generation' number' hj
    rw [houses_concat_iff, ← hr.tenant_iff j generation' number' hj, h.slots]
    by_cases hindex : j = index
    · simp [Event.isReleaseOf, hslot, hindex]
    · simp [Event.isReleaseOf, hslot, hindex, Ne.symm hindex]
  · intro before e after hlog
    rw [h.size_eq]
    rcases concat_eq_append_cons hlog with ⟨rfl, rfl, -⟩ | ⟨rest, -, rfl⟩
    · exact ⟨index, hlt, .inr (by rw [← hgeneration])⟩
    · exact hr.event_eq before e rest rfl
  · rw [h.instances, hr.instances_eq]
    simp [issues, Event.isIssue]

theorem Moves.size_le (h : r.Moves log s) (hr : r.Orderly) : r.slots.size ≤ s.slots.size := by
  induction h with
  | insert r i =>
      obtain ⟨index, generation, -, hlets⟩ := hr.lets_insert i
      exact hlets.size_le
  | erase he =>
      obtain ⟨index, generation, -, hfrees⟩ := frees_erase? he
      exact Nat.le_of_eq hfrees.size_eq.symm
  | update r number f => exact Nat.le_refl _
  | refl r => exact Nat.le_refl _
  | trans h _ ih ih' => exact Nat.le_trans (ih hr) (ih' (h.orderly hr))

theorem Moves.follows {before : List Event} (h : r.Moves log s) (ho : r.Orderly)
    (hsize : s.slots.size < 4294967296) (hr : r.Follows before) : s.Follows (before ++ log) := by
  induction h generalizing before with
  | insert r i =>
      obtain ⟨index, generation, hhandle, hlets⟩ := ho.lets_insert i
      rw [hhandle]
      exact hlets.follows hsize hr
  | erase he =>
      obtain ⟨index, generation, hsplit, hfrees⟩ := frees_erase? he
      rw [← Handle.make_eq_word hsplit]
      exact hfrees.follows hsize hr
  | update r number f =>
      rw [List.append_nil]
      exact ⟨hr.generation_eq, hr.unopened, hr.tenant_iff, hr.event_eq,
        Array.size_modify.trans hr.instances_eq⟩
  | refl r =>
      rw [List.append_nil]
      exact hr
  | trans h h' ih ih' =>
      have hmid := h.orderly ho
      rw [← List.append_assoc]
      exact ih' hmid hsize (ih ho (Nat.lt_of_le_of_lt (h'.size_le hmid) hsize) hr)

-- Between two releases of a slot it has one tenant, so only the handle of that tenant releases it.
theorem Follows.released_of_releases (hr : r.Follows log) {before after : List Event}
    (hlog : log = before ++ after) (hsize : r.slots.size < 4294967296)
    (hafter : releases index after ≠ 0) :
    .released (Handle.make index (UInt32.ofNat (releases index before))) ∈ after := by
  have hpos : 0 < after.countP (Event.isReleaseOf index) := Nat.pos_of_ne_zero hafter
  obtain ⟨e, hmem, he⟩ := List.countP_pos_iff.mp hpos
  obtain ⟨first, hfind⟩ := Option.isSome_iff_exists.mp (List.find?_isSome.mpr ⟨e, hmem, he⟩)
  obtain ⟨hfirst, front, back, rfl, hfront⟩ := List.find?_eq_some_iff_append.mp hfind
  have hnone : releases index front = 0 := List.countP_eq_zero.mpr (by simpa using hfront)
  rw [← List.append_assoc] at hlog
  obtain ⟨j, hj, rfl | rfl⟩ := hr.event_eq (before ++ front) first back hlog
  · cases hfirst
  · have hslot : j = index := by
      simpa [Event.isReleaseOf, Handle.slot?_make _ (by omega : j + 1 < 4294967296)] using hfirst
    rw [hslot, releases_append, hnone, Nat.add_zero]
    exact List.mem_append_right front List.mem_cons_self

theorem Follows.tenant_lt (hr : r.Follows log) (hsize : r.slots.size < 4294967296) {number : Nat}
    (h : r.slots[index]? = some ⟨generation, some number⟩) : number < r.instances.size := by
  obtain ⟨hlt, -⟩ := Array.getElem?_eq_some_iff.mp h
  obtain ⟨before, after, rfl, -, rfl⟩ := (hr.tenant_iff index generation number (by omega)).mp h
  rw [hr.instances_eq, issues, issues, List.countP_append, List.countP_cons_of_pos rfl]
  exact Nat.lt_add_of_pos_right (Nat.succ_pos _)

theorem Follows.of_issued (hr : r.Follows log) {before after : List Event} {h : Handle}
    (hlog : log = before ++ .issued h :: after) :
    ∃ index, index < r.slots.size ∧
      h = Handle.make index (UInt32.ofNat (releases index before)) := by
  obtain ⟨index, hlt, he | he⟩ := hr.event_eq before _ after hlog
  · exact ⟨index, hlt, Event.issued.inj he⟩
  · cases he

theorem Follows.generation_eq_iff (hr : r.Follows log) {before after : List Event} {h : Handle}
    (hlog : log = before ++ .issued h :: after) {slot : Slot} (hslot : r.slots[index]? = some slot) :
    slot.generation = UInt32.ofNat (releases index before) ↔
      4294967296 ∣ releases index after := by
  rw [hr.generation_eq index slot hslot, hlog, releases_append, releases_issued_cons,
    ← UInt32.toNat_inj, UInt32.toNat_ofNat', UInt32.toNat_ofNat']
  omega

end Registry

namespace World

structure Honours (w : World) (h : Handle) (number : Nat) : Prop where
  resolves : w.registry.resolve? h = some number
  destroy : ∀ thread, ((Call.destroy h).perform thread w).2.1 = .ok .done
  within : ∃ i, w.registry.instances[number]? = some i ∧ ∀ thread work,
    (Call.within h work).perform thread w = match i.readiness with
      | .busy => w.fail thread number .busy
      | .unusable => w.fail thread number unusable
      | .idle => work.perform thread number i w

structure Refuses (w : World) (h : Handle) : Prop where
  resolves : w.registry.resolve? h = none
  destroy : ∀ thread, ((Call.destroy h).perform thread w).2.1 = .error (.invalidHandle h) ∧
    ((Call.destroy h).perform thread w).1.registry = w.registry
  within : ∀ thread work,
    ((Call.within h work).perform thread w).2.1 = .error (.invalidHandle h) ∧
      ((Call.within h work).perform thread w).1.registry = w.registry

variable {w : World} {log : List Event} {h : Handle}

theorem refuses_of_resolve? (hresolve : w.registry.resolve? h = none) : w.Refuses h := by
  refine ⟨hresolve, ?_, ?_⟩
  · intro thread
    have herase : w.registry.erase? h = none := by simp [Registry.erase?, hresolve]
    rw [Call.perform, World.destroy, herase]
    exact ⟨rfl, rfl⟩
  · intro thread work
    rw [Call.perform, hresolve]
    exact ⟨rfl, rfl⟩

theorem honours_of_resolve? {number : Nat} (hresolve : w.registry.resolve? h = some number)
    (hnumber : number < w.registry.instances.size) : w.Honours h number := by
  refine ⟨hresolve, ?_, w.registry.instances[number], Array.getElem?_eq_getElem hnumber, ?_⟩
  · intro thread
    obtain ⟨index, generation, hsplit, -⟩ := Registry.resolve?_eq_some_iff.mp hresolve
    rw [Call.perform, World.destroy, Registry.erase?, hresolve, hsplit]
    rfl
  · intro thread work
    have hfound := Array.getElem?_eq_getElem hnumber
    rw [Call.perform, hresolve]
    dsimp only
    generalize w.registry.instances[number]? = found at hfound ⊢
    subst hfound
    rfl

theorem Arises.follows (hw : w.Arises log) (hsize : w.registry.slots.size < 4294967296) :
    w.registry.Follows log :=
  hw.moves.follows Registry.orderly_empty hsize Registry.follows_empty

def Occupied (w : World) (slot : Nat) : Prop :=
  ∃ generation number, w.registry.slots[slot]? = some ⟨generation, some number⟩

section

variable (hw : w.Arises log) (hsize : w.registry.slots.size < 4294967296)

include hw hsize

theorem Arises.honours_iff {number : Nat} :
    w.Honours h number ↔ w.registry.resolve? h = some number := by
  refine ⟨Honours.resolves, fun hresolve => honours_of_resolve? hresolve ?_⟩
  obtain ⟨index, generation, -, hslot⟩ := Registry.resolve?_eq_some_iff.mp hresolve
  exact (hw.follows hsize).tenant_lt hsize hslot

theorem Arises.issued_of_resolve? {number : Nat} (hh : h < 18446744073709551616)
    (hresolve : w.registry.resolve? h = some number) : .issued h ∈ log := by
  obtain ⟨index, generation, hsplit, hslot⟩ := Registry.resolve?_eq_some_iff.mp hresolve
  obtain ⟨hlt, -⟩ := Array.getElem?_eq_some_iff.mp hslot
  obtain ⟨before, after, rfl, -, -⟩ :=
    ((hw.follows hsize).tenant_iff index generation number (by omega)).mp hslot
  rw [Handle.make_eq_word hsplit, Handle.word, Nat.mod_eq_of_lt hh]
  exact List.mem_append_right before List.mem_cons_self

variable {before after : List Event} {slot : Nat} (hslot : slot < w.registry.slots.size)
  (hlog : log = before ++
    .issued (Handle.make slot (UInt32.ofNat (releases slot before))) :: after)

include hslot hlog

theorem Arises.honours_issued_iff :
    (∃ number, w.Honours (Handle.make slot (UInt32.ofNat (releases slot before))) number) ↔
      w.Occupied slot ∧ 4294967296 ∣ releases slot after := by
  have hr := hw.follows hsize
  simp only [hw.honours_iff hsize,
    Registry.resolve?_make_iff (by omega : slot + 1 < 4294967296)]
  constructor
  · rintro ⟨number, htenant⟩
    exact ⟨⟨_, number, htenant⟩, (hr.generation_eq_iff hlog htenant).mp rfl⟩
  · rintro ⟨⟨generation, number, htenant⟩, hdvd⟩
    obtain rfl := (hr.generation_eq_iff hlog htenant).mpr hdvd
    exact ⟨number, htenant⟩

theorem Arises.refuses_issued (hnot : ¬ (w.Occupied slot ∧ 4294967296 ∣ releases slot after)) :
    w.Refuses (Handle.make slot (UInt32.ofNat (releases slot before))) := by
  apply refuses_of_resolve?
  cases hresolve : w.registry.resolve?
      (Handle.make slot (UInt32.ofNat (releases slot before))) with
  | none => rfl
  | some number =>
      have hhonours := (hw.honours_iff hsize).mpr hresolve
      exact absurd ((hw.honours_issued_iff hsize hslot hlog).mp ⟨number, hhonours⟩) hnot

theorem Arises.honours_until_released
    (hkept : .released (Handle.make slot (UInt32.ofNat (releases slot before))) ∉ after) :
    w.Honours (Handle.make slot (UInt32.ofNat (releases slot before))) (issues before) := by
  have hr := hw.follows hsize
  have hbound : slot + 1 < 4294967296 := by omega
  have hnone : releases slot after = 0 := by
    apply Decidable.not_not.mp
    intro hsome
    have hmem := hr.released_of_releases ((List.append_cons ..).symm ▸ hlog) hsize hsome
    rw [releases_append, releases_issued_cons] at hmem
    exact hkept hmem
  rw [hw.honours_iff hsize, Registry.resolve?_make_iff hbound, hr.tenant_iff _ _ _ hbound]
  exact ⟨before, after, hlog, hnone, rfl⟩

end

theorem handles_go_stale (hw : w.Arises log) (hsize : w.registry.slots.size ≤ 4294967295) :
    .issued 0 ∉ log ∧
    (∀ h, h < 18446744073709551616 → .issued h ∉ log → w.Refuses h) ∧
    ∀ before h after, log = before ++ .issued h :: after → ∃ slot, Handle.slot? h = some slot ∧
      ((∃ number, w.Honours h number) ↔ w.Occupied slot ∧ 4294967296 ∣ releases slot after) ∧
      (¬ (w.Occupied slot ∧ 4294967296 ∣ releases slot after) → w.Refuses h) ∧
      (releases slot after < 4294967296 →
        (.released h ∉ after → w.Honours h (issues before)) ∧
        (.released h ∈ after → w.Refuses h)) := by
  have hbound : w.registry.slots.size < 4294967296 := by omega
  have hr := hw.follows hbound
  refine ⟨?_, ?_, ?_⟩
  · intro hzero
    obtain ⟨before, after, hlog⟩ := List.append_of_mem hzero
    obtain ⟨index, -, hmake⟩ := hr.of_issued hlog
    exact Handle.make_ne_zero _ _ hmake.symm
  · intro h hh hnever
    apply refuses_of_resolve?
    cases hresolve : w.registry.resolve? h with
    | none => rfl
    | some number => exact absurd (hw.issued_of_resolve? hbound hh hresolve) hnever
  · intro before h after hlog
    obtain ⟨slot, hslot, rfl⟩ := hr.of_issued hlog
    refine ⟨slot, Handle.slot?_make _ (by omega), hw.honours_issued_iff hbound hslot hlog,
      hw.refuses_issued hbound hslot hlog, ?_⟩
    intro hfew
    refine ⟨hw.honours_until_released hbound hslot hlog, ?_⟩
    intro hreleased
    have hpos := releases_pos (by omega : slot + 1 < 4294967296) hreleased
    apply hw.refuses_issued hbound hslot hlog
    rintro ⟨-, hdvd⟩
    exact absurd (Nat.le_of_dvd hpos hdvd) (Nat.not_le.mpr hfew)

def succession : List Call :=
  [.create ⟨8, 3, 8, false, none⟩, .create ⟨8, 3, 8, false, none⟩,
    .within 2 (.hold [.destroy 1, .create ⟨8, 3, 8, false, none⟩] none)]

theorem handles_go_stale_succession :
    eventsAll 0 succession initial =
      [.issued 1, .issued 2, .released 1, .issued 4294967297] ∧
    (performAll 0 succession initial).1.Refuses 1 ∧
    (performAll 0 succession initial).1.Honours 2 1 ∧
    (performAll 0 succession initial).1.Honours 4294967297 2 ∧
    (performAll 0 succession initial).1.Refuses 8589934593 := by
  have hlog : eventsAll 0 succession initial =
      [.issued 1, .issued 2, .released 1, .issued 4294967297] := by decide +kernel
  have hsize : (performAll 0 succession initial).1.registry.slots.size ≤ 4294967295 := by
    decide +kernel
  have hw := arises_performAll 0 succession .initial
  rw [hlog] at hw
  obtain ⟨-, hforged, hissued⟩ := handles_go_stale hw hsize
  refine ⟨hlog, ?_, ?_, ?_, hforged _ (by decide) (by decide)⟩
  · obtain ⟨slot, hslot, -, -, hfew⟩ := hissued [] 1 _ rfl
    cases hslot
    exact (hfew (by decide)).2 (by decide)
  · obtain ⟨slot, hslot, -, -, hfew⟩ := hissued [.issued 1] 2 _ rfl
    cases hslot
    exact (hfew (by decide)).1 (by decide)
  · obtain ⟨slot, hslot, -, -, hfew⟩ := hissued [.issued 1, .issued 2, .released 1] 4294967297 _ rfl
    cases hslot
    exact (hfew (by decide)).1 (by decide)

end World

end RegisterMachine
