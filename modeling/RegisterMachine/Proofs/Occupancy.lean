import Mathlib.Order.Bounds.Basic
import RegisterMachine.Proofs.Nesting

namespace RegisterMachine

namespace Event

def issued? : Event → Option Handle
  | .issued h => some h
  | .released _ => none

def isRelease : Event → Bool
  | .issued _ => false
  | .released _ => true

end Event

def handles (log : List Event) : List Handle := log.filterMap Event.issued?

def allReleases (log : List Event) : Nat := log.countP Event.isRelease

theorem length_handles (log : List Event) : (handles log).length = issues log := by
  induction log with
  | nil => rfl
  | cons e log ih =>
      cases e with
      | issued h => exact congrArg Nat.succ ih |>.trans (List.countP_cons_of_pos rfl).symm
      | released h => exact ih.trans (List.countP_cons_of_neg Bool.false_ne_true).symm

theorem getElem?_handles (before : List Event) (h : Handle) (after : List Event) :
    (handles (before ++ .issued h :: after))[issues before]? = some h := by
  have hlength : (before.filterMap Event.issued?).length = issues before := length_handles before
  rw [handles, List.filterMap_append, List.getElem?_append_right (Nat.le_of_eq hlength), hlength]
  simp [Event.issued?]

namespace Registry

variable {r s : Registry} {log : List Event}

theorem countP_setIfInBounds {slots : Array Slot} {index : Nat} {slot : Slot}
    (h : slots[index]? = some slot) (p : Slot → Bool) (other : Slot) :
    (slots.setIfInBounds index other).countP p + (if p slot then 1 else 0) =
      slots.countP p + if p other then 1 else 0 := by
  obtain ⟨hlt, rfl⟩ := Array.getElem?_eq_some_iff.mp h
  rw [Array.setIfInBounds, dif_pos hlt, Array.countP_set hlt]
  by_cases hp : p slots[index]
  · have hpos : 0 < slots.countP p := Array.countP_pos_iff.mpr ⟨_, Array.getElem_mem hlt, hp⟩
    rw [if_pos hp]
    omega
  · rw [if_neg hp]
    omega

theorem Orderly.live_insert (hr : r.Orderly) (i : Instance) : (r.insert i).1.live = r.live + 1 := by
  cases hfree : r.free with
  | nil =>
      rw [insert_of_nil hfree]
      exact Array.countP_push
  | cons index free =>
      obtain ⟨generation, hslot⟩ := (hr.mem_free_iff index).mp (hfree ▸ List.mem_cons_self)
      rw [insert_of_cons hfree hslot]
      exact countP_setIfInBounds hslot (·.tenant.isSome) ⟨generation, some r.instances.size⟩

theorem Orderly.size_insert (hr : r.Orderly) (i : Instance) :
    (r.insert i).1.slots.size = if r.free = [] then r.slots.size + 1 else r.slots.size := by
  cases hfree : r.free with
  | nil =>
      rw [insert_of_nil hfree]
      exact Array.size_push _
  | cons index free =>
      obtain ⟨generation, hslot⟩ := (hr.mem_free_iff index).mp (hfree ▸ List.mem_cons_self)
      rw [insert_of_cons hfree hslot]
      exact Array.size_setIfInBounds

theorem free_insert (r : Registry) (i : Instance) : (r.insert i).1.free = r.free.tail := by
  unfold insert
  split
  · rename_i hfree
    rw [hfree]
    rfl
  · rename_i hfree
    rw [hfree]
    rfl

theorem live_erase? {h : Handle} (he : r.erase? h = some s) : s.live + 1 = r.live := by
  obtain ⟨number, hresolve, he⟩ := Option.bind_eq_some_iff.mp he
  obtain ⟨index, generation, hsplit, hslot⟩ := resolve?_eq_some_iff.mp hresolve
  rw [hsplit] at he
  cases he
  exact countP_setIfInBounds hslot (·.tenant.isSome) ⟨generation + 1, none⟩

theorem Moves.live_add (h : r.Moves log s) (hr : r.Orderly) :
    s.live + allReleases log = r.live + issues log := by
  induction h with
  | insert r i => exact hr.live_insert i
  | erase he => exact live_erase? he
  | update | refl => rfl
  | @trans r s t log log' hfirst _ ih ih' =>
      have hlater := ih' (hfirst.orderly hr)
      have hearlier := ih hr
      simp only [allReleases, issues, List.countP_append] at hlater hearlier ⊢
      omega

theorem Moves.size_eq (h : r.Moves log s) (ho : r.Orderly)
    (hr : r.slots.size = r.live + r.free.length) : s.slots.size = s.live + s.free.length := by
  induction h with
  | insert r i =>
      rw [ho.size_insert, ho.live_insert, free_insert]
      cases hfree : r.free with
      | nil => simpa [hfree] using hr
      | cons index free =>
          rw [hfree, List.length_cons] at hr
          rw [if_neg (List.cons_ne_nil index free), List.tail_cons]
          omega
  | erase he =>
      obtain ⟨index, generation, -, hfrees⟩ := frees_erase? he
      have hlive := live_erase? he
      rw [hfrees.size_eq, hfrees.free, List.length_cons]
      omega
  | update | refl => exact hr
  | trans hfirst _ ih ih' => exact ih' (hfirst.orderly ho) (ih ho hr)

def Lodges (r : Registry) (number : Nat) : Prop :=
  ∃ (index : Nat) (generation : UInt32), r.slots[index]? = some ⟨generation, some number⟩

theorem Follows.handle_of_tenant (hr : r.Follows log) (hsize : r.slots.size < 4294967296)
    {index number : Nat} {generation : UInt32}
    (hslot : r.slots[index]? = some ⟨generation, some number⟩) :
    ∃ h, (handles log)[number]? = some h ∧ Handle.split? h = some (index, generation) := by
  obtain ⟨hlt, -⟩ := Array.getElem?_eq_some_iff.mp hslot
  have hindex : index + 1 < 4294967296 := by omega
  obtain ⟨before, after, rfl, -, rfl⟩ := (hr.tenant_iff index generation number hindex).mp hslot
  exact ⟨_, getElem?_handles before _ after, Handle.split?_make generation hindex⟩

theorem Follows.number_eq (hr : r.Follows log) (hsize : r.slots.size < 4294967296)
    {number other : Nat} (hnumber : r.Lodges number) (hother : r.Lodges other)
    (h : (handles log)[number]? = (handles log)[other]?) : number = other := by
  obtain ⟨i, g, hi⟩ := hnumber
  obtain ⟨j, k, hj⟩ := hother
  obtain ⟨first, hfirst, hsplit⟩ := hr.handle_of_tenant hsize hi
  obtain ⟨second, hsecond, hsplit'⟩ := hr.handle_of_tenant hsize hj
  rw [hfirst, hsecond] at h
  cases h
  cases hsplit.symm.trans hsplit'
  cases hi.symm.trans hj
  rfl

end Registry

namespace World

theorem Settles.size_eq_or {w w' : World} {thread : Nat} {failures : List Failure}
    (hw : w.registry.Sound) (h : w.Settles thread failures w') :
    w'.registry.slots.size = w.registry.slots.size ∨ w'.registry.free = [] := by
  cases h with
  | quiet | refuses | fails => exact .inl rfl
  | inserts m =>
      dsimp only
      rw [hw.orderly.size_insert, Registry.free_insert]
      cases w.registry.free with
      | nil => exact .inr rfl
      | cons index free => exact .inl (if_neg (List.cons_ne_nil index free))
  | erases he =>
      obtain ⟨index, generation, -, hfrees⟩ := Registry.frees_erase? he
      exact .inl hfrees.size_eq

end World

theorem Act.size_eq_or {w : World} (hw : w.registry.Sound) {a : Act} (ha : a.Possible w) :
    (a.perform w).registry.slots.size = w.registry.slots.size ∨ (a.perform w).registry.free = [] := by
  cases a with
  | call thread c => exact (c.settles hw thread ha.2).size_eq_or hw
  | enter h =>
      obtain ⟨number, hadmits⟩ := ha
      rw [Act.perform_enter hadmits]
      exact .inl rfl
  | leave thread number outcome =>
      cases outcome with
      | ok | error | crashed | unfinished => exact .inl rfl
  | change | spawn => exact .inl rfl

theorem size_play_eq_or {acts : List Act} {w : World} (hw : w.registry.Sound) (hplays : Plays acts w)
    (hsize : w.registry.slots.size = w.registry.live + w.registry.free.length) :
    (play acts w).registry.slots.size = w.registry.slots.size ∨
      ∃ earlier, earlier <+: acts ∧
        (play earlier w).registry.live = (play acts w).registry.slots.size := by
  induction acts generalizing w with
  | nil => exact .inl rfl
  | cons a acts ih =>
      have hnext := (a.moves w).size_eq hw.orderly hsize
      rcases ih ((a.moves w).sound hw) hplays.2 hnext with hsame | ⟨earlier, hprefix, hlive⟩
      · rcases a.size_eq_or hw hplays.1 with hkept | hfree
        · exact .inl (hsame.trans hkept)
        · refine .inr ⟨[a], List.prefix_append [a] acts, ?_⟩
          rw [hfree] at hnext
          exact hnext.symm.trans hsame.symm
      · exact .inr ⟨a :: earlier, List.cons_prefix_cons.mpr ⟨rfl, hprefix⟩, hlive⟩

namespace World

theorem size_le_play (acts : List Act) {w : World} (hw : w.registry.Sound) :
    w.registry.slots.size ≤ (play acts w).registry.slots.size :=
  (moves_play acts w).size_le hw.orderly

theorem isGreatest_size {acts : List Act} (hplays : Plays acts initial) :
    IsGreatest {n | ∃ earlier, earlier <+: acts ∧ n = (play earlier initial).registry.live}
      (play acts initial).registry.slots.size := by
  have hsize (earlier : List Act) := (moves_play earlier initial).size_eq Registry.orderly_empty rfl
  refine ⟨?_, ?_⟩
  · rcases size_play_eq_or Registry.sound_empty hplays rfl with hsame | ⟨earlier, hprefix, hlive⟩
    · exact ⟨[], List.nil_prefix, hsame⟩
    · exact ⟨earlier, hprefix, hlive.symm⟩
  · rintro n ⟨earlier, ⟨later, rfl⟩, rfl⟩
    have hle := size_le_play later (sound_play (w := initial) Registry.sound_empty earlier)
    rw [play_append]
    exact Nat.le_trans (hsize earlier ▸ Nat.le_add_right _ _) hle

theorem create_cases {w : World} (hw : w.registry.Sound) (thread : Nat) (config : Config) :
    (∃ h, ((Call.create config).perform thread w).2.1 = .ok (.handle h) ∧
      ((Call.create config).perform thread w).1.registry.slots.size =
        if w.registry.free = [] then w.registry.slots.size + 1 else w.registry.slots.size) ∨
    ∃ e, ((Call.create config).perform thread w).2.1 = .error e ∧
      ((Call.create config).perform thread w).1.registry = w.registry := by
  rw [Call.perform, create]
  cases Machine.create config with
  | error e => exact .inr ⟨e, rfl, rfl⟩
  | ok m => exact .inl ⟨_, rfl, hw.orderly.size_insert (.ofMachine m)⟩

theorem slots_accounted {acts : List Act} {w : World} (hplays : Plays acts initial)
    (hw : play acts initial = w) :
    (w.registry.free.Nodup ∧ ∀ index, index ∈ w.registry.free ↔
      ∃ generation, w.registry.slots[index]? = some ⟨generation, none⟩) ∧
    w.registry.live + allReleases (eventsIn acts initial) = issues (eventsIn acts initial) ∧
    (∀ thread config,
      (∃ h, ((Call.create config).perform thread w).2.1 = .ok (.handle h) ∧
        ((Call.create config).perform thread w).1.registry.slots.size =
          if w.registry.free = [] then w.registry.slots.size + 1 else w.registry.slots.size) ∨
      ∃ e, ((Call.create config).perform thread w).2.1 = .error e ∧
        ((Call.create config).perform thread w).1.registry = w.registry) ∧
    IsGreatest {n | ∃ earlier, earlier <+: acts ∧ n = (play earlier initial).registry.live}
      w.registry.slots.size ∧
    (w.registry.slots.size ≤ 4294967295 →
      (∀ index generation number, w.registry.slots[index]? = some ⟨generation, some number⟩ →
        ∃ h, (handles (eventsIn acts initial))[number]? = some h ∧
          Handle.split? h = some (index, generation)) ∧
      ∀ number other, w.registry.Lodges number → w.registry.Lodges other →
        (handles (eventsIn acts initial))[number]? = (handles (eventsIn acts initial))[other]? →
        number = other) ∧
    ∀ thread calls, thread < w.threads.size →
      Plays (actsAll thread calls w) w ∧
        play (actsAll thread calls w) w = (performAll thread calls w).1 := by
  subst hw
  have hmoves := moves_play acts initial
  have hsound := hmoves.sound Registry.sound_empty
  refine ⟨⟨hsound.orderly.free_nodup, hsound.orderly.mem_free_iff⟩, ?_, create_cases hsound,
    isGreatest_size hplays, fun hsize => ?_, fun thread calls hthread => ?_⟩
  · exact (hmoves.live_add Registry.orderly_empty).trans (Nat.zero_add _)
  · have hbound : (play acts initial).registry.slots.size < 4294967296 := by omega
    have hfollows := hmoves.follows Registry.orderly_empty hbound Registry.follows_empty
    rw [List.nil_append] at hfollows
    exact ⟨fun index generation number => hfollows.handle_of_tenant hbound,
      fun number other => hfollows.number_eq hbound⟩
  · have hlead := lead_performAll thread calls _ hsound hthread
    exact ⟨hlead.plays, hlead.play_eq⟩

def turnover : List Call :=
  [.create ⟨8, 3, 8, false, none⟩, .create ⟨8, 2, 8, false, none⟩, .destroy 7,
    .create ⟨8, 3, 8, false, none⟩, .destroy 1, .destroy 1, .create ⟨8, 3, 8, false, none⟩]

theorem slots_accounted_turnover :
    ∃ w, play (actsAll 0 turnover initial) initial = w ∧ w.registry.free = [] ∧
      w.registry.slots = #[⟨1, some 2⟩, ⟨0, some 1⟩] ∧
      handles (eventsIn (actsAll 0 turnover initial) initial) = [1, 2, 4294967297] ∧
      w.registry.live + 1 = 3 ∧ Handle.split? 4294967297 = some (0, 1) := by
  have hlead := lead_performAll 0 turnover initial Registry.sound_empty Nat.zero_lt_one
  have hslots : (performAll 0 turnover initial).1.registry.slots = #[⟨1, some 2⟩, ⟨0, some 1⟩] := by
    decide +kernel
  have hhandles : handles (eventsIn (actsAll 0 turnover initial) initial) = [1, 2, 4294967297] := by
    decide +kernel
  have hreleases : allReleases (eventsIn (actsAll 0 turnover initial) initial) = 1 := by
    decide +kernel
  obtain ⟨⟨-, hfree⟩, hlive, -, -, htenants, -⟩ := slots_accounted hlead.plays hlead.play_eq
  rw [hslots] at hfree htenants
  rw [hreleases, ← length_handles, hhandles] at hlive
  rw [hhandles] at htenants
  obtain ⟨h, hh, hsplit⟩ := (htenants (by decide)).1 0 1 2 rfl
  cases hh
  refine ⟨_, hlead.play_eq, ?_, hslots, hhandles, hlive, hsplit⟩
  rw [List.eq_nil_iff_forall_not_mem]
  intro index hindex
  obtain ⟨generation, hslot⟩ := (hfree index).mp hindex
  match index with
  | 0 | 1 => cases hslot
  | index + 2 => simp at hslot

end World

end RegisterMachine
