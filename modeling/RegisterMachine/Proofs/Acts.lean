import RegisterMachine.Proofs.Handles

namespace RegisterMachine

structure Failure where
  thread : Nat
  reached : Option Nat
  error : Error
deriving DecidableEq, Repr

inductive Act where
  | call (thread : Nat) (call : Call)
  | enter (h : Handle)
  | change (number : Nat) (m : Machine)
  | leave (thread number : Nat) (outcome : Outcome Answer)
  | spawn

namespace World

def machine? (w : World) (number : Nat) : Option Machine :=
  w.registry.instances[number]?.map Instance.machine

def readiness? (w : World) (number : Nat) : Option Readiness :=
  w.registry.instances[number]?.map Instance.readiness

def Engaged (w : World) (number : Nat) : Prop := w.readiness? number = some .busy

structure Admits (w : World) (h : Handle) (number : Nat) : Prop where
  resolves : w.registry.resolve? h = some number
  idle : w.readiness? number = some .idle

end World

namespace Outcome

variable {α : Type}

def failures (thread : Nat) (reached : Option Nat) : Outcome α → List Failure
  | .error e => [⟨thread, reached, e⟩]
  | _ => []

def readiness : Outcome α → Readiness
  | .crashed => .unusable
  | _ => .idle

end Outcome

namespace Call

def Brief (w : World) : Call → Prop
  | .onThread _ => False
  | .within h _ => ∀ number, ¬ w.Admits h number
  | _ => True

def reached? : Call → World → Option Nat
  | .record h _, w => w.registry.resolve? h
  | .within h _, w => w.registry.resolve? h
  | _, _ => none

def failures (thread : Nat) (call : Call) (w : World) : List Failure :=
  match call with
  | .record _ e => [⟨thread, call.reached? w, e⟩]
  | .recordThread e => [⟨thread, call.reached? w, e⟩]
  | _ => (call.perform thread w).2.1.failures thread (call.reached? w)

end Call

namespace Act

def perform : Act → World → World
  | .call thread c, w => (c.perform thread w).1
  | .enter h, w => match w.registry.resolve? h with
    | some number => w.setReadiness number .busy
    | none => w
  | .change number m, w =>
      { w with registry := w.registry.update number (fun i => { i with machine := m }) }
  | .leave thread number outcome, w =>
      (w.setReadiness number outcome.readiness).recordOutcome thread number outcome
  | .spawn, w => { w with threads := w.threads.push Channel.empty }

-- Which thread gives an instance back is left open here, although it is the thread that took it.
def Possible : Act → World → Prop
  | .call thread c, w => thread < w.threads.size ∧ c.Brief w
  | .enter h, w => ∃ number, w.Admits h number
  | .change number _, w => w.Engaged number
  | .leave thread number _, w => thread < w.threads.size ∧ w.Engaged number
  | .spawn, _ => True

def failures : Act → World → List Failure
  | .call thread c, w => c.failures thread w
  | .leave thread number outcome, _ => outcome.failures thread (some number)
  | _, _ => []

def events : Act → World → List Event
  | .call thread c, w => c.events thread w
  | _, _ => []

def thread? : Act → Option Nat
  | .call thread _ => some thread
  | .leave thread _ _ => some thread
  | _ => none

end Act

def play : List Act → World → World
  | [], w => w
  | a :: rest, w => play rest (a.perform w)

def Plays : List Act → World → Prop
  | [], _ => True
  | a :: rest, w => a.Possible w ∧ Plays rest (a.perform w)

def failuresIn : List Act → World → List Failure
  | [], _ => []
  | a :: rest, w => a.failures w ++ failuresIn rest (a.perform w)

def eventsIn : List Act → World → List Event
  | [], _ => []
  | a :: rest, w => a.events w ++ eventsIn rest (a.perform w)

theorem play_append (acts later : List Act) (w : World) :
    play (acts ++ later) w = play later (play acts w) := by
  induction acts generalizing w with
  | nil => rfl
  | cons a acts ih => exact ih (a.perform w)

theorem plays_append {acts later : List Act} {w : World} :
    Plays (acts ++ later) w ↔ Plays acts w ∧ Plays later (play acts w) := by
  induction acts generalizing w with
  | nil => exact (iff_of_eq (true_and _)).symm
  | cons a acts ih =>
      change a.Possible w ∧ Plays (acts ++ later) (a.perform w) ↔
        (a.Possible w ∧ Plays acts (a.perform w)) ∧ Plays later (play acts (a.perform w))
      rw [ih, and_assoc]

namespace Registry

theorem instances_update (r : Registry) (number : Nat) (f : Instance → Instance) (j : Nat) :
    (r.update number f).instances[j]? =
      if number = j then r.instances[j]?.map f else r.instances[j]? :=
  Array.getElem?_modify ..

theorem instances_insert (r : Registry) (i : Instance) :
    (r.insert i).1.instances = r.instances.push i := by
  unfold insert
  split <;> rfl

theorem instances_erase? {r s : Registry} {h : Handle} (he : r.erase? h = some s) :
    s.instances = r.instances := by
  obtain ⟨index, generation, -, hfrees⟩ := frees_erase? he
  exact hfrees.instances

theorem update_update (r : Registry) (number : Nat) (f g : Instance → Instance) :
    (r.update number f).update number g = r.update number (g ∘ f) := by
  have hmodify : (r.instances.modify number f).modify number g =
      r.instances.modify number (g ∘ f) := by
    apply Array.ext_getElem?
    intro j
    simp only [Array.getElem?_modify]
    split
    · exact Option.map_map ..
    · rfl
  unfold update
  rw [hmodify]

structure Sound (r : Registry) : Prop where
  orderly : r.Orderly
  tenant_lt : ∀ (index : Nat) (generation : UInt32) (number : Nat),
    r.slots[index]? = some ⟨generation, some number⟩ → number < r.instances.size
  tenant_inj : ∀ (i j : Nat) (g k : UInt32) (number : Nat), r.slots[i]? = some ⟨g, some number⟩ →
    r.slots[j]? = some ⟨k, some number⟩ → i = j

theorem sound_empty : empty.Sound where
  orderly := orderly_empty
  tenant_lt := by
    intro index generation number hslot
    simp [empty] at hslot
  tenant_inj := by
    intro i j g k number hslot
    simp [empty] at hslot

theorem Lets.sound {r s : Registry} {index : Nat} {generation : UInt32} (hr : r.Sound)
    (h : r.Lets index generation s) : s.Sound where
  orderly := h.orderly hr.orderly
  tenant_lt := by
    intro j generation' number hslot
    rw [h.instances]
    rw [h.slots] at hslot
    split at hslot
    · cases hslot
      exact Nat.lt_succ_self _
    · exact Nat.lt_succ_of_lt (hr.tenant_lt j generation' number hslot)
  tenant_inj := by
    intro i j g k number hi hj
    rw [h.slots] at hi hj
    split at hi
    · rename_i hindex
      cases hi
      split at hj
      · rename_i hindex'
        exact hindex.trans hindex'.symm
      · exact absurd (hr.tenant_lt j k _ hj) (Nat.lt_irrefl _)
    · split at hj
      · cases hj
        exact absurd (hr.tenant_lt i g _ hi) (Nat.lt_irrefl _)
      · exact hr.tenant_inj i j g k number hi hj

theorem Frees.sound {r s : Registry} {index : Nat} {generation : UInt32} (hr : r.Sound)
    (h : r.Frees index generation s) : s.Sound where
  orderly := h.orderly hr.orderly
  tenant_lt := by
    intro j generation' number hslot
    rw [h.instances]
    rw [h.slots] at hslot
    split at hslot
    · cases hslot
    · exact hr.tenant_lt j generation' number hslot
  tenant_inj := by
    intro i j g k number hi hj
    rw [h.slots] at hi hj
    split at hi
    · cases hi
    · split at hj
      · cases hj
      · exact hr.tenant_inj i j g k number hi hj

theorem Moves.sound {r s : Registry} {log : List Event} (h : r.Moves log s) (hr : r.Sound) :
    s.Sound := by
  induction h with
  | insert r i =>
      obtain ⟨index, generation, -, hlets⟩ := hr.orderly.lets_insert i
      exact hlets.sound hr
  | erase he =>
      obtain ⟨index, generation, -, hfrees⟩ := frees_erase? he
      exact hfrees.sound hr
  | update r number f =>
      refine ⟨⟨hr.orderly.free_nodup, hr.orderly.mem_free_iff⟩, ?_, hr.tenant_inj⟩
      intro index generation number' hslot
      exact Nat.lt_of_lt_of_eq (hr.tenant_lt index generation number' hslot) Array.size_modify.symm
  | refl r => exact hr
  | trans _ _ ih ih' => exact ih' (ih hr)

theorem Sound.lt_of_resolve? {r : Registry} (hr : r.Sound) {h : Handle} {number : Nat}
    (hresolve : r.resolve? h = some number) : number < r.instances.size := by
  obtain ⟨index, generation, -, hslot⟩ := resolve?_eq_some_iff.mp hresolve
  exact hr.tenant_lt index generation number hslot

theorem Sound.exists_instance {r : Registry} (hr : r.Sound) {h : Handle} {number : Nat}
    (hresolve : r.resolve? h = some number) : ∃ i, r.instances[number]? = some i :=
  ⟨_, Array.getElem?_eq_getElem (hr.lt_of_resolve? hresolve)⟩

end Registry

theorem Act.moves (a : Act) (w : World) : w.registry.Moves (a.events w) (a.perform w).registry := by
  cases a with
  | call thread c => exact c.moves thread w
  | enter h =>
      dsimp only [Act.perform]
      cases w.registry.resolve? h with
      | none => exact .refl _
      | some number => exact w.moves_setReadiness number .busy
  | change number m => exact .update ..
  | leave thread number outcome =>
      exact (w.moves_setReadiness number _).trans
        (World.moves_recordOutcome _ thread number outcome)
  | spawn => exact .refl _

theorem moves_play (acts : List Act) (w : World) :
    w.registry.Moves (eventsIn acts w) (play acts w).registry := by
  induction acts generalizing w with
  | nil => exact .refl _
  | cons a acts ih => exact (a.moves w).trans (ih _)

theorem sound_play {w : World} (hw : w.registry.Sound) (acts : List Act) :
    (play acts w).registry.Sound := (moves_play acts w).sound hw

namespace World

inductive Settles (w : World) (thread : Nat) : List Failure → World → Prop
  | quiet : w.Settles thread [] w
  | inserts (m : Machine) :
      w.Settles thread [] { w with registry := (w.registry.insert (.ofMachine m)).1 }
  | erases {h : Handle} {registry : Registry} (he : w.registry.erase? h = some registry) :
      w.Settles thread [] { w with registry := registry }
  | refuses (e : Error) : w.Settles thread [⟨thread, none, e⟩] (w.recordThread thread e)
  | fails {h : Handle} {number : Nat} (hresolve : w.registry.resolve? h = some number) (e : Error) :
      w.Settles thread [⟨thread, some number, e⟩] (w.record thread number e)

theorem perform_within {w : World} {h : Handle} {number : Nat} {i : Instance}
    (hresolve : w.registry.resolve? h = some number) (hi : w.registry.instances[number]? = some i)
    (thread : Nat) (work : Work) :
    (Call.within h work).perform thread w = match i.readiness with
      | .busy => w.fail thread number .busy
      | .unusable => w.fail thread number unusable
      | .idle => work.perform thread number i w := by
  rw [Call.perform, hresolve]
  dsimp only
  generalize w.registry.instances[number]? = found at hi ⊢
  subst hi
  rfl

end World

open World

theorem Call.brief_within {w : World} {h : Handle} {number : Nat} {i : Instance} (work : Work)
    (hresolve : w.registry.resolve? h = some number) (hi : w.registry.instances[number]? = some i)
    (hready : i.readiness ≠ .idle) : (Call.within h work).Brief w := by
  intro other hadmits
  cases hresolve.symm.trans hadmits.resolves
  have hidle := hadmits.idle
  rw [readiness?, hi] at hidle
  exact hready (Option.some.inj hidle)

theorem Call.settles {w : World} (hw : w.registry.Sound) (thread : Nat) {call : Call}
    (hbrief : call.Brief w) :
    w.Settles thread (call.failures thread w) (call.perform thread w).1 := by
  cases call with
  | create config =>
      dsimp only [Call.failures, Call.reached?]
      rw [Call.perform, World.create]
      cases Machine.create config with
      | error e => exact .refuses e
      | ok m => exact .inserts m
  | destroy h =>
      dsimp only [Call.failures, Call.reached?]
      rw [Call.perform, World.destroy]
      cases he : w.registry.erase? h with
      | none => exact .refuses _
      | some registry => exact .erases he
  | record h e =>
      dsimp only [Call.failures, Call.reached?]
      rw [Call.perform]
      cases hresolve : w.registry.resolve? h with
      | none => exact .refuses e
      | some number => exact .fails hresolve e
  | recordThread e =>
      rw [Call.perform]
      exact .refuses e
  | lastError h =>
      dsimp only [Call.failures, Call.reached?]
      rw [Call.perform]
      exact .quiet
  | onThread calls => exact hbrief.elim
  | within h work =>
      dsimp only [Call.failures, Call.reached?]
      cases hresolve : w.registry.resolve? h with
      | none =>
          rw [Call.perform, hresolve]
          exact .refuses _
      | some number =>
          obtain ⟨i, hi⟩ := hw.exists_instance hresolve
          rw [perform_within hresolve hi]
          cases hready : i.readiness with
          | busy => exact .fails hresolve .busy
          | unusable => exact .fails hresolve unusable
          | idle =>
              have hadmits : w.Admits h number := ⟨hresolve, by rw [readiness?, hi, ← hready]; rfl⟩
              exact absurd hadmits (hbrief number)

namespace World

variable {w : World} {number : Nat} {i : Instance}

theorem instance_record (hi : w.registry.instances[number]? = some i) (thread other : Nat)
    (e : Error) : ∃ channel, (w.record thread other e).registry.instances[number]? =
      some { i with channel := channel } := by
  change ∃ channel, (w.registry.update other _).instances[number]? = _
  rw [Registry.instances_update, hi]
  by_cases heq : other = number
  · rw [if_pos heq]
    exact ⟨_, rfl⟩
  · rw [if_neg heq]
    exact ⟨i.channel, rfl⟩

theorem instance_recordOutcome {α : Type} (hi : w.registry.instances[number]? = some i)
    (thread other : Nat) (outcome : Outcome α) :
    ∃ channel, (w.recordOutcome thread other outcome).registry.instances[number]? =
      some { i with channel := channel } := by
  cases outcome with
  | error e => exact instance_record hi thread other e
  | ok _ | crashed | unfinished => exact ⟨i.channel, hi⟩

theorem Settles.instance_kept {w' : World} {thread : Nat} {failures : List Failure}
    (h : w.Settles thread failures w') (hi : w.registry.instances[number]? = some i) :
    ∃ channel, w'.registry.instances[number]? = some { i with channel := channel } := by
  cases h with
  | quiet => exact ⟨i.channel, hi⟩
  | inserts m =>
      obtain ⟨hlt, -⟩ := Array.getElem?_eq_some_iff.mp hi
      refine ⟨i.channel, ?_⟩
      dsimp only
      rw [Registry.instances_insert, Array.getElem?_push_lt hlt, ← Array.getElem?_eq_getElem hlt]
      exact hi
  | erases he =>
      refine ⟨i.channel, ?_⟩
      dsimp only
      rw [Registry.instances_erase? he]
      exact hi
  | refuses e => exact ⟨i.channel, hi⟩
  | fails hresolve e => exact instance_record hi thread _ e

theorem Settles.threads_size {w' : World} {thread : Nat} {failures : List Failure}
    (h : w.Settles thread failures w') : w'.threads.size = w.threads.size := by
  cases h with
  | quiet | inserts | erases => rfl
  | refuses e | fails hresolve e => exact Array.size_modify

theorem readiness?_eq_some {readiness : Readiness} : w.readiness? number = some readiness ↔
    ∃ i, w.registry.instances[number]? = some i ∧ i.readiness = readiness :=
  Option.map_eq_some_iff

theorem instance_setReadiness (hi : w.registry.instances[number]? = some i) (other : Nat)
    (readiness : Readiness) : (w.setReadiness other readiness).registry.instances[number]? =
      if other = number then some { i with readiness := readiness } else some i := by
  change (w.registry.update other _).instances[number]? = _
  rw [Registry.instances_update, hi]
  rfl

theorem engaged_setReadiness (hi : w.registry.instances[number]? = some i) :
    (w.setReadiness number .busy).Engaged number :=
  readiness?_eq_some.mpr ⟨_, (instance_setReadiness hi number .busy).trans (if_pos rfl), rfl⟩

end World

theorem Act.perform_enter {w : World} {h : Handle} {number : Nat} (hadmits : w.Admits h number) :
    (Act.enter h).perform w = w.setReadiness number .busy := by
  dsimp only [Act.perform]
  rw [hadmits.resolves]

namespace Act

def Works (w : World) (number : Nat) : Act → Prop
  | .enter h => w.registry.resolve? h = some number
  | .change other _ => other = number
  | .leave _ other _ => other = number
  | _ => False

variable {w : World} {a : Act} {number : Nat} {i : Instance}

theorem instance_kept (hw : w.registry.Sound) (ha : a.Possible w) (hnot : ¬ a.Works w number)
    (hi : w.registry.instances[number]? = some i) :
    ∃ channel, (a.perform w).registry.instances[number]? = some { i with channel := channel } := by
  cases a with
  | call thread c => exact (c.settles hw thread ha.2).instance_kept hi
  | enter h =>
      obtain ⟨other, hadmits⟩ := ha
      have hne : other ≠ number := fun heq => hnot (heq ▸ hadmits.resolves)
      refine ⟨i.channel, ?_⟩
      rw [perform_enter hadmits]
      exact (instance_setReadiness hi other .busy).trans (if_neg hne)
  | change other m =>
      have hne : other ≠ number := hnot
      refine ⟨i.channel, ?_⟩
      dsimp only [perform]
      rw [Registry.instances_update, if_neg hne]
      exact hi
  | leave thread other outcome =>
      refine instance_recordOutcome ?_ thread other outcome
      exact (instance_setReadiness hi other _).trans (if_neg hnot)
  | spawn => exact ⟨i.channel, hi⟩

theorem threads_size_le (hw : w.registry.Sound) (ha : a.Possible w) :
    w.threads.size ≤ (a.perform w).threads.size := by
  cases a with
  | call thread c => exact Nat.le_of_eq (c.settles hw thread ha.2).threads_size.symm
  | enter h =>
      dsimp only [perform]
      cases w.registry.resolve? h with
      | none | some => exact Nat.le_refl _
  | change number m => exact Nat.le_refl _
  | leave thread number outcome =>
      cases outcome with
      | error e => exact Nat.le_of_eq Array.size_modify.symm
      | ok _ | crashed | unfinished => exact Nat.le_refl _
  | spawn =>
      dsimp only [perform]
      rw [Array.size_push]
      exact Nat.le_succ _

theorem engaged_perform (hw : w.registry.Sound) (ha : a.Possible w) (hengaged : w.Engaged number)
    (hholds : ∀ thread outcome, a ≠ .leave thread number outcome) :
    (a.perform w).Engaged number := by
  obtain ⟨i, hi, hbusy⟩ := readiness?_eq_some.mp hengaged
  by_cases hworks : a.Works w number
  · cases a with
    | call thread c => exact hworks.elim
    | enter h =>
        obtain ⟨other, hresolves, hidle⟩ := ha
        cases hresolves.symm.trans hworks
        rw [hengaged] at hidle
        cases hidle
    | change other m =>
        cases hworks
        refine readiness?_eq_some.mpr ⟨{ i with machine := m }, ?_, hbusy⟩
        dsimp only [perform]
        rw [Registry.instances_update, if_pos rfl, hi]
        rfl
    | leave thread other outcome =>
        cases hworks
        exact absurd rfl (hholds thread outcome)
    | spawn => exact hworks.elim
  · obtain ⟨channel, hkept⟩ := instance_kept hw ha hworks hi
    exact readiness?_eq_some.mpr ⟨_, hkept, hbusy⟩

theorem unusable_perform (hw : w.registry.Sound) (ha : a.Possible w)
    (hunusable : w.readiness? number = some .unusable) :
    (a.perform w).readiness? number = some .unusable ∧
      (a.perform w).machine? number = w.machine? number := by
  obtain ⟨i, hi, hready⟩ := readiness?_eq_some.mp hunusable
  have hworks : ¬ a.Works w number := by
    intro hworks
    cases a with
    | call thread c => exact hworks
    | enter h =>
        obtain ⟨other, hresolves, hidle⟩ := ha
        cases hresolves.symm.trans hworks
        rw [hunusable] at hidle
        cases hidle
    | change other m =>
        cases hworks
        cases hunusable.symm.trans ha
    | leave thread other outcome =>
        cases hworks
        cases hunusable.symm.trans ha.2
    | spawn => exact hworks
  obtain ⟨channel, hkept⟩ := instance_kept hw ha hworks hi
  refine ⟨readiness?_eq_some.mpr ⟨_, hkept, hready⟩, ?_⟩
  rw [machine?, machine?, hkept, hi]
  rfl

end Act

theorem play_preserves {P : World → Prop} {acts : List Act} {w : World} (hw : w.registry.Sound)
    (hplays : Plays acts w) (hP : P w)
    (hstep : ∀ a ∈ acts, ∀ w : World, w.registry.Sound → a.Possible w → P w → P (a.perform w)) :
    P (play acts w) := by
  induction acts generalizing w with
  | nil => exact hP
  | cons a acts ih =>
      refine ih ((a.moves w).sound hw) hplays.2 ?_ ?_
      · exact hstep a List.mem_cons_self w hw hplays.1 hP
      · exact fun b hb => hstep b (List.mem_cons_of_mem a hb)

section

variable {acts : List Act} {w : World} {number : Nat} (hw : w.registry.Sound) (hplays : Plays acts w)

include hw hplays

theorem threads_size_le_play : w.threads.size ≤ (play acts w).threads.size := by
  apply play_preserves (P := fun u => w.threads.size ≤ u.threads.size) hw hplays (Nat.le_refl _)
  intro a _ u hu ha hle
  exact Nat.le_trans hle (a.threads_size_le hu ha)

theorem engaged_play (hengaged : w.Engaged number)
    (hholds : ∀ thread outcome, .leave thread number outcome ∉ acts) :
    (play acts w).Engaged number := by
  apply play_preserves (P := fun u => u.Engaged number) hw hplays hengaged
  intro a hmem u hu ha h
  exact a.engaged_perform hu ha h (fun thread outcome heq => hholds thread outcome (heq ▸ hmem))

theorem unusable_play (hunusable : w.readiness? number = some .unusable) :
    (play acts w).readiness? number = some .unusable ∧
      (play acts w).machine? number = w.machine? number := by
  apply play_preserves (P := fun u => u.readiness? number = some .unusable ∧
    u.machine? number = w.machine? number) hw hplays ⟨hunusable, rfl⟩
  intro a _ u hu ha h
  obtain ⟨hready, hmachine⟩ := a.unusable_perform hu ha h.1
  exact ⟨hready, hmachine.trans h.2⟩

end

end RegisterMachine
