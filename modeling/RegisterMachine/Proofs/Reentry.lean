import RegisterMachine.Proofs.Messages
import RegisterMachine.Proofs.Invariant

namespace RegisterMachine

structure Slot.Continues (slot : Slot) (index : Nat) (log : List Event) (slot' : Slot) : Prop where
  generation_eq : slot'.generation = slot.generation + UInt32.ofNat (releases index log)
  tenant_eq : releases index log = 0 → slot.tenant.isSome → slot'.tenant = slot.tenant
  released : releases index log ≠ 0 → .released (Handle.make index slot.generation) ∈ log

namespace Slot.Continues

variable {slot slot' slot'' : Slot} {index : Nat} {log log' : List Event}

theorem of_unreleased (hnone : releases index log = 0)
    (hgeneration : slot'.generation = slot.generation)
    (htenant : slot.tenant.isSome → slot'.tenant = slot.tenant) :
    slot.Continues index log slot' where
  generation_eq := by
    rw [hnone, hgeneration]
    exact (UInt32.add_zero _).symm
  tenant_eq := fun _ => htenant
  released := fun hsome => absurd hnone hsome

theorem trans (h : slot.Continues index log slot') (h' : slot'.Continues index log' slot'') :
    slot.Continues index (log ++ log') slot'' where
  generation_eq := by
    rw [h'.generation_eq, h.generation_eq, releases_append, UInt32.ofNat_add, UInt32.add_assoc]
  tenant_eq := by
    intro hnone hsome
    rw [releases_append] at hnone
    have hsame := h.tenant_eq (by omega) hsome
    exact (h'.tenant_eq (by omega) (hsame ▸ hsome)).trans hsame
  released := by
    intro hsome
    rw [releases_append] at hsome
    by_cases hnone : releases index log = 0
    · have hgeneration := h.generation_eq
      rw [hnone] at hgeneration
      have hlater := h'.released (by omega)
      rw [hgeneration.trans (UInt32.add_zero _)] at hlater
      exact List.mem_append_right log hlater
    · exact List.mem_append_left log' (h.released hnone)

end Slot.Continues

namespace Registry

variable {r s : Registry} {log : List Event} {h : Handle} {number : Nat}

theorem Moves.slot_continues (hmoves : r.Moves log s) (hr : r.Orderly) {index : Nat} {slot : Slot}
    (hslot : r.slots[index]? = some slot) :
    ∃ slot', s.slots[index]? = some slot' ∧ slot.Continues index log slot' := by
  induction hmoves generalizing slot with
  | insert r i =>
      obtain ⟨other, generation, hhandle, hlets⟩ := hr.lets_insert i
      have hnone : releases index [.issued (r.insert i).2] = 0 := releases_issued_cons ..
      rw [hlets.slots]
      by_cases heq : index = other
      · subst heq
        rw [if_pos rfl]
        rcases hlets.vacant with hvacant | ⟨rfl, -⟩
        · cases hslot.symm.trans hvacant
          exact ⟨_, rfl, .of_unreleased hnone rfl (fun hsome => by cases hsome)⟩
        · simp at hslot
      · rw [if_neg heq]
        exact ⟨slot, hslot, .of_unreleased hnone rfl (fun _ => rfl)⟩
  | erase he =>
      obtain ⟨other, generation, hsplit, hfrees⟩ := frees_erase? he
      have hcount := releases_released generation (Handle.split?_lt hsplit) index
      rw [← Handle.make_eq_word hsplit, hfrees.slots]
      by_cases heq : index = other
      · subst heq
        rw [if_pos rfl] at hcount ⊢
        obtain ⟨number, htenant⟩ := hfrees.tenant
        cases hslot.symm.trans htenant
        refine ⟨_, rfl, ?_, ?_, ?_⟩
        · rw [hcount]
          rfl
        · intro hnone
          rw [hcount] at hnone
          cases hnone
        · exact fun _ => List.mem_cons_self
      · rw [if_neg heq] at hcount ⊢
        exact ⟨slot, hslot, .of_unreleased hcount rfl (fun _ => rfl)⟩
  | update r number f => exact ⟨slot, hslot, .of_unreleased rfl rfl (fun _ => rfl)⟩
  | refl r => exact ⟨slot, hslot, .of_unreleased rfl rfl (fun _ => rfl)⟩
  | trans hfirst hthen ih ih' =>
      obtain ⟨slot', hmid, hcontinues⟩ := ih hr hslot
      obtain ⟨slot'', hend, hcontinues'⟩ := ih' (hfirst.orderly hr) hmid
      exact ⟨slot'', hend, hcontinues.trans hcontinues'⟩

theorem Moves.resolve?_kept (hmoves : r.Moves log s) (hr : r.Orderly)
    (hresolve : r.resolve? h = some number) (hkept : .released h.word ∉ log) :
    s.resolve? h = some number := by
  obtain ⟨index, generation, hsplit, hslot⟩ := resolve?_eq_some_iff.mp hresolve
  obtain ⟨⟨generation', tenant⟩, hnow, hcontinues⟩ := hmoves.slot_continues hr hslot
  have hnone : releases index log = 0 := by
    apply Decidable.not_not.mp
    intro hsome
    have hreleased := hcontinues.released hsome
    rw [Handle.make_eq_word hsplit] at hreleased
    exact hkept hreleased
  have hgeneration := hcontinues.generation_eq
  rw [hnone] at hgeneration
  cases hcontinues.tenant_eq hnone rfl
  cases hgeneration.trans (UInt32.add_zero _)
  exact resolve?_eq_some_iff.mpr ⟨index, generation, hsplit, hnow⟩

theorem Moves.resolve?_lost (hmoves : r.Moves log s) (hr : r.Orderly)
    (hresolve : r.resolve? h = some number) (hreleased : .released h.word ∈ log) {slot : Nat}
    (hslot : Handle.slot? h = some slot) (hfew : releases slot log < 4294967296) :
    s.resolve? h = none := by
  obtain ⟨index, generation, hsplit, htenant⟩ := resolve?_eq_some_iff.mp hresolve
  have hindex : index = slot := by
    rw [Handle.slot?, hsplit] at hslot
    exact Option.some.inj hslot
  subst hindex
  obtain ⟨slot', hnow, hcontinues⟩ := hmoves.slot_continues hr htenant
  rw [← Handle.make_eq_word hsplit] at hreleased
  have hpos := releases_pos (Handle.split?_lt hsplit) hreleased
  cases hother : s.resolve? h with
  | none => rfl
  | some other =>
      obtain ⟨index', generation', hsplit', htenant'⟩ := resolve?_eq_some_iff.mp hother
      cases hsplit.symm.trans hsplit'
      cases hnow.symm.trans htenant'
      have hround := congrArg UInt32.toNat hcontinues.generation_eq
      simp only [UInt32.toNat_add, UInt32.toNat_ofNat'] at hround
      have hlt := generation.toNat_lt
      omega

def Detached (r : Registry) (number : Nat) : Prop :=
  ∀ (index : Nat) (generation : UInt32), r.slots[index]? ≠ some ⟨generation, some number⟩

theorem Detached.ne_of_resolve? (hr : r.Detached number) {other : Nat}
    (hresolve : r.resolve? h = some other) : other ≠ number := by
  rintro rfl
  obtain ⟨index, generation, -, hslot⟩ := resolve?_eq_some_iff.mp hresolve
  exact hr index generation hslot

theorem Moves.instances_size_le (hmoves : r.Moves log s) :
    r.instances.size ≤ s.instances.size := by
  induction hmoves with
  | insert r i =>
      rw [instances_insert, Array.size_push]
      exact Nat.le_succ _
  | erase he => exact Nat.le_of_eq (congrArg Array.size (instances_erase? he).symm)
  | update r number f => exact Nat.le_of_eq Array.size_modify.symm
  | refl r => exact Nat.le_refl _
  | trans _ _ ih ih' => exact Nat.le_trans ih ih'

theorem Moves.detached (hmoves : r.Moves log s) (hr : r.Sound) (hnumber : number < r.instances.size)
    (hdetached : r.Detached number) : s.Detached number := by
  induction hmoves with
  | insert r i =>
      obtain ⟨other, generation', -, hlets⟩ := hr.orderly.lets_insert i
      intro index generation hslot
      rw [hlets.slots] at hslot
      split at hslot
      · cases hslot
        exact Nat.lt_irrefl _ hnumber
      · exact hdetached index generation hslot
  | erase he =>
      obtain ⟨other, generation', -, hfrees⟩ := frees_erase? he
      intro index generation hslot
      rw [hfrees.slots] at hslot
      split at hslot
      · cases hslot
      · exact hdetached index generation hslot
  | update r number f => exact hdetached
  | refl r => exact hdetached
  | trans hfirst hthen ih ih' =>
      exact ih' (hfirst.sound hr) (Nat.lt_of_lt_of_le hnumber hfirst.instances_size_le)
        (ih hr hnumber hdetached)

theorem Moves.detached_of_released (hmoves : r.Moves log s) (hr : r.Sound) {index : Nat}
    {generation : UInt32} (hslot : r.slots[index]? = some ⟨generation, some number⟩)
    (hreleased : releases index log ≠ 0) : s.Detached number := by
  induction hmoves generalizing generation with
  | insert r i => exact absurd (releases_issued_cons ..) hreleased
  | erase he =>
      obtain ⟨other, generation', hsplit, hfrees⟩ := frees_erase? he
      rw [← Handle.make_eq_word hsplit, releases_released _ (Handle.split?_lt hsplit)] at hreleased
      have hindex : index = other := by
        apply Decidable.not_not.mp
        exact fun hne => hreleased (if_neg hne)
      intro j k hj
      rw [hfrees.slots] at hj
      split at hj
      · cases hj
      · rename_i hne
        exact hne ((hr.tenant_inj j index k generation number hj hslot).trans hindex)
  | update r number f => exact absurd rfl hreleased
  | refl r => exact absurd rfl hreleased
  | @trans r s t log log' hfirst hthen ih ih' =>
      have hsound := hfirst.sound hr
      -- Either the slot is first released in the second part, or the first part has detached already.
      by_cases hnone : releases index log = 0
      · obtain ⟨⟨generation', tenant⟩, hmid, hcontinues⟩ := hfirst.slot_continues hr.orderly hslot
        cases hcontinues.tenant_eq hnone rfl
        rw [releases_append, hnone, Nat.zero_add] at hreleased
        exact ih' hsound hmid hreleased
      · have hlt := hr.tenant_lt index generation number hslot
        exact hthen.detached hsound (Nat.lt_of_lt_of_le hlt hfirst.instances_size_le)
          (ih hr hslot hnone)

theorem Moves.detached_of_resolve? (hmoves : r.Moves log s) (hr : r.Sound)
    (hresolve : r.resolve? h = some number) (hreleased : .released h.word ∈ log) :
    s.Detached number := by
  obtain ⟨index, generation, hsplit, hslot⟩ := resolve?_eq_some_iff.mp hresolve
  rw [← Handle.make_eq_word hsplit] at hreleased
  have hpos := releases_pos (Handle.split?_lt hsplit) hreleased
  exact hmoves.detached_of_released hr hslot (Nat.ne_of_gt hpos)

end Registry

theorem Registry.resolve?_congr {r s : Registry} (hslots : r.slots = s.slots) (h : Handle) :
    r.resolve? h = s.resolve? h := by
  unfold resolve?
  rw [hslots]

theorem Machine.eq_blank_of_create {config : Config} {m : Machine} (h : create config = .ok m) :
    m = blank config := by
  obtain ⟨_, hvalid, -⟩ := Except.bind_eq_ok h
  cases h.symm.trans (create_eq_ok hvalid)
  rfl

namespace World

structure Declines (w : World) (h : Handle) (number : Nat) (e : Error) : Prop where
  resolves : w.registry.resolve? h = some number
  within : ∀ thread work, (Call.within h work).perform thread w = w.fail thread number e
  destroy : ∀ thread, ((Call.destroy h).perform thread w).2.1 = .ok .done
  lastError : ∀ thread, ((Call.lastError h).perform thread w).2.1 =
    .ok (.message (w.messageOf (.machine number)))

structure Serves (w : World) (h : Handle) (number : Nat) : Prop where
  resolves : w.registry.resolve? h = some number
  within : ∃ i, w.registry.instances[number]? = some i ∧ ∀ thread work,
    (Call.within h work).perform thread w = work.perform thread number i w

structure Fresh (w : World) (h : Handle) (number : Nat) (config : Config) : Prop where
  serves : w.Serves h number
  instance_eq : w.registry.instances[number]? = some (.ofMachine (Machine.blank config))
  lastError : ∀ thread, ((Call.lastError h).perform thread w).2.1 = .ok (.message none)

def Renews (w : World) (slot : Nat) : Prop :=
  w.registry.free.head? = some slot → ∀ thread config h,
    ((Call.create config).perform thread w).2.1 = .ok (.handle h) →
      Handle.slot? h = some slot ∧
        ((Call.create config).perform thread w).1.Fresh h w.registry.instances.size config

structure Spares (w w' : World) (h : Handle) (number : Nat) : Prop where
  instance_eq : w'.registry.instances[number]? = w.registry.instances[number]?
  lastError : ∀ thread, ((Call.lastError h).perform thread w').2.1 =
    ((Call.lastError h).perform thread w).2.1

variable {w u : World} {h : Handle} {number : Nat}

section

variable (hw : w.registry.Sound) (hresolve : w.registry.resolve? h = some number)

include hw hresolve

theorem declines_of_within {e : Error}
    (hwithin : ∀ thread work, (Call.within h work).perform thread w = w.fail thread number e) :
    w.Declines h number e :=
  ⟨hresolve, hwithin, (honours_of_resolve? hresolve (hw.lt_of_resolve? hresolve)).destroy,
    perform_lastError hresolve⟩

theorem declines_of_engaged (hengaged : w.Engaged number) : w.Declines h number .busy := by
  obtain ⟨i, hi, hbusy⟩ := readiness?_eq_some.mp hengaged
  have hwithin := perform_within hresolve hi
  rw [hbusy] at hwithin
  exact declines_of_within hw hresolve hwithin

theorem declines_of_unusable (hunusable : w.readiness? number = some .unusable) :
    w.Declines h number unusable := by
  obtain ⟨i, hi, hready⟩ := readiness?_eq_some.mp hunusable
  have hwithin := perform_within hresolve hi
  rw [hready] at hwithin
  exact declines_of_within hw hresolve hwithin

end

theorem serves_of_idle (hresolve : w.registry.resolve? h = some number)
    (hidle : w.readiness? number = some .idle) : w.Serves h number := by
  obtain ⟨i, hi, hready⟩ := readiness?_eq_some.mp hidle
  have hwithin := perform_within hresolve hi
  rw [hready] at hwithin
  exact ⟨hresolve, i, hi, hwithin⟩

theorem create_eq_ok {thread : Nat} {config : Config}
    (hcreate : ((Call.create config).perform thread w).2.1 = .ok (.handle h)) :
    (w.registry.insert (.ofMachine (Machine.blank config))).2 = h ∧
      ((Call.create config).perform thread w).1.registry =
        (w.registry.insert (.ofMachine (Machine.blank config))).1 := by
  rw [Call.perform, World.create] at hcreate ⊢
  cases hmachine : Machine.create config with
  | error e =>
      rw [hmachine] at hcreate
      cases hcreate
  | ok m =>
      rw [hmachine] at hcreate
      cases Machine.eq_blank_of_create hmachine
      exact ⟨Answer.handle.inj (Outcome.ok.inj hcreate), rfl⟩

theorem renews (hw : w.registry.Sound) {slot : Nat} (hbound : slot + 1 < 4294967296) :
    w.Renews slot := by
  intro hnext thread config h hcreate
  obtain ⟨hhandle, hregistry⟩ := create_eq_ok hcreate
  generalize ((Call.create config).perform thread w).1 = created at hregistry ⊢
  obtain ⟨rest, hfree⟩ := List.head?_eq_some_iff.mp hnext
  obtain ⟨generation, hslot⟩ := (hw.orderly.mem_free_iff slot).mp (hfree ▸ List.mem_cons_self)
  rw [Registry.insert_of_cons hfree hslot] at hhandle hregistry
  subst hhandle
  have hresolve : created.registry.resolve? (Handle.make slot generation) =
      some w.registry.instances.size := by
    rw [Registry.resolve?_make_iff hbound, hregistry]
    exact (Registry.getElem?_setIfInBounds_of_some hslot _ slot).trans (if_pos rfl)
  have hnew : created.registry.instances[w.registry.instances.size]? =
      some (.ofMachine (Machine.blank config)) := by
    rw [hregistry]
    exact Array.getElem?_push_size
  refine ⟨Handle.slot?_make generation hbound, ?_, hnew, ?_⟩
  · exact serves_of_idle hresolve (readiness?_eq_some.mpr ⟨_, hnew, rfl⟩)
  · intro thread'
    rw [perform_lastError hresolve, messageOf, hnew]
    rfl

theorem recordOutcome_apart {α : Type} (w : World) (thread : Nat) {other : Nat}
    (hother : other ≠ number) (outcome : Outcome α) :
    (w.recordOutcome thread number outcome).registry.slots = w.registry.slots ∧
      (w.recordOutcome thread number outcome).registry.instances[other]? =
        w.registry.instances[other]? := by
  cases outcome with
  | error e => exact ⟨rfl, (Registry.instances_update ..).trans (if_neg hother.symm)⟩
  | ok _ | crashed | unfinished => exact ⟨rfl, rfl⟩

end World

def Act.IsOwn (h : Handle) (number : Nat) : Act → Prop
  | .change other _ => other = number
  | .leave _ other _ => other = number
  | .call _ (.within other _) => other = h
  | .call _ (.record other _) => other = h
  | .call _ (.destroy other) => other = h
  | _ => False

theorem Act.IsOwn.spares {a : Act} {w : World} {h : Handle} {number other : Nat}
    (hown : a.IsOwn h number) (hstale : w.registry.resolve? h = none) (hother : other ≠ number) :
    (a.perform w).registry.slots = w.registry.slots ∧
      (a.perform w).registry.instances[other]? = w.registry.instances[other]? := by
  cases a with
  | call thread c =>
      have hrefuses := World.refuses_of_resolve? hstale
      have hkept : (c.perform thread w).1.registry = w.registry := by
        cases c with
        | within h' work =>
            cases hown
            exact (hrefuses.within thread work).2
        | record h' e =>
            cases hown
            rw [Call.perform, hstale]
            rfl
        | destroy h' =>
            cases hown
            exact (hrefuses.destroy thread).2
        | create | recordThread | lastError | onThread => exact hown.elim
      exact ⟨congrArg Registry.slots hkept, congrArg (fun r => r.instances[other]?) hkept⟩
  | change number' m =>
      cases hown
      exact ⟨rfl, (Registry.instances_update ..).trans (if_neg hother.symm)⟩
  | leave thread number' outcome =>
      cases hown
      obtain ⟨hslots, hinstance⟩ :=
        (w.setReadiness number outcome.readiness).recordOutcome_apart thread hother outcome
      refine ⟨hslots, hinstance.trans ?_⟩
      exact (Registry.instances_update ..).trans (if_neg hother.symm)
  | enter | spawn => exact hown.elim

namespace World

variable {w : World} {h h' : Handle} {number other : Nat}

theorem spares_play (hw : w.registry.Sound) (hstale : w.registry.resolve? h = none)
    (hlive : w.registry.resolve? h' = some other) (hother : other ≠ number) {own : List Act}
    (hplays : Plays own w) (hown : ∀ a ∈ own, a.IsOwn h number) :
    w.Spares (play own w) h' other := by
  have hkept : (play own w).registry.slots = w.registry.slots ∧
      (play own w).registry.instances[other]? = w.registry.instances[other]? := by
    apply play_preserves (P := fun v => v.registry.slots = w.registry.slots ∧
      v.registry.instances[other]? = w.registry.instances[other]?) hw hplays ⟨rfl, rfl⟩
    intro a hmem v _ _ hv
    have hstill : v.registry.resolve? h = none :=
      (Registry.resolve?_congr hv.1 h).trans hstale
    obtain ⟨hslots, hinstance⟩ := (hown a hmem).spares hstill hother
    exact ⟨hslots.trans hv.1, hinstance.trans hv.2⟩
  refine ⟨hkept.2, ?_⟩
  intro thread
  rw [perform_lastError hlive,
    perform_lastError ((Registry.resolve?_congr hkept.1 h').trans hlive), messageOf, messageOf,
    hkept.2]

structure Holds (w : World) (h : Handle) (number : Nat) (log : List Event) (u : World) : Prop where
  sound : w.registry.Sound
  resolves : w.registry.resolve? h = some number
  moves : w.registry.Moves log u.registry
  engaged : u.Engaged number

theorem holds_play {acts : List Act} (hw : w.registry.Sound) (hadmits : w.Admits h number)
    (hacts : Plays acts ((Act.enter h).perform w))
    (hholds : ∀ thread outcome, .leave thread number outcome ∉ acts) :
    ((Act.enter h).perform w).Holds h number (eventsIn acts ((Act.enter h).perform w))
      (play acts ((Act.enter h).perform w)) := by
  obtain ⟨i, hi, -⟩ := readiness?_eq_some.mp hadmits.idle
  rw [Act.perform_enter hadmits] at hacts ⊢
  have hsound := (moves_setReadiness w number .busy).sound hw
  have hengaged := engaged_play hsound hacts (engaged_setReadiness hi) hholds
  exact ⟨hsound, hadmits.resolves, moves_play acts _, hengaged⟩

namespace Holds

variable {u : World} {log : List Event} (hheld : w.Holds h number log u)

include hheld

theorem sound_now : u.registry.Sound := hheld.moves.sound hheld.sound

theorem resolves_now (hkept : .released h.word ∉ log) : u.registry.resolve? h = some number :=
  hheld.moves.resolve?_kept hheld.sound.orderly hheld.resolves hkept

theorem declines (hkept : .released h.word ∉ log) : u.Declines h number .busy :=
  declines_of_engaged hheld.sound_now (hheld.resolves_now hkept) hheld.engaged

theorem resolve?_now {slot : Nat} (hreleased : .released h.word ∈ log)
    (hslot : Handle.slot? h = some slot) (hfew : releases slot log < 4294967296) :
    u.registry.resolve? h = none :=
  hheld.moves.resolve?_lost hheld.sound.orderly hheld.resolves hreleased hslot hfew

theorem detached (hreleased : .released h.word ∈ log) : u.registry.Detached number :=
  hheld.moves.detached_of_resolve? hheld.sound hheld.resolves hreleased

theorem resolves_left (hkept : .released h.word ∉ log) (thread : Nat) (outcome : Outcome Answer) :
    ((Act.leave thread number outcome).perform u).registry.resolve? h = some number :=
  ((Act.leave thread number outcome).moves u).resolve?_kept hheld.sound_now.orderly
    (hheld.resolves_now hkept) List.not_mem_nil

theorem sound_left (thread : Nat) (outcome : Outcome Answer) :
    ((Act.leave thread number outcome).perform u).registry.Sound :=
  ((Act.leave thread number outcome).moves u).sound hheld.sound_now

theorem left (thread : Nat) (outcome : Outcome Answer) :
    ((Act.leave thread number outcome).perform u).readiness? number = some outcome.readiness ∧
      ((Act.leave thread number outcome).perform u).machine? number = u.machine? number := by
  obtain ⟨i, hi, -⟩ := readiness?_eq_some.mp hheld.engaged
  have hset := (instance_setReadiness hi number outcome.readiness).trans (if_pos rfl)
  obtain ⟨channel, hleft⟩ := instance_recordOutcome hset thread number outcome
  change ((Act.leave thread number outcome).perform u).registry.instances[number]? = _ at hleft
  refine ⟨readiness?_eq_some.mpr ⟨_, hleft, rfl⟩, ?_⟩
  rw [machine?, machine?, hleft, hi]
  rfl

theorem serves_left (hkept : .released h.word ∉ log) (thread : Nat) {outcome : Outcome Answer}
    (hreturns : outcome ≠ .crashed) :
    ((Act.leave thread number outcome).perform u).Serves h number := by
  have hidle : outcome.readiness = .idle := by
    cases outcome with
    | ok _ | error _ | unfinished => rfl
    | crashed => exact absurd rfl hreturns
  refine serves_of_idle (hheld.resolves_left hkept thread outcome) ?_
  rw [(hheld.left thread outcome).1, hidle]

theorem unusable_left {thread : Nat} {later : List Act}
    (hlater : Plays later ((Act.leave thread number .crashed).perform u)) :
    (play later ((Act.leave thread number .crashed).perform u)).readiness? number =
        some .unusable ∧
      (play later ((Act.leave thread number .crashed).perform u)).machine? number =
        u.machine? number := by
  obtain ⟨hunusable, hmachine⟩ := hheld.left thread .crashed
  obtain ⟨hunusable', hmachine'⟩ :=
    unusable_play (hheld.sound_left thread .crashed) hlater hunusable
  exact ⟨hunusable', hmachine'.trans hmachine⟩

end Holds

theorem reentry_detaching_poisoning {past acts : List Act} {w u : World} {h : Handle}
    {number slot : Nat} (hadmits : (play past initial).Admits h number)
    (hw : (Act.enter h).perform (play past initial) = w) (hacts : Plays acts w)
    (hholds : ∀ thread outcome, .leave thread number outcome ∉ acts) (hu : play acts w = u)
    (hslot : Handle.slot? h = some slot) (hfew : releases slot (eventsIn acts w) < 4294967296) :
    (∀ thread calls, thread < u.threads.size →
      Plays (actsAll thread calls u) u ∧
        play (actsAll thread calls u) u = (performAll thread calls u).1 ∧
        ∀ thread' outcome, .leave thread' number outcome ∉ actsAll thread calls u) ∧
    (.released h.word ∉ eventsIn acts w → u.Declines h number .busy) ∧
    (.released h.word ∈ eventsIn acts w → u.Refuses h ∧
      ∀ h' other own, u.registry.resolve? h' = some other → Plays own u →
        (∀ a ∈ own, a.IsOwn h number) → u.Spares (play own u) h' other) ∧
    u.Renews slot ∧
    (∀ thread outcome, outcome ≠ .crashed → .released h.word ∉ eventsIn acts w →
      ((Act.leave thread number outcome).perform u).Serves h number) ∧
    ∀ thread later v x, (Act.leave thread number .crashed).perform u = v → Plays later v →
      play later v = x →
        x.machine? number = u.machine? number ∧
        (.released h.word ∉ eventsIn acts w ++ eventsIn later v → x.Declines h number unusable) ∧
        x.Renews slot := by
  subst hw
  have hheld := holds_play (sound_play sound_initial past) hadmits hacts hholds
  rw [hu] at hheld
  have hsound := hheld.sound_now
  have hbound : slot + 1 < 4294967296 := by
    obtain ⟨⟨index, generation⟩, hsplit, rfl⟩ := Option.map_eq_some_iff.mp hslot
    exact Handle.split?_lt hsplit
  refine ⟨?_, hheld.declines, ?_, renews hsound hbound, ?_, ?_⟩
  · intro thread calls hthread
    have hlead := lead_performAll thread calls _ hsound hthread
    exact ⟨hlead.plays, hlead.play_eq, hlead.keeps number hheld.engaged⟩
  · intro hreleased
    have hstale := hheld.resolve?_now hreleased hslot hfew
    refine ⟨refuses_of_resolve? hstale, ?_⟩
    intro h' other own hother hplays hown
    have hne := (hheld.detached hreleased).ne_of_resolve? hother
    exact spares_play hsound hstale hother hne hplays hown
  · exact fun thread outcome hreturns hkept => hheld.serves_left hkept thread hreturns
  · rintro thread later v x rfl hlater rfl
    have hmoves := moves_play later ((Act.leave thread number .crashed).perform u)
    have hleft := hheld.sound_left thread .crashed
    obtain ⟨hunusable, hmachine⟩ := hheld.unusable_left hlater
    refine ⟨hmachine, ?_, renews (hmoves.sound hleft) hbound⟩
    intro hkept
    rw [List.mem_append, not_or] at hkept
    have hlive := hheld.resolves_left hkept.1 thread .crashed
    exact declines_of_unusable (hmoves.sound hleft)
      (hmoves.resolve?_kept hleft.orderly hlive hkept.2) hunusable

def taken : World :=
  (Act.enter 1).perform (play [.call 0 (.create ⟨8, 3, 8, false, none⟩)] initial)

def replacement : List Act := [.call 0 (.destroy 1), .call 0 (.create ⟨8, 3, 8, false, none⟩)]

theorem reentry_detaching_poisoning_taken :
    taken.Declines 1 0 .busy ∧
    ((Act.leave 0 0 (.error .noProgram)).perform taken).Serves 1 0 ∧
    ((Act.leave 0 0 .crashed).perform taken).Declines 1 0 unusable ∧
    (play [.call 0 (.destroy 1)] taken).Refuses 1 ∧
    (play replacement taken).Fresh 4294967297 1 ⟨8, 3, 8, false, none⟩ ∧
    (play replacement taken).Spares
      (play [.change 0 (Machine.blank ⟨9, 4, 9, true, none⟩), .leave 0 0 (.error .noProgram)]
        (play replacement taken)) 4294967297 1 := by
  have hadmits : (play [.call 0 (.create ⟨8, 3, 8, false, none⟩)] initial).Admits 1 0 :=
    ⟨by decide +kernel, by decide +kernel⟩
  have hslot : Handle.slot? 1 = some 0 := by decide +kernel
  have hnothing : Plays [] taken := trivial
  obtain ⟨-, hbusy, -, -, hserves, hcrash⟩ := reentry_detaching_poisoning hadmits rfl hnothing
    (fun _ _ => List.not_mem_nil) rfl hslot (by decide +kernel)
  have hdestroy : Plays [.call 0 (.destroy 1)] taken := ⟨⟨by decide +kernel, trivial⟩, trivial⟩
  obtain ⟨-, -, hstale, hrenews, -, -⟩ := reentry_detaching_poisoning hadmits rfl hdestroy
    (by simp) rfl hslot (by decide +kernel)
  have hreplace : Plays replacement taken :=
    ⟨⟨by decide +kernel, trivial⟩, ⟨by decide +kernel, trivial⟩, trivial⟩
  obtain ⟨-, -, hdetached, -, -, -⟩ := reentry_detaching_poisoning hadmits rfl hreplace
    (by simp [replacement]) rfl hslot (by decide +kernel)
  refine ⟨hbusy (by decide +kernel), hserves 0 _ (by simp) (by decide +kernel), ?_,
    (hstale (by decide +kernel)).1, ?_, ?_⟩
  · exact (hcrash 0 [] _ _ rfl trivial rfl).2.1 (by decide +kernel)
  · exact (hrenews (by decide +kernel) 0 ⟨8, 3, 8, false, none⟩ 4294967297 rfl).2
  · refine (hdetached (by decide +kernel)).2 _ _ _ (by decide +kernel) ?_ ?_
    · exact ⟨(by decide +kernel : World.readiness? _ 0 = some .busy),
        ⟨by decide +kernel, (by decide +kernel : World.readiness? _ 0 = some .busy)⟩, trivial⟩
    · simp [Act.IsOwn]

end World

end RegisterMachine
