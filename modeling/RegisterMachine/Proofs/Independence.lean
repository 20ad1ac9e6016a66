import RegisterMachine.Proofs.Reentry

namespace RegisterMachine

namespace Registry

variable {r s : Registry} {h h' : Handle}

def look (r : Registry) (h : Handle) : Option (Nat × Option Instance) :=
  (r.resolve? h).map (fun number => (number, r.instances[number]?))

def instance? (r : Registry) (h : Handle) : Option Instance := (r.look h).bind Prod.snd

theorem look_eq (hslots : r.resolve? h = s.resolve? h)
    (hinstances : ∀ number, s.resolve? h = some number →
      r.instances[number]? = s.instances[number]?) : r.look h = s.look h := by
  unfold look
  rw [hslots]
  cases hresolve : s.resolve? h with
  | none => rfl
  | some number => rw [Option.map_some, Option.map_some, hinstances number hresolve]

theorem resolve?_update (r : Registry) (number : Nat) (f : Instance → Instance) (h : Handle) :
    (r.update number f).resolve? h = r.resolve? h := rfl

theorem look_update (r : Registry) (number : Nat) (f : Instance → Instance) (h : Handle) :
    (r.update number f).look h =
      (r.look h).map (fun x => (x.1, if number = x.1 then x.2.map f else x.2)) := by
  unfold look
  rw [resolve?_update]
  cases r.resolve? h with
  | none => rfl
  | some other => rw [Option.map_some, Option.map_some, Option.map_some, instances_update]

theorem look_update_apart {number : Nat} (hapart : r.resolve? h ≠ some number)
    (f : Instance → Instance) : (r.update number f).look h = r.look h := by
  refine look_eq (r.resolve?_update number f h) (fun other hother => ?_)
  have hne : number ≠ other := by
    rintro rfl
    exact hapart hother
  rw [instances_update, if_neg hne]

theorem erase?_eq_none_iff : r.erase? h = none ↔ r.resolve? h = none := by
  unfold erase?
  cases hresolve : r.resolve? h with
  | none => simp
  | some number =>
      obtain ⟨index, generation, hsplit, -⟩ := resolve?_eq_some_iff.mp hresolve
      simp [hsplit]

theorem look_erase? (he : r.erase? h = some s) : s.look h = none := by
  obtain ⟨index, generation, hsplit, hfrees⟩ := frees_erase? he
  cases hresolve : s.resolve? h with
  | none => rw [look, hresolve, Option.map_none]
  | some number =>
      obtain ⟨index', generation', hsplit', hslot⟩ := resolve?_eq_some_iff.mp hresolve
      cases hsplit.symm.trans hsplit'
      rw [hfrees.slots, if_pos rfl] at hslot
      cases congrArg (Option.map Slot.tenant) hslot

theorem look_erase?_apart (he : r.erase? h' = some s) (hne : h.word ≠ h'.word) :
    s.look h = r.look h := by
  obtain ⟨index', generation', hsplit', hfrees⟩ := frees_erase? he
  refine look_eq (Option.ext fun number => ?_) (fun number _ => by rw [hfrees.instances])
  rw [resolve?_eq_some_iff, resolve?_eq_some_iff]
  refine exists_congr fun index => exists_congr fun generation => and_congr_right fun hsplit => ?_
  rw [hfrees.slots]
  split
  · rename_i heq
    subst heq
    obtain ⟨tenant, htenant⟩ := hfrees.tenant
    rw [htenant]
    have hgeneration : generation' ≠ generation := by
      rintro rfl
      exact hne ((Handle.make_eq_word hsplit).symm.trans (Handle.make_eq_word hsplit'))
    simp [hgeneration]
  · rfl

theorem Sound.word_eq (hr : r.Sound) {number : Nat} (hh : r.resolve? h = some number)
    (hh' : r.resolve? h' = some number) : h.word = h'.word := by
  obtain ⟨index, generation, hsplit, hslot⟩ := resolve?_eq_some_iff.mp hh
  obtain ⟨index', generation', hsplit', hslot'⟩ := resolve?_eq_some_iff.mp hh'
  obtain rfl := hr.tenant_inj _ _ _ _ _ hslot hslot'
  cases hslot.symm.trans hslot'
  exact (Handle.make_eq_word hsplit).symm.trans (Handle.make_eq_word hsplit')

end Registry

inductive Call.On (h : Handle) : Call → Prop
  | operate (f : Machine → Machine × Outcome Reply) : On h (.within h (.operate f))
  | record (e : Error) : On h (.record h e)
  | lastError : On h (.lastError h)
  | destroy : On h (.destroy h)

structure Sight where
  outcome : Outcome Answer
  message : Option String
  instance? : Option Instance
  machine : Option Machine
  transcript : Option Transcript

def Step.sight (h : Handle) (step : Step) : Sight :=
  ⟨step.1, step.2.message, step.2.registry.instance? h, step.2.machine, step.2.transcript⟩

namespace World

variable {w v u : World} {thread other : Nat} {h h' : Handle}

structure Alike (thread : Nat) (h : Handle) (w v : World) : Prop where
  look : w.registry.look h = v.registry.look h
  channel : w.threads[thread]? = v.threads[thread]?

theorem Alike.trans (hwv : w.Alike thread h v) (hvu : v.Alike thread h u) : w.Alike thread h u :=
  ⟨hwv.look.trans hvu.look, hwv.channel.trans hvu.channel⟩

theorem Alike.update (hwv : w.Alike thread h v) (number : Nat) (f : Instance → Instance) :
    Alike thread h { w with registry := w.registry.update number f }
      { v with registry := v.registry.update number f } := by
  refine ⟨?_, hwv.channel⟩
  rw [Registry.look_update, Registry.look_update, hwv.look]

theorem threads_recordThread (w : World) (thread : Nat) (e : Error) (other : Nat) :
    (w.recordThread thread e).threads[other]? =
      if thread = other then w.threads[other]?.map (·.record e) else w.threads[other]? :=
  Array.getElem?_modify ..

theorem Alike.recordThread (hwv : w.Alike thread h v) (caller : Nat) (e : Error) :
    (w.recordThread caller e).Alike thread h (v.recordThread caller e) := by
  refine ⟨hwv.look, ?_⟩
  rw [threads_recordThread, threads_recordThread, hwv.channel]

theorem Alike.record (hwv : w.Alike thread h v) (caller number : Nat) (e : Error) :
    (w.record caller number e).Alike thread h (v.record caller number e) :=
  (hwv.update number _).recordThread caller e

theorem Alike.recordAll (hwv : w.Alike thread h v) (caller number : Nat) (errors : List Error) :
    (w.recordAll caller number errors).Alike thread h (v.recordAll caller number errors) := by
  induction errors generalizing w v with
  | nil => exact hwv
  | cons e errors ih => exact ih (hwv.record caller number e)

theorem Alike.recordOutcome {α : Type} (hwv : w.Alike thread h v) (caller number : Nat)
    (outcome : Outcome α) :
    (w.recordOutcome caller number outcome).Alike thread h
      (v.recordOutcome caller number outcome) := by
  cases outcome with
  | error e => exact hwv.record caller number e
  | ok _ | crashed | unfinished => exact hwv

theorem Alike.resolve? (hwv : w.Alike thread h v) :
    w.registry.resolve? h = v.registry.resolve? h := by
  have hlook := congrArg (Option.map Prod.fst) hwv.look
  simpa [Registry.look, Function.comp_def] using hlook

theorem Alike.instance? (hwv : w.Alike thread h v) :
    w.registry.instance? h = v.registry.instance? h := congrArg (Option.bind · Prod.snd) hwv.look

theorem Alike.message (hwv : w.Alike thread h v) : w.threadMessage thread = v.threadMessage thread :=
  congrArg (Option.bind · Channel.message) hwv.channel

structure Matches (thread : Nat) (h : Handle) (x y : World × Step) : Prop where
  alike : x.1.Alike thread h y.1
  sight : x.2.sight h = y.2.sight h

theorem Alike.close (hwv : w.Alike thread h v) (outcome : Outcome Answer) :
    Matches thread h (w.close thread outcome) (v.close thread outcome) := by
  refine ⟨hwv, ?_⟩
  simp only [World.close, Step.sight, view, hwv.message, hwv.instance?]

theorem Alike.refuse (hwv : w.Alike thread h v) (e : Error) :
    Matches thread h (w.refuse thread e) (v.refuse thread e) :=
  (hwv.recordThread thread e).close (.error e)

theorem Alike.fail (hwv : w.Alike thread h v) (number : Nat) (e : Error) :
    Matches thread h (w.fail thread number e) (v.fail thread number e) :=
  (hwv.record thread number e).close (.error e)

theorem Alike.operate (hwv : w.Alike thread h v) (number : Nat) (i : Instance)
    (f : Machine → Machine × Outcome Reply) :
    Matches thread h (w.operate thread number i f) (v.operate thread number i f) := by
  have hafter : (w.operate thread number i f).1.Alike thread h (v.operate thread number i f).1 :=
    ((hwv.update number _).recordAll thread number _).recordOutcome thread number (f i.machine).2
  refine ⟨hafter, ?_⟩
  change Sight.mk _ ((w.operate thread number i f).1.threadMessage thread)
      ((w.operate thread number i f).1.registry.instance? h) _ _ =
    Sight.mk _ ((v.operate thread number i f).1.threadMessage thread)
      ((v.operate thread number i f).1.registry.instance? h) _ _
  rw [hafter.message, hafter.instance?]
  rfl

theorem Alike.instances (hwv : w.Alike thread h v) {number : Nat}
    (hresolve : v.registry.resolve? h = some number) :
    w.registry.instances[number]? = v.registry.instances[number]? := by
  have hlook := hwv.look
  unfold Registry.look at hlook
  rw [hwv.resolve?, hresolve] at hlook
  exact congrArg Prod.snd (Option.some.inj hlook)

theorem Alike.lastError (hwv : w.Alike thread h v) : w.lastError thread h = v.lastError thread h := by
  unfold World.lastError
  rw [hwv.resolve?, hwv.message]
  cases hresolve : v.registry.resolve? h with
  | none => rfl
  | some number =>
      dsimp only
      rw [hwv.instances hresolve]

theorem Alike.within (hwv : w.Alike thread h v) (f : Machine → Machine × Outcome Reply) :
    Matches thread h ((Call.within h (.operate f)).perform thread w)
      ((Call.within h (.operate f)).perform thread v) := by
  simp only [Call.perform, hwv.resolve?]
  cases hresolve : v.registry.resolve? h with
  | none => exact hwv.refuse _
  | some number =>
      dsimp only
      rw [hwv.instances hresolve]
      cases v.registry.instances[number]? with
      | none => exact hwv.refuse _
      | some i =>
          dsimp only
          cases i.readiness with
          | busy => exact hwv.fail number .busy
          | unusable => exact hwv.fail number unusable
          | idle =>
              simp only [Work.perform]
              exact hwv.operate number i f

theorem Alike.destroy (hwv : w.Alike thread h v) :
    Matches thread h (w.destroy thread h) (v.destroy thread h) := by
  unfold World.destroy
  cases hw : w.registry.erase? h with
  | none =>
      rw [Registry.erase?_eq_none_iff, hwv.resolve?, ← Registry.erase?_eq_none_iff] at hw
      rw [hw]
      exact hwv.refuse _
  | some left =>
      cases hv : v.registry.erase? h with
      | none =>
          rw [Registry.erase?_eq_none_iff, ← hwv.resolve?, ← Registry.erase?_eq_none_iff, hw] at hv
          cases hv
      | some right =>
          have herased : Alike thread h { w with registry := left } { v with registry := right } :=
            ⟨(Registry.look_erase? hw).trans (Registry.look_erase? hv).symm, hwv.channel⟩
          exact herased.close _

theorem Alike.perform (hwv : w.Alike thread h v) {call : Call} (hcall : call.On h) :
    Matches thread h (call.perform thread w) (call.perform thread v) := by
  cases hcall with
  | operate f => exact hwv.within f
  | record e =>
      simp only [Call.perform, hwv.resolve?]
      cases v.registry.resolve? h with
      | none => exact (hwv.recordThread thread e).close _
      | some number => exact (hwv.record thread number e).close _
  | lastError =>
      simp only [Call.perform, hwv.lastError]
      exact hwv.close _
  | destroy =>
      simp only [Call.perform]
      exact hwv.destroy

section Apart

variable {number : Nat} (hthread : other ≠ thread)

include hthread

theorem alike_recordThread (w : World) (e : Error) : (w.recordThread other e).Alike thread h w := by
  refine ⟨rfl, ?_⟩
  rw [threads_recordThread, if_neg hthread]

theorem alike_record (hapart : w.registry.resolve? h ≠ some number) (e : Error) :
    (w.record other number e).Alike thread h w := by
  refine (alike_recordThread hthread _ e).trans ⟨?_, rfl⟩
  exact Registry.look_update_apart hapart _

theorem alike_recordAll (hapart : w.registry.resolve? h ≠ some number) (errors : List Error) :
    (w.recordAll other number errors).Alike thread h w := by
  induction errors generalizing w with
  | nil => exact ⟨rfl, rfl⟩
  | cons e errors ih =>
      exact (ih (w := w.record other number e) hapart).trans (alike_record hthread hapart e)

theorem alike_recordOutcome {α : Type} (hapart : w.registry.resolve? h ≠ some number)
    (outcome : Outcome α) : (w.recordOutcome other number outcome).Alike thread h w := by
  cases outcome with
  | error e => exact alike_record hthread hapart e
  | ok _ | crashed | unfinished => exact ⟨rfl, rfl⟩

theorem alike_operate (hapart : w.registry.resolve? h ≠ some number) (i : Instance)
    (f : Machine → Machine × Outcome Reply) :
    (w.operate other number i f).1.Alike thread h w := by
  have hrecorded (g : Instance → Instance) (errors : List Error) :
      (recordAll { w with registry := w.registry.update number g } other number errors).Alike
        thread h w := by
    refine (alike_recordAll hthread ?_ errors).trans ⟨?_, rfl⟩
    · exact hapart
    · exact Registry.look_update_apart hapart g
  refine (alike_recordOutcome hthread ?_ (f i.machine).2).trans (hrecorded _ _)
  rw [(hrecorded _ _).resolve?]
  exact hapart

theorem alike_perform (hw : w.registry.Sound) {call : Call} (hcall : call.On h')
    (hne : h.word ≠ h'.word) : (call.perform other w).1.Alike thread h w := by
  have hapart : ∀ number, w.registry.resolve? h' = some number →
      w.registry.resolve? h ≠ some number := by
    intro number hresolve hresolve'
    exact hne (hw.word_eq hresolve' hresolve)
  cases hcall with
  | operate f =>
      simp only [Call.perform]
      cases hresolve : w.registry.resolve? h' with
      | none => exact alike_recordThread hthread w _
      | some number =>
          dsimp only
          cases w.registry.instances[number]? with
          | none => exact alike_recordThread hthread w _
          | some i =>
              dsimp only
              cases i.readiness with
              | busy | unusable => exact alike_record hthread (hapart number hresolve) _
              | idle =>
                  simp only [Work.perform]
                  exact alike_operate hthread (hapart number hresolve) i f
  | record e =>
      simp only [Call.perform]
      cases hresolve : w.registry.resolve? h' with
      | none => exact alike_recordThread hthread w e
      | some number => exact alike_record hthread (hapart number hresolve) e
  | lastError =>
      simp only [Call.perform]
      exact ⟨rfl, rfl⟩
  | destroy =>
      simp only [Call.perform, World.destroy]
      cases herase : w.registry.erase? h' with
      | none => exact alike_recordThread hthread w _
      | some registry => exact ⟨Registry.look_erase?_apart herase hne, rfl⟩

end Apart

def schedule : List (Nat × Call) → World → World × List (Nat × Step)
  | [], w => (w, [])
  | (thread, call) :: calls, w =>
      let (next, step) := call.perform thread w
      let (last, steps) := schedule calls next
      (last, (thread, step) :: steps)

def sights (thread : Nat) (h : Handle) (steps : List (Nat × Step)) : List Sight :=
  (steps.filter (fun x => x.1 = thread)).map (fun x => x.2.sight h)

theorem sights_cons_own (step : Step) (steps : List (Nat × Step)) :
    sights thread h ((thread, step) :: steps) = step.sight h :: sights thread h steps := by
  unfold sights
  rw [List.filter_cons_of_pos (by simp), List.map_cons]

theorem sights_cons_other (hthread : other ≠ thread) (step : Step) (steps : List (Nat × Step)) :
    sights thread h ((other, step) :: steps) = sights thread h steps := by
  unfold sights
  rw [List.filter_cons_of_neg (by simpa using hthread)]

def Minds (thread : Nat) (h : Handle) (x : Nat × Call) : Prop :=
  (x.1 = thread ∧ x.2.On h) ∨ (x.1 ≠ thread ∧ ∃ h', x.2.On h' ∧ h.word ≠ Handle.word h')

theorem Alike.schedule (hwv : w.Alike thread h v) (hw : w.registry.Sound)
    {calls : List (Nat × Call)} (hcalls : ∀ x ∈ calls, Minds thread h x) :
    let alone := v.schedule (calls.filter (fun x => x.1 = thread))
    (schedule calls w).1.Alike thread h alone.1 ∧
      sights thread h (schedule calls w).2 = sights thread h alone.2 := by
  induction calls generalizing w v with
  | nil => exact ⟨hwv, rfl⟩
  | cons x calls ih =>
      obtain ⟨caller, call⟩ := x
      obtain ⟨hx, hcalls⟩ := List.forall_mem_cons.mp hcalls
      have hsound := (call.moves caller w).sound hw
      rcases hx with ⟨hthread, hon⟩ | ⟨hthread, h', hon, hne⟩
      · obtain rfl : caller = thread := hthread
        obtain ⟨hnext, hsight⟩ := hwv.perform hon
        obtain ⟨hlast, hsights⟩ := ih hnext hsound hcalls
        rw [List.filter_cons_of_pos (by simp)]
        refine ⟨hlast, ?_⟩
        simp only [World.schedule, sights_cons_own]
        rw [hsight, hsights]
      · have hnext := (alike_perform hthread hw hon hne).trans hwv
        obtain ⟨hlast, hsights⟩ := ih hnext hsound hcalls
        rw [List.filter_cons_of_neg (by simpa using hthread)]
        refine ⟨hlast, ?_⟩
        simp only [World.schedule, sights_cons_other hthread]
        exact hsights

end World

structure World.Agrees (thread : Nat) (h : Handle) (w v : World) : Prop where
  instance? : w.registry.instance? h = v.registry.instance? h
  lastError : w.lastError thread h = v.lastError thread h
  message : w.threadMessage thread = v.threadMessage thread

theorem World.Alike.agrees {thread : Nat} {h : Handle} {w v : World} (hwv : w.Alike thread h v) :
    w.Agrees thread h v := ⟨hwv.instance?, hwv.lastError, hwv.message⟩

theorem interleaving_goes_unnoticed {past : List Act} {w : World} (hw : play past World.initial = w)
    (team : List Nat) (owned : Nat → Handle)
    (hapart : ∀ s ∈ team, ∀ t ∈ team, s ≠ t → (owned s).word ≠ (owned t).word)
    {calls : List (Nat × Call)} (hcalls : ∀ x ∈ calls, x.1 ∈ team ∧ x.2.On (owned x.1)) :
    (∀ thread ∈ team,
      let together := w.schedule calls
      let alone := w.schedule (calls.filter (fun x => x.1 = thread))
      World.sights thread (owned thread) together.2 = World.sights thread (owned thread) alone.2 ∧
        together.1.Agrees thread (owned thread) alone.1) ∧
    ∀ thread h, thread ∉ team → (∀ t ∈ team, h.word ≠ (owned t).word) →
      (w.schedule calls).1.Agrees thread h w := by
  have hsound : w.registry.Sound := hw ▸ sound_play World.sound_initial past
  have hsame (thread : Nat) (h : Handle) : w.Alike thread h w := ⟨rfl, rfl⟩
  constructor
  · intro thread hthread
    have hminds : ∀ x ∈ calls, World.Minds thread (owned thread) x := by
      intro x hx
      obtain ⟨hmember, hon⟩ := hcalls x hx
      by_cases heq : x.1 = thread
      · exact .inl ⟨heq, heq ▸ hon⟩
      · exact .inr ⟨heq, _, hon, hapart thread hthread x.1 hmember (Ne.symm heq)⟩
    obtain ⟨hlast, hsights⟩ := (hsame thread (owned thread)).schedule hsound hminds
    exact ⟨hsights, hlast.agrees⟩
  · intro thread h hthread hother
    have hne : ∀ x ∈ calls, x.1 ≠ thread := fun x hx heq => hthread (heq ▸ (hcalls x hx).1)
    have hminds : ∀ x ∈ calls, World.Minds thread h x := fun x hx =>
      .inr ⟨hne x hx, _, (hcalls x hx).2, hother x.1 (hcalls x hx).1⟩
    have hlast := ((hsame thread h).schedule hsound hminds).1
    rw [List.filter_eq_nil_iff.mpr (fun x hx => by simpa using hne x hx)] at hlast
    exact hlast.agrees

def paired : List Act :=
  [.call 0 (.create ⟨8, 3, 8, false, none⟩), .call 0 (.create ⟨8, 3, 8, false, none⟩), .spawn]

def bustle : List (Nat × Call) :=
  [(0, .within 1 (.operate (·.perform 0 (.load [0x01])))),
   (1, .within 2 (.operate (fun m => (m, .crashed)))),
   (0, .within 1 (.operate (·.perform 9 (.execute [])))),
   (1, .record 2 .noProgram), (1, .destroy 2), (0, .lastError 1), (1, .lastError 2)]

theorem bustle_on : ∀ x ∈ bustle, x.1 ∈ [0, 1] ∧ x.2.On (x.1 + 1) := by
  simp only [bustle, List.forall_mem_cons, List.not_mem_nil, false_implies, implies_true, and_true]
  exact ⟨⟨by decide, .operate _⟩, ⟨by decide, .operate _⟩, ⟨by decide, .operate _⟩,
    ⟨by decide, .record _⟩, ⟨by decide, .destroy⟩, ⟨by decide, .lastError⟩, ⟨by decide, .lastError⟩⟩

theorem interleaving_goes_unnoticed_bustle :
    let w := play paired World.initial
    let alone := fun thread => w.schedule (bustle.filter (fun x => x.1 = thread))
    (∀ thread ∈ [0, 1],
      World.sights thread (thread + 1) (w.schedule bustle).2 =
        World.sights thread (thread + 1) (alone thread).2 ∧
      (w.schedule bustle).1.Agrees thread (thread + 1) (alone thread).1) ∧
    (w.schedule bustle).1.Agrees 2 3 w ∧
    ((w.schedule bustle).1.registry.instance? 1).map (·.machine.phase) = some .halted ∧
    (w.schedule bustle).1.lastError 1 2 = some "no program has been loaded" := by
  have hlaw := interleaving_goes_unnoticed (w := play paired World.initial) rfl [0, 1]
    (fun thread => thread + 1) (by decide) bustle_on
  exact ⟨hlaw.1, hlaw.2 2 3 (by decide) (by decide), by decide +kernel, by decide +kernel⟩

end RegisterMachine
