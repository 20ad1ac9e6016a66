import RegisterMachine.Embedding
import RegisterMachine.Proofs.Acts
import RegisterMachine.Proofs.Requests
import RegisterMachine.Proofs.Writing

namespace RegisterMachine

open Relation

namespace Machine

structure Careful (f : Machine → Machine × Outcome Reply) : Prop where
  refuses : ∀ m e, (f m).2 = .error e → ¬ e.IsFault → (f m).1 = m
  manner : ∀ m, (f m).1.sink.manner = m.sink.manner
  returns : ∀ m, m.sink.Sound → (f m).2 ≠ .crashed

theorem Careful.eq_of_failed {f : Machine → Machine × Outcome Reply} (hf : Careful f) {m : Machine}
    (hm : m.sink.Sound) (hok : ∀ r, (f m).2 ≠ .ok r) (hfault : ∀ fault, (f m).2 ≠ .error (.fault fault))
    (hreturned : (f m).2 ≠ .unfinished) : (f m).1 = m := by
  cases h : (f m).2 with
  | ok r => exact absurd h (hok r)
  | error e =>
      refine hf.refuses m e h ?_
      cases e with
      | fault fault => exact absurd h (hfault fault)
      | _ => exact id
  | crashed => exact absurd h (hf.returns m hm)
  | unfinished => exact absurd h hreturned

theorem run_manner (m : Machine) (patience : Nat) :
    (m.run patience).1.sink.manner = m.sink.manner :=
  run_invariant (P := fun head => head.sink.manner = m.sink.manner)
    (fun head h => head.turn_keeps.2.trans h) patience rfl

theorem execute_manner (m : Machine) (patience : Nat) (arguments : List String) :
    (m.execute patience arguments).1.sink.manner = m.sink.manner := by
  rw [execute_eq]
  cases hentry : m.entry arguments with
  | error e => rfl
  | ok first =>
      dsimp only
      rw [(finish_keeps _).2, run_manner, (entry_start hentry).2.2]

theorem sound_create {config : Config} {m : Machine} (h : create config = .ok m) :
    m.sink.Sound := by
  obtain ⟨-, -, hallocate⟩ := Except.bind_eq_ok h
  obtain ⟨memory, -, hpure⟩ := Except.bind_eq_ok hallocate
  cases hpure
  exact fun step hmanner => by cases hmanner

section Comes

variable {m after : Machine} {patience : Nat} {request : Request} {outcome : Outcome Reply}

theorem Comes.refused_eq {e : Error} (h : m.Comes patience request after (.error e))
    (he : ¬ e.IsFault) : after = m := by
  cases h with
  | refused => rfl
  | ran hentry hrun hends =>
      cases hends with
      | faulted => exact absurd trivial he

theorem Comes.manner (h : m.Comes patience request after outcome)
    (hsink : ∀ manner, request ≠ .setSink manner) : after.sink.manner = m.sink.manner := by
  cases h with
  | refused | answered => rfl
  | loaded hload hafter =>
      obtain ⟨-, -, memory, -, rfl⟩ := load_eq_ok_iff.mp hafter
      rfl
  | @ran arguments first after outcome hentry hrun hends =>
      obtain rfl : (m.execute patience arguments).1 = after := congrArg Prod.fst hrun
      exact m.execute_manner patience arguments
  | adjusted hexecute hload hphase hkept => rw [hkept hsink]

theorem Comes.ne_crashed (h : m.Comes patience request after outcome) (hm : m.sink.Sound) :
    outcome ≠ .crashed := by
  rintro rfl
  cases h with
  | ran hentry hrun hends =>
      have hcrashed := Outcome.map_eq_crashed_iff.mp (congrArg Prod.snd hrun)
      exact execute_ne_crashed hentry (fun _ => hm) patience hcrashed

end Comes

theorem careful_perform (patience : Nat) {request : Request}
    (hsink : ∀ manner, request ≠ .setSink manner) : Careful (·.perform patience request) where
  refuses m e herror he := by
    have hcomes := m.comes_perform patience request
    rw [herror] at hcomes
    exact hcomes.refused_eq he
  manner m := (m.comes_perform patience request).manner hsink
  returns m := (m.comes_perform patience request).ne_crashed

end Machine

namespace Surface

open Machine

theorem code_eq_ok_iff {α : Type} {outcome : Outcome α} :
    code outcome = .ok ↔ ∃ a, outcome = .ok a := by
  cases outcome with
  | ok a => simp [code]
  | error e => simp [code, e.code_ne_ok]
  | crashed | unfinished => simp [code]

theorem careful_request (patience : Nat) {r : Except Objection Request}
    (hsink : ∀ manner, r ≠ .ok (.setSink manner)) : Careful (request patience r) := by
  cases r with
  | ok r => exact careful_perform patience (fun manner h => hsink manner (congrArg _ h))
  | error objection => exact ⟨fun _ _ _ _ => rfl, fun _ => rfl, fun _ _ => by simp [request]⟩

def Asks (patience : Nat) (r : Request) (found : Machine → Except Error Word) : Prop :=
  ∀ m : Machine, m.perform patience r = m.answer .word (found m)

def deliver : Except Error Word → Bool → Outcome Reply
  | .ok w, true => .ok (.word w)
  | .ok _, false => .error (.invalidArgument (.missing "output value"))
  | .error e, _ => .error e

theorem requestWord_eq {patience : Nat} {r : Request} {found : Machine → Except Error Word}
    (hr : Asks patience r found) (target : Bool) (m : Machine) :
    requestWord patience r target m = (m, deliver (found m) target) := by
  unfold requestWord
  rw [hr m]
  unfold answer
  cases found m <;> cases target <;> rfl

theorem careful_requestWord {patience : Nat} {r : Request} (found : Machine → Except Error Word)
    (hr : Asks patience r found) (target : Bool) : Careful (requestWord patience r target) where
  refuses m e _ _ := by rw [requestWord_eq hr]
  manner m := by rw [requestWord_eq hr]
  returns m _ := by
    rw [requestWord_eq hr]
    cases found m <;> cases target <;> simp [deliver]

end Surface

namespace World

variable {w : World} {number : Nat} {i : Instance}

theorem machine?_update (w : World) (other : Nat) (f : Instance → Instance)
    (hf : ∀ i, (f i).machine = i.machine) (number : Nat) :
    machine? { w with registry := w.registry.update other f } number = w.machine? number := by
  unfold machine?
  rw [Registry.instances_update]
  split
  · rw [Option.map_map]
    exact congrArg (Option.map · _) (funext hf)
  · rfl

theorem machine?_record (w : World) (thread other : Nat) (e : Error) (number : Nat) :
    (w.record thread other e).machine? number = w.machine? number :=
  w.machine?_update other (fun i => { i with channel := i.channel.record e }) (fun _ => rfl) number

theorem machine?_recordAll (w : World) (thread other : Nat) (errors : List Error) (number : Nat) :
    (w.recordAll thread other errors).machine? number = w.machine? number := by
  induction errors generalizing w with
  | nil => rfl
  | cons e errors ih => exact (ih _).trans (w.machine?_record thread other e number)

theorem machine?_recordOutcome {α : Type} (w : World) (thread other : Nat) (outcome : Outcome α)
    (number : Nat) : (w.recordOutcome thread other outcome).machine? number = w.machine? number := by
  cases outcome with
  | error e => exact w.machine?_record thread other e number
  | _ => rfl

theorem machine?_operate (hi : w.registry.instances[number]? = some i) (thread : Nat)
    (f : Machine → Machine × Outcome Reply) (other : Nat) :
    (w.operate thread number i f).1.machine? other =
      if number = other then some (f i.machine).1 else w.machine? other := by
  unfold operate
  dsimp only
  rw [machine?_recordOutcome, machine?_recordAll]
  unfold machine?
  rw [Registry.instances_update]
  split
  · rename_i heq
    subst heq
    rw [hi]
    rfl
  · rfl

theorem outcome_operate (w : World) (thread number : Nat) (i : Instance)
    (f : Machine → Machine × Outcome Reply) :
    (w.operate thread number i f).2.1 = (f i.machine).2.map .reply := rfl

theorem within_cases (w : World) (thread : Nat) (h : Handle) (f : Machine → Machine × Outcome Reply) :
    (∃ e, ¬ e.IsFault ∧ ((Call.within h (.operate f)).perform thread w).2.1 = .error e ∧
      ∀ number, ((Call.within h (.operate f)).perform thread w).1.machine? number =
        w.machine? number) ∨
    ∃ number i, w.registry.resolve? h = some number ∧ w.registry.instances[number]? = some i ∧
      (Call.within h (.operate f)).perform thread w = w.operate thread number i f := by
  cases hresolve : w.registry.resolve? h with
  | none =>
      refine .inl ⟨.invalidHandle h, id, ?_⟩
      simp only [Call.perform, hresolve]
      exact ⟨rfl, fun _ => rfl⟩
  | some number =>
      cases hi : w.registry.instances[number]? with
      | none =>
          refine .inl ⟨.invalidHandle h, id, ?_⟩
          simp only [Call.perform, hresolve, hi]
          exact ⟨rfl, fun _ => rfl⟩
      | some i =>
          rw [perform_within hresolve hi]
          cases hready : i.readiness with
          | busy => exact .inl ⟨.busy, id, rfl, w.machine?_record thread number .busy⟩
          | unusable => exact .inl ⟨unusable, id, rfl, w.machine?_record thread number unusable⟩
          | idle => exact .inr ⟨number, i, rfl, hi, rfl⟩

def Calm (w : World) : Prop := ∀ number m, w.machine? number = some m → m.sink.Sound

section Calm

variable {h : Handle} {f : Machine → Machine × Outcome Reply}

theorem Calm.within_kept (hw : w.Calm) (hf : Machine.Careful f) {outcome : Outcome Answer}
    (houtcome : ((Call.within h (.operate f)).perform 0 w).2.1 = outcome)
    (hok : ∀ a, outcome ≠ .ok a) (hfault : ∀ fault, outcome ≠ .error (.fault fault))
    (hreturned : outcome ≠ .unfinished) (number : Nat) :
    ((Call.within h (.operate f)).perform 0 w).1.machine? number = w.machine? number := by
  rcases w.within_cases 0 h f with ⟨e, -, -, hkept⟩ | ⟨other, i, -, hi, hcall⟩
  · exact hkept number
  · have hmachine : w.machine? other = some i.machine := congrArg _ hi
    rw [hcall, outcome_operate] at houtcome
    subst houtcome
    rw [hcall, machine?_operate hi]
    split
    · rename_i heq
      subst heq
      rw [hmachine, hf.eq_of_failed (hw other _ hmachine)]
      · exact fun r hr => hok (.reply r) (congrArg _ hr)
      · exact fun fault hr => hfault fault (congrArg _ hr)
      · exact fun hr => hreturned (congrArg _ hr)
    · rfl

theorem Calm.within (hw : w.Calm) (hf : Machine.Careful f) :
    ((Call.within h (.operate f)).perform 0 w).1.Calm := by
  intro number m hm
  rcases w.within_cases 0 h f with ⟨e, -, -, hkept⟩ | ⟨other, i, -, hi, hcall⟩
  · exact hw number m (hkept number ▸ hm)
  · rw [hcall, machine?_operate hi] at hm
    split at hm
    · cases hm
      intro step
      rw [hf.manner]
      exact hw other i.machine (congrArg _ hi) step
    · exact hw number m hm

theorem Calm.create (hw : w.Calm) (config : Config) : (w.create 0 config).1.Calm := by
  unfold World.create
  cases hcreate : Machine.create config with
  | error e => exact hw
  | ok fresh =>
      intro number m hm
      dsimp only [close] at hm
      rw [machine?, Registry.instances_insert, Array.getElem?_push] at hm
      split at hm
      · cases hm
        exact Machine.sound_create hcreate
      · exact hw number m hm

theorem Calm.destroy (hw : w.Calm) (h : Handle) : (w.destroy 0 h).1.Calm := by
  unfold World.destroy
  cases herase : w.registry.erase? h with
  | none => exact hw
  | some registry =>
      intro number m hm
      refine hw number m (hm.symm ▸ ?_)
      simp only [close, machine?, Registry.instances_erase? herase]

end Calm

end World

namespace Returned

def code? : Returned → Option ResultCode
  | .code c | .value c _ => some c
  | _ => none

def written? : Returned → Option Word
  | .value _ written => written
  | _ => none

end Returned

namespace EntryPoint

open Surface

def work? (host : Host) (patience : Nat) :
    EntryPoint → Option (Handle × (Machine → Machine × Outcome Reply))
  | .load h path => some (h, request patience (match path with
    | some path => .ok (host.openPath (zeroTerminated path))
    | none => .error (.missing "bytecode path")))
  | .loadBuffer h buffer length => some (h, request patience ((image buffer length).map Request.load))
  | .execute h count vector =>
      some (h, request patience ((arguments count vector).map Request.execute))
  | .getRegister h index target => some (h, requestWord patience (.getRegister index) target)
  | .setRegister h index w => some (h, request patience (.ok (.setRegister index w)))
  | .readWord h address target => some (h, requestWord patience (.readWord address) target)
  | .writeWord h address w => some (h, request patience (.ok (.writeWord address w)))
  | .setLimit h limit =>
      some (h, request patience (.ok (.setLimit (if limit = 0 then none else some limit))))
  | .create _ _ | .destroy _ | .lastError _ | .copyLastError _ _ => none

def word? (m : Machine) : EntryPoint → Option (Except Error Word)
  | .getRegister _ index _ => some (m.state.registers.get index)
  | .readWord _ address _ => some (m.readWord address)
  | _ => none

variable {host : Host} {patience : Nat} {e : EntryPoint} {h : Handle}
  {f : Machine → Machine × Outcome Reply}

theorem careful_work? (he : e.work? host patience = some (h, f)) : Machine.Careful f := by
  cases e with
  | load h path =>
      cases he
      exact careful_request patience (fun manner => by cases path <;> simp [Host.openPath])
  | loadBuffer h buffer length =>
      cases he
      exact careful_request patience (fun manner => by cases image buffer length <;> simp [Except.map])
  | execute h count vector =>
      cases he
      exact careful_request patience
        (fun manner => by cases arguments count vector <;> simp [Except.map])
  | getRegister h index target =>
      cases he
      exact careful_requestWord (fun m => m.state.registers.get index) (fun _ => rfl) target
  | readWord h address target =>
      cases he
      exact careful_requestWord (fun m => m.readWord address) (fun _ => rfl) target
  | setRegister | writeWord | setLimit =>
      cases he
      exact careful_request patience (fun manner => by simp)
  | create | destroy | lastError | copyLastError => cases he

end EntryPoint

namespace Host

open Surface

variable {host : Host} {patience : Nat} {e : EntryPoint} {h : Handle}
  {f : Machine → Machine × Outcome Reply}

theorem world_call (host : Host) (c : Call) :
    (host.call c).1.world = (c.perform 0 host.world).1 := rfl

theorem outcome_call (host : Host) (c : Call) :
    (host.call c).2 = (c.perform 0 host.world).2.1 := rfl

theorem machine?_recordPanic (host : Host) (h : Handle) (outcome : Outcome Answer) (number : Nat) :
    (host.recordPanic h outcome).world.machine? number = host.world.machine? number := by
  cases outcome with
  | crashed =>
      rw [recordPanic, world_call, Call.perform]
      cases host.world.registry.resolve? h with
      | none => rfl
      | some other => exact host.world.machine?_record 0 other panicked number
  | ok | error | unfinished => rfl

theorem machine?_guarded (host : Host) (h : Handle) (c : Call) (number : Nat) :
    (host.guarded h c).1.world.machine? number = (c.perform 0 host.world).1.machine? number :=
  machine?_recordPanic _ h _ number

theorem calm_guarded {c : Call} (hcalm : (c.perform 0 host.world).1.Calm) (h : Handle) :
    (host.guarded h c).1.world.Calm :=
  fun number m hm => hcalm number m (machine?_guarded host h c number ▸ hm)

def wordOf : Outcome Answer → Option Word
  | .ok (.reply (.word w)) => some w
  | _ => none

theorem operateForWord_eq (host : Host) (h : Handle) (f : Machine → Machine × Outcome Reply) :
    host.operateForWord h f = ((host.guarded h (.within h (.operate f))).1,
      .value (code (host.call (.within h (.operate f))).2)
        (wordOf (host.call (.within h (.operate f))).2)) := by
  unfold operateForWord guarded
  obtain ⟨after, outcome⟩ := host.call (.within h (.operate f))
  cases outcome with
  | ok answer =>
      cases answer with
      | reply r => cases r <;> rfl
      | _ => rfl
  | _ => rfl

theorem enter_cases (he : e.work? host patience = some (h, f)) :
    host.enter patience e = host.operate h f ∨
      host.enter patience e = host.operateForWord h f := by
  cases e with
  | load | loadBuffer | execute | setRegister | writeWord | setLimit =>
      cases he
      exact .inl rfl
  | getRegister | readWord =>
      cases he
      exact .inr rfl
  | create | destroy | lastError | copyLastError => cases he

theorem enter_eq (he : e.work? host patience = some (h, f)) :
    (host.enter patience e).1 = (host.guarded h (.within h (.operate f))).1 ∧
    (host.enter patience e).2.code? = some (code (host.call (.within h (.operate f))).2) ∧
    ((host.enter patience e).2.written? = none ∨
      (host.enter patience e).2.written? = wordOf (host.call (.within h (.operate f))).2) := by
  rcases enter_cases he with henter | henter
  · rw [henter]
    exact ⟨rfl, rfl, .inl rfl⟩
  · rw [henter, operateForWord_eq]
    exact ⟨rfl, rfl, .inr rfl⟩

theorem enter_of_word? (he : e.work? host patience = some (h, f)) {m : Machine}
    {found : Except Error Word} (hword : e.word? m = some found) :
    (host.enter patience e).2.written? = wordOf (host.call (.within h (.operate f))).2 ∧
    ∃ target, (f m).2 = deliver found target := by
  cases e with
  | getRegister h index target =>
      cases he
      cases hword
      refine ⟨congrArg (fun r => r.2.written?) (operateForWord_eq ..), target, ?_⟩
      rw [requestWord_eq (fun _ => rfl)]
  | readWord h address target =>
      cases he
      cases hword
      refine ⟨congrArg (fun r => r.2.written?) (operateForWord_eq ..), target, ?_⟩
      rw [requestWord_eq (fun _ => rfl)]
  | _ => cases hword

structure Honest (host : Host) (patience : Nat) (e : EntryPoint) (h : Handle)
    (f : Machine → Machine × Outcome Reply) : Prop where
  code : (host.enter patience e).2.code? = some (code (host.call (.within h (.operate f))).2)
  refused (hcode : (host.enter patience e).2.code? ≠ some .ok)
    (hfault : ∀ fault, (host.call (.within h (.operate f))).2 ≠ .error (.fault fault))
    (hreturned : (host.call (.within h (.operate f))).2 ≠ .unfinished) :
    (∀ number, (host.enter patience e).1.world.machine? number = host.world.machine? number) ∧
      (host.enter patience e).2.written? = none
  written (hcode : (host.enter patience e).2.code? = some .ok) :
    ∃ number m, host.world.registry.resolve? h = some number ∧
      host.world.machine? number = some m ∧
      ∀ found, e.word? m = some found →
        ∃ w, found = .ok w ∧ (host.enter patience e).2.written? = some w

theorem Honest.kept_of_code (hhonest : host.Honest patience e h f) {c : ResultCode}
    (hcode : (host.enter patience e).2.code? = some c)
    (hc : c ∉ [.ok, .executionFailed, .generalError]) :
    (∀ number, (host.enter patience e).1.world.machine? number = host.world.machine? number) ∧
      (host.enter patience e).2.written? = none := by
  have hcall := hhonest.code
  rw [hcode, Option.some_inj] at hcall
  simp only [List.mem_cons, List.not_mem_nil, or_false, not_or] at hc
  refine hhonest.refused ?_ (fun fault hfault => ?_) (fun hunfinished => ?_)
  · rw [hcode, ne_eq, Option.some_inj]
    exact hc.1
  · rw [hfault] at hcall
    exact hc.2.1 hcall
  · rw [hunfinished] at hcall
    exact hc.2.2 hcall

theorem honest_of_calm (hcalm : host.world.Calm) (he : e.work? host patience = some (h, f)) :
    host.Honest patience e h f := by
  obtain ⟨hhost, hcode, hwritten⟩ := enter_eq he
  refine ⟨hcode, fun hnot hfault hreturned => ?_, fun hok => ?_⟩
  · have hfailed : ∀ answer, (host.call (.within h (.operate f))).2 ≠ .ok answer := by
      intro answer hanswer
      exact hnot (hcode.trans (congrArg some (code_eq_ok_iff.mpr ⟨answer, hanswer⟩)))
    refine ⟨fun number => ?_, hwritten.elim id (fun hword => hword.trans ?_)⟩
    · rw [hhost, machine?_guarded]
      exact hcalm.within_kept (EntryPoint.careful_work? he) rfl hfailed hfault hreturned number
    · cases houtcome : (host.call (.within h (.operate f))).2 with
      | ok answer => exact absurd houtcome (hfailed answer)
      | _ => rfl
  · rw [hcode, Option.some_inj] at hok
    obtain ⟨answer, hanswer⟩ := code_eq_ok_iff.mp hok
    rcases host.world.within_cases 0 h f with ⟨e, -, herror, -⟩ | ⟨number, i, hresolve, hi, hcall⟩
    · cases hanswer.symm.trans herror
    · refine ⟨number, i.machine, hresolve, congrArg _ hi, fun found hfound => ?_⟩
      obtain ⟨hword, target, hdeliver⟩ := enter_of_word? he hfound
      rw [outcome_call, hcall, World.outcome_operate, hdeliver] at hanswer hword
      cases found with
      | error e => cases hanswer
      | ok w =>
          cases target with
          | false => cases hanswer
          | true => exact ⟨w, rfl, hword⟩

theorem code?_of_no_work (he : e.work? host patience = none) :
    (host.enter patience e).2.code? = none := by
  cases e with
  | create ramSize debug =>
      simp only [enter, create]
      split
      · rfl
      · split <;> rfl
  | destroy | lastError | copyLastError => rfl
  | _ => cases he

theorem calm_enter (hcalm : host.world.Calm) (patience : Nat) (e : EntryPoint) :
    (host.enter patience e).1.world.Calm := by
  cases hwork : e.work? host patience with
  | some work =>
      obtain ⟨h, f⟩ := work
      rw [(enter_eq hwork).1]
      exact calm_guarded (hcalm.within (EntryPoint.careful_work? hwork)) h
  | none =>
      cases e with
      | create ramSize debug =>
          simp only [enter, create]
          split
          · exact calm_guarded (c := .recordThread _) hcalm 0
          · have hcreate := calm_guarded (c := .create _) (hcalm.create
              { Config.ofRamSize ramSize.toNat with debug := decide (debug ≠ 0) }) 0
            generalize host.guarded 0 (.create _) = r at hcreate ⊢
            split <;> exact hcreate
      | destroy h => exact calm_guarded (c := .destroy h) (hcalm.destroy h) h
      | lastError | copyLastError => exact hcalm
      | _ => cases hwork

def Enters (a b : Host) : Prop := ∃ patience e, b = (a.enter patience e).1

def Reaches : Host → Host → Prop := ReflTransGen Enters

theorem calm_of_reaches {files : Files} (h : (initial files).Reaches host) : host.world.Calm := by
  induction h with
  | refl =>
      intro number m hm
      simp [initial, World.initial, World.machine?, Registry.empty] at hm
  | tail _ henters ih =>
      obtain ⟨patience, e, rfl⟩ := henters
      exact calm_enter ih patience e

end Host

structure Machine.Atomic (m : Machine) : Prop where
  refused (patience : Nat) (request : Request) (after : Machine) (e : Error)
    (h : m.perform patience request = (after, .error e)) (he : ¬ e.IsFault) : after = m
  load (image : List UInt8) : Writes.load image m = Writes.attempt (·.load image) m
  enter (arguments : List String) : Writes.enter arguments m = Writes.attempt (·.entry arguments) m

theorem Machine.Invariant.atomic {config : Config} {m : Machine} (hm : m.Invariant config) :
    m.Atomic where
  refused patience request after e h he := by
    have hcomes := m.comes_perform patience request
    rw [h] at hcomes
    exact hcomes.refused_eq he
  load := Writes.load_eq hm.code_le
  enter := Writes.enter_eq hm.three_le_registers

-- A sink that gives way tears a run down halfway, and the call then answers with the code of a general
-- error although registers have changed. Such a sink can only be set by a caller of the library; no entry
-- point sets one, so that every host is calm that only entry points have changed.
theorem refused_changes_nothing :
    (∀ config m, config.validate = .ok () → (Machine.blank config).Reaches m → m.Atomic) ∧
    (∀ files host, (Host.initial files).Reaches host → host.world.Calm) ∧
    ∀ host : Host, host.world.Calm → ∀ patience e,
      match e.work? host patience with
      | some (h, f) => host.Honest patience e h f
      | none => (host.enter patience e).2.code? = none := by
  refine ⟨fun config m hc hreaches => ?_, fun files host => Host.calm_of_reaches,
    fun host hcalm patience e => ?_⟩
  · have hblank := Machine.invariant_blank ((Config.validate_eq_ok_iff config).mp hc)
    exact (hblank.reaches hreaches).atomic
  · cases hwork : e.work? host patience with
    | some work => exact Host.honest_of_calm hcalm hwork
    | none => exact Host.code?_of_no_work hwork

def Host.lodging : Host :=
  (((initial ⟨[], []⟩).enter 0 (.create 16 0)).1.enter 0 (.setRegister 1 2 7)).1

def Host.occupied : Host := { lodging with world := play [.enter 1] lodging.world }

theorem refused_changes_nothing_lodging :
    (∃ e, Machine.crowded.perform 9 (.execute ["a"]) = (Machine.crowded, .error e)) ∧
    (∃ after returned, Host.occupied.enter 0 (.setRegister 1 2 8) = (after, returned) ∧
      returned.code? = some .invalidHandle ∧
      ∀ number, after.world.machine? number = Host.occupied.world.machine? number) ∧
    (∃ after returned, Host.lodging.enter 0 (.getRegister 1 2 false) = (after, returned) ∧
      returned.code? = some .invalidArgument ∧ returned.written? = none ∧
      ∀ number, after.world.machine? number = Host.lodging.world.machine? number) ∧
    ∃ after returned number m w, Host.lodging.enter 0 (.getRegister 1 2 true) = (after, returned) ∧
      returned.code? = some .ok ∧ Host.lodging.world.machine? number = some m ∧
      m.state.registers.get 2 = .ok w ∧ returned.written? = some w := by
  obtain ⟨hmachine, hreached, hhost⟩ := refused_changes_nothing
  have hcalm : Host.lodging.world.Calm := hreached ⟨[], []⟩ _
    (.tail (.single ⟨0, .create 16 0, rfl⟩) ⟨0, .setRegister 1 2 7, rfl⟩)
  refine ⟨?_, ?_, ?_, ?_⟩
  · have herror : (Machine.crowded.perform 9 (.execute ["a"])).2 =
        .error (.invalidArgument (.argumentsTooLong 1 6 0)) := by decide +kernel
    have hatomic := hmachine ⟨8, 3, 8, false, none⟩ Machine.crowded rfl (.single ⟨0, _, rfl⟩)
    exact ⟨_, Prod.ext (hatomic.refused 9 _ _ _ (Prod.ext rfl herror) id) herror⟩
  · have hheld (number : Nat) :
        Host.occupied.world.machine? number = Host.lodging.world.machine? number :=
      World.machine?_update _ 0 (fun i => { i with readiness := .busy }) (fun _ => rfl) number
    have hhonest := hhost Host.occupied (fun number m hm => hcalm number m (hheld number ▸ hm)) 0
      (.setRegister 1 2 8)
    have hcode : (Host.occupied.enter 0 (.setRegister 1 2 8)).2.code? = some .invalidHandle := by
      decide +kernel
    exact ⟨_, _, (Prod.eta _).symm, hcode, (hhonest.kept_of_code hcode (by decide)).1⟩
  · have hhonest := hhost _ hcalm 0 (.getRegister 1 2 false)
    have hcode : (Host.lodging.enter 0 (.getRegister 1 2 false)).2.code? = some .invalidArgument := by
      decide +kernel
    obtain ⟨hkept, hwritten⟩ := hhonest.kept_of_code hcode (by decide)
    exact ⟨_, _, (Prod.eta _).symm, hcode, hwritten, hkept⟩
  · have hhonest := hhost _ hcalm 0 (.getRegister 1 2 true)
    have hcode : (Host.lodging.enter 0 (.getRegister 1 2 true)).2.code? = some .ok := by
      decide +kernel
    obtain ⟨number, m, -, hm, hword⟩ := hhonest.written hcode
    obtain ⟨w, hfound, hwritten⟩ := hword _ rfl
    exact ⟨_, _, number, m, w, (Prod.eta _).symm, hcode, hm, hfound, hwritten⟩

end RegisterMachine
