import RegisterMachine.Proofs.CStrings
import RegisterMachine.Proofs.Nesting

namespace RegisterMachine

inductive Holder where
  | machine (number : Nat)
  | thread (thread : Nat)
deriving DecidableEq, Repr

namespace Failure

def concerns (f : Failure) : Holder → Bool
  | .machine number => f.reached == some number
  | .thread thread => f.thread == thread

def message (f : Failure) : String := Channel.printable f.error.message

end Failure

def latest (holder : Holder) (failures : List Failure) : Option String :=
  (failures.filter (·.concerns holder)).getLast?.map Failure.message

theorem latest_append (holder : Holder) (before after : List Failure) :
    latest holder (before ++ after) = (latest holder after).or (latest holder before) := by
  rw [latest, List.filter_append, List.getLast?_append, Option.map_or]
  rfl

theorem latest_singleton (holder : Holder) (f : Failure) :
    latest holder [f] = if f.concerns holder then some f.message else none := by
  by_cases h : f.concerns holder
  · simp [latest, h]
  · simp [latest, h]

namespace World

def messageOf (w : World) : Holder → Option String
  | .machine number => w.registry.instances[number]?.bind (·.channel.message)
  | .thread thread => w.threadMessage thread

variable {w : World}

theorem perform_lastError {h : Handle} {number : Nat}
    (hresolve : w.registry.resolve? h = some number) (thread : Nat) :
    ((Call.lastError h).perform thread w).2.1 = .ok (.message (w.messageOf (.machine number))) := by
  rw [Call.perform, lastError, hresolve]
  rfl

theorem perform_lastError_of_none {h : Handle} (hresolve : w.registry.resolve? h = none)
    (thread : Nat) :
    ((Call.lastError h).perform thread w).2.1 = .ok (.message (w.messageOf (.thread thread))) := by
  rw [Call.perform, lastError, hresolve]
  rfl

theorem messageOf_update (w : World) (number : Nat) {f : Instance → Instance}
    (hf : ∀ i, (f i).channel = i.channel) (holder : Holder) :
    messageOf { w with registry := w.registry.update number f } holder = w.messageOf holder := by
  cases holder with
  | thread thread => rfl
  | machine other =>
      dsimp only [messageOf]
      rw [Registry.instances_update]
      split
      · rw [Option.bind_map]
        congr 1
        funext i
        exact congrArg Channel.message (hf i)
      · rfl

theorem messageOf_setReadiness (w : World) (number : Nat) (readiness : Readiness)
    (holder : Holder) :
    (w.setReadiness number readiness).messageOf holder = w.messageOf holder :=
  w.messageOf_update number (f := fun i => { i with readiness := readiness }) (fun _ => rfl) holder

theorem messageOf_recordThread {thread : Nat} (hthread : thread < w.threads.size) (e : Error)
    (holder : Holder) : (w.recordThread thread e).messageOf holder =
      (latest holder [⟨thread, none, e⟩]).or (w.messageOf holder) := by
  rw [latest_singleton]
  cases holder with
  | machine number => rfl
  | thread other =>
      dsimp only [messageOf, threadMessage, recordThread, Failure.concerns]
      rw [Array.getElem?_modify]
      by_cases heq : thread = other
      · subst heq
        simp [Array.getElem?_eq_getElem hthread, Channel.message_record, Failure.message]
      · simp [heq]

theorem messageOf_record {thread number : Nat} (hthread : thread < w.threads.size)
    (hnumber : number < w.registry.instances.size) (e : Error) (holder : Holder) :
    (w.record thread number e).messageOf holder =
      (latest holder [⟨thread, some number, e⟩]).or (w.messageOf holder) := by
  rw [latest_singleton]
  cases holder with
  | machine other =>
      dsimp only [messageOf, record, recordThread, Failure.concerns]
      rw [Registry.instances_update]
      by_cases heq : number = other
      · subst heq
        simp [Array.getElem?_eq_getElem hnumber, Channel.message_record, Failure.message]
      · simp [heq]
  | thread other =>
      have h := messageOf_recordThread (w := w) hthread e (.thread other)
      rw [latest_singleton] at h
      exact h

theorem Settles.messageOf {w' : World} {thread : Nat} {failures : List Failure}
    (hw : w.registry.Sound) (hthread : thread < w.threads.size) (h : w.Settles thread failures w')
    (holder : Holder) : w'.messageOf holder = (latest holder failures).or (w.messageOf holder) := by
  cases h with
  | quiet => rfl
  | inserts m =>
      cases holder with
      | thread other => rfl
      | machine number =>
          dsimp only [World.messageOf]
          rw [Registry.instances_insert, Array.getElem?_push]
          -- The number of the new instance led to no message before, and leads to none now.
          split
          · rename_i heq
            subst heq
            simp [Instance.ofMachine, latest, Channel.message, Channel.empty]
          · rfl
  | erases he =>
      cases holder with
      | thread other => rfl
      | machine number =>
          dsimp only [World.messageOf]
          rw [Registry.instances_erase? he]
          rfl
  | refuses e => exact messageOf_recordThread hthread e holder
  | fails hresolve e => exact messageOf_record hthread (hw.lt_of_resolve? hresolve) e holder

theorem messageOf_recordOutcome {α : Type} {thread number : Nat} (hthread : thread < w.threads.size)
    (hnumber : number < w.registry.instances.size) (outcome : Outcome α) (holder : Holder) :
    (w.recordOutcome thread number outcome).messageOf holder =
      (latest holder (outcome.failures thread (some number))).or (w.messageOf holder) := by
  cases outcome with
  | error e => exact messageOf_record hthread hnumber e holder
  | ok _ | crashed | unfinished => rfl

end World

theorem Act.messageOf_perform {w : World} (hw : w.registry.Sound) {a : Act} (ha : a.Possible w)
    (holder : Holder) :
    (a.perform w).messageOf holder = (latest holder (a.failures w)).or (w.messageOf holder) := by
  cases a with
  | call thread c => exact (c.settles hw thread ha.2).messageOf hw ha.1 holder
  | enter h =>
      obtain ⟨number, hadmits⟩ := ha
      rw [Act.perform_enter hadmits]
      exact w.messageOf_setReadiness number .busy holder
  | change number m =>
      exact w.messageOf_update number (f := fun i => { i with machine := m }) (fun _ => rfl) holder
  | leave thread number outcome =>
      obtain ⟨hthread, hengaged⟩ := ha
      obtain ⟨i, hi, -⟩ := World.readiness?_eq_some.mp hengaged
      obtain ⟨hlt, -⟩ := Array.getElem?_eq_some_iff.mp hi
      dsimp only [Act.perform, Act.failures]
      rw [World.messageOf_recordOutcome (w := w.setReadiness number outcome.readiness) hthread
        (Nat.lt_of_lt_of_eq hlt Array.size_modify.symm), World.messageOf_setReadiness]
  | spawn =>
      cases holder with
      | machine number => rfl
      | thread thread =>
          dsimp only [Act.perform, World.messageOf, World.threadMessage]
          rw [Array.getElem?_push]
          split
          · rename_i heq
            subst heq
            simp [Act.failures, latest, Channel.message, Channel.empty]
          · rfl

theorem messageOf_play {acts : List Act} {w : World} (hw : w.registry.Sound)
    (hplays : Plays acts w) (holder : Holder) : (play acts w).messageOf holder =
      (latest holder (failuresIn acts w)).or (w.messageOf holder) := by
  induction acts generalizing w with
  | nil => rfl
  | cons a acts ih =>
      rw [play, ih ((a.moves w).sound hw) hplays.2, a.messageOf_perform hw hplays.1, failuresIn,
        latest_append, Option.or_assoc]

theorem World.Settles.thread_eq {w w' : World} {thread : Nat} {failures : List Failure}
    (h : w.Settles thread failures w') {f : Failure} (hf : f ∈ failures) : f.thread = thread := by
  cases h with
  | quiet | inserts | erases => cases hf
  | refuses e | fails hresolve e =>
      cases List.mem_singleton.mp hf
      rfl

theorem Act.thread?_of_failure {w : World} (hw : w.registry.Sound) {a : Act} (ha : a.Possible w)
    {f : Failure} (hf : f ∈ a.failures w) : a.thread? = some f.thread := by
  cases a with
  | call thread c => exact congrArg some ((c.settles hw thread ha.2).thread_eq hf).symm
  | leave thread number outcome =>
      cases outcome with
      | error e =>
          cases List.mem_singleton.mp hf
          rfl
      | ok _ | crashed | unfinished => cases hf
  | enter | change | spawn => cases hf

theorem Act.latest_failures {w : World} (hw : w.registry.Sound) {a : Act} (ha : a.Possible w)
    {thread : Nat} (hother : a.thread? ≠ some thread) :
    latest (.thread thread) (a.failures w) = none := by
  have hnone : (a.failures w).filter (·.concerns (.thread thread)) = [] := by
    rw [List.filter_eq_nil_iff]
    intro f hf hconcerns
    rw [a.thread?_of_failure hw ha hf] at hother
    exact hother (congrArg some (beq_iff_eq.mp hconcerns))
  rw [latest, hnone]
  rfl

theorem World.sound_initial : World.initial.registry.Sound := Registry.sound_empty

theorem World.messageOf_initial (holder : Holder) : World.initial.messageOf holder = none := by
  cases holder with
  | machine number => rfl
  | thread thread =>
      cases thread with
      | zero | succ => rfl

namespace World

theorem messageOf_play_initial {acts : List Act} (hplays : Plays acts initial) (holder : Holder) :
    (play acts initial).messageOf holder = latest holder (failuresIn acts initial) := by
  rw [messageOf_play sound_initial hplays, messageOf_initial, Option.or_none]

theorem messages_follow_failures {acts : List Act} {w : World} (hplays : Plays acts initial)
    (hw : play acts initial = w) :
    (∀ h number, w.registry.resolve? h = some number → ∀ thread,
      ((Call.lastError h).perform thread w).2.1 =
        .ok (.message (latest (.machine number) (failuresIn acts initial)))) ∧
    (∀ h, w.registry.resolve? h = none → ∀ thread,
      ((Call.lastError h).perform thread w).2.1 =
        .ok (.message (latest (.thread thread) (failuresIn acts initial)))) ∧
    (∀ a : Act, a.Possible w → a.failures w = [] → ∀ holder,
      (a.perform w).messageOf holder = w.messageOf holder) ∧
    (∀ (a : Act) (thread : Nat), a.Possible w → a.thread? ≠ some thread →
      (a.perform w).messageOf (.thread thread) = w.messageOf (.thread thread)) ∧
    ∀ thread calls, thread < w.threads.size →
      Plays (actsAll thread calls w) w ∧
        play (actsAll thread calls w) w = (performAll thread calls w).1 := by
  subst hw
  have hsound := sound_play sound_initial acts
  refine ⟨?_, ?_, ?_, ?_, ?_⟩
  · intro h number hresolve thread
    rw [perform_lastError hresolve, messageOf_play_initial hplays]
  · intro h hresolve thread
    rw [perform_lastError_of_none hresolve, messageOf_play_initial hplays]
  · intro a ha hquiet holder
    rw [a.messageOf_perform hsound ha, hquiet]
    rfl
  · intro a thread ha hother
    rw [a.messageOf_perform hsound ha, a.latest_failures hsound ha hother]
    rfl
  · intro thread calls hthread
    have hlead := lead_performAll thread calls _ hsound hthread
    exact ⟨hlead.plays, hlead.play_eq⟩

def errands : List Call :=
  [.create ⟨8, 3, 8, false, none⟩,
    .within 1 (.hold [.within 1 (.hold [] none), .onThread [.record 1 (.general "a")], .destroy 1,
      .create ⟨8, 3, 8, false, none⟩, .destroy 1] (some (.general "b")))]

def errandFailures : List Failure :=
  [⟨0, some 0, .busy⟩, ⟨1, some 0, .general "a"⟩, ⟨0, none, .invalidHandle 1⟩,
    ⟨0, some 0, .general "b"⟩]

theorem messages_follow_failures_errands :
    failuresIn (actsAll 0 errands initial) initial = errandFailures ∧
    ((Call.lastError 4294967297).perform 1 (performAll 0 errands initial).1).2.1 =
      .ok (.message none) ∧
    ((Call.lastError 1).perform 0 (performAll 0 errands initial).1).2.1 =
      .ok (.message (some "b")) ∧
    ((Call.lastError 0).perform 1 (performAll 0 errands initial).1).2.1 =
      .ok (.message (some "a")) := by
  have hfailures : failuresIn (actsAll 0 errands initial) initial = errandFailures := by
    decide +kernel
  have hfirst : latest (.thread 0) errandFailures = some "b" := by decide +kernel
  have hsecond : latest (.thread 1) errandFailures = some "a" := by decide +kernel
  have hlead := lead_performAll 0 errands initial sound_initial Nat.zero_lt_one
  obtain ⟨hlive, hstale, -⟩ := messages_follow_failures hlead.plays hlead.play_eq
  rw [hfailures] at hlive hstale
  refine ⟨hfailures, hlive 4294967297 1 (by decide +kernel) 1, ?_, ?_⟩
  · rw [hstale 1 (by decide +kernel), hfirst]
  · rw [hstale 0 (by decide +kernel), hsecond]

end World

end RegisterMachine
