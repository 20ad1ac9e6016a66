import RegisterMachine.Proofs.Messages
import RegisterMachine.Proofs.Refusal

namespace RegisterMachine

namespace Surface

theorem zeroTerminated_memory (s : CString) : zeroTerminated s.memory = s.bytes := by
  have hbytes : ∀ b ∈ s.bytes, decide (b ≠ 0) = true := by
    intro b hb
    exact decide_eq_true (fun heq => s.zero_not_mem (heq ▸ hb))
  rw [zeroTerminated, CString.memory, List.takeWhile_append_of_pos hbytes]
  exact List.append_nil _

structure Copied (message buffer after : List UInt8) : Prop where
  length_eq : after.length = buffer.length
  contents (hbuffer : buffer ≠ []) (k : Nat) :
    after[k]? = if k < min message.length (buffer.length - 1) then message[k]?
      else if k = min message.length (buffer.length - 1) then some 0
      else buffer[k]?
  whole : message ++ [0] <+: after ↔ message.length < buffer.length

theorem copyInto_of_ne_nil {buffer : List UInt8} (hbuffer : buffer ≠ []) (message : List UInt8) :
    copyInto buffer message = message.take (buffer.length - 1) ++
      0 :: buffer.drop (min message.length (buffer.length - 1) + 1) := by
  rw [copyInto, if_neg hbuffer]
  dsimp only
  rw [List.length_take, Nat.min_comm]

theorem copied_copyInto (message buffer : List UInt8) :
    Copied message buffer (copyInto buffer message) where
  length_eq := length_copyInto buffer message
  contents := by
    intro hbuffer k
    have hlength : (message.take (buffer.length - 1)).length =
        min message.length (buffer.length - 1) := by rw [List.length_take, Nat.min_comm]
    rw [copyInto_of_ne_nil hbuffer]
    generalize min message.length (buffer.length - 1) = n at hlength ⊢
    rcases Nat.lt_trichotomy k n with hlt | rfl | hgt
    · rw [if_pos hlt, List.getElem?_append_left (by omega), List.getElem?_take_of_lt]
      rw [List.length_take] at hlength
      omega
    · rw [if_neg (Nat.lt_irrefl _), if_pos rfl, List.getElem?_append_right (by omega), hlength,
        Nat.sub_self, List.getElem?_cons_zero]
    · obtain ⟨d, rfl⟩ := Nat.exists_eq_add_of_lt hgt
      rw [if_neg (by omega), if_neg (by omega), List.getElem?_append_right (by omega), hlength,
        show n + d + 1 - n = d + 1 by omega, List.getElem?_cons_succ, List.getElem?_drop]
      congr 1
      omega
  whole := by
    constructor
    · intro hprefix
      have hle := hprefix.length_le
      rw [length_copyInto, List.length_append, List.length_singleton] at hle
      exact hle
    · intro hroom
      have hbuffer : buffer ≠ [] := List.ne_nil_of_length_pos (by omega)
      rw [copyInto_of_ne_nil hbuffer, List.take_of_length_le (by omega)]
      exact (List.prefix_append_right_inj message).mpr ⟨_, rfl⟩

structure Fetches (message : List UInt8) (buffer : Option (List UInt8))
    (fetched : Nat × Option (List UInt8)) : Prop where
  length_eq : fetched.1 = message.length
  absent (habsent : buffer = none) : fetched.2 = none
  given (before : List UInt8) (hgiven : buffer = some before) :
    ∃ after, fetched.2 = some after ∧ Copied message before after

theorem fetches_copyMessage (w : World) (thread : Nat) (h : Handle) (buffer : Option (List UInt8)) :
    Fetches (Text.bytes ((w.lastError thread h).getD "").toList) buffer
      (copyMessage w thread h buffer) where
  length_eq := rfl
  absent := by
    rintro rfl
    rfl
  given := by
    rintro before rfl
    exact ⟨_, rfl, copied_copyInto _ before⟩

end Surface

def Channel.Faithful (c : Channel) : Prop :=
  ∀ s, c.held = some s → s.bytes = Text.bytes s.text.toList

theorem Channel.faithful_empty : Channel.empty.Faithful := by
  intro s hs
  cases hs

theorem Channel.faithful_record (c : Channel) (e : Error) : (c.record e).Faithful := by
  intro s hs
  have hbytes := c.bytes_of_held_record hs
  rw [CString.text_of_bytes hbytes, hbytes]

namespace World

structure Faithful (w : World) : Prop where
  machine {number : Nat} {i : Instance} (hi : w.registry.instances[number]? = some i) :
    i.channel.Faithful
  thread {thread : Nat} {c : Channel} (hc : w.threads[thread]? = some c) : c.Faithful

theorem faithful_initial : initial.Faithful where
  machine := by
    intro number i hi
    simp [initial, Registry.empty] at hi
  thread := by
    intro thread c hc
    cases thread with
    | zero =>
        cases hc
        exact Channel.faithful_empty
    | succ => cases hc

def channelOf (w : World) : Holder → Option Channel
  | .machine number => w.registry.instances[number]?.map Instance.channel
  | .thread thread => w.threads[thread]?

def holderOf (w : World) (thread : Nat) (h : Handle) : Holder :=
  match w.registry.resolve? h with
  | some number => .machine number
  | none => .thread thread

theorem messageOf_eq (w : World) (holder : Holder) :
    w.messageOf holder = (w.channelOf holder).bind Channel.message := by
  cases holder with
  | machine number =>
      rw [channelOf, Option.bind_map]
      rfl
  | thread thread => rfl

theorem lastError_eq_messageOf (w : World) (thread : Nat) (h : Handle) :
    w.lastError thread h = w.messageOf (w.holderOf thread h) := by
  unfold lastError holderOf
  cases w.registry.resolve? h with
  | none | some => rfl

theorem lastError_eq (w : World) (thread : Nat) (h : Handle) :
    w.lastError thread h = (w.channelOf (w.holderOf thread h)).bind Channel.message :=
  (w.lastError_eq_messageOf thread h).trans (w.messageOf_eq _)

theorem lastErrorInPlace_eq (w : World) (thread : Nat) (h : Handle) :
    w.lastErrorInPlace thread h = (w.channelOf (w.holderOf thread h)).bind Channel.held := by
  unfold lastErrorInPlace holderOf
  cases w.registry.resolve? h with
  | none => rfl
  | some number =>
      dsimp only
      rw [channelOf, Option.bind_map]
      rfl

namespace Faithful

variable {w : World} (hw : w.Faithful)

include hw

theorem update (number : Nat) {f : Instance → Instance}
    (hf : ∀ i, i.channel.Faithful → (f i).channel.Faithful) :
    Faithful { w with registry := w.registry.update number f } where
  machine := by
    intro other i hi
    dsimp only at hi
    rw [Registry.instances_update] at hi
    split at hi
    · obtain ⟨before, hbefore, rfl⟩ := Option.map_eq_some_iff.mp hi
      exact hf before (hw.machine hbefore)
    · exact hw.machine hi
  thread := hw.thread

theorem setReadiness (number : Nat) (readiness : Readiness) :
    (w.setReadiness number readiness).Faithful := hw.update number (fun _ hi => hi)

theorem recordThread (thread : Nat) (e : Error) : (w.recordThread thread e).Faithful where
  machine := hw.machine
  thread := by
    intro other c hc
    dsimp only [World.recordThread] at hc
    rw [Array.getElem?_modify] at hc
    split at hc
    · obtain ⟨before, -, rfl⟩ := Option.map_eq_some_iff.mp hc
      exact before.faithful_record e
    · exact hw.thread hc

theorem record (thread number : Nat) (e : Error) : (w.record thread number e).Faithful :=
  (hw.update number (fun i _ => i.channel.faithful_record e)).recordThread thread e

theorem recordOutcome {α : Type} (thread number : Nat) (outcome : Outcome α) :
    (w.recordOutcome thread number outcome).Faithful := by
  cases outcome with
  | error e => exact hw.record thread number e
  | ok _ | crashed | unfinished => exact hw

theorem settles {w' : World} {thread : Nat} {failures : List Failure}
    (h : w.Settles thread failures w') : w'.Faithful := by
  cases h with
  | quiet => exact hw
  | inserts m =>
      refine ⟨fun {number i} hi => ?_, hw.thread⟩
      dsimp only at hi
      rw [Registry.instances_insert, Array.getElem?_push] at hi
      split at hi
      · cases hi
        exact Channel.faithful_empty
      · exact hw.machine hi
  | erases he =>
      refine ⟨fun {number i} hi => ?_, hw.thread⟩
      dsimp only at hi
      rw [Registry.instances_erase? he] at hi
      exact hw.machine hi
  | refuses e => exact hw.recordThread thread e
  | fails hresolve e => exact hw.record thread _ e

theorem perform (hsound : w.registry.Sound) {a : Act} (ha : a.Possible w) :
    (a.perform w).Faithful := by
  cases a with
  | call thread c => exact hw.settles (c.settles hsound thread ha.2)
  | enter h =>
      obtain ⟨number, hadmits⟩ := ha
      rw [Act.perform_enter hadmits]
      exact hw.setReadiness number .busy
  | change number m => exact hw.update number (fun _ hi => hi)
  | leave thread number outcome =>
      exact (hw.setReadiness number outcome.readiness).recordOutcome thread number outcome
  | spawn =>
      refine ⟨hw.machine, fun {thread c} hc => ?_⟩
      dsimp only [Act.perform] at hc
      rw [Array.getElem?_push] at hc
      split at hc
      · cases hc
        exact Channel.faithful_empty
      · exact hw.thread hc

theorem channelOf {holder : Holder} {c : Channel} (hc : w.channelOf holder = some c) :
    c.Faithful := by
  cases holder with
  | machine number =>
      obtain ⟨i, hi, rfl⟩ := Option.map_eq_some_iff.mp hc
      exact hw.machine hi
  | thread thread => exact hw.thread hc

theorem readMessage (thread : Nat) (h : Handle) : Surface.readMessage w thread h =
    (w.lastError thread h).map (fun text => Text.bytes text.toList) := by
  rw [Surface.readMessage, lastErrorInPlace_eq, lastError_eq]
  cases hc : w.channelOf (w.holderOf thread h) with
  | none => rfl
  | some c =>
      have hfaithful := hw.channelOf hc
      rw [Option.bind_some, Option.bind_some, Channel.message, Option.map_map]
      refine Option.map_congr (fun s hs => ?_)
      rw [Surface.zeroTerminated_memory, hfaithful s hs]
      rfl

end Faithful

theorem faithful_play {acts : List Act} {w : World} (hsound : w.registry.Sound)
    (hplays : Plays acts w) (hw : w.Faithful) : (play acts w).Faithful :=
  play_preserves hsound hplays hw (fun _ _ _ hsound ha hw => hw.perform hsound ha)

end World

namespace Host

theorem world_guarded (host : Host) (h : Handle) (c : Call) :
    ∃ calls, (host.guarded h c).1.world = (performAll 0 calls host.world).1 := by
  have hguarded : (host.guarded h c).1 = (host.call c).1.recordPanic h (host.call c).2 := rfl
  rw [hguarded]
  cases (host.call c).2 with
  | crashed => exact ⟨[c, .record h panicked], rfl⟩
  | ok | error | unfinished => exact ⟨[c], rfl⟩

theorem world_enter (host : Host) (patience : Nat) (e : EntryPoint) :
    ∃ calls, (host.enter patience e).1.world = (performAll 0 calls host.world).1 := by
  cases hwork : e.work? host patience with
  | some work =>
      obtain ⟨h, f⟩ := work
      rw [(enter_eq hwork).1]
      exact host.world_guarded h _
  | none =>
      cases e with
      | create ramSize debug =>
          simp only [enter, create]
          split
          · exact host.world_guarded 0 (.recordThread _)
          · have hcreate := host.world_guarded 0
              (.create { Config.ofRamSize ramSize.toNat with debug := decide (debug ≠ 0) })
            generalize host.guarded 0 (.create _) = r at hcreate ⊢
            split <;> exact hcreate
      | destroy h => exact host.world_guarded h (.destroy h)
      | lastError | copyLastError => exact ⟨[], rfl⟩
      | _ => cases hwork

theorem exists_plays_of_reaches {files : Files} {host : Host} (h : (initial files).Reaches host) :
    ∃ acts, Plays acts World.initial ∧ play acts World.initial = host.world := by
  induction h with
  | refl => exact ⟨[], trivial, rfl⟩
  | @tail before _ _ henters ih =>
      obtain ⟨patience, e, rfl⟩ := henters
      obtain ⟨acts, hplays, hworld⟩ := ih
      obtain ⟨calls, hcalls⟩ := before.world_enter patience e
      have hsound := sound_play World.sound_initial acts
      have hthread := Nat.lt_of_lt_of_le Nat.zero_lt_one
        (threads_size_le_play World.sound_initial hplays)
      rw [hworld] at hsound hthread
      have hlead := lead_performAll 0 calls before.world hsound hthread
      refine ⟨acts ++ actsAll 0 calls before.world, plays_append.mpr ⟨hplays, ?_⟩, ?_⟩
      · rw [hworld]
        exact hlead.plays
      · rw [play_append, hworld, hlead.play_eq, hcalls]

end Host

namespace World

open Surface

theorem fetches_agree :
    (∀ (c : Channel) (e : Error), (c.record e).held.map (fun s => zeroTerminated s.memory) =
      some (Text.bytes (Channel.printable e.message).toList)) ∧
    (∀ acts w, Plays acts initial → play acts initial = w → ∀ thread h,
      readMessage w thread h = (latest (w.holderOf thread h) (failuresIn acts initial)).map
        (fun text => Text.bytes text.toList) ∧
      ∀ buffer, Fetches ((readMessage w thread h).getD []) buffer (copyMessage w thread h buffer)) ∧
    (∀ (host : Host) patience h buffer,
      host.enter patience (.lastError h) = (host, .message (readMessage host.world 0 h)) ∧
      host.enter patience (.copyLastError h buffer) = (host,
        .copied (copyMessage host.world 0 h buffer).1 (copyMessage host.world 0 h buffer).2)) ∧
    ∀ files host, (Host.initial files).Reaches host →
      ∃ acts, Plays acts initial ∧ play acts initial = host.world := by
  refine ⟨?_, ?_, fun host patience h buffer => ⟨rfl, rfl⟩,
    fun files host => Host.exists_plays_of_reaches⟩
  · intro c e
    refine congrArg some ?_
    dsimp only
    rw [zeroTerminated_memory]
    exact c.bytes_of_held_record rfl
  · rintro acts w hplays rfl thread h
    have hfaithful := faithful_play sound_initial hplays faithful_initial
    rw [hfaithful.readMessage]
    refine ⟨?_, fun buffer => ?_⟩
    · rw [lastError_eq_messageOf, messageOf_play_initial hplays]
    · have hfetches := fetches_copyMessage (play acts initial) thread h buffer
      cases hlast : (play acts initial).lastError thread h with
      | none | some => rwa [hlast] at hfetches

def mishap : List Act :=
  [.call 0 (.create ⟨8, 3, 8, false, none⟩), .call 0 (.record 1 (.general "é\x00!"))]

def shown : List UInt8 := [0xC3, 0xA9, 0x5C, 0x30, 0x21]

theorem fetches_agree_mishap :
    readMessage (play mishap initial) 5 1 = some shown ∧
    (∃ after, copyMessage (play mishap initial) 5 1 (some [7, 7, 7]) = (5, some after) ∧
      after[1]? = some 0xA9 ∧ after[2]? = some 0 ∧ ¬ shown ++ [0] <+: after) ∧
    (∃ after, copyMessage (play mishap initial) 5 1 (some (List.replicate 7 7)) = (5, some after) ∧
      shown ++ [0] <+: after ∧ after[6]? = some 7) ∧
    copyMessage (play mishap initial) 5 1 none = (5, none) ∧
    ∃ acts, Plays acts initial ∧
      play acts initial = ((Host.initial ⟨[], []⟩).enter 0 (.create 0 0)).1.world := by
  obtain ⟨-, hworlds, -, hhosts⟩ := fetches_agree
  have hplays : Plays mishap initial :=
    ⟨⟨by decide +kernel, trivial⟩, ⟨by decide +kernel, trivial⟩, trivial⟩
  obtain ⟨hread, hcopy⟩ := hworlds mishap _ hplays rfl 5 1
  have hholder : (play mishap initial).holderOf 5 1 = .machine 0 := by decide +kernel
  have hlatest : latest (.machine 0) (failuresIn mishap initial) = some "é\\0!" := by decide +kernel
  have hbytes : Text.bytes "é\\0!".toList = shown := by decide +kernel
  rw [hholder, hlatest, Option.map_some, hbytes] at hread
  rw [hread] at hcopy
  refine ⟨hread, ?_, ?_, ?_, hhosts ⟨[], []⟩ _ (.single ⟨0, .create 0 0, rfl⟩)⟩
  · have hshort := hcopy (some [7, 7, 7])
    obtain ⟨after, hafter, hcopied⟩ := hshort.given _ rfl
    refine ⟨after, Prod.ext hshort.length_eq hafter, ?_, ?_, ?_⟩
    · exact hcopied.contents (by decide) 1
    · exact hcopied.contents (by decide) 2
    · exact fun hwhole => absurd (hcopied.whole.mp hwhole) (by decide)
  · have hlong := hcopy (some (List.replicate 7 7))
    obtain ⟨after, hafter, hcopied⟩ := hlong.given _ rfl
    refine ⟨after, Prod.ext hlong.length_eq hafter, hcopied.whole.mpr (by decide), ?_⟩
    exact hcopied.contents (by decide) 6
  · have hnowhere := hcopy none
    exact Prod.ext hnowhere.length_eq (hnowhere.absent rfl)

end World

end RegisterMachine
