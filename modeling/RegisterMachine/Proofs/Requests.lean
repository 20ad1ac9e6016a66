import RegisterMachine.Proofs.Rerun

namespace RegisterMachine

deriving instance DecidableEq for Reply

namespace Request

def IsLoad : Request → Prop
  | .load _ | .loadFile _ _ | .loadSource _ => True
  | _ => False

def IsExecute : Request → Prop
  | .execute _ => True
  | _ => False

end Request

def Error.IsFault : Error → Prop
  | .fault _ => True
  | _ => False

theorem Outcome.map_eq_crashed_iff {α β : Type} {f : α → β} {outcome : Outcome α} :
    outcome.map f = .crashed ↔ outcome = .crashed := by
  cases outcome <;> simp [Outcome.map]

namespace Machine

structure Declines (m : Machine) (e : Error) : Prop where
  not_fault : ¬ e.IsFault
  running : e = .busy → m.phase = .running

inductive Ends : Machine → Outcome Reply → Prop
  | halted {after : Machine} (hphase : after.phase = .halted) : Ends after (.ok .done)
  | faulted {after : Machine} (fault : Fault) (hphase : after.phase = .faulted) :
      Ends after (.error (.fault fault))
  | torn {after : Machine} (hphase : after.phase = .running) : Ends after .crashed
  | unfinished {after : Machine} (hphase : after.phase = .running) : Ends after .unfinished

inductive Comes (m : Machine) (patience : Nat) : Request → Machine → Outcome Reply → Prop
  | refused (request : Request) {e : Error} (hdeclines : m.Declines e) :
      Comes m patience request m (.error e)
  | loaded {request : Request} {image : List UInt8} {after : Machine} (hload : request.IsLoad)
      (hafter : m.load image = .ok after) : Comes m patience request after (.ok .done)
  | ran {arguments : List String} {first after : Machine} {outcome : Outcome Reply}
      (hentry : m.entry arguments = .ok first)
      (hrun : m.perform patience (.execute arguments) = (after, outcome))
      (hends : Ends after outcome) : Comes m patience (.execute arguments) after outcome
  | answered {request : Request} {reply : Reply} (hexecute : ¬ request.IsExecute)
      (hload : request.IsLoad → reply ≠ .done) : Comes m patience request m (.ok reply)
  | adjusted {request : Request} {after : Machine} (hexecute : ¬ request.IsExecute)
      (hload : ¬ request.IsLoad) (hphase : after.phase = m.phase)
      (hsink : (∀ manner, request ≠ .setSink manner) → after.sink = m.sink) :
      Comes m patience request after (.ok .done)

variable {m : Machine} {patience : Nat}

section Execute

variable {arguments : List String}

theorem execute_of_refused {e : Error} (h : m.entry arguments = .error e) :
    m.execute patience arguments = (m, .error e) := by
  rw [execute_eq, h]

theorem entry_eq_error {e : Error} (h : m.entry arguments = .error e) : m.Declines e := by
  unfold entry State.seed at h
  dsimp only at h
  split at h
  · cases h
    exact ⟨id, nofun⟩
  · cases h
    exact ⟨id, fun _ => by assumption⟩
  · split at h
    · cases h
      exact ⟨id, nofun⟩
    · cases h

theorem entry_eq_noProgram_iff :
    m.entry arguments = .error .noProgram ↔ m.phase = .empty := by
  unfold entry State.seed
  dsimp only
  split
  · simp_all
  · simp_all
  · split <;> simp_all [Except.map]

theorem entry_of_running (h : m.phase = .running) : m.entry arguments = .error .busy := by
  unfold entry
  rw [h]

theorem goTo_phase (m : Machine) (i : Instruction) (target : Int) :
    (m.goTo i target).machine.phase = m.phase := by
  unfold goTo
  split <;> rfl

theorem turn_phase (m : Machine) : m.turn.machine.phase = m.phase := by
  rcases m.turn_cases with ⟨kind, h, -⟩ | h | ⟨i, sink, -, -, h⟩
  · rw [h, Turn.machine]
  · rw [h, Turn.machine]
  · rw [h]
    rcases dispatch_cases _ i with ⟨kind, t, -, hd⟩ | ⟨t, -, hd⟩ | ⟨flow, t, target, -, -, hd⟩
    · rw [hd, Turn.machine]
    · rw [hd, Turn.machine]
    · rw [hd]
      exact goTo_phase _ i target

theorem run_phase (m : Machine) (patience : Nat) : (m.run patience).1.phase = m.phase :=
  run_invariant (P := fun head => head.phase = m.phase) (fun head h => head.turn_phase.trans h)
    patience rfl

theorem perform_execute_of_refused {e : Error} (h : m.entry arguments = .error e) (patience : Nat) :
    m.perform patience (.execute arguments) = (m, .error e) := by
  simp only [perform, execute_of_refused h, Outcome.map]

theorem ends_perform {first : Machine} (h : m.entry arguments = .ok first) (patience : Nat) :
    Ends (m.perform patience (.execute arguments)).1
      (m.perform patience (.execute arguments)).2 := by
  have hphase : (first.run patience).1.phase = .running := by
    obtain ⟨s, -, rfl⟩ := entry_eq_ok h
    exact run_phase _ patience
  simp only [perform, execute_of_entry h]
  rcases hrun : first.run patience with ⟨last, _ | (_ | fault | _)⟩
  · rw [hrun] at hphase
    exact .unfinished hphase
  · exact .halted rfl
  · exact .faulted fault rfl
  · rw [hrun] at hphase
    exact .torn hphase

end Execute

section Load

theorem load_eq_error {image : List UInt8} {e : Error} (h : m.load image = .error e) :
    m.Declines e := by
  unfold load at h
  split at h
  · cases h
    exact ⟨id, fun _ => by assumption⟩
  · split at h
    · cases h
      exact ⟨id, nofun⟩
    · unfold Memory.loadCode at h
      by_cases hlen : m.state.memory.codeSize < image.length
      · rw [if_pos hlen] at h
        cases h
        exact ⟨id, nofun⟩
      · rw [if_neg hlen] at h
        cases h

theorem readImage_eq_error {path : String} {limit : Nat} {opened : Except String File} {e : Error}
    (h : File.readImage path limit opened = .error e) : m.Declines e := by
  unfold File.readImage File.image at h
  split at h
  · cases h
    exact ⟨id, nofun⟩
  · split at h
    · cases h
      exact ⟨id, nofun⟩
    · split at h
      · cases h
      · cases h
        exact ⟨id, nofun⟩

theorem loadFile_eq_error {path : String} {opened : Except String File} {e : Error}
    (h : m.loadFile path opened = .error e) : m.Declines e := by
  unfold loadFile at h
  split at h
  · cases h
    exact ⟨id, fun _ => by assumption⟩
  · split at h
    · rename_i hread
      cases h
      exact readImage_eq_error hread
    · exact load_eq_error h

theorem load_of_loadFile {path : String} {opened : Except String File} {loaded : Machine}
    (h : m.loadFile path opened = .ok loaded) : ∃ image, m.load image = .ok loaded := by
  unfold loadFile at h
  split at h
  · cases h
  · split at h
    · cases h
    · exact ⟨_, h⟩

end Load

section Access

theorem locate_eq_error {r : Registers} {index : Int} {e : Error} (h : r.locate index = .error e) :
    m.Declines e := by
  unfold Registers.locate at h
  split at h
  · cases h
  · cases h
    exact ⟨id, nofun⟩

theorem getRegister_eq_error {index : Int} {e : Error}
    (h : m.state.registers.get index = .error e) : m.Declines e := by
  rcases Except.bind_eq_error h with hlocate | ⟨a, -, hpure⟩
  · exact locate_eq_error hlocate
  · cases hpure

theorem setRegister_eq_error {index : Int} {w : Word} {e : Error}
    (h : m.setRegister index w = .error e) : m.Declines e := by
  rcases Except.bind_eq_error h with hset | ⟨registers, -, hpure⟩
  · rcases Except.bind_eq_error hset with hlocate | ⟨a, -, hpure⟩
    · exact locate_eq_error hlocate
    · cases hpure
  · cases hpure

theorem mapError_memory_eq_error {α : Type} {x : Except Access α} {e : Error}
    (h : x.mapError Error.memoryOutOfRange = .error e) : m.Declines e := by
  obtain ⟨access, -, rfl⟩ := Except.mapError_eq_error h
  exact ⟨id, nofun⟩

theorem writeWord_eq_error {address : Int} {w : Word} {e : Error}
    (h : m.writeWord address w = .error e) : m.Declines e := by
  rcases Except.bind_eq_error h with hwrite | ⟨memory, -, hpure⟩
  · exact mapError_memory_eq_error hwrite
  · cases hpure

theorem setRegister_keeps {index : Int} {w : Word} {after : Machine}
    (h : m.setRegister index w = .ok after) : after.phase = m.phase ∧ after.sink = m.sink := by
  obtain ⟨registers, -, hpure⟩ := Except.bind_eq_ok h
  cases hpure
  exact ⟨rfl, rfl⟩

theorem writeWord_keeps {address : Int} {w : Word} {after : Machine}
    (h : m.writeWord address w = .ok after) : after.phase = m.phase ∧ after.sink = m.sink := by
  obtain ⟨memory, -, hpure⟩ := Except.bind_eq_ok h
  cases hpure
  exact ⟨rfl, rfl⟩

end Access

theorem comes_settle {request : Request} {change : Except Error Machine}
    (hok : ∀ after, change = .ok after → m.Comes patience request after (.ok .done))
    (herror : ∀ e, change = .error e → m.Declines e) :
    m.Comes patience request (m.settle change).1 (m.settle change).2 := by
  cases change with
  | ok after => exact hok after rfl
  | error e => exact .refused request (herror e rfl)

theorem comes_answer {α : Type} {request : Request} (hexecute : ¬ request.IsExecute)
    (hload : ¬ request.IsLoad) (reply : α → Reply) {found : Except Error α}
    (herror : ∀ e, found = .error e → m.Declines e) :
    m.Comes patience request (m.answer reply found).1 (m.answer reply found).2 := by
  cases found with
  | ok a => exact .answered hexecute (fun h => absurd h hload)
  | error e => exact .refused request (herror e rfl)

theorem comes_perform (m : Machine) (patience : Nat) (request : Request) :
    m.Comes patience request (m.perform patience request).1 (m.perform patience request).2 := by
  cases request with
  | load image =>
      exact comes_settle (fun after => .loaded trivial) (fun e => load_eq_error)
  | loadFile path opened =>
      refine comes_settle (fun after h => ?_) (fun e => loadFile_eq_error)
      obtain ⟨image, himage⟩ := load_of_loadFile h
      exact .loaded trivial himage
  | loadSource source =>
      simp only [perform]
      split
      · exact comes_settle (fun after => .loaded trivial) (fun e => load_eq_error)
      · exact .answered id (fun _ h => by cases h)
  | execute arguments =>
      cases hentry : m.entry arguments with
      | ok first => exact .ran hentry rfl (ends_perform hentry patience)
      | error e =>
          rw [perform_execute_of_refused hentry]
          exact .refused _ (entry_eq_error hentry)
  | getRegister index => exact comes_answer id id .word (fun e => getRegister_eq_error)
  | setRegister index w =>
      refine comes_settle (fun after h => ?_) (fun e => setRegister_eq_error)
      obtain ⟨hphase, hsink⟩ := setRegister_keeps h
      exact .adjusted id id hphase (fun _ => hsink)
  | readWord address => exact comes_answer id id .word (fun e => mapError_memory_eq_error)
  | writeWord address w =>
      refine comes_settle (fun after h => ?_) (fun e => writeWord_eq_error)
      obtain ⟨hphase, hsink⟩ := writeWord_keeps h
      exact .adjusted id id hphase (fun _ => hsink)
  | slice address length => exact comes_answer id id .bytes (fun e => mapError_memory_eq_error)
  | runs => exact .answered id (fun h => h.elim)
  | text => exact .answered id (fun h => h.elim)
  | setDebug on => exact .adjusted id id rfl (fun _ => rfl)
  | setLimit limit => exact .adjusted id id rfl (fun _ => rfl)
  | setSink manner => exact .adjusted id id rfl (fun h => absurd rfl (h manner))
  | setOutput writer => exact .adjusted id id rfl (fun _ => rfl)

end Machine

end RegisterMachine
