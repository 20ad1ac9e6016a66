import RegisterMachine.Registry.Call

namespace RegisterMachine

inductive Event where
  | issued (h : Handle)
  | released (h : Handle)
deriving DecidableEq, Repr

def Handle.word (h : Handle) : Handle := h % 18446744073709551616

mutual

def Call.events (thread : Nat) : Call → World → List Event
  | .create config, w => match (w.create thread config).2.1 with
    | .ok (.handle h) => [.issued h]
    | _ => []
  | .destroy h, w => match (w.destroy thread h).2.1 with
    | .ok _ => [.released h.word]
    | _ => []
  | .record _ _, _ => []
  | .recordThread _, _ => []
  | .lastError _, _ => []
  | .onThread calls, w =>
      eventsAll w.threads.size calls { w with threads := w.threads.push Channel.empty }
  | .within h work, w => match w.registry.resolve? h with
    | none => []
    | some number => match w.registry.instances[number]? with
      | none => []
      | some i => match i.readiness with
        | .busy => []
        | .unusable => []
        | .idle => work.events thread number w

def Work.events (thread number : Nat) : Work → World → List Event
  | .operate _, _ => []
  | .hold calls _, w => eventsAll thread calls (w.setReadiness number .busy)

def eventsAll (thread : Nat) : List Call → World → List Event
  | [], _ => []
  | call :: rest, w => call.events thread w ++ eventsAll thread rest (call.perform thread w).1

end

inductive Registry.Moves : Registry → List Event → Registry → Prop
  | insert (r : Registry) (i : Instance) : Moves r [.issued (r.insert i).2] (r.insert i).1
  | erase {r s : Registry} {h : Handle} (he : r.erase? h = some s) : Moves r [.released h.word] s
  | update (r : Registry) (number : Nat) (f : Instance → Instance) : Moves r [] (r.update number f)
  | refl (r : Registry) : Moves r [] r
  | trans {r s t : Registry} {log log' : List Event} (h : Moves r log s) (h' : Moves s log' t) :
      Moves r (log ++ log') t

theorem Registry.Moves.quietly {r s t : Registry} {log : List Event} (h : r.Moves log s)
    (h' : s.Moves [] t) : r.Moves log t := by
  have htrans := h.trans h'
  rw [List.append_nil] at htrans
  exact htrans

namespace World

theorem moves_record (w : World) (thread number : Nat) (e : Error) :
    w.registry.Moves [] (w.record thread number e).registry :=
  .update ..

theorem moves_setReadiness (w : World) (number : Nat) (readiness : Readiness) :
    w.registry.Moves [] (w.setReadiness number readiness).registry :=
  .update ..

theorem moves_recordAll (w : World) (thread number : Nat) (errors : List Error) :
    w.registry.Moves [] (w.recordAll thread number errors).registry := by
  induction errors generalizing w with
  | nil => exact .refl _
  | cons e errors ih => exact (w.moves_record thread number e).trans (ih _)

theorem moves_recordOutcome {α : Type} (w : World) (thread number : Nat) (outcome : Outcome α) :
    w.registry.Moves [] (w.recordOutcome thread number outcome).registry := by
  cases outcome with
  | error e => exact w.moves_record thread number e
  | ok _ | crashed | unfinished => exact .refl _

theorem moves_operate (w : World) (thread number : Nat) (i : Instance)
    (f : Machine → Machine × Outcome Reply) :
    w.registry.Moves [] (w.operate thread number i f).1.registry := by
  unfold operate
  dsimp only
  refine .quietly ?_ (moves_recordOutcome _ thread number _)
  refine .quietly ?_ (moves_recordAll _ thread number _)
  exact .update ..

theorem moves_create (w : World) (thread : Nat) (config : Config) :
    w.registry.Moves ((Call.create config).events thread w) (w.create thread config).1.registry := by
  unfold Call.events create
  cases Machine.create config with
  | error e => exact .refl _
  | ok m => exact .insert _ _

theorem moves_destroy (w : World) (thread : Nat) (h : Handle) :
    w.registry.Moves ((Call.destroy h).events thread w) (w.destroy thread h).1.registry := by
  unfold Call.events destroy
  cases he : w.registry.erase? h with
  | none => exact .refl _
  | some registry => exact .erase he

end World

open World

mutual

theorem Call.moves (thread : Nat) (call : Call) (w : World) :
    w.registry.Moves (call.events thread w) (call.perform thread w).1.registry := by
  cases call with
  | create config =>
      rw [Call.perform]
      exact w.moves_create thread config
  | destroy h =>
      rw [Call.perform]
      exact w.moves_destroy thread h
  | record h e =>
      rw [Call.events, Call.perform]
      cases w.registry.resolve? h with
      | none => exact .refl _
      | some number => exact w.moves_record thread number e
  | recordThread e =>
      rw [Call.events, Call.perform]
      exact .refl _
  | lastError h =>
      rw [Call.events, Call.perform]
      exact .refl _
  | onThread calls =>
      rw [Call.events, Call.perform]
      exact moves_performAll w.threads.size calls { w with threads := w.threads.push Channel.empty }
  | within h work =>
      rw [Call.events, Call.perform]
      cases w.registry.resolve? h with
      | none => exact .refl _
      | some number =>
          dsimp only
          cases w.registry.instances[number]? with
          | none => exact .refl _
          | some i =>
              dsimp only
              cases i.readiness with
              | busy => exact w.moves_record thread number .busy
              | unusable => exact w.moves_record thread number unusable
              | idle => exact work.moves thread number i w

theorem Work.moves (thread number : Nat) (i : Instance) (work : Work) (w : World) :
    w.registry.Moves (work.events thread number w)
      (work.perform thread number i w).1.registry := by
  cases work with
  | operate f =>
      rw [Work.events, Work.perform]
      exact w.moves_operate thread number i f
  | hold calls failure =>
      have hheld := (w.moves_setReadiness number .busy).trans
        (moves_performAll thread calls (w.setReadiness number .busy))
      rw [Work.events, Work.perform]
      cases failure with
      | none => exact hheld.quietly (moves_setReadiness _ number .idle)
      | some e =>
          exact (hheld.quietly (moves_setReadiness _ number .idle)).quietly
            (moves_record _ thread number e)

theorem moves_performAll (thread : Nat) (calls : List Call) (w : World) :
    w.registry.Moves (eventsAll thread calls w) (performAll thread calls w).1.registry := by
  cases calls with
  | nil =>
      rw [eventsAll, performAll]
      exact .refl _
  | cons call rest =>
      rw [eventsAll, performAll]
      exact (call.moves thread w).trans (moves_performAll thread rest _)

end

inductive World.Arises : World → List Event → Prop
  | initial : Arises World.initial []
  | call {w : World} {log : List Event} (hw : w.Arises log) (thread : Nat) (call : Call) :
      Arises (call.perform thread w).1 (log ++ call.events thread w)
  | held {w : World} {log : List Event} (hw : w.Arises log) (number : Nat) :
      Arises (w.setReadiness number .busy) log
  | thread {w : World} {log : List Event} (hw : w.Arises log) :
      Arises { w with threads := w.threads.push Channel.empty } log

theorem World.Arises.moves {w : World} {log : List Event} (hw : w.Arises log) :
    Registry.empty.Moves log w.registry := by
  induction hw with
  | initial => exact .refl _
  | call hw thread call ih => exact ih.trans (call.moves thread _)
  | held hw number ih => exact ih.quietly (moves_setReadiness _ number .busy)
  | thread hw ih => exact ih

theorem World.arises_performAll (thread : Nat) (calls : List Call) {w : World} {log : List Event}
    (hw : w.Arises log) :
    (performAll thread calls w).1.Arises (log ++ eventsAll thread calls w) := by
  induction calls generalizing w log with
  | nil =>
      rw [eventsAll, performAll, List.append_nil]
      exact hw
  | cons call rest ih =>
      rw [eventsAll, performAll, ← List.append_assoc]
      exact ih (hw.call thread call)

end RegisterMachine
