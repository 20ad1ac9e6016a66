import RegisterMachine.Registry

namespace RegisterMachine

mutual

inductive Call where
  | create (config : Config)
  | destroy (h : Handle)
  | record (h : Handle) (e : Error)
  | recordThread (e : Error)
  | lastError (h : Handle)
  | onThread (calls : List Call)
  | within (h : Handle) (work : Work)

inductive Work where
  | operate (f : Machine → Machine × Outcome Reply)
  | hold (calls : List Call) (failure : Option Error)

end

structure View where
  registry : Registry
  message : Option String
  machine : Option Machine
  transcript : Option Transcript

inductive Answer where
  | done
  | handle (h : Handle)
  | message (message : Option String)
  | reply (r : Reply)
  | steps (steps : List (Outcome Answer × View))

abbrev Step := Outcome Answer × View

structure World where
  registry : Registry
  threads : Array Channel
deriving DecidableEq, Repr

namespace World

def initial : World := ⟨Registry.empty, #[Channel.empty]⟩

def threadMessage (w : World) (thread : Nat) : Option String :=
  w.threads[thread]?.bind Channel.message

def lastError (w : World) (thread : Nat) (h : Handle) : Option String :=
  match w.registry.resolve? h with
  | some number => w.registry.instances[number]?.bind (·.channel.message)
  | none => w.threadMessage thread

def lastErrorInPlace (w : World) (thread : Nat) (h : Handle) : Option CString :=
  match w.registry.resolve? h with
  | some number => w.registry.instances[number]?.bind (·.channel.held)
  | none => w.threads[thread]?.bind Channel.held

def recordThread (w : World) (thread : Nat) (e : Error) : World :=
  { w with threads := w.threads.modify thread (·.record e) }

def record (w : World) (thread number : Nat) (e : Error) : World :=
  let registry := w.registry.update number (fun i => { i with channel := i.channel.record e })
  { w with registry := registry }.recordThread thread e

def setReadiness (w : World) (number : Nat) (readiness : Readiness) : World :=
  { w with registry := w.registry.update number (fun i => { i with readiness := readiness }) }

def view (w : World) (thread : Nat) : View := ⟨w.registry, w.threadMessage thread, none, none⟩

def close (w : World) (thread : Nat) (outcome : Outcome Answer) : World × Step :=
  (w, outcome, w.view thread)

def refuse (w : World) (thread : Nat) (e : Error) : World × Step :=
  (w.recordThread thread e).close thread (.error e)

def fail (w : World) (thread number : Nat) (e : Error) : World × Step :=
  (w.record thread number e).close thread (.error e)

def recordOutcome {α : Type} (w : World) (thread number : Nat) : Outcome α → World
  | .error e => w.record thread number e
  | _ => w

def recordAll (w : World) (thread number : Nat) (errors : List Error) : World :=
  errors.foldl (fun w e => w.record thread number e) w

def create (w : World) (thread : Nat) (config : Config) : World × Step :=
  match Machine.create config with
  | .error e => w.refuse thread e
  | .ok m =>
      let (registry, h) := w.registry.insert (Instance.ofMachine m)
      { w with registry := registry }.close thread (.ok (.handle h))

def destroy (w : World) (thread : Nat) (h : Handle) : World × Step :=
  match w.registry.erase? h with
  | none => w.refuse thread (.invalidHandle h)
  | some registry => { w with registry := registry }.close thread (.ok .done)

def operate (w : World) (thread number : Nat) (i : Instance)
    (f : Machine → Machine × Outcome Reply) : World × Step :=
  let (machine, outcome) := f i.machine
  let crashed := match outcome with
    | .crashed => true
    | _ => false
  let readiness := if crashed then Readiness.unusable else .idle
  let transcript := Transcript.between i.machine machine
  let registry := w.registry.update number (fun i =>
    { i with machine := machine, readiness := readiness })
  let w := { w with registry := registry }.recordAll thread number transcript.reentries
  let w := w.recordOutcome thread number outcome
  let view := w.view thread
  (w, outcome.map .reply, { view with
    machine := if crashed then none else some machine
    transcript := some transcript })

end World

def unusable : Error := .general "instance is unusable after a panic during an earlier call"

mutual

def Call.perform (thread : Nat) : Call → World → World × Step
  | .create config, w => w.create thread config
  | .destroy h, w => w.destroy thread h
  | .record h e, w =>
      let w := match w.registry.resolve? h with
        | some number => w.record thread number e
        | none => w.recordThread thread e
      w.close thread (.ok .done)
  | .recordThread e, w => (w.recordThread thread e).close thread (.ok .done)
  | .lastError h, w => w.close thread (.ok (.message (w.lastError thread h)))
  | .onThread calls, w =>
      let (w, steps) := performAll w.threads.size calls
        { w with threads := w.threads.push Channel.empty }
      w.close thread (.ok (.steps steps))
  | .within h work, w => match w.registry.resolve? h with
    | none => w.refuse thread (.invalidHandle h)
    | some number => match w.registry.instances[number]? with
      | none => w.refuse thread (.invalidHandle h)
      | some i => match i.readiness with
        | .busy => w.fail thread number .busy
        | .unusable => w.fail thread number unusable
        | .idle => work.perform thread number i w

def Work.perform (thread number : Nat) (i : Instance) : Work → World → World × Step
  | .operate f, w => w.operate thread number i f
  | .hold calls failure, w =>
      let (w, steps) := performAll thread calls (w.setReadiness number .busy)
      let w := w.setReadiness number .idle
      match failure with
      | none => w.close thread (.ok (.steps steps))
      | some e => w.fail thread number e

def performAll (thread : Nat) : List Call → World → World × List Step
  | [], w => (w, [])
  | call :: rest, w =>
      let (w, step) := call.perform thread w
      let (w, steps) := performAll thread rest w
      (w, step :: steps)

end

end RegisterMachine
