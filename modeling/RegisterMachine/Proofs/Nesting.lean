import RegisterMachine.Proofs.Acts

namespace RegisterMachine

open World

mutual

def Call.acts (thread : Nat) : Call → World → List Act
  | .create config, _ => [.call thread (.create config)]
  | .destroy h, _ => [.call thread (.destroy h)]
  | .record h e, _ => [.call thread (.record h e)]
  | .recordThread e, _ => [.call thread (.recordThread e)]
  | .lastError h, _ => [.call thread (.lastError h)]
  | .onThread calls, w => .spawn :: actsAll w.threads.size calls (Act.spawn.perform w)
  | .within h work, w => match w.registry.resolve? h with
    | none => [.call thread (.within h work)]
    | some number => match w.registry.instances[number]? with
      | none => [.call thread (.within h work)]
      | some i => match i.readiness with
        | .busy => [.call thread (.within h work)]
        | .unusable => [.call thread (.within h work)]
        | .idle => .enter h :: (work.acts thread h number i w ++
            [.leave thread number (work.perform thread number i w).2.1])

def Work.acts (thread : Nat) (h : Handle) (number : Nat) (i : Instance) : Work → World → List Act
  | .operate f, _ => .change number (f i.machine).1 ::
      List.replicate (Transcript.between i.machine (f i.machine).1).reentries.length
        (.call thread (.within h (.operate f)))
  | .hold calls _, w => actsAll thread calls (w.setReadiness number .busy)

def actsAll (thread : Nat) : List Call → World → List Act
  | [], _ => []
  | call :: rest, w => call.acts thread w ++ actsAll thread rest (call.perform thread w).1

end

structure Lead (acts : List Act) (w w' : World) : Prop where
  plays : Plays acts w
  play_eq : play acts w = w'
  keeps : ∀ number, w.Engaged number → ∀ thread outcome, .leave thread number outcome ∉ acts

namespace Lead

variable {w w' w'' : World}

section

variable {acts : List Act} (hw : w.registry.Sound) (h : Lead acts w w')

include hw h

theorem engaged {number : Nat} (hengaged : w.Engaged number) : w'.Engaged number := by
  rw [← h.play_eq]
  exact engaged_play hw h.plays hengaged (h.keeps number hengaged)

theorem threads_size_le : w.threads.size ≤ w'.threads.size := by
  rw [← h.play_eq]
  exact threads_size_le_play hw h.plays

end

theorem nil (w : World) : Lead [] w w := ⟨trivial, rfl, fun _ _ _ _ => List.not_mem_nil⟩

theorem append {acts later : List Act} (hw : w.registry.Sound) (h : Lead acts w w')
    (h' : Lead later w' w'') : Lead (acts ++ later) w w'' where
  plays := plays_append.mpr ⟨h.plays, h.play_eq ▸ h'.plays⟩
  play_eq := by rw [play_append, h.play_eq, h'.play_eq]
  keeps := by
    intro number hengaged thread outcome hmem
    rcases List.mem_append.mp hmem with hmem | hmem
    · exact h.keeps number hengaged thread outcome hmem
    · exact h'.keeps number (h.engaged hw hengaged) thread outcome hmem

theorem single {a : Act} (ha : a.Possible w)
    (hkeeps : ∀ number, w.Engaged number → ∀ thread outcome, a ≠ .leave thread number outcome) :
    Lead [a] w (a.perform w) := by
  refine ⟨⟨ha, trivial⟩, rfl, ?_⟩
  intro number hengaged thread outcome hmem
  exact hkeeps number hengaged thread outcome (List.mem_singleton.mp hmem).symm

theorem call {thread : Nat} {c : Call} (hthread : thread < w.threads.size) (hbrief : c.Brief w) :
    Lead [.call thread c] w (c.perform thread w).1 :=
  single (a := .call thread c) ⟨hthread, hbrief⟩ (fun _ _ _ _ h => by cases h)

theorem bracket {acts : List Act} {h : Handle} {number thread : Nat} (hw : w.registry.Sound)
    (hadmits : w.Admits h number) (hthread : thread < w.threads.size)
    (hacts : Lead acts (w.setReadiness number .busy) w') (outcome : Outcome Answer) :
    Lead (.enter h :: (acts ++ [.leave thread number outcome])) w
      ((w'.setReadiness number outcome.readiness).recordOutcome thread number outcome) := by
  obtain ⟨i, hi, -⟩ := readiness?_eq_some.mp hadmits.idle
  have henters : Lead [.enter h] w (w.setReadiness number .busy) := by
    rw [← Act.perform_enter hadmits]
    exact single ⟨number, hadmits⟩ (fun _ _ _ _ heq => by cases heq)
  have htaken := henters.append hw hacts
  have hsound := (w.moves_setReadiness number .busy).sound hw
  have hengaged := hacts.engaged hsound (engaged_setReadiness hi)
  have hthread' := Nat.lt_of_lt_of_le hthread (htaken.threads_size_le hw)
  rw [← List.cons_append]
  refine ⟨plays_append.mpr ⟨htaken.plays, ?_⟩, ?_, ?_⟩
  · exact htaken.play_eq ▸ ⟨⟨hthread', hengaged⟩, trivial⟩
  · exact (play_append ..).trans (congrArg _ htaken.play_eq)
  · intro other hother thread' outcome' hmem
    rcases List.mem_append.mp hmem with hmem | hmem
    · exact htaken.keeps other hother thread' outcome' hmem
    · cases List.mem_singleton.mp hmem
      cases hother.symm.trans hadmits.idle

end Lead

namespace World

theorem record_setReadiness (w : World) (thread number : Nat) (e : Error) (readiness : Readiness) :
    (w.record thread number e).setReadiness number readiness =
      (w.setReadiness number readiness).record thread number e := by
  simp only [record, recordThread, setReadiness, Registry.update_update]
  rfl

theorem recordAll_setReadiness (w : World) (thread number : Nat) (errors : List Error)
    (readiness : Readiness) : (w.recordAll thread number errors).setReadiness number readiness =
      (w.setReadiness number readiness).recordAll thread number errors := by
  induction errors generalizing w with
  | nil => rfl
  | cons e errors ih =>
      change ((w.record thread number e).recordAll thread number errors).setReadiness _ _ =
        ((w.setReadiness number readiness).record thread number e).recordAll thread number errors
      rw [ih, record_setReadiness]

-- An operation changes the machine and the readiness of its instance at one go. That is to take the
-- instance, to change its machine, to record what its sink was told, and to give it back.
theorem operate_eq (w : World) (thread number : Nat) (i : Instance)
    (f : Machine → Machine × Outcome Reply) :
    (w.operate thread number i f).1 =
      (Act.leave thread number (w.operate thread number i f).2.1).perform
        (((Act.change number (f i.machine).1).perform (w.setReadiness number .busy)).recordAll
          thread number (Transcript.between i.machine (f i.machine).1).reentries) := by
  simp only [Act.perform, recordAll_setReadiness]
  simp only [operate, setReadiness, Registry.update_update]
  cases (f i.machine).2 with
  | ok _ | error _ | crashed | unfinished => rfl

end World

theorem Transcript.reentries_eq (t : Transcript) :
    t.reentries = List.replicate t.reentries.length .busy := by
  apply List.eq_replicate_of_mem
  intro e he
  unfold reentries at he
  split at he
  · obtain ⟨-, -, rfl⟩ := List.mem_map.mp he
    rfl
  · cases he

theorem Lead.replicate {w : World} {h : Handle} {number thread : Nat} (work : Work)
    (hw : w.registry.Sound) (hresolve : w.registry.resolve? h = some number)
    (hengaged : w.Engaged number) (hthread : thread < w.threads.size) (count : Nat) :
    Lead (List.replicate count (.call thread (.within h work))) w
      (w.recordAll thread number (List.replicate count .busy)) := by
  induction count generalizing w with
  | zero => exact .nil w
  | succ count ih =>
      obtain ⟨i, hi, hbusy⟩ := readiness?_eq_some.mp hengaged
      have hcall := Lead.call hthread (Call.brief_within work hresolve hi (by simp [hbusy]))
      rw [perform_within hresolve hi, hbusy] at hcall
      have hthread' := Nat.lt_of_lt_of_le hthread (hcall.threads_size_le hw)
      refine hcall.append hw (ih ?_ hresolve (hcall.engaged hw hengaged) hthread')
      exact (w.moves_record thread number .busy).sound hw

mutual

theorem Call.lead (thread : Nat) (call : Call) (w : World) (hw : w.registry.Sound)
    (hthread : thread < w.threads.size) :
    Lead (call.acts thread w) w (call.perform thread w).1 := by
  cases call with
  | create config =>
      rw [Call.acts]
      exact .call hthread trivial
  | destroy h =>
      rw [Call.acts]
      exact .call hthread trivial
  | record h e =>
      rw [Call.acts]
      exact .call hthread trivial
  | recordThread e =>
      rw [Call.acts]
      exact .call hthread trivial
  | lastError h =>
      rw [Call.acts]
      exact .call hthread trivial
  | onThread calls =>
      rw [Call.acts, Call.perform]
      have hspawn : Lead [.spawn] w (Act.spawn.perform w) :=
        .single trivial (fun _ _ _ _ h => by cases h)
      refine hspawn.append hw (lead_performAll w.threads.size calls (Act.spawn.perform w) hw ?_)
      dsimp only [Act.perform]
      rw [Array.size_push]
      exact Nat.lt_succ_self _
  | within h work =>
      rw [Call.acts]
      cases hresolve : w.registry.resolve? h with
      | none =>
          refine .call hthread ?_
          intro number hadmits
          cases hresolve.symm.trans hadmits.resolves
      | some number =>
          obtain ⟨i, hi⟩ := hw.exists_instance hresolve
          dsimp only
          rw [hi]
          dsimp only
          cases hready : i.readiness with
          | busy | unusable =>
              exact .call hthread (Call.brief_within work hresolve hi (by simp [hready]))
          | idle =>
              have hadmits : w.Admits h number :=
                ⟨hresolve, readiness?_eq_some.mpr ⟨i, hi, hready⟩⟩
              rw [perform_within hresolve hi, hready]
              exact work.lead thread h number i w hw hthread hadmits hi

theorem Work.lead (thread : Nat) (h : Handle) (number : Nat) (i : Instance) (work : Work)
    (w : World) (hw : w.registry.Sound) (hthread : thread < w.threads.size)
    (hadmits : w.Admits h number) (hi : w.registry.instances[number]? = some i) :
    Lead (.enter h :: (work.acts thread h number i w ++
        [.leave thread number (work.perform thread number i w).2.1])) w
      (work.perform thread number i w).1 := by
  have hsound := (w.moves_setReadiness number .busy).sound hw
  cases work with
  | operate f =>
      rw [Work.acts, Work.perform, operate_eq]
      refine Lead.bracket hw hadmits hthread ?_ _
      have htaken := engaged_setReadiness hi
      have hchange := Lead.single (a := .change number (f i.machine).1) htaken
        (fun _ _ _ _ h => by cases h)
      have hengaged := hchange.engaged hsound htaken
      rw [Transcript.reentries_eq, List.length_replicate]
      refine hchange.append hsound (Lead.replicate (h := h) (.operate f) ?_ ?_ hengaged hthread _)
      · exact sound_play hsound [.change number (f i.machine).1]
      · exact hadmits.resolves
  | hold calls failure =>
      have hcalls := lead_performAll thread calls (w.setReadiness number .busy) hsound hthread
      have hheld := Lead.bracket hw hadmits hthread hcalls
      rw [Work.acts, Work.perform]
      cases failure with
      | none => exact hheld _
      | some e => exact hheld _

theorem lead_performAll (thread : Nat) (calls : List Call) (w : World) (hw : w.registry.Sound)
    (hthread : thread < w.threads.size) :
    Lead (actsAll thread calls w) w (performAll thread calls w).1 := by
  cases calls with
  | nil =>
      rw [actsAll, performAll]
      exact .nil w
  | cons call rest =>
      have hcall := call.lead thread w hw hthread
      have hsound := (call.moves thread w).sound hw
      have hthread' := Nat.lt_of_lt_of_le hthread (hcall.threads_size_le hw)
      rw [actsAll, performAll]
      exact hcall.append hw (lead_performAll thread rest _ hsound hthread')

end

end RegisterMachine
