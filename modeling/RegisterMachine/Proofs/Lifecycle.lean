import RegisterMachine.Proofs.Code
import RegisterMachine.Proofs.Requests
import RegisterMachine.Proofs.Tracing

namespace RegisterMachine

structure Exchange where
  request : Request
  outcome : Outcome Reply

namespace Exchange

def Returned (x : Exchange) : Prop := x.outcome ≠ .crashed ∧ x.outcome ≠ .unfinished

instance (x : Exchange) : Decidable x.Returned := inferInstanceAs (Decidable (_ ∧ _))

def Loaded (x : Exchange) : Prop := x.request.IsLoad ∧ x.outcome = .ok .done

end Exchange

namespace Machine

variable {m after : Machine} {patience : Nat} {request : Request} {outcome : Outcome Reply}

theorem Comes.running (h : m.Comes patience request after outcome) (hm : m.phase = .running) :
    after.phase = .running := by
  cases h with
  | refused | answered => exact hm
  | loaded hload hafter => exact absurd hm (load_eq_ok_iff.mp hafter).1
  | ran hentry hrun hends =>
      rw [entry_of_running hm] at hentry
      cases hentry
  | adjusted hexecute hload hphase hsink => exact hphase.trans hm

theorem Comes.empty (h : m.Comes patience request after outcome) (hm : m.phase = .empty)
    (hload : ¬ Exchange.Loaded ⟨request, outcome⟩) : after.phase = .empty := by
  cases h with
  | refused | answered => exact hm
  | loaded hload' hafter => exact absurd ⟨hload', rfl⟩ hload
  | ran hentry hrun hends =>
      rw [entry_eq_noProgram_iff.mpr hm] at hentry
      cases hentry
  | adjusted hexecute hload hphase hsink => exact hphase.trans hm

def serve : List (Nat × Request) → Machine → Machine × List Exchange
  | [], m => (m, [])
  | (patience, request) :: requests, m =>
      let (next, outcome) := m.perform patience request
      let (last, log) := next.serve requests
      (last, ⟨request, outcome⟩ :: log)

section Serve

variable {requests : List (Nat × Request)} {log : List Exchange} {last : Machine}

end Serve

def errands : List (Nat × Request) :=
  [(9, .execute []), (0, .load []), (0, .load [0x02, 0x01]), (9, .execute ["0123456789ABCDEF"]),
   (9, .execute []), (0, .load [0xFF]), (9, .execute ["a"])]

def mishap : List (Nat × Request) :=
  [(0, .load [0x02, 0x01]), (0, .setSink (.giveWay 1)), (9, .execute []), (0, .load [0x01])]

end Machine

end RegisterMachine
