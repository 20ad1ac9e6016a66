import RegisterMachine.Proofs.Printing
import RegisterMachine.Proofs.Tracing

namespace RegisterMachine

namespace Machine

def withOutput (w : Writer) (m : Machine) : Machine := { m with state := m.state.withOutput w }

end Machine

theorem Turn.map_map (f g : Machine → Machine) (t : Turn) : (t.map f).map g = t.map (g ∘ f) := by
  cases t <;> rfl

def Record.printed (r : Record) : List UInt8 := r.instruction.printed r.registers

namespace Machine

section Turn

variable {m : Machine} {w : Writer}

end Turn

section Run

theorem turn_ne_broken {m : Machine} {patience : Nat}
    (h : (m.run (patience + 1)).2 ≠ some .broken) : m.turn ≠ .ends m .broken := by
  intro hturn
  rw [run, hturn] at h
  exact h rfl

end Run

section Execute

end Execute

end Machine

end RegisterMachine
