import RegisterMachine.Proofs.Deed

namespace RegisterMachine

namespace Writer

theorem append_append_list (written : Array UInt8) (front back : List UInt8) :
    written ++ (front ++ back) = written ++ front ++ back := Array.toList_inj.mp (by simp)

theorem put_append (w : Writer) (front back : List UInt8) :
    w.put (front ++ back) = (w.put front).put back := by
  obtain ⟨written, room, refusal, flush⟩ := w
  cases room with
  | none => simp [put, append_append_list]
  | some n => simp [put, List.take_append, append_append_list, Nat.sub_sub]

end Writer

def State.withOutput (w : Writer) (s : State) : State := { s with output := w }

namespace Effect

variable {α β : Type}

def redirect (w : Writer) : EStateM.Result FaultKind State α → EStateM.Result FaultKind State α
  | .ok a s => .ok a (s.withOutput w)
  | .error kind s => .error kind (s.withOutput w)

def Mute (e : Effect α) : Prop := ∀ w s, e (s.withOutput w) = redirect w (e s)

theorem Mute.bind {x : Effect α} {f : α → Effect β} (hx : x.Mute) (hf : ∀ a, (f a).Mute) :
    (x >>= f).Mute := by
  intro w s
  have hw := hx w s
  cases h : x s with
  | ok a u =>
      rw [h] at hw
      rw [bind_of_ok h, bind_of_ok hw]
      exact hf a w u
  | error kind u =>
      rw [h] at hw
      rw [bind_of_error h, bind_of_error hw]
      rfl

end Effect

open Effect

namespace Instruction

def printed (i : Instruction) (registers : List Word) : List UInt8 :=
  match i with
  | .unary .out r => registers[r.toNat]?.elim [] (fun w => Text.bytes (Word.text w).toList ++ [10])
  | .unary .outc r => registers[r.toNat]?.elim [] (fun w => [Word.lowByte w])
  | _ => []

end Instruction

end RegisterMachine
