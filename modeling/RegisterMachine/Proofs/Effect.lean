import RegisterMachine.Machine.Dispatch

namespace RegisterMachine

def FaultKind.OfOperand : FaultKind → Prop
  | .invalidRegister _ _ | .memoryViolation _ | .divisionByZero | .output _ => True
  | .invalidOpcode _ | .truncatedInstruction _ _ | .pcOutOfRange _ | .instructionLimit _ => False

namespace State

structure SameShape (s t : State) : Prop where
  pc : t.pc = s.pc
  memory_size : t.memory.size = s.memory.size
  code_size : t.memory.codeSize = s.memory.codeSize
  register_count : t.registers.size = s.registers.size

structure Intact (s t : State) : Prop where
  registers : t.registers = s.registers
  memory : t.memory = s.memory
  comparison : t.comparison = s.comparison
  pc : t.pc = s.pc

theorem SameShape.refl (s : State) : s.SameShape s := ⟨rfl, rfl, rfl, rfl⟩

theorem SameShape.trans {s t u : State} (h : s.SameShape t) (k : t.SameShape u) : s.SameShape u :=
  ⟨k.pc.trans h.pc, k.memory_size.trans h.memory_size, k.code_size.trans h.code_size,
    k.register_count.trans h.register_count⟩

theorem Intact.refl (s : State) : s.Intact s := ⟨rfl, rfl, rfl, rfl⟩

end State

namespace Effect

variable {α β ε σ : Type}

theorem bind_of_ok {x : EStateM ε σ α} {f : α → EStateM ε σ β} {s u : σ} {a : α}
    (h : x s = .ok a u) : (x >>= f) s = f a u := by
  change EStateM.bind x f s = _
  simp only [EStateM.bind, h]

theorem bind_of_error {x : EStateM ε σ α} {f : α → EStateM ε σ β} {s u : σ} {e : ε}
    (h : x s = .error e u) : (x >>= f) s = .error e u := by
  change EStateM.bind x f s = _
  simp only [EStateM.bind, h]

theorem bind_eq_ok {x : Effect α} {f : α → Effect β} {s t : State} {b : β}
    (h : (x >>= f) s = .ok b t) : ∃ a u, x s = .ok a u ∧ f a u = .ok b t := by
  cases hx : x s with
  | ok a u => exact ⟨a, u, rfl, (bind_of_ok hx).symm.trans h⟩
  | error kind u =>
      rw [bind_of_error hx] at h
      cases h

theorem bind_eq_error {x : Effect α} {f : α → Effect β} {s t : State} {kind : FaultKind}
    (h : (x >>= f) s = .error kind t) :
    x s = .error kind t ∨ ∃ a u, x s = .ok a u ∧ f a u = .error kind t := by
  cases hx : x s with
  | ok a u => exact .inr ⟨a, u, rfl, (bind_of_ok hx).symm.trans h⟩
  | error other u =>
      rw [bind_of_error hx] at h
      cases h
      exact .inl rfl

def after (e : Effect α) (s : State) : State :=
  match e s with
  | .ok _ t => t
  | .error _ t => t

theorem after_of_ok {e : Effect α} {s t : State} {a : α} (h : e s = .ok a t) : e.after s = t := by
  simp [after, h]

theorem after_of_error {e : Effect α} {s t : State} {kind : FaultKind}
    (h : e s = .error kind t) : e.after s = t := by
  simp [after, h]

def KeepsShape (e : Effect α) : Prop := ∀ s : State, s.SameShape (e.after s)

def Reads (e : Effect α) : Prop :=
  ∀ s, (∃ a, e s = .ok a s) ∨ ∃ kind, kind.OfOperand ∧ e s = .error kind s

def Sure (e : Effect α) : Prop := ∀ s, ∃ a t, e s = .ok a t

def PreciseAt (e : Effect α) (s : State) : Prop :=
  ∀ kind t, e s = .error kind t → kind.OfOperand ∧ s.Intact t

def Precise (e : Effect α) : Prop := ∀ s, e.PreciseAt s

theorem KeepsShape.of_ok {e : Effect α} (he : e.KeepsShape) {s t : State} {a : α}
    (h : e s = .ok a t) : s.SameShape t :=
  after_of_ok h ▸ he s

theorem KeepsShape.bind {x : Effect α} {f : α → Effect β} (hx : x.KeepsShape)
    (hf : ∀ a, (f a).KeepsShape) : (x >>= f).KeepsShape := by
  intro s
  have hs := hx s
  cases h : x s with
  | ok a t =>
      rw [after_of_ok h] at hs
      rw [after, bind_of_ok h]
      exact hs.trans (hf a t)
  | error kind t =>
      rw [after_of_error h] at hs
      rw [after_of_error (bind_of_error h)]
      exact hs

theorem Precise.of_error {e : Effect α} {s t : State} {kind : FaultKind} (h : e s = .error kind t)
    (he : e.Precise) : kind.OfOperand ∧ s.Intact t :=
  he s kind t h

theorem Reads.keepsShape {e : Effect α} (he : e.Reads) : e.KeepsShape := by
  intro s
  rcases he s with ⟨a, h⟩ | ⟨kind, -, h⟩
  · rw [after_of_ok h]
    exact .refl s
  · rw [after_of_error h]
    exact .refl s

theorem Reads.eq_of_ok {e : Effect α} (he : e.Reads) {s t : State} {a : α}
    (h : e s = .ok a t) : t = s := by
  rcases he s with ⟨b, k⟩ | ⟨kind, -, k⟩
  · rw [k] at h
    cases h
    rfl
  · rw [k] at h
    cases h

theorem Reads.precise {e : Effect α} (he : e.Reads) : e.Precise := by
  intro s kind t h
  rcases he s with ⟨a, k⟩ | ⟨other, hother, k⟩
  · rw [k] at h
    cases h
  · rw [k] at h
    cases h
    exact ⟨hother, .refl s⟩

theorem Sure.bind {x : Effect α} {f : α → Effect β} (hx : x.Sure) (hf : ∀ a, (f a).Sure) :
    (x >>= f).Sure := by
  intro s
  obtain ⟨a, u, h⟩ := hx s
  obtain ⟨b, t, k⟩ := hf a u
  exact ⟨b, t, (bind_of_ok h).trans k⟩

theorem Sure.precise {e : Effect α} (he : e.Sure) : e.Precise := by
  intro s kind t h
  obtain ⟨a, u, k⟩ := he s
  rw [k] at h
  cases h

theorem Precise.bind_of_reads {x : Effect α} {f : α → Effect β} (hx : x.Reads)
    (hf : ∀ a, (f a).Precise) : (x >>= f).Precise := by
  intro s kind t h
  rcases bind_eq_error h with h | ⟨a, u, hu, h⟩
  · exact hx.precise s kind t h
  · rw [hx.eq_of_ok hu] at h
    exact hf a s kind t h

theorem PreciseAt.bind {x : Effect α} {f : α → Effect β} {s : State} (hx : x.PreciseAt s)
    (hf : ∀ a u, x s = .ok a u → ∃ b t, f a u = .ok b t) : (x >>= f).PreciseAt s := by
  intro kind t h
  rcases bind_eq_error h with h | ⟨a, u, hu, h⟩
  · exact hx kind t h
  · obtain ⟨b, v, k⟩ := hf a u hu
    rw [k] at h
    cases h

theorem Precise.bind_of_sure {x : Effect α} {f : α → Effect β} (hx : x.Precise)
    (hf : ∀ a, (f a).Sure) : (x >>= f).Precise :=
  fun s => (hx s).bind fun a u _ => hf a u

def Yields (e : Effect α) (a : α) : Prop := ∀ s b t, e s = .ok b t → b = a

theorem Yields.of_ok {e : Effect α} {a b : α} {s t : State} (h : e s = .ok b t)
    (he : e.Yields a) : b = a :=
  he s b t h

theorem yields_pure {a : α} : Yields (pure a) a := by
  intro s b t h
  cases h
  rfl

theorem Yields.bind {x : Effect α} {f : α → Effect β} {b : β} (hf : ∀ a, (f a).Yields b) :
    (x >>= f).Yields b := by
  intro s c t h
  obtain ⟨a, u, -, h⟩ := bind_eq_ok h
  exact hf a u c t h

section Elementary

theorem reads_pure {a : α} : Reads (pure a) := fun _ => .inl ⟨a, rfl⟩

theorem reads_view {f : State → α} : Reads (view f) := fun s => .inl ⟨f s, rfl⟩

theorem reads_fail (kind : FaultKind) (h : kind.OfOperand) : Reads (fail kind : Effect α) :=
  fun _ => .inr ⟨kind, h, rfl⟩

theorem reads_stackPointer : Reads stackPointer := fun _ => .inl ⟨_, rfl⟩

theorem reads_get {r : Register} : Reads (get r) := by
  intro s
  by_cases h : r.toNat < s.registers.size
  · exact .inl ⟨_, if_pos h⟩
  · exact .inr ⟨.invalidRegister r s.registers.size, trivial, if_neg h⟩

theorem reads_locate {address : Word} {width : Nat} : Reads (locate address width) := by
  intro s
  unfold locate
  cases s.memory.locate address.toInt width with
  | ok start => exact .inl ⟨start, rfl⟩
  | error access => exact .inr ⟨.memoryViolation access, trivial, rfl⟩

theorem reads_loadWord {address : Word} : Reads (loadWord address) := by
  intro s
  unfold loadWord
  cases s.memory.readWord address.toInt with
  | ok w => exact .inl ⟨w, rfl⟩
  | error access => exact .inr ⟨.memoryViolation access, trivial, rfl⟩

theorem reads_loadByte {address : Word} : Reads (loadByte address) := by
  intro s
  unfold loadByte
  cases s.memory.readByte address.toInt with
  | ok b => exact .inl ⟨_, rfl⟩
  | error access => exact .inr ⟨.memoryViolation access, trivial, rfl⟩

theorem sure_pure {a : α} : Sure (pure a) := fun s => ⟨a, s, rfl⟩

theorem sure_view {f : State → α} : Sure (view f) := fun s => ⟨f s, s, rfl⟩

theorem sure_put {start : Nat} {data : List UInt8} : Sure (put start data) :=
  fun s => ⟨(), { s with memory := s.memory.put start data }, rfl⟩

theorem sure_setComparison {o : Ordering} : Sure (setComparison o) :=
  fun s => ⟨(), { s with comparison := o }, rfl⟩

theorem keepsShape_set {r : Register} {w : Word} : KeepsShape (set r w) := by
  intro s
  unfold after set
  by_cases h : r.toNat < s.registers.size
  · simp only [if_pos h]
    exact ⟨rfl, rfl, rfl, Registers.size_update ..⟩
  · simp only [if_neg h]
    exact .refl s

theorem keepsShape_put {start : Nat} {data : List UInt8} : KeepsShape (put start data) :=
  fun _ => ⟨rfl, Memory.size_put .., rfl, rfl⟩

theorem keepsShape_setComparison {o : Ordering} : KeepsShape (setComparison o) :=
  fun _ => ⟨rfl, rfl, rfl, rfl⟩

theorem keepsShape_print {data : List UInt8} : KeepsShape (print data) := by
  intro s
  unfold after print
  cases s.output.fits data <;> exact ⟨rfl, rfl, rfl, rfl⟩

theorem keepsShape_checkTarget {target : Int} : KeepsShape (checkTarget target) := by
  intro s
  unfold after checkTarget
  by_cases h : 0 ≤ target ∧ target < s.memory.size
  · simp only [if_pos h]
    exact .refl s
  · simp only [if_neg h]
    exact .refl s

theorem precise_set {r : Register} {w : Word} : Precise (set r w) := by
  intro s kind t h
  unfold set at h
  by_cases hr : r.toNat < s.registers.size
  · rw [if_pos hr] at h
    cases h
  · rw [if_neg hr] at h
    cases h
    exact ⟨trivial, .refl s⟩

theorem precise_print {data : List UInt8} : Precise (print data) := by
  intro s kind t h
  unfold print at h
  cases hf : s.output.fits data with
  | true =>
      rw [hf, if_pos rfl] at h
      cases h
  | false =>
      rw [hf, if_neg Bool.false_ne_true] at h
      cases h
      exact ⟨trivial, rfl, rfl, rfl, rfl⟩

end Elementary

section Composite

theorem keepsShape_storeWord {address w : Word} : KeepsShape (storeWord address w) :=
  reads_locate.keepsShape.bind fun _ => keepsShape_put

theorem keepsShape_storeByte {address w : Word} : KeepsShape (storeByte address w) :=
  reads_locate.keepsShape.bind fun _ => keepsShape_put

theorem keepsShape_push {w : Word} : KeepsShape (push w) :=
  reads_stackPointer.keepsShape.bind fun _ => reads_get.keepsShape.bind fun _ =>
    keepsShape_storeWord.bind fun _ => keepsShape_set

theorem keepsShape_pop : KeepsShape pop :=
  reads_stackPointer.keepsShape.bind fun _ => reads_get.keepsShape.bind fun _ =>
    reads_loadWord.keepsShape.bind fun _ => keepsShape_set.bind fun _ =>
      reads_pure.keepsShape

theorem precise_storeWord {address w : Word} : Precise (storeWord address w) :=
  .bind_of_reads reads_locate fun _ => sure_put.precise

theorem precise_storeByte {address w : Word} : Precise (storeByte address w) :=
  .bind_of_reads reads_locate fun _ => sure_put.precise

theorem get_eq_ok {r : Register} {s t : State} {w : Word} (h : get r s = .ok w t) :
    r.toNat < s.registers.size ∧ w = s.registers.value r.toNat ∧ t = s := by
  unfold get at h
  by_cases hr : r.toNat < s.registers.size
  · rw [if_pos hr] at h
    cases h
    exact ⟨hr, rfl, rfl⟩
  · rw [if_neg hr] at h
    cases h

theorem set_of_lt {r : Register} {s : State} (h : r.toNat < s.registers.size) (w : Word) :
    set r w s = .ok () { s with registers := s.registers.update r.toNat w } :=
  if_pos h

theorem checkTarget_eq_ok {target : Int} {s t : State} {a : Unit}
    (h : checkTarget target s = .ok a t) : (0 ≤ target ∧ target < s.memory.size) ∧ t = s := by
  unfold checkTarget at h
  by_cases hin : 0 ≤ target ∧ target < s.memory.size
  · rw [if_pos hin] at h
    cases h
    exact ⟨hin, rfl⟩
  · rw [if_neg hin] at h
    cases h

theorem checkTarget_eq_error {target : Int} {s t : State} {kind : FaultKind}
    (h : checkTarget target s = .error kind t) : kind = .pcOutOfRange target ∧ t = s := by
  unfold checkTarget at h
  by_cases hin : 0 ≤ target ∧ target < s.memory.size
  · rw [if_pos hin] at h
    cases h
  · rw [if_neg hin] at h
    cases h
    exact ⟨rfl, rfl⟩

-- A write to a register that was read before cannot fail any more, so what comes between the two
-- may already have changed the state.
theorem precise_get_bind {r : Register} {f : Word → Effect α}
    (hf : ∀ w (s : State), r.toNat < s.registers.size → (f w).PreciseAt s) :
    Precise (get r >>= f) := by
  intro s kind t h
  rcases bind_eq_error h with hget | ⟨w, u, hget, hrest⟩
  · exact reads_get.precise s kind t hget
  · obtain ⟨hr, -, rfl⟩ := get_eq_ok hget
    exact hf w u hr kind t hrest

theorem KeepsShape.lt_of_ok {e : Effect α} (he : e.KeepsShape) {r : Register} {s t : State} {a : α}
    (h : e s = .ok a t) (hr : r.toNat < s.registers.size) : r.toNat < t.registers.size :=
  (he.of_ok h).register_count ▸ hr

theorem precise_push {w : Word} : Precise (push w) := by
  refine .bind_of_reads reads_stackPointer fun sp => precise_get_bind fun top s hs => ?_
  exact (precise_storeWord s).bind fun _ u hu =>
    ⟨(), _, set_of_lt (keepsShape_storeWord.lt_of_ok hu hs) (top - 4)⟩

theorem precise_pop : Precise pop := by
  refine .bind_of_reads reads_stackPointer fun sp => precise_get_bind fun top s hs => ?_
  exact (reads_loadWord.precise s).bind fun w u hu =>
    ⟨w, _, bind_of_ok (set_of_lt (reads_loadWord.keepsShape.lt_of_ok hu hs) (top + 4))⟩

theorem pop_eq_ok {s t : State} {w : Word} (h : pop s = .ok w t) :
    ∃ sp : Register, sp = UInt8.ofNat s.registers.stackPointer ∧ sp.toNat < s.registers.size ∧
      s.memory.readWord (s.registers.value sp.toNat).toInt = .ok w ∧
      t = { s with registers := s.registers.update sp.toNat (s.registers.value sp.toNat + 4) } := by
  obtain ⟨sp, u, hsp, h⟩ := bind_eq_ok h
  cases hsp
  obtain ⟨top, u, hget, h⟩ := bind_eq_ok h
  obtain ⟨hlt, rfl, rfl⟩ := get_eq_ok hget
  obtain ⟨x, v, hload, h⟩ := bind_eq_ok h
  rw [bind_of_ok (set_of_lt (reads_loadWord.eq_of_ok hload ▸ hlt) _)] at h
  cases h
  cases reads_loadWord.eq_of_ok hload
  refine ⟨_, rfl, hlt, ?_, rfl⟩
  unfold loadWord at hload
  cases hr : u.memory.readWord (u.registers.value (UInt8.ofNat u.registers.stackPointer).toNat).toInt with
  | ok y =>
      rw [hr] at hload
      cases hload
      rfl
  | error access =>
      rw [hr] at hload
      cases hload

end Composite

end Effect

end RegisterMachine
