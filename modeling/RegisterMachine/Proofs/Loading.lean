import RegisterMachine.Proofs.Rerun

namespace RegisterMachine

namespace Contents

def byte? (contents : Contents) (k : Nat) : Option UInt8 :=
  match contents with
  | .finite bytes => bytes[k]?
  | .endless byte => some (byte k)
  | .unreadable _ => none

def Readable : Contents → Prop
  | .finite _ | .endless _ => True
  | .unreadable _ => False

def Begins (contents : Contents) (count : Nat) (bytes : List UInt8) : Prop :=
  ∀ k, bytes[k]? = if k < count then contents.byte? k else none

theorem begins_of_first {contents : Contents} {count : Nat} {bytes : List UInt8}
    (h : contents.first count = .ok bytes) : contents.Begins count bytes := by
  intro k
  cases contents with
  | finite all =>
      cases h
      exact List.getElem?_take
  | endless byte =>
      cases h
      rw [List.getElem?_map]
      split
      · rename_i hk
        rw [List.getElem?_range hk]
        rfl
      · rename_i hk
        rw [List.getElem?_eq_none (by rw [List.length_range]; omega)]
        rfl
  | unreadable reason => cases h

theorem Readable.first {contents : Contents} (h : contents.Readable) (count : Nat) :
    ∃ bytes, contents.first count = .ok bytes := by
  cases contents with
  | finite all => exact ⟨_, rfl⟩
  | endless byte => exact ⟨_, rfl⟩
  | unreadable reason => exact h.elim

theorem first_congr {contents contents' : Contents} (h : contents.Readable) (h' : contents'.Readable)
    {count : Nat} (halike : ∀ k < count, contents.byte? k = contents'.byte? k) :
    contents.first count = contents'.first count := by
  obtain ⟨bytes, hbytes⟩ := h.first count
  obtain ⟨bytes', hbytes'⟩ := h'.first count
  rw [hbytes, hbytes']
  refine congrArg Except.ok (List.ext_getElem? fun k => ?_)
  rw [begins_of_first hbytes k, begins_of_first hbytes' k]
  split
  · exact halike k ‹_›
  · rfl

end Contents

namespace Machine

structure Loaded (m : Machine) (image : List UInt8) (after : Machine) : Prop where
  bytes : after.state.memory.bytes.toList =
    image ++ List.replicate (m.state.memory.codeSize - image.length) 0 ++
      m.state.memory.bytes.toList.drop m.state.memory.codeSize
  memory_size : after.state.memory.size = m.state.memory.size
  code_size : after.state.memory.codeSize = m.state.memory.codeSize
  registers : after.state.registers = m.state.registers
  comparison : after.state.comparison = m.state.comparison
  output : after.state.output = m.state.output
  config : after.config = m.config
  sink : after.sink = m.sink
  pc : after.state.pc = 0
  steps : after.steps = 0
  phase : after.phase = .ready

variable {config : Config} {m : Machine} {image bytes : List UInt8} {f : File}

section Idle

variable (hidle : m.phase ≠ .running)

include hidle

theorem load_nil : m.load [] = .error .emptyImage := by
  rw [load, if_neg hidle, if_pos rfl]

theorem load_of_codeSize_lt (h : m.state.memory.codeSize < image.length) :
    m.load image = .error (.imageTooLarge image.length m.state.memory.codeSize) := by
  have hnil : image ≠ [] := List.ne_nil_of_length_pos (Nat.zero_lt_of_lt h)
  rw [load, if_neg hidle, if_neg hnil, Memory.loadCode, if_pos h]

theorem load_of_le_codeSize (hcode : m.state.memory.codeSize ≤ m.state.memory.size)
    (hnil : image ≠ []) (h : image.length ≤ m.state.memory.codeSize) :
    ∃ after, m.load image = .ok after ∧ m.Loaded image after := by
  obtain ⟨memory, hmemory⟩ : ∃ memory, m.state.memory.loadCode image = .ok memory :=
    ⟨_, Memory.loadCode_eq_ok_iff.mpr ⟨h, rfl⟩⟩
  obtain ⟨hsize, hcodeSize⟩ := Memory.size_loadCode hcode hmemory
  have hbytes : memory.bytes.toList =
      image ++ List.replicate (m.state.memory.codeSize - image.length) 0 ++
        m.state.memory.bytes.toList.drop m.state.memory.codeSize := by
    obtain ⟨-, rfl⟩ := Memory.loadCode_eq_ok_iff.mp hmemory
    simp only [Array.toList_append, Array.toList_extract, List.extract, Memory.size]
    rw [List.take_of_length_le (by simp)]
  exact ⟨_, load_eq_ok_iff.mpr ⟨hidle, hnil, memory, hmemory, rfl⟩,
    hbytes, hsize, hcodeSize, rfl, rfl, rfl, rfl, rfl, rfl, rfl, rfl⟩

theorem loadFile_of_codeSize_lt (path : String) (h : m.state.memory.codeSize < f.length) :
    m.loadFile path (.ok f) = .error (.imageTooLarge f.length m.state.memory.codeSize) := by
  rw [loadFile, if_neg hidle, File.readImage, File.image, if_pos h]

theorem loadFile_of_first (path : String) (h : f.length ≤ m.state.memory.codeSize)
    (hfirst : f.contents.first (m.state.memory.codeSize + 1) = .ok bytes) :
    m.loadFile path (.ok f) = m.load bytes := by
  rw [loadFile, if_neg hidle, File.readImage, File.image, if_neg (Nat.not_lt.mpr h), hfirst]

theorem loadFile_whole (path : String) (bytes : List UInt8) :
    m.loadFile path (.ok ⟨bytes.length, .finite bytes⟩) = m.load bytes := by
  by_cases h : bytes.length ≤ m.state.memory.codeSize
  · refine loadFile_of_first hidle path h (congrArg Except.ok (List.take_of_length_le ?_))
    exact Nat.le_succ_of_le h
  · rw [load_of_codeSize_lt hidle (Nat.lt_of_not_le h),
      loadFile_of_codeSize_lt hidle path (Nat.lt_of_not_le h)]

theorem loadFile_congr {g : File} (path : String) (hf : f.contents.Readable)
    (hg : g.contents.Readable) (hlength : g.length = f.length)
    (halike : ∀ k ≤ m.state.memory.codeSize, g.contents.byte? k = f.contents.byte? k) :
    m.loadFile path (.ok g) = m.loadFile path (.ok f) := by
  by_cases h : f.length ≤ m.state.memory.codeSize
  · obtain ⟨bytes, hfirst⟩ := hf.first (m.state.memory.codeSize + 1)
    have hsame := Contents.first_congr hg hf fun k hk => halike k (Nat.le_of_lt_succ hk)
    rw [loadFile_of_first hidle path h hfirst,
      loadFile_of_first hidle path (hlength ▸ h) (hsame.trans hfirst)]
  · have hlt := Nat.lt_of_not_le h
    rw [loadFile_of_codeSize_lt hidle path hlt, loadFile_of_codeSize_lt hidle path (hlength ▸ hlt),
      hlength]

end Idle

theorem loads_alike (hm : m.Invariant config) (hidle : m.phase ≠ .running) (patience : Nat) :
    (∀ image,
      (image = [] → m.perform patience (.load image) = (m, .error .emptyImage)) ∧
      (config.codeSize < image.length → m.perform patience (.load image) =
        (m, .error (.imageTooLarge image.length config.codeSize))) ∧
      (image ≠ [] → image.length ≤ config.codeSize →
        ∃ after, m.perform patience (.load image) = (after, .ok .done) ∧ m.Loaded image after)) ∧
    (∀ path (f : File),
      (config.codeSize < f.length → m.perform patience (.loadFile path (.ok f)) =
        (m, .error (.imageTooLarge f.length config.codeSize))) ∧
      (f.contents.Readable → f.length ≤ config.codeSize →
        ∃ bytes, f.contents.Begins (config.codeSize + 1) bytes ∧
          m.perform patience (.loadFile path (.ok f)) = m.perform patience (.load bytes)) ∧
      ∀ g : File, f.contents.Readable → g.contents.Readable → g.length = f.length →
        (∀ k ≤ config.codeSize, g.contents.byte? k = f.contents.byte? k) →
        m.perform patience (.loadFile path (.ok g)) = m.perform patience (.loadFile path (.ok f))) ∧
    ∀ path bytes, m.perform patience (.loadFile path (.ok ⟨bytes.length, .finite bytes⟩)) =
      m.perform patience (.load bytes) := by
  rw [← hm.fits.code_size]
  refine ⟨fun image => ⟨?_, fun hlarge => ?_, fun hnil hfits => ?_⟩,
    fun path f => ⟨fun hlarge => ?_, fun hreadable hfits => ?_, fun g hf hg hlength halike => ?_⟩,
    fun path bytes => ?_⟩
  · rintro rfl
    exact congrArg m.settle (load_nil hidle)
  · exact congrArg m.settle (load_of_codeSize_lt hidle hlarge)
  · obtain ⟨after, hload, hafter⟩ := load_of_le_codeSize hidle hm.code_le hnil hfits
    exact ⟨after, congrArg m.settle hload, hafter⟩
  · exact congrArg m.settle (loadFile_of_codeSize_lt hidle path hlarge)
  · obtain ⟨bytes, hfirst⟩ := hreadable.first (m.state.memory.codeSize + 1)
    exact ⟨bytes, Contents.begins_of_first hfirst,
      congrArg m.settle (loadFile_of_first hidle path hfits hfirst)⟩
  · exact congrArg m.settle (loadFile_congr hidle path hf hg hlength halike)
  · exact congrArg m.settle (loadFile_whole hidle path bytes)

def furnished : Machine :=
  (((blank ⟨8, 3, 4, false, none⟩).perform 0 (.writeWord 4 (-1))).1.perform 0 (.setRegister 0 7)).1

theorem loads_alike_furnished :
    (∃ after, furnished.perform 0 (.load [1, 2]) = (after, .ok .done) ∧ after.phase = .ready ∧
      after.state.memory.bytes.toList = [1, 2, 0, 0, 255, 255, 255, 255] ∧
      after.state.registers.value 0 = 7) ∧
    furnished.perform 0 (.loadFile "image" (.ok ⟨0, .endless fun _ => 1⟩)) =
      (furnished, .error (.imageTooLarge 5 4)) ∧
    furnished.perform 0 (.loadFile "image" (.ok ⟨9, .finite [1]⟩)) =
      (furnished, .error (.imageTooLarge 9 4)) ∧
    furnished.perform 0 (.loadFile "image" (.ok ⟨0, .finite []⟩)) =
      (furnished, .error .emptyImage) := by
  have hc : Config.Valid ⟨8, 3, 4, false, none⟩ := (Config.validate_eq_ok_iff _).mp rfl
  have hm : furnished.Invariant ⟨8, 3, 4, false, none⟩ := ((invariant_blank hc).perform 0 _).perform 0 _
  obtain ⟨himages, hfiles, hwhole⟩ := loads_alike hm (by decide +kernel) 0
  refine ⟨?_, ?_, (hfiles "image" _).1 (by decide), (hwhole "image" []).trans ((himages []).1 rfl)⟩
  · obtain ⟨after, hload, hafter⟩ := (himages [1, 2]).2.2 (by decide) (by decide)
    have hregister : furnished.state.registers.value 0 = 7 := by decide +kernel
    refine ⟨after, hload, hafter.phase, hafter.bytes.trans (by decide +kernel), ?_⟩
    rw [hafter.registers, hregister]
  · obtain ⟨bytes, hbegins, hload⟩ := (hfiles "image" ⟨0, .endless fun _ => 1⟩).2.1 trivial (by decide)
    have hlong : 4 < bytes.length := (List.getElem?_eq_some_iff.mp (hbegins 4)).1
    have hshort : bytes.length ≤ 5 := List.getElem?_eq_none_iff.mp (hbegins 5)
    have hlength : bytes.length = 5 := by omega
    rw [hload, (himages bytes).2.1 hlong, hlength]

end Machine

end RegisterMachine
