import OtaBoot.Firmware.Startup

/-!
# What a program starts on

`Reset_Handler` gets to `main` with the initial values of the globals in place and
zeros in the others, and alters nothing else in memory: not the request that the
application has left for the bootloader, unless the globals of the image reach up
to the last word of RAM.
-/

namespace OtaBoot.Startup

open Storage LittleEndian

/-! ## Words in memory -/

theorem bytes32_ldr (m : Memory UInt8) (address : UInt32) :
    bytes32 (ldr m address) = m.read address.toNat 4 := by
  rw [ldr, bytes32_word32]
  rfl

/-- A word copied behind what was copied before, from below. -/
theorem str_ldr {m : Memory UInt8} {src dst : UInt32} {source target count : Nat}
    (hsrc : src.toNat = source + count) (hdst : dst.toNat = target + count)
    (hbelow : source + (count + 4) ≤ target) :
    str (m.store target (m.read source count)) dst
        (ldr (m.store target (m.read source count)) src) =
      m.store target (m.read source (count + 4)) := by
  have hsame : (m.store target (m.read source count)).read (source + count) 4 =
      m.read (source + count) 4 :=
    (Memory.store_agreeOn m target _ (.inl (by omega))).read_eq
  rw [str, bytes32_ldr, hsrc, hdst, hsame, Memory.read_add, Memory.store_append,
    Memory.length_read]

/-- A zero behind the zeros. -/
theorem str_zero {m : Memory UInt8} {dst : UInt32} {target count : Nat}
    (hdst : dst.toNat = target + count) :
    str (m.fill target count 0) dst 0 = m.fill target (count + 4) 0 := by
  rw [str, hdst]
  exact Memory.store_fill m target count 4 0

/-! ## The memory that `main` finds -/

/-- The memory behind the access to `CPACR`. -/
def enabled (m : Memory UInt8) : Memory UInt8 :=
  str m cpacr (ldr m cpacr ||| ((0xF : UInt32) <<< 20))

/-- The number of bytes in `.data`. -/
def Symbols.dataSize (l : Symbols) : Nat := l.edata.toNat - l.sdata.toNat

/-- The number of bytes in `.bss`. -/
def Symbols.bssSize (l : Symbols) : Nat := l.ebss.toNat - l.sbss.toNat

/-- The globals have their initial values. -/
def Symbols.copied (l : Symbols) (m : Memory UInt8) : Memory UInt8 :=
  m.store l.sdata.toNat (m.read l.sidata.toNat l.dataSize)

def Symbols.prepared (l : Symbols) (m : Memory UInt8) : Memory UInt8 :=
  (l.copied (enabled m)).fill l.sbss.toNat l.bssSize 0

/-- The statics of the image take up the address. -/
def Symbols.Covers (l : Symbols) (a : Nat) : Prop :=
  (l.sdata.toNat ≤ a ∧ a < l.edata.toNat) ∨ (l.sbss.toNat ≤ a ∧ a < l.ebss.toNat)

section Linked

variable {s : LinkerScript} {l : Symbols} {m : Memory UInt8}

/-- Where flash and RAM are. -/
theorem Symbols.Linked.bounds (hl : l.Linked s) (hs : s ∈ scripts) :
    0x20000000 ≤ l.sdata.toNat ∧ l.ebss.toNat ≤ 0x20018000 ∧
      l.sidata.toNat + l.dataSize ≤ 0x080F8000 ∧ 0x08000000 ≤ l.sidata.toNat := by
  have horigin := hl.origin
  have hfits := hl.fits
  have hloaded := hl.loaded
  have hloads := hl.loads
  unfold dataSize
  simp only [scripts, List.mem_cons, List.not_mem_nil, or_false] at hs
  rcases hs with rfl | rfl | rfl <;>
  · simp only [bootloaderScript, slotAScript, slotBScript] at horigin hfits hloaded hloads
    omega

/-! ## The loops -/

/-- So many words of `.data` have been copied. -/
structure Copying (l : Symbols) (m : Memory UInt8) (words : Nat) (c : Cpu) : Prop where
  label : c.label = .loopCopyDataInit
  offset : c.r1.toNat = 4 * words
  stack : c.sp = l.estack
  memory : c.memory = m.store l.sdata.toNat (m.read l.sidata.toNat (4 * words))

/-- So many words of `.bss` have been cleared. -/
structure Filling (l : Symbols) (m : Memory UInt8) (words : Nat) (c : Cpu) : Prop where
  label : c.label = .loopFillZerobss
  address : c.r2.toNat = l.sbss.toNat + 4 * words
  stack : c.sp = l.estack
  memory : c.memory = m.fill l.sbss.toNat (4 * words) 0

variable {c : Cpu} {words : Nat}

theorem Reaches.step (l : Symbols) (c : Cpu) : Reaches l c (c.step l) :=
  Relation.ReflTransGen.single rfl

/-- The address of the next word of `.data`. -/
theorem Copying.target (h : Copying l m words c) (hl : l.Linked s) (hs : s ∈ scripts)
    (hmore : 4 * words ≤ l.dataSize) : (l.sdata + c.r1).toNat = l.sdata.toNat + 4 * words := by
  obtain ⟨hlow, hhigh, -⟩ := hl.bounds hs
  have hdata := hl.data
  have horder := hl.order
  have hbss := hl.bss
  unfold Symbols.dataSize at hmore
  rw [UInt32.toNat_add, h.offset, Nat.mod_eq_of_lt]
  omega

/-- A turn of the first loop. -/
theorem Copying.turn (h : Copying l m words c) (hl : l.Linked s) (hs : s ∈ scripts)
    (hmore : 4 * words < l.dataSize) : Copying l m (words + 1) ((c.step l).step l) := by
  obtain ⟨hlow, hhigh, hload, -⟩ := hl.bounds hs
  have haligned := hl.aligned
  have htarget := h.target hl hs (Nat.le_of_lt hmore)
  have hwhole : 4 * words + 4 ≤ l.dataSize := by
    unfold Symbols.dataSize at hmore ⊢
    omega
  have htaken : l.sdata + c.r1 < l.edata := by
    rw [UInt32.lt_iff_toNat_lt, htarget]
    unfold Symbols.dataSize at hmore
    omega
  have hbody : c.step l =
      { c with r0 := l.sdata, r3 := l.edata, r2 := l.sdata + c.r1, label := .copyDataInit } := by
    simp only [Cpu.step, h.label, htaken, if_true]
  have hsource : (l.sidata + c.r1).toNat = l.sidata.toNat + 4 * words := by
    rw [UInt32.toNat_add, h.offset, Nat.mod_eq_of_lt]
    omega
  have hoffset : (c.r1 + 4).toNat = 4 * (words + 1) := by
    have hsize : l.dataSize < 2 ^ 32 := Nat.lt_of_le_of_lt (Nat.sub_le _ _) l.edata.toNat_lt
    rw [UInt32.toNat_add, h.offset, Nat.mod_eq_of_lt]
    · rfl
    · change 4 * words + 4 < 2 ^ 32
      omega
  rw [hbody]
  refine ⟨rfl, hoffset, h.stack, ?_⟩
  change str c.memory (l.sdata + c.r1) (ldr c.memory (l.sidata + c.r1)) = _
  rw [h.memory]
  exact str_ldr hsource htarget (by omega)

/-- The first loop is left. -/
theorem Copying.leave (h : Copying l m words c) (hl : l.Linked s) (hs : s ∈ scripts)
    (hdone : 4 * words = l.dataSize) : Filling l (l.copied m) 0 (c.step l) := by
  have hdata := hl.data
  have hnot : ¬ l.sdata + c.r1 < l.edata := by
    rw [UInt32.lt_iff_toNat_lt, h.target hl hs (Nat.le_of_eq hdone)]
    unfold Symbols.dataSize at hdone
    omega
  have hbody : c.step l =
      { c with r0 := l.sdata, r3 := l.edata, r2 := l.sbss, label := .loopFillZerobss } := by
    simp only [Cpu.step, h.label, hnot, if_false]
  rw [hbody]
  refine ⟨rfl, rfl, h.stack, ?_⟩
  change c.memory = _
  rw [h.memory, hdone, Memory.fill_nothing]
  rfl

/-- A turn of the second loop. -/
theorem Filling.turn (h : Filling l m words c) (hl : l.Linked s) (hs : s ∈ scripts)
    (hmore : 4 * words < l.bssSize) : Filling l m (words + 1) ((c.step l).step l) := by
  obtain ⟨hlow, hhigh, -⟩ := hl.bounds hs
  have haligned := hl.aligned
  unfold Symbols.bssSize at hmore
  have htaken : c.r2 < l.ebss := by
    rw [UInt32.lt_iff_toNat_lt, h.address]
    omega
  have hbody : c.step l = { c with r3 := l.ebss, label := .fillZerobss } := by
    simp only [Cpu.step, h.label, htaken, if_true]
  have haddress : (c.r2 + 4).toNat = l.sbss.toNat + 4 * (words + 1) := by
    rw [UInt32.toNat_add, h.address, Nat.mod_eq_of_lt]
    · rfl
    · change l.sbss.toNat + 4 * words + 4 < 2 ^ 32
      omega
  rw [hbody]
  refine ⟨rfl, haddress, h.stack, ?_⟩
  change str c.memory c.r2 0 = _
  rw [h.memory]
  exact str_zero h.address

/-- The second loop is left. -/
theorem Filling.leave (h : Filling l m words c) (hdone : l.sbss.toNat + 4 * words = l.ebss.toNat) :
    c.step l = { c with r3 := l.ebss, label := .main } := by
  have hnot : ¬ c.r2 < l.ebss := by
    rw [UInt32.lt_iff_toNat_lt, h.address, hdone]
    exact Nat.lt_irrefl _
  simp only [Cpu.step, h.label, hnot, if_false]

/-! ## The handler -/

/-- From any word of `.data` the first loop gets to the last one. -/
theorem Copying.finish (h : Copying l m words c) (hl : l.Linked s) (hs : s ∈ scripts)
    (hwithin : 4 * words ≤ l.dataSize) : ∃ c', Reaches l c c' ∧ Filling l (l.copied m) 0 c' := by
  have haligned := hl.aligned
  obtain ⟨left, hleft⟩ : ∃ left, l.dataSize = 4 * words + 4 * left :=
    ⟨(l.dataSize - 4 * words) / 4, by unfold Symbols.dataSize at hwithin ⊢; omega⟩
  induction left generalizing words c with
  | zero => exact ⟨_, .step l c, h.leave hl hs hleft.symm⟩
  | succ left ih =>
      have hnext := h.turn hl hs (by omega)
      obtain ⟨c', hreaches, hfilling⟩ := ih hnext (by omega) (by omega)
      exact ⟨c', (Reaches.step l c).trans ((Reaches.step l _).trans hreaches), hfilling⟩

/-- And the second loop to `main`. -/
theorem Filling.finish (h : Filling l m words c) (hl : l.Linked s) (hs : s ∈ scripts)
    (hwithin : 4 * words ≤ l.bssSize) :
    ∃ c', Reaches l c c' ∧ c'.label = .main ∧ c'.sp = l.estack ∧
      c'.memory = m.fill l.sbss.toNat l.bssSize 0 := by
  have haligned := hl.aligned
  have hbss := hl.bss
  obtain ⟨left, hleft⟩ : ∃ left, l.bssSize = 4 * words + 4 * left :=
    ⟨(l.bssSize - 4 * words) / 4, by unfold Symbols.bssSize at hwithin ⊢; omega⟩
  induction left generalizing words c with
  | zero =>
      have hdone : l.sbss.toNat + 4 * words = l.ebss.toNat := by
        unfold Symbols.bssSize at hleft
        omega
      have hmain := h.leave hdone
      refine ⟨c.step l, .step l c, by rw [hmain], by rw [hmain]; exact h.stack, ?_⟩
      rw [hmain, hleft]
      exact h.memory
  | succ left ih =>
      have hnext := h.turn hl hs (by omega)
      obtain ⟨c', hreaches, hmain⟩ := ih hnext (by omega) (by omega)
      exact ⟨c', (Reaches.step l c).trans ((Reaches.step l _).trans hreaches), hmain⟩

/-- Where the handler leads. -/
theorem reaches_main (hl : l.Linked s) (hs : s ∈ scripts) (hlabel : c.label = .resetHandler) :
    ∃ c', Reaches l c c' ∧ c'.label = .main ∧ c'.sp = l.estack ∧
      c'.memory = l.prepared c.memory := by
  have hbegin : Copying l (enabled c.memory) 0 (c.step l) := by
    refine ⟨?_, ?_, ?_, ?_⟩ <;> simp only [Cpu.step, hlabel]
    · rfl
    · exact (Memory.store_nil _ _).symm
  obtain ⟨c₁, hcopies, hfilling⟩ := hbegin.finish hl hs (Nat.zero_le _)
  obtain ⟨c₂, hfills, hmain⟩ := hfilling.finish hl hs (Nat.zero_le _)
  exact ⟨c₂, (Reaches.step l c).trans (hcopies.trans hfills), hmain⟩

/-- There is nothing else that it leads to. -/
theorem Reaches.unique {c₁ c₂ : Cpu} (h₁ : Reaches l c c₁) (hmain₁ : c₁.label = .main)
    (h₂ : Reaches l c c₂) (hmain₂ : c₂.label = .main) : c₁ = c₂ := by
  have hends {c c' : Cpu} (h : Reaches l c c') (hmain : c.label = .main) : c = c' := by
    induction h with
    | refl => rfl
    | tail _ hstep ih =>
        subst ih
        rw [← hstep, Cpu.step, hmain]
  have hunique : Relator.RightUnique fun c c' : Cpu => c.step l = c' :=
    fun _ _ _ h h' => h.symm.trans h'
  rcases Relation.ReflTransGen.total_of_right_unique hunique h₁ h₂ with h | h
  · exact hends h hmain₁
  · exact (hends h hmain₂).symm

/-! ## What is altered, and what is not -/

/-- The access to `CPACR` stays outside flash and RAM. -/
theorem enabled_apply {a : Nat} (h : a < 0xE000ED88 ∨ 0xE000ED88 + 4 ≤ a) : enabled m a = m a :=
  Memory.store_apply_outside m _ _ a h

theorem prepared_apply_data (hl : l.Linked s) (hs : s ∈ scripts) {i : Nat} (hi : i < l.dataSize) :
    l.prepared m (l.sdata.toNat + i) = m (l.sidata.toNat + i) := by
  obtain ⟨hlow, hhigh, hload, -⟩ := hl.bounds hs
  have hdata := hl.data
  have horder := hl.order
  have hsize : l.dataSize = l.edata.toNat - l.sdata.toNat := rfl
  have hlength : i < ((enabled m).read l.sidata.toNat l.dataSize).length := by
    rw [Memory.length_read]
    exact hi
  calc l.prepared m (l.sdata.toNat + i)
      = l.copied (enabled m) (l.sdata.toNat + i) :=
        Memory.fill_apply_outside _ _ (.inl (by omega))
    _ = enabled m (l.sidata.toNat + i) := by
        rw [Symbols.copied, Memory.store_apply_of_mem _ _ _ i hlength, Memory.getElem_read]
    _ = m (l.sidata.toNat + i) := enabled_apply (.inl (by omega))

theorem prepared_apply_bss {a : Nat} (hfrom : l.sbss.toNat ≤ a) (hto : a < l.ebss.toNat) :
    l.prepared m a = 0 := by
  refine Memory.fill_apply_of_mem _ _ hfrom ?_
  unfold Symbols.bssSize
  omega

theorem prepared_apply (hl : l.Linked s) {a : Nat} (hcovers : ¬ l.Covers a)
    (hcpacr : ¬ (0xE000ED88 ≤ a ∧ a < 0xE000ED88 + 4)) : l.prepared m a = m a := by
  have hdata := hl.data
  have hbss := hl.bss
  unfold Symbols.Covers at hcovers
  have hfilled : l.prepared m a = l.copied (enabled m) a := by
    refine Memory.fill_apply_outside _ _ ?_
    unfold Symbols.bssSize
    omega
  have hcopied : l.copied (enabled m) a = enabled m a := by
    refine Memory.store_apply_outside _ _ _ _ ?_
    rw [Memory.length_read]
    unfold Symbols.dataSize
    omega
  rw [hfilled, hcopied]
  exact enabled_apply (by omega)

/-- Whatever is in memory, the handler gets to `main` with the stack below the request
word, with the initial values in `.data` and zeros in `.bss`, and leaves everything else
as it was, but for the coprocessor, which it enables. -/
theorem resetHandler_prepares (hl : l.Linked s) (hs : s ∈ scripts)
    (hlabel : c.label = .resetHandler) :
    ∃ c', Reaches l c c' ∧ c'.label = .main ∧ c'.sp.toNat + 4 = s.bootRequest ∧
      c'.memory.read l.sdata.toNat l.dataSize = c.memory.read l.sidata.toNat l.dataSize ∧
      c'.memory.read l.sbss.toNat l.bssSize = List.replicate l.bssSize 0 ∧
      ∀ a, ¬ l.Covers a → ¬ (0xE000ED88 ≤ a ∧ a < 0xE000ED88 + 4) →
        c'.memory a = c.memory a := by
  obtain ⟨c', hreaches, hmain, hsp, hmemory⟩ := reaches_main hl hs hlabel
  have hstack : l.estack.toNat + 4 = s.bootRequest := by
    rw [hl.estack]
    simp only [scripts, List.mem_cons, List.not_mem_nil, or_false] at hs
    rcases hs with rfl | rfl | rfl <;> rfl
  refine ⟨c', hreaches, hmain, by rw [hsp, hstack], ?_, ?_, fun a hcovers hcpacr => ?_⟩
  · rw [hmemory]
    refine List.map_congr_left fun i hi => ?_
    exact prepared_apply_data hl hs (List.mem_range.mp hi)
  · rw [hmemory]
    exact Memory.read_fill _ 0 (Nat.le_refl _) (Nat.le_refl _)
  · rw [hmemory]
    exact prepared_apply hl hcovers hcpacr

/-- An image that was just started. -/
def started (m : Memory UInt8) : Cpu := ⟨.resetHandler, 0, 0, 0, 0, 0, m⟩

/-- A bootloader with a word of `.data` and a page of `.bss`. -/
def small : Symbols :=
  ⟨0x20017FF8, 0x08004000, 0x20000000, 0x20000004, 0x20000004, 0x20000804⟩

theorem small_linked : small.Linked bootloaderScript where
  estack := rfl
  aligned := by decide
  origin := by decide
  data := by decide
  order := by decide
  bss := by decide
  fits := by decide
  loaded := by decide
  loads := by decide

theorem resetHandler_prepares_small :
    ∃ c', Reaches small (started fun a => UInt8.ofNat a) c' ∧ c'.label = .main ∧
      c'.memory 0x20000001 = 0x01 ∧ c'.memory 0x20000805 = 0x05 := by
  obtain ⟨c', hreaches, hmain, -, hdata, -, hother⟩ :=
    resetHandler_prepares small_linked (by decide) (rfl : (started fun a => UInt8.ofNat a).label = _)
  refine ⟨c', hreaches, hmain, ?_, ?_⟩
  · exact congrArg (fun w => w.getD 1 0) hdata
  · refine (hother _ ?_ (by decide)).trans rfl
    unfold Symbols.Covers
    decide

/-- The word at which one image leaves its request is the one at which the other finds
it, and it comes through the start of the other whatever it is if and only if the
statics of that image leave it out. -/
theorem request_survives_iff (hl : l.Linked s) (hs : s ∈ scripts) {s' : LinkerScript}
    (hs' : s' ∈ scripts) :
    (∀ c c', c.label = .resetHandler → Reaches l c c' → c'.label = .main →
      c'.memory.read s'.bootRequest 4 = c.memory.read s.bootRequest 4) ↔
      ¬ l.Covers s.bootRequest := by
  have haddress {s : LinkerScript} (hs : s ∈ scripts) : s.bootRequest = 0x20017FFC := by
    simp only [scripts, List.mem_cons, List.not_mem_nil, or_false] at hs
    rcases hs with rfl | rfl | rfl <;> rfl
  rw [haddress hs, haddress hs']
  obtain ⟨hlow, hhigh, hload, -⟩ := hl.bounds hs
  have haligned := hl.aligned
  have hdata := hl.data
  have horder := hl.order
  have hbss := hl.bss
  constructor
  · intro hsurvives hcovers
    -- a memory of zeros with a request in it
    let m : Memory UInt8 := fun a => if a = 0x20017FFC then 1 else 0
    obtain ⟨c', hreaches, hmain, -, hmemory⟩ := reaches_main (c := started m) hl hs rfl
    have hword := hsurvives (started m) c' rfl hreaches hmain
    have hbyte : c'.memory 0x20017FFC = 1 := congrArg (fun w => w.getD 0 0) hword
    rw [hmemory] at hbyte
    change l.prepared m 0x20017FFC = 1 at hbyte
    rcases hcovers with ⟨hfrom, hto⟩ | ⟨hfrom, hto⟩
    · have hi : 0x20017FFC - l.sdata.toNat < l.dataSize := by
        unfold Symbols.dataSize
        omega
      have hloaded := prepared_apply_data (m := m) hl hs hi
      rw [Nat.add_sub_cancel' hfrom, hbyte] at hloaded
      have helsewhere : ¬ l.sidata.toNat + (0x20017FFC - l.sdata.toNat) = 0x20017FFC := by omega
      simp [m, helsewhere] at hloaded
    · rw [prepared_apply_bss hfrom hto] at hbyte
      cases hbyte
  · intro hleaves c c' hlabel hreaches hmain
    obtain ⟨c'', hreaches', hmain', -, hmemory⟩ := reaches_main hl hs hlabel
    obtain rfl := hreaches.unique hmain hreaches' hmain'
    rw [hmemory]
    refine Memory.AgreeOn.read_eq fun a hfrom hto => prepared_apply hl ?_ (by omega)
    unfold Symbols.Covers at hleaves ⊢
    omega

end Linked

/-- A bootloader whose statics fill the RAM, which its script permits. -/
def crowded : Symbols :=
  ⟨0x20017FF8, 0x08004000, 0x20000000, 0x20000004, 0x20000004, 0x20018000⟩

theorem crowded_linked : crowded.Linked bootloaderScript where
  estack := rfl
  aligned := by decide
  origin := by decide
  data := by decide
  order := by decide
  bss := by decide
  fits := by decide
  loaded := by decide
  loads := by decide

theorem request_survives_iff_crowded :
    ¬ ∀ c c', c.label = .resetHandler → Reaches crowded c c' → c'.label = .main →
      c'.memory.read slotAScript.bootRequest 4 = c.memory.read bootloaderScript.bootRequest 4 := by
  rw [request_survives_iff crowded_linked (by decide) (by decide), not_not]
  unfold Symbols.Covers
  decide

end OtaBoot.Startup
