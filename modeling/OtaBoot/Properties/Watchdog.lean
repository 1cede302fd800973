import Mathlib.Data.Rat.Floor
import OtaBoot.Firmware.Iwdg
import OtaBoot.Foundation.Quanta

/-!
# The watchdog period

`iwdg_start` counts the timeout in LSI cycles, of which there are 32 to a
millisecond, in 32 bits. As long as the product does not wrap, the period is the
timeout to within one tick, with the finest prescaler that reaches it, and the
longest period there is for any longer timeout.
-/

namespace OtaBoot.Iwdg

/-! ## What is asked -/

/-- One tick of the counter, in milliseconds. -/
def tickMs (pr : UInt32) : ℚ := (prescalerValue pr).toNat / 32

/-- The period in milliseconds: T = (RLR + 1) x prescaler / f_LSI. -/
def periodMs (pr reload : UInt32) : ℚ := (reload.toNat + 1) * (prescalerValue pr).toNat / 32

/-- With this prescaler and this reload value, the period is not longer than the
timeout, and less than a tick shorter. -/
structure Expresses (timeoutMs pr reload : UInt32) : Prop where
  fits : reload ≤ rlrMax
  not_longer : periodMs pr reload ≤ timeoutMs.toNat
  within_tick : timeoutMs.toNat - tickMs pr < periodMs pr reload

/-- The period follows the timeout up to the longest one, and then stays there. -/
structure WellTimed (timeoutMs pr reload : UInt32) : Prop where
  prescaler_le : pr ≤ 6
  reload_le : reload ≤ 4095
  expresses : 1 ≤ timeoutMs → timeoutMs ≤ 32768 → Expresses timeoutMs pr reload
  smallest : 1 ≤ timeoutMs → timeoutMs ≤ 32768 →
    ∀ pr' < pr, ∀ reload', ¬ Expresses timeoutMs pr' reload'
  clamped : 32768 < timeoutMs → periodMs pr reload = 32768

def RegWrite.pr? : RegWrite → Option UInt32
  | .pr value => some value
  | _ => none

def RegWrite.rlr? : RegWrite → Option UInt32
  | .rlr value => some value
  | _ => none

/-- PR and RLR have been written once each, with these values. -/
def Programmed (pr reload : UInt32) (record : List RegWrite) : Prop :=
  record.filterMap RegWrite.pr? = [pr] ∧ record.filterMap RegWrite.rlr? = [reload]

/-- However long the update of the registers takes, what is programmed is right. -/
def StartsWellTimed (timeoutMs : UInt32) : Prop :=
  ∀ answers, ∃ pr reload, Programmed pr reload ((iwdgStart timeoutMs).run answers).1 ∧
    WellTimed timeoutMs pr reload

/-! ## Cycles and ticks -/

section Ticks

variable {timeoutMs pr reload : UInt32}

/-- The timeout in LSI cycles, as the driver computes it. -/
def cycles (timeoutMs : UInt32) : Nat := (timeoutMs * (lsiFreqHz / 1000)).toNat

theorem cycles_eq (timeoutMs : UInt32) : cycles timeoutMs = 32 * (timeoutMs.toNat % 2 ^ 27) := by
  have hfactor : (lsiFreqHz / 1000).toNat = 32 := by decide
  rw [cycles, UInt32.toNat_mul, hfactor]
  omega

theorem toNat_prescalerValue (h : pr.toNat ≤ 6) :
    (prescalerValue pr).toNat = 4 * 2 ^ pr.toNat := by
  have hall : ∀ k < 7, (prescalerValue (UInt32.ofNat k)).toNat = 4 * 2 ^ k := by decide
  rw [← hall pr.toNat (by omega), UInt32.ofNat_toNat]

theorem toNat_ticksFor (h : pr.toNat ≤ 6) :
    (ticksFor timeoutMs pr).toNat = max 1 (cycles timeoutMs / (4 * 2 ^ pr.toNat)) := by
  have hquotient : (timeoutMs * (lsiFreqHz / 1000) / prescalerValue pr).toNat =
      cycles timeoutMs / (4 * 2 ^ pr.toNat) := by
    rw [UInt32.toNat_div, toNat_prescalerValue h, cycles]
  unfold ticksFor
  dsimp only
  split
  next hzero =>
    rw [hzero] at hquotient
    rw [← hquotient]
    rfl
  next hpos =>
    have hne : cycles timeoutMs / (4 * 2 ^ pr.toNat) ≠ 0 := fun hzero =>
      hpos (UInt32.toNat_inj.mp (hquotient.trans hzero))
    rw [hquotient]
    omega

/-- A prescaler expresses a timeout by the ticks that it holds. -/
theorem expresses_iff (h : pr.toNat ≤ 6) :
    Expresses timeoutMs pr reload ↔
      reload.toNat ≤ 4095 ∧ 32 * timeoutMs.toNat / (4 * 2 ^ pr.toNat) = reload.toNat + 1 := by
  have htick : 0 < tickMs pr := by
    rw [tickMs, toNat_prescalerValue h]
    positivity
  have hperiod : periodMs pr reload = ((reload.toNat + 1 : ℕ) : ℚ) * tickMs pr := by
    rw [periodMs, tickMs]
    push_cast
    ring
  have hcount : ⌊(timeoutMs.toNat : ℚ) / tickMs pr⌋₊ =
      32 * timeoutMs.toNat / (4 * 2 ^ pr.toNat) := by
    have hunits := Quanta.floor_div_subunits (K := ℚ) timeoutMs.toNat (prescalerValue pr).toNat 32
    rw [Nat.cast_ofNat] at hunits
    rw [tickMs, hunits, toNat_prescalerValue h, Nat.mul_comm]
  rw [← hcount, ← Quanta.within_iff htick (Nat.cast_nonneg _), ← hperiod]
  constructor
  · rintro ⟨hfits, hlonger, hwithin⟩
    exact ⟨UInt32.le_iff_toNat_le.mp hfits, hlonger, hwithin⟩
  · rintro ⟨hfits, hlonger, hwithin⟩
    exact ⟨UInt32.le_iff_toNat_le.mpr hfits, hlonger, hwithin⟩

end Ticks

/-! ## The search -/

section Search

variable {timeoutMs p reload : UInt32}

theorem toNat_next {count : Nat} {pr : UInt32} (hcount : pr.toNat + (count + 1) ≤ 7) :
    (pr + 1).toNat = pr.toNat + 1 := by
  rw [UInt32.toNat_add, UInt32.toNat_one]
  omega

theorem one_le_ticksFor (timeoutMs pr : UInt32) : 1 ≤ (ticksFor timeoutMs pr).toNat := by
  unfold ticksFor
  dsimp only
  split
  · exact Nat.le_refl 1
  next hpos => exact Nat.pos_of_ne_zero fun hzero => hpos (UInt32.toNat_inj.mp hzero)

/-- The ticks of a prescaler fit the register, with a reload value of one less. -/
theorem toNat_reload {pr : UInt32} (h : ticksFor timeoutMs pr ≤ rlrMax + 1) :
    (ticksFor timeoutMs pr - 1).toNat ≤ 4095 ∧
      (ticksFor timeoutMs pr).toNat = (ticksFor timeoutMs pr - 1).toNat + 1 := by
  have hpos := one_le_ticksFor timeoutMs pr
  have hle : 1 ≤ ticksFor timeoutMs pr := UInt32.le_iff_toNat_le.mpr hpos
  have hmost : (ticksFor timeoutMs pr).toNat ≤ 4096 := UInt32.le_iff_toNat_le.mp h
  rw [UInt32.toNat_sub_of_le _ _ hle, UInt32.toNat_one]
  omega

/-- The search finds the first prescaler that counts no more ticks than the reload
register holds. -/
theorem selectFrom_some {count : Nat} {pr : UInt32} (hcount : pr.toNat + count ≤ 7)
    (h : selectFrom timeoutMs count pr = some (p, reload)) :
    p.toNat < pr.toNat + count ∧ reload.toNat ≤ 4095 ∧
      (ticksFor timeoutMs p).toNat = reload.toNat + 1 ∧
      ∀ q : UInt32, pr.toNat ≤ q.toNat → q < p → 4096 < (ticksFor timeoutMs q).toNat := by
  induction count generalizing pr with
  | zero => cases h
  | succ count ih =>
      rw [selectFrom] at h
      split at h
      next hfits =>
        cases h
        obtain ⟨hreload, hticks⟩ := toNat_reload hfits
        refine ⟨by omega, hreload, hticks, fun q hlo hhi => ?_⟩
        exact absurd hlo (Nat.not_le.mpr (UInt32.lt_iff_toNat_lt.mp hhi))
      next hmany =>
        have hnext := toNat_next hcount
        obtain ⟨hp, hreload, hticks, hfirst⟩ := ih (by omega) h
        refine ⟨by omega, hreload, hticks, fun q hlo hhi => ?_⟩
        rcases Nat.eq_or_lt_of_le hlo with heq | hlt
        · rw [UInt32.not_le, UInt32.lt_iff_toNat_lt, UInt32.toNat_inj.mp heq] at hmany
          exact hmany
        · exact hfirst q (by omega) hhi

/-- The search finds nothing when every prescaler counts more. -/
theorem selectFrom_none {count : Nat} {pr : UInt32} (hcount : pr.toNat + count ≤ 7)
    (h : selectFrom timeoutMs count pr = none) {q : UInt32} (hlo : pr.toNat ≤ q.toNat)
    (hhi : q.toNat < pr.toNat + count) : 4096 < (ticksFor timeoutMs q).toNat := by
  induction count generalizing pr with
  | zero => omega
  | succ count ih =>
      rw [selectFrom] at h
      split at h
      · cases h
      next hmany =>
        have hnext := toNat_next hcount
        rcases Nat.eq_or_lt_of_le hlo with heq | hlt
        · rw [UInt32.not_le, UInt32.lt_iff_toNat_lt, UInt32.toNat_inj.mp heq] at hmany
          exact hmany
        · exact ih (by omega) h (by omega) (by omega)

theorem many_ticks {q : UInt32} (hq : q.toNat ≤ 6)
    (h : 4096 < (ticksFor timeoutMs q).toNat) : 4096 < cycles timeoutMs / (4 * 2 ^ q.toNat) := by
  rw [toNat_ticksFor hq] at h
  omega

/-- What the loop and the clamp come to. -/
theorem selectTiming_cases (h : selectTiming timeoutMs = (p, reload)) :
    p.toNat ≤ 6 ∧ reload.toNat ≤ 4095 ∧
      ((max 1 (cycles timeoutMs / (4 * 2 ^ p.toNat)) = reload.toNat + 1 ∧
          ∀ q < p, 4096 < cycles timeoutMs / (4 * 2 ^ q.toNat)) ∨
        p = 6 ∧ reload = rlrMax ∧ 4096 < cycles timeoutMs / 256) := by
  unfold selectTiming at h
  cases hfound : selectFrom timeoutMs 7 0 with
  | none =>
      rw [hfound] at h
      cases h
      have hsix : (6 : UInt32).toNat = 6 := rfl
      have hmany := selectFrom_none (q := 6) (by decide) hfound (by decide) (by decide)
      exact ⟨Nat.le_refl 6, Nat.le_refl 4095, Or.inr ⟨rfl, rfl, many_ticks (q := 6) hsix.le hmany⟩⟩
  | some found =>
      rw [hfound] at h
      cases h
      obtain ⟨hp, hreload, hticks, hfirst⟩ := selectFrom_some (by decide) hfound
      have hsix : p.toNat ≤ 6 := Nat.le_of_lt_succ hp
      refine ⟨hsix, hreload, Or.inl ⟨?_, fun q hq => ?_⟩⟩
      · rw [← toNat_ticksFor hsix]
        exact hticks
      · have hlt := UInt32.lt_iff_toNat_lt.mp hq
        exact many_ticks (by omega) (hfirst q (Nat.zero_le _) hq)

/-- A timeout counts modulo 2^27, since its cycles count modulo 2^32. -/
theorem selectTiming_mod (timeoutMs : UInt32) :
    selectTiming timeoutMs = selectTiming (timeoutMs % 134217728) := by
  have hticks (pr : UInt32) : ticksFor timeoutMs pr = ticksFor (timeoutMs % 134217728) pr := by
    have hproduct : timeoutMs * (lsiFreqHz / 1000) =
        timeoutMs % 134217728 * (lsiFreqHz / 1000) := by
      have hmod : (134217728 : UInt32).toNat = 2 ^ 27 := rfl
      apply UInt32.toNat_inj.mp
      change cycles timeoutMs = cycles (timeoutMs % 134217728)
      rw [cycles_eq, cycles_eq, UInt32.toNat_mod, hmod, Nat.mod_mod]
    unfold ticksFor
    rw [hproduct]
  have hfrom (count : Nat) (pr : UInt32) :
      selectFrom timeoutMs count pr = selectFrom (timeoutMs % 134217728) count pr := by
    induction count generalizing pr with
    | zero => rfl
    | succ count ih =>
        rw [selectFrom, selectFrom, hticks, ih]
  unfold selectTiming
  rw [hfrom]

end Search

/-! ## The period -/

section Period

variable {timeoutMs p reload : UInt32}

/-- A prescaler is passed over only for timeouts of many ticks, so that half as
many are left for the next. -/
theorem tick_of_first (hone : 32 ≤ cycles timeoutMs)
    (hfirst : ∀ q < p, 4096 < cycles timeoutMs / (4 * 2 ^ q.toNat)) :
    1 ≤ cycles timeoutMs / (4 * 2 ^ p.toNat) := by
  cases hk : p.toNat with
  | zero => omega
  | succ k =>
      have hpos : 1 ≤ p.toNat := by omega
      have hle : 1 ≤ p := UInt32.le_iff_toNat_le.mpr hpos
      have hq : (p - 1).toNat = k := by
        rw [UInt32.toNat_sub_of_le _ _ hle, UInt32.toNat_one, hk]
        rfl
      have hmany := hfirst (p - 1) (UInt32.lt_iff_toNat_lt.mpr (by omega))
      rw [hq] at hmany
      rw [Nat.pow_succ, ← Nat.mul_assoc, Quanta.div_double]
      omega

theorem periodMs_eq_iff (h : p.toNat ≤ 6) (ms : ℕ) :
    periodMs p reload = ms ↔ (reload.toNat + 1) * (4 * 2 ^ p.toNat) = 32 * ms := by
  rw [periodMs, div_eq_iff (by norm_num), toNat_prescalerValue h, mul_comm (ms : ℚ)]
  exact_mod_cast Iff.rfl

/-- Where the product leaves the longest period or more, the longest is selected. -/
theorem selectTiming_long (h : 32768 ≤ timeoutMs.toNat % 2 ^ 27) :
    selectTiming timeoutMs = (6, rlrMax) := by
  have hcycles := cycles_eq timeoutMs
  rcases hselected : selectTiming timeoutMs with ⟨p, reload⟩
  obtain ⟨hp, hreload, hfirst | ⟨rfl, rfl, -⟩⟩ := selectTiming_cases hselected
  · obtain ⟨hticks, -⟩ := hfirst
    -- up to the last but one, every prescaler counts at least 8192 ticks
    have hlast : p.toNat = 6 := by
      by_contra hne
      have hdiv : 4 * 2 ^ p.toNat ≤ 4 * 2 ^ 5 :=
        Nat.mul_le_mul_left 4 (Nat.pow_le_pow_right (by decide) (by omega))
      have hmore := Nat.div_le_div_left (a := cycles timeoutMs) hdiv (by positivity)
      omega
    rw [hlast] at hticks
    have hfull : reload.toNat = rlrMax.toNat := by
      change reload.toNat = 4095
      omega
    have hsix : p.toNat = (6 : UInt32).toNat := hlast
    rw [UInt32.toNat_inj.mp hfull, UInt32.toNat_inj.mp hsix]
  · rfl

/-- Where it leaves less, the period is short of the longest. -/
theorem selectTiming_short (h : timeoutMs.toNat % 2 ^ 27 < 32768)
    (hselected : selectTiming timeoutMs = (p, reload)) : periodMs p reload ≠ 32768 := by
  have hcycles := cycles_eq timeoutMs
  obtain ⟨hp, hreload, hfirst⟩ := selectTiming_cases hselected
  intro hperiod
  have hfull := (periodMs_eq_iff hp 32768).mp (by exact_mod_cast hperiod)
  rcases hfirst with ⟨hticks, -⟩ | ⟨-, -, hmany⟩
  · have hdiv : 4 * 2 ^ p.toNat ≤ 4 * 2 ^ 6 :=
      Nat.mul_le_mul_left 4 (Nat.pow_le_pow_right (by decide) hp)
    have hheld := Nat.div_mul_le_self (cycles timeoutMs) (4 * 2 ^ p.toNat)
    rw [← hticks] at hfull
    rcases Nat.le_total 1 (cycles timeoutMs / (4 * 2 ^ p.toNat)) with hle | hle
    · rw [Nat.max_eq_right hle] at hfull
      omega
    · rw [Nat.max_eq_left hle] at hfull
      omega
  · omega

/-- Up to the longest period, the search finds what is asked for. -/
theorem selectTiming_expresses (hpos : 1 ≤ timeoutMs.toNat) (hmost : timeoutMs.toNat ≤ 32768)
    (hselected : selectTiming timeoutMs = (p, reload)) :
    Expresses timeoutMs p reload ∧ ∀ q < p, ∀ reload', ¬ Expresses timeoutMs q reload' := by
  have hcycles : cycles timeoutMs = 32 * timeoutMs.toNat := by
    rw [cycles_eq]
    omega
  obtain ⟨hp, hreload, ⟨hticks, hfirst⟩ | ⟨-, -, hmany⟩⟩ := selectTiming_cases hselected
  · have htick := tick_of_first (by omega) hfirst
    rw [Nat.max_eq_right htick, hcycles] at hticks
    refine ⟨(expresses_iff hp).mpr ⟨hreload, hticks⟩, fun q hq reload' hexpresses => ?_⟩
    have hlt := UInt32.lt_iff_toNat_lt.mp hq
    obtain ⟨hreload', hticks'⟩ := (expresses_iff (by omega)).mp hexpresses
    have hmany := hfirst q hq
    rw [hcycles] at hmany
    omega
  · omega

-- the timeout of the bootloader, with the prescaler and the reload value it is meant to get
example : selectTiming iwdgTimeoutMs = (3, 2999) := by decide

/-- Whether the period is as asked is a matter of what the product leaves. -/
theorem wellTimed_iff (hselected : selectTiming timeoutMs = (p, reload)) :
    WellTimed timeoutMs p reload ↔
      timeoutMs.toNat < 2 ^ 27 ∨ 32768 ≤ timeoutMs.toNat % 2 ^ 27 := by
  have hmost : (32768 : UInt32).toNat = 32768 := rfl
  obtain ⟨hp, hreload, -⟩ := selectTiming_cases hselected
  constructor
  · intro h
    by_contra hwraps
    have hlong : 32768 < timeoutMs := UInt32.lt_iff_toNat_lt.mpr (by omega)
    exact selectTiming_short (by omega) hselected (h.clamped hlong)
  · intro hexact
    have hasked (hpos : 1 ≤ timeoutMs) (hle : timeoutMs ≤ 32768) :=
      selectTiming_expresses (UInt32.le_iff_toNat_le.mp hpos) (UInt32.le_iff_toNat_le.mp hle)
        hselected
    refine ⟨UInt32.le_iff_toNat_le.mpr hp, UInt32.le_iff_toNat_le.mpr hreload,
      fun hpos hle => (hasked hpos hle).1, fun hpos hle => (hasked hpos hle).2, fun hlong => ?_⟩
    rw [UInt32.lt_iff_toNat_lt] at hlong
    rw [selectTiming_long (by omega)] at hselected
    cases hselected
    have hfull : (rlrMax.toNat + 1) * (4 * 2 ^ (6 : UInt32).toNat) = 32 * 32768 := by decide
    exact_mod_cast (periodMs_eq_iff hp 32768).mpr hfull

end Period

/-! ## What is programmed -/

section Programmed

variable {timeoutMs pr reload : UInt32}

/-- An access to neither PR nor RLR. -/
def RegWrite.Other (access : RegWrite) : Prop := access.pr? = none ∧ access.rlr? = none

/-- Other accesses do not count. -/
theorem programmed_append {front rest : List RegWrite} (h : ∀ access ∈ rest, access.Other) :
    Programmed pr reload (front ++ rest) ↔ Programmed pr reload front := by
  have hpr : rest.filterMap RegWrite.pr? = [] :=
    List.filterMap_eq_nil_iff.mpr fun access hmem => (h access hmem).1
  have hrlr : rest.filterMap RegWrite.rlr? = [] :=
    List.filterMap_eq_nil_iff.mpr fun access hmem => (h access hmem).2
  simp only [Programmed, List.filterMap_append, hpr, hrlr, List.append_nil]

/-- A start programs what was selected, whether or not the update of the registers
ends. -/
theorem iwdgStart_programs (answers : List UInt32) :
    Programmed pr reload ((iwdgStart timeoutMs).run answers).1 ↔
      selectTiming timeoutMs = (pr, reload) := by
  rcases hselected : selectTiming timeoutMs with ⟨p, r⟩
  have htail (busy : UInt32 → Bool) : Bus.Writes RegWrite.Other (do
      Bus.readWhile busy
      Bus.write (.winr winrDisabled)
      Bus.write (.kr keyReload) : Driver Unit) := by
    refine Bus.Writes.bind (.readWhile busy) fun _ => ?_
    refine Bus.Writes.bind (.write ⟨rfl, rfl⟩) fun _ => ?_
    exact Bus.Writes.write ⟨rfl, rfl⟩
  unfold iwdgStart
  rw [hselected]
  dsimp only
  rw [(Bus.Returns.write _).run_bind, (Bus.Returns.write _).run_bind,
    (Bus.Returns.write _).run_bind, (Bus.Returns.write _).run_bind]
  change Programmed pr reload ([.kr keyStart, .kr keyUnlock, .pr p, .rlr r] ++ _) ↔ _
  rw [programmed_append (htail _ answers)]
  change [p] = [pr] ∧ [r] = [reload] ↔ _
  simp

end Programmed

/-- The period is as asked, or the longest one, for exactly those timeouts whose
cycles do not wrap to a shorter one. -/
theorem period_as_asked_iff (timeoutMs : UInt32) :
    StartsWellTimed timeoutMs ↔
      timeoutMs.toNat < 2 ^ 27 ∨ 32768 ≤ timeoutMs.toNat % 2 ^ 27 := by
  rcases hselected : selectTiming timeoutMs with ⟨pr, reload⟩
  rw [← wellTimed_iff hselected]
  constructor
  · intro h
    obtain ⟨pr', reload', hprograms, htimed⟩ := h []
    have hsame := hselected.symm.trans ((iwdgStart_programs []).mp hprograms)
    cases hsame
    exact htimed
  · intro htimed answers
    exact ⟨pr, reload, (iwdgStart_programs answers).mpr hselected, htimed⟩

/-- A timeout of 2^27 ms, the product of which is 2^32: the board gets an eighth of
a millisecond. -/
theorem period_wraps :
    Programmed 0 0 ((iwdgStart 134217728).run []).1 ∧ periodMs 0 0 = 1 / 8 ∧
      ¬ StartsWellTimed 134217728 := by
  have hselected : selectTiming 134217728 = (0, 0) := by decide
  have heighth : periodMs 0 0 = 1 / 8 := by
    have hfour : (prescalerValue 0).toNat = 4 := by decide
    rw [periodMs, hfour]
    norm_num
  refine ⟨(iwdgStart_programs []).mpr hselected, heighth, fun h => ?_⟩
  obtain ⟨pr, reload, hprograms, htimed⟩ := h []
  have hsame := hselected.symm.trans ((iwdgStart_programs []).mp hprograms)
  cases hsame
  have hclamped := htimed.clamped (by decide)
  rw [heighth] at hclamped
  norm_num at hclamped

end OtaBoot.Iwdg
