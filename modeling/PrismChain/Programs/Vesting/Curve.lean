import PrismChain.Programs.Vesting.State

namespace PrismChain.Vesting

open FixedWidth BitVec

def released (amount n m : Nat) : Nat := amount*min n m/m

theorem released_le (amount n m : Nat) : released amount n m≤amount :=
  Nat.div_le_of_le_mul (by
    rw [Nat.mul_comm m]
    exact Nat.mul_le_mul_left _ (min_le_right n m))

theorem released_mono (amount : Nat) (h : n≤n') (m : Nat) :
    released amount n m≤ released amount n' m :=
  Nat.div_le_div_right (Nat.mul_le_mul_left _ (min_le_min_right m h))

namespace VestingSchedule

def cliffEnd (s : VestingSchedule) : Int := s.startTimestamp.toInt+s.cliffSeconds.toInt

def vestingEnd (s : VestingSchedule) : Int := s.startTimestamp.toInt+s.durationSeconds.toInt

def window (s : VestingSchedule) : Int := s.durationSeconds.toInt-s.cliffSeconds.toInt

def fullAt (s : VestingSchedule) : Int :=
  s.startTimestamp.toInt+max s.cliffSeconds.toInt s.durationSeconds.toInt

def Fits (s : VestingSchedule) : Prop := s.cliffEnd<2^63 ∧ s.vestingEnd<2^63

instance (s : VestingSchedule) : Decidable s.Fits := inferInstanceAs (Decidable (_ ∧ _))

def inWindow (s : VestingSchedule) (elapsed length : Nat) : Nat :=
  match s.schedule with
  | .linear => released s.totalAmount.toNat elapsed length
  | .quarterly =>
    if length/7776000=0 then s.totalAmount.toNat
    else released s.totalAmount.toNat (elapsed/7776000) (length/7776000)

/-- The curve: what has vested of the schedule at the time `t`, in unbounded arithmetic and without
regard to what was claimed or revoked. -/
def vestedAt (s : VestingSchedule) (t : Int) : Nat :=
  if t< s.cliffEnd then 0
  else if s.vestingEnd≤t then s.totalAmount.toNat
  else s.inWindow (t-s.cliffEnd).toNat s.window.toNat

variable (s : VestingSchedule)

theorem inWindow_le (elapsed length : Nat) : s.inWindow elapsed length≤ s.totalAmount.toNat := by
  unfold inWindow
  split
  · exact released_le _ _ _
  · split_ifs
    · exact le_rfl
    · exact released_le _ _ _

theorem inWindow_mono (h : elapsed≤elapsed') (length : Nat) :
    s.inWindow elapsed length≤ s.inWindow elapsed' length := by
  unfold inWindow
  split
  · exact released_mono _ h _
  · split_ifs
    · exact le_rfl
    · exact released_mono _ (Nat.div_le_div_right h) _

theorem vestedAt_le (t : Int) : s.vestedAt t≤ s.totalAmount.toNat := by
  unfold vestedAt
  split_ifs
  · exact Nat.zero_le _
  · exact le_rfl
  · exact s.inWindow_le _ _

theorem vestedAt_before_cliff (h : t< s.cliffEnd) : s.vestedAt t=0 := if_pos h

theorem vestedAt_full (h : s.fullAt≤t) : s.vestedAt t=s.totalAmount.toNat := by
  have hcliff : ¬t< s.cliffEnd := by
    unfold fullAt at h
    unfold cliffEnd
    omega
  have hend : s.vestingEnd≤t := by
    unfold fullAt at h
    unfold vestingEnd
    omega
  rw [vestedAt,if_neg hcliff,if_pos hend]

theorem vestedAt_mono (h : t≤t') : s.vestedAt t≤ s.vestedAt t' := by
  by_cases hcliff : t< s.cliffEnd
  · rw [s.vestedAt_before_cliff hcliff]
    exact Nat.zero_le _
  have hcliff' : ¬t'< s.cliffEnd := by omega
  by_cases hend : s.vestingEnd≤t'
  · have hfull : s.vestedAt t'=s.totalAmount.toNat := by
      rw [vestedAt,if_neg hcliff',if_pos hend]
    rw [hfull]
    exact s.vestedAt_le t
  · have hend' : ¬s.vestingEnd≤t := by omega
    rw [vestedAt,vestedAt,if_neg hcliff,if_neg hcliff',if_neg hend,if_neg hend']
    exact s.inWindow_mono (by omega) _

end VestingSchedule

theorem proRata_spec (amount : U64) {part whole : I64} (hpart : 0≤part.toInt)
    (hle : part.toInt≤whole.toInt) :
    ∃ x,proRata amount part whole=.ok x ∧
      x.toNat=released amount.toNat part.toInt.toNat whole.toInt.toNat := by
  have hp : (part.signExtend 128).toNat=part.toInt.toNat := by
    have h := toNat_signExtend_of_nonneg (v := 128) (by decide) hpart
    omega
  have hw : (whole.signExtend 128).toNat=whole.toInt.toNat := by
    have h := toNat_signExtend_of_nonneg (v := 128) (by decide) (hpart.trans hle)
    omega
  have ha : (amount.setWidth 128).toNat=amount.toNat := toNat_widen (by decide) amount
  have hsmall : part.toInt.toNat<2^64 := by
    have h : 2*part.toInt<2^64 := two_mul_toInt_lt
    omega
  have hfits : amount.toNat*part.toInt.toNat<2^128 :=
    calc amount.toNat*part.toInt.toNat<2^64*2^64 := Nat.mul_lt_mul'' amount.isLt hsmall
      _ = 2^128 := by norm_num
  obtain ⟨product,hproduct⟩ := exists_toNat (w := 128) hfits
  have hmul : checkedMul (amount.setWidth 128) (part.signExtend 128)=some product :=
    checkedMul_eq_some.mpr (by rw [hproduct,ha,hp])
  refine ⟨_,by rw [proRata,hmul,okOr_some,ok_bind]; rfl,?_⟩
  have hmin : min part.toInt.toNat whole.toInt.toNat=part.toInt.toNat := by omega
  have hbound := released_le amount.toNat part.toInt.toNat whole.toInt.toNat
  rw [released,hmin] at hbound ⊢
  rw [toNat_setWidth,toNat_udiv,hproduct,hw]
  exact Nat.mod_eq_of_lt (hbound.trans_lt amount.isLt)

theorem quarter_toInt : secondsPerQuarter.toInt=7776000 := by decide

theorem inQuarters_spec (amount : U64) {elapsed length : I64} (helapsed : 0≤elapsed.toInt)
    (hle : elapsed.toInt≤length.toInt) :
    ∃ x,inQuarters amount elapsed length=.ok x ∧
      x.toNat=if length.toInt.toNat/7776000=0 then amount.toNat
        else released amount.toNat (elapsed.toInt.toNat/7776000) (length.toInt.toNat/7776000) := by
  have hquarter : 0< secondsPerQuarter.toInt := by decide
  have htotal := toInt_sdiv_of_nonneg (helapsed.trans hle) hquarter
  have hpart := toInt_sdiv_of_nonneg helapsed hquarter
  rw [quarter_toInt] at htotal hpart
  unfold inQuarters
  dsimp only
  by_cases hzero : length.toInt.toNat/7776000=0
  · rw [if_pos (by omega),if_pos hzero]
    exact ⟨amount,rfl,rfl⟩
  rw [if_neg (by omega),if_neg hzero]
  have hmin : (smin (elapsed.sdiv secondsPerQuarter) (length.sdiv secondsPerQuarter)).toInt=
      elapsed.toInt/7776000 := by
    rw [toInt_smin,htotal,hpart]
    omega
  have hparts : (smin (elapsed.sdiv secondsPerQuarter) (length.sdiv secondsPerQuarter)).toInt≤
      (length.sdiv secondsPerQuarter).toInt := by
    rw [hmin,htotal]
    omega
  obtain ⟨x,hx,hvalue⟩ := proRata_spec amount (by rw [hmin]; omega) hparts
  refine ⟨x,hx,?_⟩
  rw [hvalue,hmin,htotal]
  congr 1 <;> omega

theorem calculate_spec {s : VestingSchedule} (hstatus : s.status≠.revoked)
    (hx : calculateVestedAmount s now=.ok x) : x.toNat=s.vestedAt now.toInt := by
  rw [calculateVestedAmount,if_neg hstatus] at hx
  obtain ⟨cliffEnd,hcliff,hx⟩ := bind_eq_ok.mp hx
  have hc : cliffEnd.toInt=s.cliffEnd := checkedAddSigned_eq_some.mp (okOr_eq_ok.mp hcliff)
  unfold VestingSchedule.vestedAt
  rw [← hc]
  by_cases hbefore : now.toInt<cliffEnd.toInt
  · rw [if_pos hbefore] at hx ⊢
    rw [← Except.ok.inj hx]
    rfl
  · rw [if_neg hbefore] at hx ⊢
    obtain ⟨vestingEnd,hend,hx⟩ := bind_eq_ok.mp hx
    have he : vestingEnd.toInt=s.vestingEnd := checkedAddSigned_eq_some.mp (okOr_eq_ok.mp hend)
    rw [← he]
    by_cases hafter : vestingEnd.toInt≤now.toInt
    · rw [if_pos hafter] at hx ⊢
      rw [← Except.ok.inj hx]
    rw [if_neg hafter] at hx ⊢
    obtain ⟨length,hlength,hx⟩ := bind_eq_ok.mp hx
    have hl : length.toInt=s.window := checkedSubSigned_eq_some.mp (okOr_eq_ok.mp hlength)
    have hends : s.vestingEnd=s.cliffEnd+s.window := by
      unfold VestingSchedule.vestingEnd VestingSchedule.cliffEnd VestingSchedule.window
      omega
    rw [if_neg (by omega)] at hx
    obtain ⟨elapsed,helapsed,hx⟩ := bind_eq_ok.mp hx
    have hel := checkedSubSigned_eq_some.mp (okOr_eq_ok.mp helapsed)
    have hstarted : 0≤elapsed.toInt := by omega
    have hinside : elapsed.toInt≤length.toInt := by omega
    rw [← hel,← hl]
    unfold VestingSchedule.inWindow
    cases hkind : s.schedule with
    | linear =>
      rw [hkind] at hx
      obtain ⟨y,hy,hvalue⟩ := proRata_spec s.totalAmount hstarted hinside
      cases hx.symm.trans hy
      exact hvalue
    | quarterly =>
      rw [hkind] at hx
      obtain ⟨y,hy,hvalue⟩ := inQuarters_spec s.totalAmount hstarted hinside
      cases hx.symm.trans hy
      exact hvalue

theorem calculate_returns {s : VestingSchedule} (hfits : s.Fits) (hcliff : 0≤ s.cliffSeconds.toInt)
    (hduration : 0≤ s.durationSeconds.toInt) (now : I64) :
    ∃ x,calculateVestedAmount s now=.ok x := by
  obtain ⟨hcliffEnd,hvestingEnd⟩ := hfits
  have hstart : -2^63≤ s.startTimestamp.toInt := s.startTimestamp.le_toInt
  have hlimit : 2*s.durationSeconds.toInt<2^64 := two_mul_toInt_lt
  have hlimit' : 2*s.cliffSeconds.toInt<2^64 := two_mul_toInt_lt
  have hnow : -2^63≤now.toInt := now.le_toInt
  have hends : s.vestingEnd=s.cliffEnd+s.window := by
    unfold VestingSchedule.vestingEnd VestingSchedule.cliffEnd VestingSchedule.window
    omega
  unfold calculateVestedAmount
  by_cases hrevoked : s.status=.revoked
  · exact ⟨_,by rw [if_pos hrevoked]⟩
  obtain ⟨c,hc⟩ :=
    exists_toInt (n := s.cliffEnd) (by unfold VestingSchedule.cliffEnd; omega) hcliffEnd
  obtain ⟨v,hv⟩ := exists_toInt (n := s.vestingEnd) (by unfold VestingSchedule.vestingEnd; omega)
    hvestingEnd
  obtain ⟨l,hl⟩ := exists_toInt (n := s.window) (by unfold VestingSchedule.window; omega)
    (by unfold VestingSchedule.window; omega)
  rw [if_neg hrevoked,checkedAddSigned_eq_some.mpr hc,checkedAddSigned_eq_some.mpr hv,
    checkedSubSigned_eq_some.mpr hl]
  simp only [okOr_some,ok_bind]
  by_cases hbefore : now.toInt<c.toInt
  · exact ⟨_,by rw [if_pos hbefore]⟩
  by_cases hafter : v.toInt≤now.toInt
  · exact ⟨_,by rw [if_neg hbefore,if_pos hafter]⟩
  have hlength : 2*l.toInt<2^64 := two_mul_toInt_lt
  obtain ⟨e,he⟩ := exists_toInt (n := now.toInt-c.toInt) (by omega) (by omega)
  have hstarted : 0≤e.toInt := by omega
  have hinside : e.toInt≤l.toInt := by omega
  rw [if_neg hbefore,if_neg hafter,
    if_neg (by omega),checkedSubSigned_eq_some.mpr he,okOr_some,ok_bind]
  cases s.schedule with
  | linear =>
    obtain ⟨x,hx,-⟩ := proRata_spec s.totalAmount hstarted hinside
    exact ⟨x,hx⟩
  | quarterly =>
    obtain ⟨x,hx,-⟩ := inQuarters_spec s.totalAmount hstarted hinside
    exact ⟨x,hx⟩

end PrismChain.Vesting
