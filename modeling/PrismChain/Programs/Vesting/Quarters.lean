import PrismChain.Programs.Vesting.Release

namespace PrismChain.Vesting

open FixedWidth BitVec

section Floors

theorem released_quarters_le (h : elapsed<quarters*7776000) :
    released amount (elapsed/7776000) quarters≤ released amount elapsed (quarters*7776000) := by
  have hfloor : elapsed/7776000*7776000≤elapsed := Nat.div_mul_le_self _ _
  have hinside : elapsed/7776000≤quarters := by omega
  unfold released
  rw [min_eq_left hinside,min_eq_left h.le]
  calc amount*(elapsed/7776000)/quarters
      = amount*(elapsed/7776000)*7776000/(quarters*7776000) :=
        (Nat.mul_div_mul_right _ _ (by decide)).symm
    _ ≤ amount*elapsed/(quarters*7776000) := by
        rw [Nat.mul_assoc]
        exact Nat.div_le_div_right (Nat.mul_le_mul_left _ hfloor)

theorem released_lt (hamount : 0<amount) (h : elapsed<quarters) :
    released amount elapsed quarters<amount := by
  unfold released
  rw [min_eq_left h.le]
  refine Nat.div_lt_of_lt_mul ?_
  rw [Nat.mul_comm]
  exact Nat.mul_lt_mul_of_pos_right h hamount

theorem released_all (h : 0<quarters) : released amount quarters quarters=amount := by
  rw [released,min_self,Nat.mul_div_cancel _ h]

end Floors

/-- The window of a schedule, `months` long, is where the two curves differ. -/
structure Window (s : VestingSchedule) (months : Nat) : Prop where
  active : s.status=.active
  positive : 0< s.totalAmount.toNat
  cliff : 0≤ s.cliffSeconds.toInt
  duration : 0≤ s.durationSeconds.toInt
  length : s.window.toNat=months*2592000

namespace Window

variable {s : VestingSchedule} {t : I64}

theorem vests (w : Window s months) (hfits : s.Fits) (kind : ReleaseSchedule) (t : I64) :
    ∃ x,calculateVestedAmount {s with schedule := kind} t=.ok x ∧
      x.toNat=VestingSchedule.vestedAt {s with schedule := kind} t.toInt := by
  obtain ⟨x,hx⟩ := calculate_returns (s := {s with schedule := kind}) hfits w.cliff w.duration t
  exact ⟨x,hx,calculate_spec (by rw [w.active]; decide) hx⟩

theorem inside (ht : t.toInt< s.vestingEnd) (hcliff : ¬t.toInt< s.cliffEnd)
    (kind : ReleaseSchedule) :
    VestingSchedule.vestedAt {s with schedule := kind} t.toInt=
      VestingSchedule.inWindow {s with schedule := kind}
        (t.toInt-s.cliffEnd).toNat s.window.toNat := by
  unfold VestingSchedule.vestedAt
  exact (if_neg hcliff).trans (if_neg (not_le.mpr ht))

theorem ends : s.vestingEnd=s.cliffEnd+s.window := by
  unfold VestingSchedule.vestingEnd VestingSchedule.cliffEnd VestingSchedule.window
  omega

theorem behind (w : Window s months) (hwhole : months%3=0) (ht : t.toInt< s.vestingEnd) :
    VestingSchedule.vestedAt {s with schedule := .quarterly} t.toInt≤
        VestingSchedule.vestedAt {s with schedule := .linear} t.toInt ∧
      VestingSchedule.vestedAt {s with schedule := .quarterly} t.toInt< s.totalAmount.toNat := by
  by_cases hcliff : t.toInt< s.cliffEnd
  · have hnone (kind : ReleaseSchedule) :
        VestingSchedule.vestedAt {s with schedule := kind} t.toInt=0 := if_pos hcliff
    rw [hnone,hnone]
    exact ⟨le_rfl,w.positive⟩
  · have hends := ends (s := s)
    obtain ⟨quarters,rfl⟩ := Nat.dvd_of_mod_eq_zero hwhole
    have hwindow : s.window.toNat=quarters*7776000 := by
      rw [w.length]
      ring
    have hbefore : (t.toInt-s.cliffEnd).toNat<quarters*7776000 := by omega
    have hquarters : quarters*7776000/7776000=quarters := Nat.mul_div_cancel _ (by norm_num)
    rw [inside ht hcliff,inside ht hcliff,hwindow]
    unfold VestingSchedule.inWindow
    dsimp only
    rw [hquarters,if_neg (by omega)]
    have hpassed : (t.toInt-s.cliffEnd).toNat/7776000<quarters := by omega
    exact ⟨released_quarters_le hbefore,released_lt w.positive hpassed⟩

/-- Within the last second of a window with a part of a quarter left over the last whole quarter
has passed, or there was none. -/
theorem ahead (w : Window s months) (hpart : months%3≠0) (ht : t.toInt=s.vestingEnd-1) :
    VestingSchedule.vestedAt {s with schedule := .quarterly} t.toInt=s.totalAmount.toNat := by
  have hends := ends (s := s)
  have hlength := w.length
  have hcliff : ¬t.toInt< s.cliffEnd := by omega
  rw [inside (by omega) hcliff]
  unfold VestingSchedule.inWindow
  dsimp only
  have helapsed : (t.toInt-s.cliffEnd).toNat/7776000=s.window.toNat/7776000 := by omega
  rw [helapsed]
  split_ifs with hnone
  · rfl
  · exact released_all (Nat.pos_of_ne_zero hnone)

theorem fits (w : Window s months) (hall : ∀ t : I64,
    t.toInt< s.vestingEnd → ∃ x,calculateVestedAmount {s with schedule := kind} t=.ok x) :
      s.Fits := by
  have hstatus : s.status≠.revoked := by
    rw [w.active]
    decide
  have hstart : -2^63≤ s.startTimestamp.toInt := s.startTimestamp.le_toInt
  have hends (t : I64) (ht : t.toInt< s.vestingEnd) :
      s.cliffEnd<2^63 ∧ (s.cliffEnd≤t.toInt → s.vestingEnd<2^63) := by
    obtain ⟨x,hx⟩ := hall t ht
    rw [calculateVestedAmount,if_neg hstatus] at hx
    obtain ⟨cliffEnd,hcliff,hx⟩ := bind_eq_ok.mp hx
    have hc : cliffEnd.toInt=s.cliffEnd := checkedAddSigned_eq_some.mp (okOr_eq_ok.mp hcliff)
    have hlimit : 2*cliffEnd.toInt<2^64 := two_mul_toInt_lt
    refine ⟨by omega,fun hafter => ?_⟩
    rw [if_neg (by omega)] at hx
    obtain ⟨vestingEnd,hend,-⟩ := bind_eq_ok.mp hx
    have he : vestingEnd.toInt=s.vestingEnd := checkedAddSigned_eq_some.mp (okOr_eq_ok.mp hend)
    have hlimit' : 2*vestingEnd.toInt<2^64 := two_mul_toInt_lt
    omega
  have hcliff := w.cliff
  have hduration := w.duration
  have hsum : s.cliffEnd=s.startTimestamp.toInt+s.cliffSeconds.toInt := rfl
  have hsum' : s.vestingEnd=s.startTimestamp.toInt+s.durationSeconds.toInt := rfl
  have hlimit : 2*s.cliffSeconds.toInt<2^64 := two_mul_toInt_lt
  have hearly : s.cliffEnd<2^63 := by
    by_contra hlate
    -- The start is then positive, so that the time zero is before the end.
    exact hlate (hends 0#64 (by rw [toInt_zero]; omega)).1
  refine ⟨hearly,?_⟩
  by_contra hlate
  obtain ⟨t,ht⟩ := exists_toInt (n := s.cliffEnd) (by omega) hearly
  exact hlate ((hends t (by omega)).2 ht.ge)

end Window

variable {duration : I64} {f' : Frame} {s : VestingSchedule}

theorem window_of (hcreate : processCreateSchedule h clock accounts beneficiary amount cliffMonths
      durationMonths kind revocable f=.ok f') (hcliff : monthsToSeconds cliffMonths=.ok cliff)
    (hduration : monthsToSeconds durationMonths=.ok duration)
    (hs : s=newSchedule h registry beneficiary amount clock.unixTimestamp cliff duration kind
      revocable index) : Window s (durationMonths.toNat-cliffMonths.toNat) := by
  have hpositive : amount≠0#64 := by
    unfold processCreateSchedule at hcreate
    split at hcreate <;> simp only [steps_ok] at hcreate
    obtain ⟨-,-,-,-,-,hpositive,-⟩ := hcreate
    exact hpositive
  have hlength :
      duration.toInt-cliff.toInt=durationMonths.toNat*2592000-cliffMonths.toNat*2592000 := by
    rw [monthsToSeconds_eq hcliff,monthsToSeconds_eq hduration]
  subst hs
  refine ⟨rfl,toNat_pos.mpr hpositive,monthsToSeconds_nonneg hcliff,
    monthsToSeconds_nonneg hduration,?_⟩
  change (duration.toInt-cliff.toInt).toNat=_
  omega

theorem quarterly_behind_linear_iff (hcreate : processCreateSchedule h clock accounts beneficiary
      amount cliffMonths durationMonths kind revocable f=.ok f')
    (hcliff : monthsToSeconds cliffMonths=.ok cliff)
    (hduration : monthsToSeconds durationMonths=.ok duration)
    (hs : s=newSchedule h registry beneficiary amount clock.unixTimestamp cliff duration kind
      revocable index) :
    (∀ t : I64,t.toInt< s.vestingEnd →
    ∃ q l,calculateVestedAmount {s with schedule := .quarterly} t=.ok q ∧
        calculateVestedAmount {s with schedule := .linear} t=.ok l ∧
        q.toNat≤l.toNat ∧ q.toNat< s.totalAmount.toNat) ↔
      s.Fits ∧ (durationMonths.toNat-cliffMonths.toNat)%3=0 := by
  have w := window_of hcreate hcliff hduration hs
  constructor
  · intro hall
    have hfits : s.Fits := w.fits fun t ht => by
      obtain ⟨q,-,hq,-⟩ := hall t ht
      exact ⟨q,hq⟩
    refine ⟨hfits,?_⟩
    by_contra hpart
    have hstart : -2^63≤ s.startTimestamp.toInt := s.startTimestamp.le_toInt
    have hends := Window.ends (s := s)
    have hlength := w.length
    have hearly : -2^63≤ s.cliffEnd := by
      have := w.cliff
      unfold VestingSchedule.cliffEnd
      omega
    obtain ⟨t,ht⟩ := exists_toInt (n := s.vestingEnd-1) (by omega) (by have := hfits.2; omega)
    obtain ⟨q,l,hq,-,-,_⟩ := hall t (by omega)
    have hvalue := calculate_spec (by rw [w.active]; decide) hq
    rw [w.ahead hpart ht] at hvalue
    omega
  · rintro ⟨hfits,hwhole⟩ t ht
    obtain ⟨q,hq,hquarterly⟩ := w.vests hfits .quarterly t
    obtain ⟨l,hl,hlinear⟩ := w.vests hfits .linear t
    have hbehind := w.behind hwhole ht
    rw [← hquarterly,← hlinear] at hbehind
    exact ⟨q,l,hq,hl,hbehind⟩

/-- What the authority of `initBank` drafts over `duration` seconds, the first month of them the
cliff. -/
def draft (duration : I64) : VestingSchedule :=
  newSchedule sampleHost sampleRegistry 3#256 1000000#64 createCall.clock.unixTimestamp 2592000#64
    duration .quarterly true 0#64

def drafts (months : U32) : ProgramResult :=
  processCreateSchedule sampleHost createCall.clock createCall.accounts 3#256 1000000#64 1#32 months
    .quarterly true ⟨initBank,initBank⟩

theorem quarterly_behind_linear_year :
    ∃ f',drafts 13#32=.ok f' ∧ ∀ t : I64,t.toInt<(draft 33696000#64).vestingEnd → ∃ q l,
      calculateVestedAmount {draft 33696000#64 with schedule := .quarterly} t=.ok q ∧
      calculateVestedAmount {draft 33696000#64 with schedule := .linear} t=.ok l ∧
      q.toNat≤l.toNat ∧ q.toNat<1000000 := by
  have hdrafts := eq_ok_of_isOk (x := drafts 13#32) ⟨initBank,initBank⟩ (by decide +kernel)
  exact ⟨_,hdrafts,
    (quarterly_behind_linear_iff hdrafts (by decide) (by decide) rfl).mpr (by decide)⟩

/-- Four months after the cliff hold one whole quarter, and after it everything has vested. -/
theorem quarterly_ahead_of_linear : ∃ f',drafts 5#32=.ok f' ∧
    (10369000#64 : I64).toInt<(draft 12960000#64).vestingEnd ∧
    calculateVestedAmount {draft 12960000#64 with schedule := .quarterly} 10369000#64=
      .ok 1000000#64 ∧
    calculateVestedAmount {draft 12960000#64 with schedule := .linear} 10369000#64=.ok 750000#64 :=
  ⟨_,eq_ok_of_isOk (x := drafts 5#32) ⟨initBank,initBank⟩ (by decide +kernel),by decide +kernel⟩

end PrismChain.Vesting
