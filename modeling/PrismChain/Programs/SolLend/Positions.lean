import PrismChain.Programs.SolLend.Balances

namespace PrismChain.SolLend

open FixedWidth InterestIndex List

def marketAt (id : Pubkey) (b : Bank) (mk : Pubkey) : Option LendingMarket :=
  recordAt marketCodec LendingMarket.isInitialized id b mk

def UserPosition.belongs (mk : Pubkey) (p : UserPosition) : Bool :=
  p.isInitialized && decide (p.market=mk)

def positionAt (id mk : Pubkey) (b : Bank) (k : Pubkey) : Option UserPosition :=
  recordAt positionCodec (UserPosition.belongs mk) id b k

def Instruction.onPosition : Instruction → Bool
  | .initializeMarket => false
  | .accrueInterest => false
  | _ => true

structure Fits (m : LendingMarket) (slots : U64) : Prop where
  indices : ∀ q : Side,(q.index m).toNat*(q.rate m).toNat*slots.toNat<2^64
  interest : exactInterest m slots<2^64
  totals : ∀ q : Side,(q.total m).toNat+exactInterest m slots/accrualBase<2^64

/-- Positions are used with the market they belong to, the market `mk` is not used as a position,
and its accruals stay within 64 bits. -/
structure AtHome (id mk : Pubkey) (b : Bank) (c : Call Instruction) : Prop where
  home : c.instruction.onPosition=true → ∀ k p,c.key? 1=some k → (b k).owner=id →
    (b k).data=positionCodec.encode p → p.isInitialized=true → c.key? 0=some p.market
  apart : c.instruction.onPosition=true → c.key? 1≠some mk
  fits : c.instruction=.accrueInterest → c.key? 0=some mk → ∀ m,marketAt id b mk=some m →
    Fits m (saturatingSub c.clock.slot m.lastUpdateSlot)

section Books

variable {id mk k : Pubkey} {b : Bank} {p : UserPosition}

theorem belongs_iff : p.belongs mk=true ↔ p.isInitialized=true ∧ p.market=mk := by
  simp [UserPosition.belongs]

theorem position_marked (mk : Pubkey) : Marked positionCodec (UserPosition.belongs mk) := by
  intro p hp
  change 1#8∈Codec.bool.encode p.isInitialized++_
  rw [(belongs_iff.mp hp).1]
  apply mem_append_left
  decide

theorem positionAt_eq_some : positionAt id mk b k=some p ↔ (b k).owner=id ∧
    (b k).data=positionCodec.encode p ∧ p.isInitialized=true ∧ p.market=mk := by
  unfold positionAt
  rw [recordAt_eq_some,belongs_iff]

theorem positionAt_of_length (h : (b k).data.length≠positionLen) : positionAt id mk b k=none := by
  apply recordAt_eq_none
  intro p _ hp _
  apply h
  rw [hp]
  exact position_size p

theorem positionAt_of_market (h : (b k).data=marketCodec.encode m) : positionAt id mk b k=none :=
  recordAt_eq_none fun p _ hp _ => market_ne_position m p (h.symm.trans hp)

theorem length_of_position (h : (b k).data=positionCodec.encode p) :
    (b k).data.length=positionLen := by
  rw [h]
  exact position_size p

def zeroPosition : UserPosition := ⟨false,0#256,0#256,0#64,0#64,0#64,0#64,0#64⟩

theorem zeroPosition_encode : positionCodec.encode zeroPosition=replicate positionLen 0#8 := by
  decide +kernel

theorem eq_zeroPosition (h : ∀ x∈positionCodec.encode p,x=0#8) : p=zeroPosition := by
  apply positionCodec.encode_inj
  rw [zeroPosition_encode]
  exact eq_replicate_iff.mpr ⟨position_size p,h⟩

end Books

section Accrual

variable {slots : U64}

theorem accrued_index (q : Side) :
    q.index (accrued m slots now)=compoundIndex (q.index m) (q.rate m) slots := by
  cases q <;> rfl

theorem accrued_total (hfits : Fits m slots) (q : Side) : (q.total (accrued m slots now)).toNat=
    (q.total m).toNat+exactInterest m slots/accrualBase := by
  have hlt := hfits.totals q
  have hadd :
      q.total (accrued m slots now)=saturatingAdd (q.total m) (interestAccrued m slots) := by
    cases q <;> rfl
  rw [hadd,toNat_saturatingAdd,interestAccrued_eq hfits.interest]
  omega

theorem accrued_fair : Fair (accrued m slots now) := recalculateRates_fair _

theorem interest_of_side (slots : U64) (hfair : Fair m) (q : Side) :
    (q.total m).toNat*((q.rate m).toNat*slots.toNat)≤exactInterest m slots := by
  unfold exactInterest
  rw [← Nat.mul_assoc]
  apply Nat.mul_le_mul_right
  cases q with
  | deposits =>
    show m.totalDeposits.toNat*m.depositRate.toNat≤ m.totalBorrows.toNat*m.borrowRate.toNat
    rw [Nat.mul_comm,Nat.mul_comm m.totalBorrows.toNat]
    exact hfair
  | borrows => exact le_refl _

theorem accrued_short (hfair : Fair m) (hfits : Fits m slots) (q : Side) :
    (q.total m).toNat*(accrualBase+(q.rate m).toNat*slots.toNat)≤
      ((q.total (accrued m slots now)).toNat+1)*accrualBase := by
  have hinterest := interest_of_side slots hfair q
  have hfloor := Nat.lt_div_mul_add (a := exactInterest m slots) (show 0<accrualBase by decide)
  rw [accrued_total hfits q,Nat.mul_add,Nat.add_mul,Nat.add_mul]
  omega

theorem accrued_covered (hfair : Fair m) (hfits : Fits m slots) (q : Side)
    (hscale : indexScale.toNat≤(q.index m).toNat)
    (h : Covered indexScale.toNat shares (q.index m).toNat (q.total m).toNat n) :
    Covered indexScale.toNat shares (q.index (accrued m slots now)).toNat
      (q.total (accrued m slots now)).toNat (n+1) := by
  have hpos : 0< indexScale.toNat := by decide
  refine h.accrue (d := accrualBase) (x := (q.rate m).toNat*slots.toNat) (by decide)
    (hpos.trans_le hscale) hpos ?_ ?_ (accrued_short hfair hfits q)
  · rw [accrued_index]
    exact hscale.trans le_compoundIndex
  · rw [accrued_index]
    exact compoundIndex_le

end Accrual

section Changes

variable {id mk k j : Pubkey} {c : Call Instruction} {b b' : Bank} {m : LendingMarket}
  {p : UserPosition} {x : LendingMarket×UserPosition}

theorem Opened.other (o : Opened id c b b' mk' authority tokenMint m1)
    (hm : marketAt id b mk=some m) : mk≠mk' := by
  rintro rfl
  obtain ⟨-,hdata,hlive⟩ := recordAt_eq_some.mp hm
  have hread := o.read
  rw [(marketCodec.tryFromSlice_eq_some).mpr hdata,Option.getD_some] at hread
  have hfresh := o.fresh
  rw [hread,hlive] at hfresh
  cases hfresh

theorem Cranked.market_after (a : Cranked id c b b' mk m) (howner : (b mk).owner=id) :
    marketAt id b' mk=some (cranked m c.clock.slot) := by
  unfold marketAt
  rw [recordAt_eq_some]
  refine ⟨(a.touched.owners mk).trans howner,a.market',?_⟩
  have hlive := a.live
  unfold cranked
  split_ifs <;> exact hlive

theorem Effect.onPosition (h : Effect mk data m i p x) : i.onPosition=true := by
  cases h <;> rfl

theorem execute_accrual (hx : (program id).execute c b=.ok b') (hc : c.instruction=.accrueInterest)
    (hkey : c.key? 0=some mk) (hm : (b mk).data=marketCodec.encode m) : Cranked id c b b' mk m := by
  cases execute_spec hx with
  | opened hopen =>
    rw [hc] at hopen
    cases hopen
  | changed u =>
    have hon := u.effect.onPosition
    rw [hc] at hon
    cases hon
  | cranked _ r =>
    cases r.marketKey.symm.trans hkey
    obtain rfl := marketCodec.encode_inj (r.market.symm.trans hm)
    exact r

theorem execute_onPosition (hx : (program id).execute c b=.ok b')
    (hon : c.instruction.onPosition=true)
    (hmk : c.key? 0=some mk) (hk : c.key? 1=some k) : ∃ m p x,Changed id c b b' mk k m p x := by
  cases execute_spec hx with
  | opened hc =>
    rw [hc] at hon
    cases hon
  | cranked hc =>
    rw [hc] at hon
    cases hon
  | changed u =>
    cases u.marketKey.symm.trans hmk
    cases u.positionKey.symm.trans hk
    exact ⟨_,_,_,u⟩

theorem Changed.length' (u : Changed id c b b' mk k m p x) :
    (b' k).data.length=(b k).data.length := by
  have hroom := u.room
  rw [u.position',length_append,position_size,length_drop]
  omega

theorem Changed.stored (u : Changed id c b b' mk k m p x)
    (hlen : (b k).data.length=positionLen) : (b' k).data=positionCodec.encode x.2 := by
  rw [u.position',drop_of_length_le hlen.le,append_nil]

theorem Changed.positions_other (u : Changed id c b b' mk' k m p x) (hj : j≠k) :
    positionAt id mk b' j=positionAt id mk b j := by
  by_cases hm : j=mk'
  · subst hm
    rw [positionAt_of_market u.market',positionAt_of_market u.market]
  · apply recordAt_congr (u.touched.owners j)
    apply u.touched.others
    simp [hj,hm]

theorem Changed.at_home (u : Changed id c b b' mk' k m p x) (hhome : AtHome id mk b c)
    (howner : (b k).owner=id) (hlive : p.isInitialized=true) : p.market=mk' := by
  cases u.effect.taken with
  | held hdata =>
    have hkey := hhome.home u.effect.onPosition k p u.positionKey howner hdata hlive
    exact Option.some.inj (hkey.symm.trans u.marketKey)
  | opened _ hmarket => exact hmarket

theorem Moves.grow (h : Moves m p x) (hempty : ∀ q : Side,q.amount p=0#64) (q : Side) :
    (q.total m).toNat≤(q.total x.1).toNat := by
  have htotals := h.totals q
  rw [q.amount_settle,hempty q,settledAmount_zero,BitVec.toNat_zero] at htotals
  omega

theorem Moves.grow_of_same (h : Moves m p x) (hsame : p=x.2) (q : Side) :
    (q.total m).toNat≤(q.total x.1).toNat := by
  have htotals := h.totals q
  have hsnapshot := h.snapshot q
  rw [← hsame] at htotals hsnapshot
  rw [q.amount_settle,hsnapshot,settledAmount_same] at htotals
  omega

inductive Booked (id mk : Pubkey) (b b' : Bank) (k : Pubkey) (m : LendingMarket) (p : UserPosition)
    (x : LendingMarket×UserPosition) : Prop
  | unchanged (hbook : ∀ j,positionAt id mk b' j=positionAt id mk b j)
      (hgrow : ∀ q : Side,(q.total m).toNat≤(q.total x.1).toNat)
  | rewritten (hbefore : positionAt id mk b k=some p) (hafter : positionAt id mk b' k=some x.2)
  | entered (hnone : positionAt id mk b k=none) (hafter : positionAt id mk b' k=some x.2)
      (hempty : ∀ q : Side,q.amount p=0#64)

theorem Changed.booked_of_length (u : Changed id c b b' mk k m p x)
    (hlen : (b k).data.length≠positionLen) : Booked id mk b b' k m p x := by
  refine .unchanged (fun j => ?_) ?_
  · by_cases hj : j=k
    · subst hj
      rw [positionAt_of_length hlen,positionAt_of_length (by rw [u.length']; exact hlen)]
    · exact u.positions_other hj
  · cases u.effect.taken with
    | held hdata => exact absurd (length_of_position hdata) hlen
    | opened _ _ _ hempty =>
      cases hempty with
      | inl hread =>
        obtain ⟨_,hp0⟩ := hread
        exact absurd (length_of_position hp0) hlen
      | inr hempty => exact u.effect.moves.grow hempty

theorem Changed.booked_of_foreign (u : Changed id c b b' mk k m p x) (howner : (b k).owner≠id)
    (hlen : (b k).data.length=positionLen) : Booked id mk b b' k m p x := by
  have hdata : (b k).data=positionCodec.encode x.2 :=
    ((u.touched.owned k).resolve_left howner).symm.trans (u.stored hlen)
  refine .unchanged (fun j => ?_) ?_
  · by_cases hj : j=k
    · subst hj
      exact recordAt_congr (u.touched.owners j) ((u.touched.owned j).resolve_left howner)
    · exact u.positions_other hj
  · cases u.effect.taken with
    | held hp => exact u.effect.moves.grow_of_same (positionCodec.encode_inj (hp.symm.trans hdata))
    | opened hlive _ hunused =>
      have hdead := (hunused x.2 hdata).1
      rw [u.effect.moves.live,hlive] at hdead
      cases hdead

theorem Changed.booked (u : Changed id c b b' mk k m p x) (hhome : AtHome id mk b c)
    (hblank : ∀ k p,(b k).owner=id → (b k).data=positionCodec.encode p → p.isInitialized=false →
      ∀ q : Side,q.amount p=0#64) : Booked id mk b b' k m p x := by
  by_cases hlen : (b k).data.length=positionLen
  swap
  · exact u.booked_of_length hlen
  by_cases howner : (b k).owner=id
  swap
  · exact u.booked_of_foreign howner hlen
  have howner' := (u.touched.owners k).trans howner
  have hmoves := u.effect.moves
  have hafter (hlive : p.isInitialized=true) : positionAt id mk b' k=some x.2 := by
    rw [positionAt_eq_some]
    exact ⟨howner',u.stored hlen,hmoves.live.trans hlive,
      hmoves.home.trans (u.at_home hhome howner hlive)⟩
  cases u.effect.taken with
  | held hdata =>
    by_cases hlive : p.isInitialized=true
    · apply Booked.rewritten _ (hafter hlive)
      rw [positionAt_eq_some]
      exact ⟨howner,hdata,hlive,u.at_home hhome howner hlive⟩
    · -- an account that is not in use stays out of the book
      have hdead : p.isInitialized=false := Bool.eq_false_iff.mpr hlive
      refine .unchanged (fun j => ?_) (hmoves.grow (hblank k p howner hdata hdead))
      by_cases hj : j=k
      · subst hj
        have hnone {b1 : Bank} {p1 : UserPosition} (h1 : (b1 j).data=positionCodec.encode p1)
            (hdead1 : p1.isInitialized=false) : positionAt id mk b1 j=none := by
          apply recordAt_eq_none
          intro p2 _ h2 hlive2
          rw [← positionCodec.encode_inj (h1.symm.trans h2),belongs_iff,hdead1] at hlive2
          cases hlive2.1
        rw [hnone hdata hdead,hnone (u.stored hlen) (hmoves.live.trans hdead)]
      · exact u.positions_other hj
  | opened hlive _ hunused hempty =>
    apply Booked.entered _ (hafter hlive)
    · intro q
      cases hempty with
      | inl hread =>
        obtain ⟨p0,hp0⟩ := hread
        rw [(hunused p0 hp0).2 q]
        exact hblank k p0 howner hp0 (hunused p0 hp0).1 q
      | inr hempty => exact hempty q
    · apply recordAt_eq_none
      intro p0 _ hp0 hlive0
      rw [belongs_iff,(hunused p0 hp0).1] at hlive0
      cases hlive0.1

end Changes

end PrismChain.SolLend
