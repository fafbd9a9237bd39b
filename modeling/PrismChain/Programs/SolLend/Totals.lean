import PrismChain.Programs.SolLend.Positions

namespace PrismChain.SolLend

open FixedWidth Aggregate InterestIndex Option List

/-- A market without totals whose indices have not moved yet, and no balances in its positions or in
accounts that are not in use. -/
structure Fresh (id mk : Pubkey) (b : Bank) (m : LendingMarket) : Prop where
  market : marketAt id b mk=some m
  indices : ∀ q : Side,q.index m=indexScale
  totals : ∀ q : Side,q.total m=0#64
  empty : ∀ k p,(b k).owner=id → (b k).data=positionCodec.encode p →
    (p.isInitialized=false ∨ p.market=mk) → ∀ q : Side,q.amount p=0#64

def accruals (id mk : Pubkey) (x : LogEntry Instruction) : Nat :=
  match x.label with
  | .call c =>
    if c.instruction=.accrueInterest ∧ c.key? 0=some mk ∧
        (marketAt id x.pre.bank mk).any fun m => decide (m.lastUpdateSlot.toNat<c.clock.slot.toNat)
    then 1 else 0
  | .outside => 0

structure Kept (id mk : Pubkey) (n : Nat) (b : Bank) (m : LendingMarket) : Prop where
  market : marketAt id b mk=some m
  scale : ∀ q : Side,indexScale.toNat≤(q.index m).toNat
  fair : Fair m
  covered : ∀ q : Side,Covered indexScale.toNat (sharesOver q.balance (positionAt id mk b))
    (q.index m).toNat (q.total m).toNat n
  settled : ∀ k p,positionAt id mk b k=some p → ∀ q : Side,
    q.amount p=0#64 ∨ 0<(q.snapshot p).toNat ∧ (q.snapshot p).toNat≤(q.index m).toNat
  blank : ∀ k p,(b k).owner=id → (b k).data=positionCodec.encode p → p.isInitialized=false →
    ∀ q : Side,q.amount p=0#64

theorem Changed.covered {id mk : Pubkey} (u : Changed id c b b' mk k m p x)
    (hkept : Kept id mk n b m) (hbooked : Booked id mk b b' k m p x) (q : Side) :
    Covered indexScale.toNat (sharesOver q.balance (positionAt id mk b')) (q.index x.1).toNat
      (q.total x.1).toNat n := by
  have hmoves := u.effect.moves
  have hcovered := hkept.covered q
  have hpos : 0<(q.index m).toNat := (show 0< indexScale.toNat by decide).trans_le (hkept.scale q)
  have hbalance : q.balance x.2=⟨(q.amount x.2).toNat,(q.index m).toNat⟩ := by
    rw [Side.balance,hmoves.snapshot q]
  have hsettled
    (h : q.amount p=0#64 ∨ 0<(q.snapshot p).toNat ∧ (q.snapshot p).toNat≤(q.index m).toNat) :
      ((q.amount (settleUserInterest p m)).toNat : ℚ)≤(q.balance p).shares*(q.index m).toNat := by
    rw [q.amount_settle]
    exact (Nat.cast_le.mpr (settledAmount_le h)).trans (Balance.worth_le _ _)
  rw [hmoves.index q]
  cases hbooked with
  | unchanged hbook hgrow =>
    rw [sharesOver_congr hbook]
    exact hcovered.grow (hgrow q)
  | rewritten hbefore hafter =>
    have hshares := sharesOver_change q.balance hbefore hafter fun _ => u.positions_other
    rw [hbalance] at hshares
    exact hcovered.settle hpos hshares (hsettled (hkept.settled k p hbefore q)) (hmoves.totals q)
  | entered hnone hafter hempty =>
    have hshares := sharesOver_insert q.balance hnone hafter fun _ => u.positions_other
    have hzero : (q.balance p).shares=0 := by
      simp [Balance.shares,Side.balance,hempty q]
    rw [hbalance,← add_zero (sharesOver _ _),← hzero] at hshares
    exact hcovered.settle hpos hshares (hsettled (.inl (hempty q))) (hmoves.totals q)

namespace Kept

variable {id mk mk' k authority tokenMint : Pubkey} {c : Call Instruction} {b b' : Bank}
  {m m1 : LendingMarket} {p : UserPosition} {x : LendingMarket×UserPosition} {n : Nat}

theorem congr (hkept : Kept id mk n b m) (hmarket : marketAt id b' mk=marketAt id b mk)
    (hbook : ∀ j,positionAt id mk b' j=positionAt id mk b j)
    (hblank : ∀ k p,(b' k).owner=id → (b' k).data=positionCodec.encode p →
      p.isInitialized=false → ∀ q : Side,q.amount p=0#64) : Kept id mk n b' m where
  market := hmarket.trans hkept.market
  scale := hkept.scale
  fair := hkept.fair
  covered q := by
    rw [sharesOver_congr hbook]
    exact hkept.covered q
  settled k p hp := hkept.settled k p ((hbook k).symm.trans hp)
  blank := hblank

theorem outside (hkept : Kept id mk n b m) (hout : Outside id b b') : Kept id mk n b' m := by
  obtain ⟨howner,-,-⟩ := recordAt_eq_some.mp hkept.market
  apply hkept.congr
  · obtain ⟨howner',hdata,-⟩ := hout.owned howner
    exact recordAt_congr (howner'.trans howner.symm) hdata
  · exact fun j => hout.records (position_marked mk) j
  · intro k p howner' hp hdead q
    by_cases hid : (b k).owner=id
    · rw [(hout.owned hid).2.1] at hp
      exact hkept.blank k p hid hp hdead q
    · have hzeros := (hout k).2 hid howner'
      rw [hp] at hzeros
      rw [eq_zeroPosition hzeros]
      cases q <;> rfl

section NoPosition

variable (ht : Touched id [mk'] b b') (hlen : (b mk').data.length≠positionLen)
  (hlen' : (b' mk').data.length≠positionLen)
include ht hlen'

theorem blank_kept (hkept : Kept id mk n b m) : ∀ k p,(b' k).owner=id →
    (b' k).data=positionCodec.encode p → p.isInitialized=false → ∀ q : Side,q.amount p=0#64 := by
  intro k p howner hp hdead
  have hk : k≠mk' := by
    rintro rfl
    exact hlen' (length_of_position hp)
  rw [ht.owners k] at howner
  rw [ht.others k (by simpa using hk)] at hp
  exact hkept.blank k p howner hp hdead

include hlen

theorem positions_kept (mk j : Pubkey) : positionAt id mk b' j=positionAt id mk b j := by
  by_cases hj : j=mk'
  · rw [hj,positionAt_of_length hlen,positionAt_of_length hlen']
  · exact recordAt_congr (ht.owners j) (ht.others j (by simpa using hj))

theorem elsewhere (hkept : Kept id mk n b m) (hne : mk≠mk') : Kept id mk n b' m :=
  hkept.congr (recordAt_congr (ht.owners mk) (ht.others mk (by simpa using hne)))
    (positions_kept ht hlen hlen' mk) (blank_kept ht hlen' hkept)

end NoPosition

theorem opened (hkept : Kept id mk n b m) (o : Opened id c b b' mk' authority tokenMint m1) :
    Kept id mk n b' m := by
  have hpos : positionLen< marketLen := by decide
  have hroom := o.room
  refine elsewhere o.touched (by omega) ?_ hkept (o.other hkept.market)
  rw [o.market',length_append,market_size]
  omega

theorem blank_changed (hkept : Kept id mk n b m) (u : Changed id c b b' mk' k m1 p x) :
    ∀ j p1,(b' j).owner=id → (b' j).data=positionCodec.encode p1 → p1.isInitialized=false →
      ∀ q : Side,q.amount p1=0#64 := by
  intro j p1 howner hp1 hdead
  rw [u.touched.owners j] at howner
  by_cases hm : j=mk'
  · subst hm
    exact absurd (u.market'.symm.trans hp1) (market_ne_position _ _)
  by_cases hj : j=k
  · subst hj
    have hlen : (b j).data.length=positionLen := by
      rw [← u.length']
      exact length_of_position hp1
    obtain rfl := positionCodec.encode_inj ((u.stored hlen).symm.trans hp1)
    rw [u.effect.moves.live] at hdead
    cases u.effect.taken with
    | held hdata => exact u.effect.idle (hkept.blank j p howner hdata hdead) hdead
    | opened hlive =>
      rw [hlive] at hdead
      cases hdead
  · rw [u.touched.others j (by simp [hj,hm])] at hp1
    exact hkept.blank j p1 howner hp1 hdead

theorem changed (hkept : Kept id mk n b m) (hhome : AtHome id mk b c)
    (u : Changed id c b b' mk' k m1 p x) : ∃ m',Kept id mk n b' m' := by
  have hblank := hkept.blank_changed u
  have hk : mk≠k := by
    rintro rfl
    exact hhome.apart u.effect.onPosition u.positionKey
  by_cases hmk : mk=mk'
  · subst hmk
    obtain ⟨howner,hdata,-⟩ := recordAt_eq_some.mp hkept.market
    obtain rfl := marketCodec.encode_inj (u.market.symm.trans hdata)
    have hmoves := u.effect.moves
    have hbooked := u.booked hhome hkept.blank
    refine ⟨x.1,?_,?_,hmoves.fair,u.covered hkept hbooked,?_,hblank⟩
    · unfold marketAt
      rw [recordAt_eq_some]
      exact ⟨(u.touched.owners mk).trans howner,u.market',hmoves.market.trans u.live⟩
    · intro q
      rw [hmoves.index q]
      exact hkept.scale q
    · intro j p1 hp1 q
      rw [hmoves.index q]
      by_cases hj : j=k
      · subst hj
        obtain ⟨-,hp1,-⟩ := positionAt_eq_some.mp hp1
        have hlen : (b j).data.length=positionLen := by
          rw [← u.length']
          exact length_of_position hp1
        obtain rfl := positionCodec.encode_inj ((u.stored hlen).symm.trans hp1)
        rw [hmoves.snapshot q]
        exact .inr ⟨(show 0< indexScale.toNat by decide).trans_le (hkept.scale q),le_refl _⟩
      · rw [u.positions_other hj] at hp1
        exact hkept.settled j p1 hp1 q
  · refine ⟨m,hkept.congr ?_ (fun j => ?_) hblank⟩
    · exact recordAt_congr (u.touched.owners mk) (u.touched.others mk (by simp [hmk,hk]))
    by_cases hj : j=k
    swap
    · exact u.positions_other hj
    -- the position that was passed belongs to the other market, before and after
    subst hj
    have hnone {b1 : Bank} (howners : (b1 j).owner=(b j).owner)
        (hother : ∀ p1,(b j).owner=id → (b1 j).data=positionCodec.encode p1 →
          p1.isInitialized=true → p1.market=mk') : positionAt id mk b1 j=none := by
      cases h : positionAt id mk b1 j with
      | none => rfl
      | some p1 =>
        obtain ⟨howner,hp1,hlive,hmarket⟩ := positionAt_eq_some.mp h
        exact absurd (hmarket.symm.trans (hother p1 (howners.symm.trans howner) hp1 hlive)) hmk
    rw [hnone (u.touched.owners j) ?_,hnone rfl ?_]
    · intro p1 howner hp1 hlive
      have hkey := hhome.home u.effect.onPosition j p1 u.positionKey howner hp1 hlive
      exact some.inj (hkey.symm.trans u.marketKey)
    · intro p1 howner hp1 hlive
      have hlen : (b j).data.length=positionLen := by
        rw [← u.length']
        exact length_of_position hp1
      obtain rfl := positionCodec.encode_inj ((u.stored hlen).symm.trans hp1)
      have hmoves := u.effect.moves
      exact hmoves.home.trans (u.at_home hhome howner (hmoves.live.symm.trans hlive))

theorem cranked (hkept : Kept id mk n b m) (hhome : AtHome id mk b c)
    (hc : c.instruction=.accrueInterest) (a : Cranked id c b b' mk' m1) :
    ∃ m',Kept id mk (n+if c.key? 0=some mk ∧ m.lastUpdateSlot.toNat<c.clock.slot.toNat
      then 1 else 0) b' m' := by
  have hlen : (b mk').data.length≠positionLen := by
    rw [a.market,market_size]
    decide
  have hlen' : (b' mk').data.length≠positionLen := by
    rw [a.market',market_size]
    decide
  by_cases hmk : mk=mk'
  swap
  · have hkey : c.key? 0≠some mk := fun h => hmk (some.inj (h.symm.trans a.marketKey))
    rw [if_neg fun h => hkey h.1]
    exact ⟨m,elsewhere a.touched hlen hlen' hkept hmk⟩
  subst hmk
  obtain ⟨howner,hdata,_⟩ := recordAt_eq_some.mp hkept.market
  obtain rfl := marketCodec.encode_inj (a.market.symm.trans hdata)
  have hmarket' := a.market_after howner
  have hbook := positions_kept a.touched hlen hlen' mk
  have hblank := blank_kept a.touched hlen' hkept
  by_cases hslot : c.clock.slot.toNat≤ m1.lastUpdateSlot.toNat
  · have hsame : SolLend.cranked m1 c.clock.slot=m1 := if_pos hslot
    rw [if_neg fun h => absurd h.2 (Nat.not_lt.mpr hslot)]
    exact ⟨m1,hkept.congr (by rw [hmarket',hsame,hkept.market]) hbook hblank⟩
  · rw [if_pos ⟨a.marketKey,Nat.not_le.mp hslot⟩]
    have hfits := hhome.fits hc a.marketKey m1 hkept.market
    rw [SolLend.cranked,if_neg hslot] at hmarket'
    refine ⟨_,hmarket',?_,accrued_fair,?_,?_,hblank⟩
    · intro q
      rw [accrued_index]
      exact (hkept.scale q).trans le_compoundIndex
    · intro q
      rw [sharesOver_congr hbook]
      exact accrued_covered hkept.fair hfits q (hkept.scale q) (hkept.covered q)
    · intro k p hp q
      rw [hbook k] at hp
      rw [accrued_index]
      exact (hkept.settled k p hp q).imp_right fun h => ⟨h.1,h.2.trans le_compoundIndex⟩

end Kept

section Runs

variable {id mk : Pubkey} {s : Ledger}

theorem Fresh.kept (h0 : Fresh id mk s.bank m) : Kept id mk 0 s.bank m where
  market := h0.market
  scale q := by rw [h0.indices q]
  fair := by
    have hdeposits : m.totalDeposits=0#64 := h0.totals .deposits
    unfold Fair
    rw [hdeposits,BitVec.toNat_zero,Nat.mul_zero]
    exact Nat.zero_le _
  covered q := by
    rw [sharesOver_empty]
    · exact Covered.empty _ _ _ _
    intro k p hp
    obtain ⟨howner,hdata,-,hmarket⟩ := positionAt_eq_some.mp hp
    show (q.amount p).toNat=0
    rw [h0.empty k p howner hdata (.inr hmarket) q]
    rfl
  settled k p hp q := by
    obtain ⟨howner,hdata,-,hmarket⟩ := positionAt_eq_some.mp hp
    exact .inl (h0.empty k p howner hdata (.inr hmarket) q)
  blank k p howner hdata hdead := h0.empty k p howner hdata (.inl hdead)

theorem kept_step (hkept : Kept id mk n s.bank m) (hstep : (program id).Step (AtHome id mk) s a t) :
    ∃ m',Kept id mk (n+accruals id mk ⟨s,a,t⟩) t.bank m' := by
  cases hstep with
  | outside _ hout => exact ⟨m,hkept.outside hout⟩
  | @call c b' _ hhome hx =>
    have hother (hc : c.instruction≠.accrueInterest) :
        accruals id mk ⟨s,.call c,⟨b',c.clock⟩⟩=0 := if_neg fun h => hc h.1
    cases execute_spec hx with
    | opened hc o =>
      rw [hother (by rw [hc]; nofun)]
      exact ⟨m,hkept.opened o⟩
    | changed u =>
      have hc : c.instruction≠.accrueInterest := by
        intro hc
        have hon := u.effect.onPosition
        rw [hc] at hon
        cases hon
      rw [hother hc]
      exact hkept.changed hhome u
    | cranked hc a =>
      obtain ⟨m',h⟩ := hkept.cranked hhome hc a
      refine ⟨m',?_⟩
      simpa [accruals,hc,hkept.market] using h

theorem kept_run (h0 : Fresh id mk s.bank m)
    (hrun : Run ((program id).Step (AtHome id mk)) s tr t) :
    ∃ m',Kept id mk (total (accruals id mk) tr) t.bank m' := by
  refine hrun.traced
    (I := fun tr t => ∃ m',Kept id mk (total (accruals id mk) tr) t.bank m') ⟨m,h0.kept⟩ ?_
  rintro tr t a u - ⟨m',hkept⟩ hstep
  rw [total_append_one]
  exact kept_step hkept hstep

theorem Kept.settled_le_sum (hkept : Kept id mk n b m)
    (hp : positionAt id mk b k=some p) (q : Side) :
    (q.amount (settleUserInterest p m)).toNat≤
      sumOver (fun p => (q.balance p).worth (q.index m).toNat) (positionAt id mk b) := by
  rw [q.amount_settle]
  refine (settledAmount_le (hkept.settled k p hp q)).trans ?_
  exact le_sumOver (g := fun p => (q.balance p).worth (q.index m).toNat) hp

end Runs

/-- On either side the positions come to at most the total and one unit at the present index, in
units of the first, for each accrual. A handler therefore takes at most that much more from a total
than there is. -/
theorem totals_nearly_cover {id mk : Pubkey} {s t : Ledger} {tr : Trace Instruction}
    {m₀ : LendingMarket} (h0 : Fresh id mk s.bank m₀)
    (hrun : Run ((program id).Step (AtHome id mk)) s tr t) :
    ∃ m,marketAt id t.bank mk=some m ∧ ∀ q : Side,
      sumOver (fun p => (q.amount p).toNat*(q.index m).toNat/(q.snapshot p).toNat)
          (positionAt id mk t.bank)*10^9≤
        (q.total m).toNat*10^9+total (accruals id mk) tr*(q.index m).toNat ∧
      ∀ k p,positionAt id mk t.bank k=some p → (q.amount (settleUserInterest p m)).toNat*10^9≤
          (q.total m).toNat*10^9+total (accruals id mk) tr*(q.index m).toNat := by
  obtain ⟨m,hkept⟩ := kept_run h0 hrun
  refine ⟨m,hkept.market,fun q => ?_⟩
  have hsum := (hkept.covered q).worth (by decide)
  refine ⟨hsum,fun k p hp => ?_⟩
  exact (Nat.mul_le_mul_right _ (hkept.settled_le_sum hp q)).trans hsum

section Checks

variable {id mk : Pubkey} {b : Bank} {c : Call Instruction}

theorem fits_iff : Fits m slots ↔
    (Side.deposits.index m).toNat*(Side.deposits.rate m).toNat*slots.toNat<2^64 ∧
    (Side.borrows.index m).toNat*(Side.borrows.rate m).toNat*slots.toNat<2^64 ∧
    exactInterest m slots<2^64 ∧
    (Side.deposits.total m).toNat+exactInterest m slots/accrualBase<2^64 ∧
    (Side.borrows.total m).toNat+exactInterest m slots/accrualBase<2^64 := by
  constructor
  · intro h
    exact ⟨h.indices _,h.indices _,h.interest,h.totals _,h.totals _⟩
  · intro ⟨hd,hb,hi,htd,htb⟩
    exact ⟨fun q => by cases q <;> assumption,hi,fun q => by cases q <;> assumption⟩

instance (m : LendingMarket) (slots : U64) : Decidable (Fits m slots) :=
  decidable_of_iff _ fits_iff.symm

def atHome (id mk : Pubkey) (b : Bank) (c : Call Instruction) : Bool :=
  (!c.instruction.onPosition || (c.key? 1).all fun k => decide (k≠mk) &&
    (positionCodec.tryFromSlice (b k).data).all fun p =>
      decide ((b k).owner=id → p.isInitialized=true → c.key? 0=some p.market)) &&
  (marketAt id b mk).all fun m => decide (c.instruction=.accrueInterest → c.key? 0=some mk →
    Fits m (saturatingSub c.clock.slot m.lastUpdateSlot))

theorem atHome_sound (h : atHome id mk b c=true) : AtHome id mk b c := by
  simp only [atHome,Bool.and_eq_true,Bool.or_eq_true,Bool.not_eq_true',Option.all_eq_true,
    decide_eq_true_eq] at h
  obtain ⟨hposition,hmarket⟩ := h
  constructor
  · intro hon k p hk howner hp hlive
    obtain hoff | hall := hposition
    · rw [hon] at hoff
      cases hoff
    · exact (hall k hk).2 p ((positionCodec.tryFromSlice_eq_some).mpr hp) howner hlive
  · intro hon hk
    obtain hoff | hall := hposition
    · rw [hon] at hoff
      cases hoff
    · exact (hall mk hk).1 rfl
  · intro hc hkey m hm
    exact hmarket m hm hc hkey

end Checks

def sampleMarket : LendingMarket :=
  ⟨true,2#256,4#256,0#64,0#64,0#64,200#64,5#64,0#64,8000#64,8500#64,500#64,1000000000#64,
    1000000000#64⟩

def sampleBank : Bank := fun k =>
  if k=3#256 then ⟨1000000#64,marketCodec.encode sampleMarket,1#256⟩
  else if k=6#256 then ⟨1000000#64,List.replicate positionLen 0#8,1#256⟩
  else ⟨0#64,[],systemProgram⟩

def sampleStart : Ledger := ⟨sampleBank,⟨5#64,0#64⟩⟩

def sampleCalls : List (Call Instruction) :=
  let accounts : List AccountInfo := [⟨3#256,false,true⟩,⟨6#256,false,true⟩,⟨2#256,true,false⟩]
  [⟨⟨5#64,0#64⟩,accounts,.deposit 100#64⟩,⟨⟨5#64,0#64⟩,accounts,.borrow 42#64⟩,
    ⟨⟨44000005#64,0#64⟩,[⟨3#256,false,true⟩],.accrueInterest⟩,
    ⟨⟨87000005#64,0#64⟩,[⟨3#256,false,true⟩],.accrueInterest⟩]

theorem sample_fresh : Fresh 1#256 3#256 sampleStart.bank sampleMarket where
  market := by decide +kernel
  indices q := by cases q <;> rfl
  totals q := by cases q <;> rfl
  empty k p howner hp _ q := by
    have hlen := length_of_position hp
    change (sampleBank k).owner=1#256 at howner
    change (sampleBank k).data=_ at hp
    change (sampleBank k).data.length=_ at hlen
    unfold sampleBank at howner hp hlen
    split_ifs at howner hp hlen
    · rw [market_size] at hlen
      cases hlen
    · rw [eq_zeroPosition (p := p) (by rw [← hp]; exact fun x hx => eq_of_mem_replicate hx)]
      cases q <;> rfl
    · cases howner

def samplePosition : UserPosition :=
  ⟨true,2#256,3#256,100#64,42#64,1000000000#64,1000000000#64,20238#64⟩

def sampleAccrued : LendingMarket :=
  ⟨true,2#256,4#256,100#64,42#64,172#64,410#64,87000005#64,4200#64,8000#64,8500#64,500#64,
    1019070263#64,1045755206#64⟩

def sampleRepayment : Call Instruction :=
  ⟨⟨87000005#64,0#64⟩,[⟨3#256,false,true⟩,⟨6#256,false,true⟩,⟨2#256,true,false⟩],.repay 43#64⟩

theorem sample_run : ∃ tr t,Run ((program 1#256).Step (AtHome 1#256 3#256)) sampleStart tr t ∧
    marketAt 1#256 t.bank 3#256=some sampleAccrued ∧
    positionAt 1#256 3#256 t.bank 6#256=some samplePosition ∧
    ∃ b,(program 1#256).execute sampleRepayment t.bank=.ok b := by
  obtain ⟨⟨tr,t⟩,hhistory,hall,hmarket,hposition,hok⟩ :
      ∃ x,(program 1#256).history sampleCalls sampleStart=some x ∧
      (x.1.all fun y => match y.label with
        | .call c => atHome 1#256 3#256 y.pre.bank c
        | .outside => true)=true ∧ marketAt 1#256 x.2.bank 3#256=some sampleAccrued ∧
      positionAt 1#256 3#256 x.2.bank 6#256=some samplePosition ∧
      ((program 1#256).execute sampleRepayment x.2.bank).isOk=true := by decide +kernel
  refine ⟨tr,t,Program.history_run hhistory ?_,hmarket,hposition,_,eq_ok_of_isOk t.bank hok⟩
  intro x hx c hc
  have hcheck := all_eq_true.mp hall x hx
  rw [hc] at hcheck
  exact atHome_sound hcheck

theorem sample_nearly_covered :
    ∃ tr t,Run ((program 1#256).Step (AtHome 1#256 3#256)) sampleStart tr t ∧
      ∃ m,marketAt 1#256 t.bank 3#256=some m ∧ ∀ q : Side,
        sumOver (fun p => (q.amount p).toNat*(q.index m).toNat/(q.snapshot p).toNat)
            (positionAt 1#256 3#256 t.bank)*10^9≤
          (q.total m).toNat*10^9+total (accruals 1#256 3#256) tr*(q.index m).toNat := by
  obtain ⟨tr,t,hrun,-,-,-⟩ := sample_run
  obtain ⟨m,hm,h⟩ := totals_nearly_cover sample_fresh hrun
  exact ⟨tr,t,hrun,m,hm,fun q => (h q).1⟩

/-- Two accruals that are too short for a whole unit of interest leave the totals behind both
sums, and a repayment of 43 is accepted where the total is 42. -/
theorem accruals_outgrow_totals : ∃ tr t m,Fresh 1#256 3#256 sampleStart.bank sampleMarket ∧
    Run ((program 1#256).Step (AtHome 1#256 3#256)) sampleStart tr t ∧
    marketAt 1#256 t.bank 3#256=some m ∧
    (∀ q : Side,(q.total m).toNat<
      sumOver (fun p => (q.amount p).toNat*(q.index m).toNat/(q.snapshot p).toNat)
        (positionAt 1#256 3#256 t.bank)) ∧
    m.totalBorrows=42#64 ∧ ∃ b,(program 1#256).execute sampleRepayment t.bank=.ok b := by
  obtain ⟨tr,t,hrun,hmarket,hposition,hrepaid⟩ := sample_run
  refine ⟨tr,t,sampleAccrued,sample_fresh,hrun,hmarket,fun q => ?_,rfl,hrepaid⟩
  have hle := le_sumOver (g := fun p => (q.amount p).toNat*(q.index sampleAccrued).toNat/
    (q.snapshot p).toNat) hposition
  refine Nat.lt_of_lt_of_le ?_ hle
  cases q <;> decide

end PrismChain.SolLend
