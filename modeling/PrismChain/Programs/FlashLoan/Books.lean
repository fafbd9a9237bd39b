import PrismChain.Programs.FlashLoan.Transition

namespace PrismChain.FlashLoan

open FixedWidth List Program

def poolAt (h : Host) (b : Bank) (k : Pubkey) : Option FlashLoanPool :=
  frontAt poolCodec FlashLoanPool.isInitialized h.programId b k

def ProviderShare.claim (ps : ProviderShare) : Nat := ps.deposited.toNat+ps.feesEarned.toNat

def claims (p : FlashLoanPool) : Nat := (p.providers.val.map ProviderShare.claim).sum

/-- The providers' claims are within the liquidity. -/
structure Books (p : FlashLoanPool) : Prop where
  covered : claims p≤p.totalLiquidity.toNat
  owners : (p.providers.val.map ProviderShare.owner).Nodup
  count : p.providerCount.toNat=p.providers.val.length
  bound : p.providers.val.length≤ maxProviders

section Updates

variable {owner : Pubkey} {ps ps' : ProviderShare}

theorem updateFirst_none (h : updateFirst owner g l=.ok none) :
    owner∉l.map ProviderShare.owner := by
  induction l with
  | nil => simp
  | cons _ _ ih =>
    rw [updateFirst] at h
    split at h
    · simp only [steps_ok] at h
      obtain ⟨_,-,h⟩ := h
      cases h
    · rename_i hne
      simp only [steps_ok,Option.map_eq_none_iff] at h
      obtain ⟨_,hrest,rfl⟩ := h
      simp only [map_cons,mem_cons,not_or]
      exact ⟨Ne.symm hne,ih hrest⟩

theorem updateFirst_some (h : updateFirst owner g l=.ok (some l')) :
    ∃ front ps ps' back,l=front++ps::back ∧ l'=front++ps'::back ∧ ps.owner=owner ∧
      g ps=.ok ps' := by
  induction l generalizing l' with
  | nil => cases h
  | cons ps rest ih =>
    rw [updateFirst] at h
    split at h
    · simp only [steps_ok,Option.some.injEq] at h
      obtain ⟨ps',hg,rfl⟩ := h
      exact ⟨[],ps,ps',rest,rfl,rfl,‹_›,hg⟩
    · simp only [steps_ok] at h
      obtain ⟨_,hrest,h⟩ := h
      obtain ⟨_,rfl,rfl⟩ := Option.map_eq_some_iff.mp h
      obtain ⟨front,qs,qs',back,rfl,rfl,howner,hg⟩ := ih hrest
      exact ⟨ps::front,qs,qs',back,rfl,rfl,howner,hg⟩

theorem toProviders_eq_ok (h : toProviders l=.ok providers) : providers.val=l := by
  unfold toProviders at h
  split at h
  · rw [← Except.ok.inj h]
  · cases h

theorem claims_replace (ps ps' : ProviderShare) (front back : List ProviderShare) :
    ((front++ps'::back).map ProviderShare.claim).sum+ps.claim=
      ((front++ps::back).map ProviderShare.claim).sum+ps'.claim := by
  simp only [map_append,map_cons,sum_append,sum_cons]
  omega

theorem updateFirst_owners (hg : ∀ {ps ps'},g ps=.ok ps' → ps'.owner=ps.owner)
    (h : updateFirst owner g l=.ok (some l')) :
    l'.map ProviderShare.owner=l.map ProviderShare.owner := by
  obtain ⟨_,ps,ps',_,rfl,rfl,-,hps⟩ := updateFirst_some h
  simp only [map_append,map_cons,hg hps]

theorem Books.of_owners (hb : Books p) (hcovered : claims p'≤p'.totalLiquidity.toNat)
    (howners : p'.providers.val.map ProviderShare.owner=p.providers.val.map ProviderShare.owner)
    (hcount : p'.providerCount=p.providerCount) : Books p' := by
  have hlen : p'.providers.val.length=p.providers.val.length := by
    simpa using congrArg length howners
  refine ⟨hcovered,?_,?_,?_⟩
  · rw [howners]
    exact hb.owners
  · rw [hcount,hlen]
    exact hb.count
  · rw [hlen]
    exact hb.bound

theorem deposited_claims (h : deposited p owner amount now=.ok p') :
    claims p'=claims p+amount.toNat ∧
      p'.totalLiquidity.toNat=p.totalLiquidity.toNat+amount.toNat := by
  simp only [deposited,steps_ok] at h
  obtain ⟨found,hfound,⟨l,_⟩,henrol,_,htotal,_,hproviders,rfl⟩ := h
  refine ⟨?_,checkedAdd_eq_some.mp htotal⟩
  simp only [claims,toProviders_eq_ok hproviders]
  cases found with
  | some =>
    obtain ⟨rfl,-⟩ := Prod.mk.inj (Except.ok.inj henrol)
    obtain ⟨front,ps,_,back,hl,rfl,-,hg⟩ := updateFirst_some hfound
    simp only [steps_ok] at hg
    obtain ⟨sum,hsum,rfl⟩ := hg
    have hadd := checkedAdd_eq_some.mp hsum
    have hclaims := claims_replace ps {ps with deposited := sum, lastUpdated := now} front back
    rw [hl]
    simp only [ProviderShare.claim] at hclaims ⊢
    omega
  | none =>
    simp only [enrol,steps_ok] at henrol
    obtain ⟨_,-,_,-,hpair⟩ := henrol
    obtain ⟨rfl,-⟩ := Prod.mk.inj hpair
    simp [ProviderShare.claim]

theorem deposited_books (hb : Books p) (h : deposited p owner amount now=.ok p') : Books p' := by
  obtain ⟨_,_⟩ := deposited_claims h
  have hcovered : claims p'≤p'.totalLiquidity.toNat := by
    have := hb.covered
    omega
  simp only [deposited,steps_ok] at h
  obtain ⟨found,hfound,⟨l,count⟩,henrol,_,-,_,hproviders,rfl⟩ := h
  have hl := toProviders_eq_ok hproviders
  cases found with
  | some =>
    cases henrol
    refine hb.of_owners hcovered ?_ rfl
    rw [hl]
    refine updateFirst_owners (fun {ps ps'} hg => ?_) hfound
    simp only [steps_ok] at hg
    obtain ⟨_,-,rfl⟩ := hg
    rfl
  | none =>
    simp only [enrol,steps_ok] at henrol
    obtain ⟨_,_,_,hcount,hpair⟩ := henrol
    cases hpair
    have hadd : _=_+1 := checkedAdd_eq_some.mp hcount
    have hold := hb.count
    refine ⟨hcovered,?_,?_,?_⟩
    · rw [hl,map_append]
      exact hb.owners.append (by simp) (by simpa using updateFirst_none hfound)
    · rw [hl,length_append,length_singleton]
      dsimp only
      omega
    · rw [hl,length_append,length_singleton]
      omega

theorem takeOut_claim (h : takeOut amount now ps=.ok ps') :
    ps'.owner=ps.owner ∧ ps'.claim+amount.toNat=ps.claim := by
  simp only [takeOut,steps_ok] at h
  obtain ⟨_,havailable,_,_,h⟩ := h
  have hadd := checkedAdd_eq_some.mp havailable
  split at h
  · simp only [steps_ok] at h
    obtain ⟨_,hfees,rfl⟩ := h
    have hsub := checkedSub_eq_some.mp hfees
    refine ⟨rfl,?_⟩
    simp only [ProviderShare.claim]
    omega
  · simp only [steps_ok] at h
    obtain ⟨_,hremaining,_,hrest,rfl⟩ := h
    have hsub := checkedSub_eq_some.mp hremaining
    have hsub' := checkedSub_eq_some.mp hrest
    refine ⟨rfl,?_⟩
    simp only [ProviderShare.claim,BitVec.toNat_ofNat,Nat.zero_mod]
    omega

theorem withdrawShare_claims (h : withdrawShare p owner amount now=.ok p1) :
    claims p1+amount.toNat=claims p ∧ p1.totalLiquidity=p.totalLiquidity ∧
      p1.providers.val.map ProviderShare.owner=p.providers.val.map ProviderShare.owner ∧
      p1.providerCount=p.providerCount ∧ p1.isInitialized=p.isInitialized := by
  simp only [withdrawShare,steps_ok] at h
  obtain ⟨_,hfound,l,rfl,providers,hproviders,rfl⟩ := h
  have hl := toProviders_eq_ok hproviders
  refine ⟨?_,rfl,?_,rfl,rfl⟩
  · obtain ⟨front,ps,ps',back,hold,rfl,-,hps⟩ := updateFirst_some hfound
    have hclaim := (takeOut_claim hps).2
    have hsum := claims_replace ps ps' front back
    simp only [claims,hl,hold]
    omega
  · rw [hl]
    exact updateFirst_owners (fun hg => (takeOut_claim hg).1) hfound

theorem reduceLiquidity_eq_ok (h : reduceLiquidity p1 amount=.ok p') :
    p'.totalLiquidity.toNat=p1.totalLiquidity.toNat-amount.toNat ∧ claims p'=claims p1 ∧
      p'.providers=p1.providers ∧ p'.providerCount=p1.providerCount ∧
      p'.isInitialized=p1.isInitialized := by
  simp only [reduceLiquidity,steps_ok] at h
  obtain ⟨_,htotal,rfl⟩ := h
  have hsub := checkedSub_eq_some.mp htotal
  rw [toNat_umin] at hsub
  refine ⟨?_,rfl,rfl,rfl,rfl⟩
  dsimp only
  omega

theorem withdrawn_books (hb : Books p) (hshare : withdrawShare p owner amount now=.ok p1)
    (h : reduceLiquidity p1 amount=.ok p') : Books p' := by
  obtain ⟨_,htotal,howners,hcount,-⟩ := withdrawShare_claims hshare
  obtain ⟨hliquidity,hsame,hproviders,hcount',-⟩ := reduceLiquidity_eq_ok h
  have hcovered := hb.covered
  refine hb.of_owners ?_ ?_ (hcount'.trans hcount)
  · rw [hliquidity,hsame,htotal]
    omega
  · rw [hproviders]
    exact howners

theorem lent_eq_ok (h : lent p=.ok p') :
    p'.totalLiquidity=p.totalLiquidity ∧ p'.providers=p.providers ∧
      p'.providerCount=p.providerCount ∧ p'.isInitialized=p.isInitialized := by
  simp only [lent,steps_ok] at h
  obtain ⟨_,-,rfl⟩ := h
  exact ⟨rfl,rfl,rfl,rfl⟩

theorem lent_books (hb : Books p) (h : lent p=.ok p') : Books p' := by
  obtain ⟨htotal,hproviders,hcount,-⟩ := lent_eq_ok h
  refine hb.of_owners ?_ (by rw [hproviders]) hcount
  rw [claims,hproviders,htotal]
  exact hb.covered

end Updates

section Shares

variable {p : FlashLoanPool} {fee : U64} {ps : ProviderShare}

theorem claim_le (hps : ps∈p.providers.val) : ps.claim≤claims p :=
  le_sum_of_mem (mem_map_of_mem hps)

theorem feeShare_value {total : U64} (hle : ps.deposited.toNat≤total.toNat) :
    (feeShare fee total ps).toNat=fee.toNat*ps.deposited.toNat/total.toNat := by
  obtain ⟨product,hmul,hproduct⟩ := checkedMul_wide fee ps.deposited
  simp only [feeShare,hmul,Option.getD_some]
  by_cases hzero : total.toNat=0
  · have hdiv : checkedDiv product (total.setWidth 128)=none := if_pos (by
      rw [toNat_widen (by decide)]
      exact hzero)
    rw [hdiv,hzero,Nat.div_zero]
    rfl
  · have hpos : 0<(total.setWidth 128 : U128).toNat := by
      rw [toNat_widen (by decide)]
      omega
    have hfits : fee.toNat*ps.deposited.toNat/total.toNat<2^64 := by
      refine (Nat.div_le_of_le_mul ?_).trans_lt fee.isLt
      rw [Nat.mul_comm total.toNat]
      exact Nat.mul_le_mul_left _ hle
    rw [checkedDiv_of_pos hpos,Option.getD_some,BitVec.toNat_setWidth,BitVec.toNat_udiv,
      toNat_widen (by decide),hproduct,Nat.mod_eq_of_lt hfits]

theorem Books.deposited_le (hb : Books p) (hps : ps∈p.providers.val) :
    ps.deposited.toNat≤p.totalLiquidity.toNat := by
  have hclaim : ps.claim≤claims p := claim_le hps
  have hcovered := hb.covered
  simp only [ProviderShare.claim] at hclaim
  omega

theorem Books.shares_le (hb : Books p) (fee : U64) :
    (p.providers.val.map fun ps => (feeShare fee p.totalLiquidity ps).toNat).sum≤fee.toNat := by
  have hexact : (p.providers.val.map fun ps => (feeShare fee p.totalLiquidity ps).toNat)=
      p.providers.val.map fun ps => fee.toNat*ps.deposited.toNat/p.totalLiquidity.toNat :=
    map_congr_left fun ps hps => feeShare_value (hb.deposited_le hps)
  have hdeposits : (p.providers.val.map fun ps => ps.deposited.toNat).sum≤claims p :=
    sum_le_sum fun ps _ => Nat.le_add_right _ _
  rw [hexact]
  calc _ ≤ fee.toNat*(p.providers.val.map fun ps => ps.deposited.toNat).sum/
        p.totalLiquidity.toNat := Aggregate.sum_floor_le _ _ _ _
    _ ≤ fee.toNat := by
      refine Nat.div_le_of_le_mul ?_
      rw [Nat.mul_comm p.totalLiquidity.toNat]
      exact Nat.mul_le_mul_left _ (hdeposits.trans hb.covered)

theorem credited_claims (share : ProviderShare → U64) (l : List ProviderShare) :
    ((l.map fun ps => {ps with feesEarned := saturatingAdd ps.feesEarned (share ps)}).map
      ProviderShare.claim).sum≤(l.map ProviderShare.claim).sum+(l.map fun ps =>
        (share ps).toNat).sum := by
  induction l with
  | nil => simp
  | cons ps l ih =>
    have hle := toNat_saturatingAdd ps.feesEarned (share ps)
    simp only [map_cons,sum_cons,ProviderShare.claim] at ih ⊢
    omega

theorem repaid_claims (hb : Books p) (h : repaid p fee=.ok p') :
    claims p'≤claims p+fee.toNat ∧ p'.totalLiquidity.toNat=p.totalLiquidity.toNat+fee.toNat ∧
      p'.providers.val.map ProviderShare.owner=p.providers.val.map ProviderShare.owner ∧
      p'.providerCount=p.providerCount ∧ p'.isInitialized=p.isInitialized := by
  simp only [repaid,steps_ok] at h
  obtain ⟨_,-,_,htotal,rfl⟩ := h
  refine ⟨?_,checkedAdd_eq_some.mp htotal,?_,rfl,rfl⟩
  · simp only [claims,distribute]
    split
    · have hshares := hb.shares_le fee
      have hsum := credited_claims (feeShare fee p.totalLiquidity) p.providers.val
      dsimp only
      omega
    · exact Nat.le_add_right _ _
  · simp only [distribute]
    split
    · rw [map_map]
      rfl
    · rfl

theorem repaid_books (hb : Books p) (h : repaid p fee=.ok p') : Books p' := by
  obtain ⟨_,_,howners,hcount,-⟩ := repaid_claims hb h
  have hcovered := hb.covered
  exact hb.of_owners (by omega) howners hcount

end Shares

inductive Revised (p p' : FlashLoanPool) : Prop
  | same (heq : p'=p)
  | deposited {owner : Pubkey} {amount : U64} {now : I64}
      (hresult : deposited p owner amount now=.ok p')
  | withdrawn {owner : Pubkey} {amount : U64} {now : I64} {p₁ : FlashLoanPool}
      (hshare : withdrawShare p owner amount now=.ok p₁)
        (hresult : reduceLiquidity p₁ amount=.ok p')
  | lent (hresult : lent p=.ok p')
  | repaid {fee : U64} (hresult : repaid p fee=.ok p')

section Steps

variable {h : Host} {b : Bank} {k : Pubkey} {p : FlashLoanPool}

theorem Revised.books (hr : Revised p p') (hb : Books p) : Books p' := by
  cases hr with
  | same heq => exact heq.symm ▸ hb
  | deposited hresult => exact deposited_books hb hresult
  | withdrawn hshare hresult => exact withdrawn_books hb hshare hresult
  | lent hresult => exact lent_books hb hresult
  | repaid hresult => exact repaid_books hb hresult

theorem Revised.live (hr : Revised p p') : p'.isInitialized=p.isInitialized := by
  cases hr with
  | same heq => rw [heq]
  | deposited hresult =>
    simp only [FlashLoan.deposited,steps_ok] at hresult
    obtain ⟨_,-,_,-,_,-,_,-,rfl⟩ := hresult
    rfl
  | withdrawn hshare hresult =>
    exact (reduceLiquidity_eq_ok hresult).2.2.2.2.trans (withdrawShare_claims hshare).2.2.2.2
  | lent hresult => exact (lent_eq_ok hresult).2.2.2
  | repaid hresult =>
    simp only [FlashLoan.repaid,steps_ok] at hresult
    obtain ⟨_,-,_,-,rfl⟩ := hresult
    rfl

theorem Holds.unique (hp : Holds b k p) (hq : Holds b k q) : p=q := by
  obtain ⟨r,hr⟩ := hp
  obtain ⟨s,hs⟩ := hq
  exact (poolCodec.encode_append_inj (hr.symm.trans hs)).1

theorem poolAt_eq_some : poolAt h b k=some p ↔
    (b k).owner=h.programId ∧ Holds b k p ∧ p.isInitialized=true :=
  frontAt_eq_some

theorem pool_marked : Marked poolCodec FlashLoanPool.isInitialized := by
  intro p hinit
  change 1#8∈Codec.bool.encode p.isInitialized++_
  rw [hinit]
  exact mem_append_left _ (by decide)

theorem revised_pool (hpool : Holds b k0 q) (hpool' : Holds b' k0 q') (hr : Revised q q')
    (hframe : (b' k).owner=(b k).owner ∧ (k≠k0 → (b' k).data=(b k).data))
    (hp' : poolAt h b' k=some p') : ∃ p,poolAt h b k=some p ∧ Revised p p' := by
  obtain ⟨howner,hother⟩ := hframe
  by_cases hk : k=k0
  · subst hk
    obtain ⟨howned,hholds,hlive⟩ := poolAt_eq_some.mp hp'
    obtain rfl := hholds.unique hpool'
    exact ⟨q,poolAt_eq_some.mpr ⟨howner.symm.trans howned,hpool,hr.live.symm.trans hlive⟩,hr⟩
  · exact ⟨p',(frontAt_congr howner (hother hk)).symm.trans hp',.same rfl⟩

theorem pool_call (hx : (program h).execute c b=.ok b') (hp' : poolAt h b' k=some p') :
    (∃ p,poolAt h b k=some p ∧ Revised p p') ∨ ∃ admin tokenMint,p'=newPool h admin tokenMint := by
  cases execute_spec hx with
  | @initialized admin k0 tokenMint i =>
    obtain ⟨-,hholds,-⟩ := poolAt_eq_some.mp hp'
    by_cases hk : k=k0
    · subst hk
      exact .inr ⟨admin,tokenMint,hholds.unique i.pool'⟩
    · have hv : k≠vaultPda h k0 := fun he => hholds.ne_nil (by rw [he]; exact i.vault'.1)
      obtain ⟨hdata,howner⟩ := i.frame k hk hv
      exact .inl ⟨p',(frontAt_congr howner hdata).symm.trans hp',.same rfl⟩
  | deposited d =>
    exact .inl (revised_pool d.pool d.pool' (.deposited d.result) (d.frame k) hp')
  | withdrawn w =>
    exact .inl (revised_pool w.pool w.pool' (.withdrawn w.share w.result) (w.frame k) hp')
  | @borrowed _ _ _ r _ _ _ _ _ o =>
    obtain ⟨-,hholds,-⟩ := poolAt_eq_some.mp hp'
    have hr : k≠r := fun he => hholds.ne_receipt (by rw [he]; exact o.receipt')
    exact .inl (revised_pool o.pool o.pool' (.lent o.result) (o.frame k hr) hp')
  | repaid o =>
    exact .inl (revised_pool o.pool o.pool' (.repaid o.result) (o.frame k) hp')

theorem newPool_books (h : Host) (admin tokenMint : Pubkey) : Books (newPool h admin tokenMint) :=
  ⟨le_rfl,nodup_nil,rfl,Nat.zero_le _⟩

def AllBooks (h : Host) (b : Bank) : Prop := ∀ {k p},poolAt h b k=some p → Books p

theorem AllBooks.step {s : Ledger} {e : Event Instruction} (hb : AllBooks h s.bank)
    (hstep : (program h).TxStep keyless s e t) : AllBooks h t.bank := by
  intro k p hp
  cases hstep with
  | call _ _ hx =>
    obtain ⟨q,hq,hr⟩ | ⟨_,_,rfl⟩ := pool_call hx hp
    · exact hr.books (hb hq)
    · exact newPool_books _ _ _
  | outside _ hout => exact hb ((hout.fronts pool_marked k).symm.trans hp)
  | settle =>
    refine hb (frontAt_settle (fun hnil => ?_) hp).2
    have hlen := pool_length p
    rw [hnil,length_nil] at hlen
    omega

theorem AllBooks.run {s : Ledger} (h0 : Untouched h.programId s.bank)
    (hrun : Run ((program h).TxStep keyless) s tr t) : AllBooks h t.bank := by
  refine hrun.invariant (I := fun t => AllBooks h t.bank) ?_ fun hb hstep => hb.step hstep
  intro k p hp
  have hnone : poolAt h s.bank k=none := h0.fronts pool_marked k
  rw [hnone] at hp
  cases hp

end Steps

/-- The books of every pool in every reachable state. -/
theorem pool_books_kept {h : Host} {keyless : Pubkey → Prop} {s t : Ledger}
    {tr : TxTrace Instruction} (h0 : Untouched h.programId s.bank)
    (hrun : Run ((program h).TxStep keyless) s tr t) {k : Pubkey} {p : FlashLoanPool}
    (hp : poolAt h t.bank k=some p) :
    (p.providers.val.map fun ps =>
    ps.deposited.toNat+ps.feesEarned.toNat).sum≤p.totalLiquidity.toNat ∧
      (p.providers.val.map ProviderShare.owner).Nodup ∧
      p.providerCount.toNat=p.providers.val.length ∧ p.providers.val.length≤ maxProviders ∧
      (∀ fee : U64,(∀ ps∈p.providers.val,(feeShare fee p.totalLiquidity ps).toNat=
          fee.toNat*ps.deposited.toNat/p.totalLiquidity.toNat) ∧
        (p.providers.val.map fun ps => (feeShare fee p.totalLiquidity ps).toNat).sum≤fee.toNat) ∧
      ∀ ps∈p.providers.val,∀ amount : U64,amount.toNat≤ps.deposited.toNat+ps.feesEarned.toNat →
        umin amount p.totalLiquidity=amount := by
  have hb : Books p := AllBooks.run h0 hrun hp
  refine ⟨hb.covered,hb.owners,hb.count,hb.bound,fun fee => ⟨fun ps hps => ?_,hb.shares_le fee⟩,
    fun ps hps amount hle => ?_⟩
  · exact feeShare_value (hb.deposited_le hps)
  · have hclaim : ps.claim≤claims p := claim_le hps
    have hcovered := hb.covered
    exact if_pos (hle.trans (hclaim.trans hcovered))

def samplePool : Pubkey := 0x6ed84d9f8606dbe2fee322b14a511ea784a36e53a676bba01149e52b652e0f5a#256
def sampleVault : Pubkey := 0x43f5638b3948d6a0bfcf3295d0a647ef89f0a040cbb72283b047d6d926f16bbf#256
def sampleReceipt : Pubkey := 0x1cfa2fad801674450c6271a07993e964ea9f0647b7c4d73cbed283f8db8557d0#256
def otherReceipt : Pubkey := 0xfb61f66ec0df4e0db12ba04c1b95d3212d58c41c50f9a907f4c258ca9690b5eb#256

def sampleHost : Host where
  programId := 1#256
  findProgramAddress seeds _ :=
    if seeds=[poolSeed,Pubkey.bytes 0#256] then (samplePool,255#8)
    else if seeds=[vaultSeed,samplePool.bytes] then (sampleVault,254#8)
    else if seeds=[receiptSeed,samplePool.bytes,Pubkey.bytes 3#256] then (sampleReceipt,253#8)
    else (otherReceipt,252#8)
  minimumBalance n := BitVec.ofNat 64 ((n+128)*6960)
  clockSysvar := 5#256

def genesis : Ledger where
  bank k := if k=2#256 ∨ k=3#256 ∨ k=4#256 then ⟨1000000000#64,[],systemProgram⟩
    else ⟨0#64,[],systemProgram⟩
  clock := ⟨1#64,1000#64⟩

def initCall : Call Instruction where
  clock := ⟨2#64,1000#64⟩
  accounts := [⟨2#256,true,true⟩,⟨samplePool,false,true⟩,⟨sampleVault,false,true⟩,
    systemInfo,systemInfo]
  instruction := .initializePool 0#256

def depositCall (amount : U64) : Call Instruction where
  clock := ⟨2#64,1000#64⟩
  accounts := [⟨2#256,true,true⟩,⟨samplePool,false,true⟩,⟨sampleVault,false,true⟩,
    systemInfo]
  instruction := .deposit amount

def borrowCall (borrower receipt : Pubkey) (amount : U64) : Call Instruction where
  clock := ⟨2#64,1000#64⟩
  accounts := [⟨borrower,true,true⟩,⟨samplePool,false,true⟩,⟨sampleVault,false,true⟩,
    ⟨receipt,false,true⟩,⟨borrower,true,true⟩,systemInfo]
  instruction := .borrow amount

def repayCall (borrower receipt : Pubkey) : Call Instruction where
  clock := ⟨2#64,1000#64⟩
  accounts := [⟨borrower,true,true⟩,⟨samplePool,false,true⟩,⟨sampleVault,false,true⟩,
    ⟨receipt,false,true⟩,systemInfo]
  instruction := .repay

theorem sample_keyed (hk : sampleHost.Derived k) :
    k=samplePool ∨ k=sampleVault ∨ k=sampleReceipt ∨ k=otherReceipt := by
  obtain ⟨_,rfl⟩ := hk
  simp only [sampleHost]
  split_ifs <;> simp

abbrev sampleUsers : List Pubkey := [2#256,3#256,4#256]

theorem sampleUsers_keyed : ∀ k∈sampleUsers,¬sampleHost.Derived k := by
  intro k hk hd
  have h := sample_keyed hd
  simp only [sampleUsers,List.mem_cons,List.not_mem_nil,or_false] at hk
  obtain rfl | rfl | rfl := hk <;>
  · revert h
    decide

theorem genesis_untouched : Untouched sampleHost.programId genesis.bank := by
  refine untouched_of_foreign fun k => ?_
  unfold genesis
  dsimp only
  split_ifs <;> decide

def secondDeposit : Call Instruction :=
  {depositCall 500000#64 with accounts := [⟨4#256,true,true⟩,⟨samplePool,false,true⟩,
    ⟨sampleVault,false,true⟩,systemInfo]}

/-- Two providers share the fee of a loan. -/
theorem books_after_loan :
    ∃ tr t p,Run ((program sampleHost).TxStep sampleHost.Derived) genesis tr t ∧
      poolAt sampleHost t.bank samplePool=some p ∧ p.totalLiquidity=1500450#64 ∧
      p.providers.val.map ProviderShare.feesEarned=[300#64,150#64] ∧
      (p.providers.val.map fun ps => ps.deposited.toNat+ps.feesEarned.toNat).sum≤1500450 ∧
      (p.providers.val.map ProviderShare.owner).Nodup ∧ p.providerCount.toNat=2 := by
  obtain ⟨⟨tr,t⟩,hscript,p,hp,htotal,hfees⟩ : ∃ x,(program sampleHost).script [.call initCall,
        .call (depositCall 1000000#64),.call secondDeposit,.settle,
        .call (borrowCall 3#256 sampleReceipt 500000#64),.pay 3#256 sampleVault 500450#64,
        .call (repayCall 3#256 sampleReceipt),.settle] genesis=some x ∧
      ∃ p,poolAt sampleHost x.2.bank samplePool=some p ∧ p.totalLiquidity=1500450#64 ∧
      p.providers.val.map ProviderShare.feesEarned=[300#64,150#64] := by decide +kernel
  have hrun := script_by (by decide) sampleUsers_keyed (by decide) hscript
  obtain ⟨hcovered,howners,hcount,-⟩ := pool_books_kept genesis_untouched hrun hp
  have htwo := congrArg List.length hfees
  rw [List.length_map] at htwo
  rw [htotal] at hcovered
  exact ⟨tr,t,p,hrun,hp,htotal,hfees,hcovered,howners,hcount.trans htwo⟩

end PrismChain.FlashLoan
