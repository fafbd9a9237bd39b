import PrismChain.Programs.FlashLoan.Loans

namespace PrismChain.FlashLoan

open Option List Program Bank

/-- The receipts of the loans of pool `k` that are still to be repaid, after one more event. -/
def loansAfter (k : Pubkey) (loans : List Pubkey) : Event Instruction → List Pubkey
  | .call c =>
    if c.key? 1=some k then
      match c.instruction with
      | .borrow _ => (c.key? 3).toList++loans
      | .repay => loans.filter fun r => c.key? 3≠some r
      | _ => loans
    else loans
  | _ => loans

def outstanding (k : Pubkey) (es : List (Event Instruction)) : List Pubkey :=
  es.foldl (loansAfter k) []

/-- While a loan of pool `k` is out nobody deposits into the pool or borrows from it, and a loan
is repaid once. -/
def alone (k : Pubkey) (loans : List Pubkey) : Event Instruction → Bool
  | .call c =>
    if c.key? 1=some k then
      match c.instruction with
      | .deposit _ => loans.isEmpty
      | .borrow _ => loans.isEmpty
      | .repay => (c.key? 3).all fun r => decide (r∈loans)
      | _ => true
    else true
  | _ => true

def oneLoanAtATime (k : Pubkey) : List Pubkey → List (Event Instruction) → Bool
  | _,[] => true
  | loans,e::es => alone k loans e && oneLoanAtATime k (loansAfter k loans e) es

/-- An instruction on pool `k` is passed the vault of the pool. One on another pool is passed
another vault, which holds no data, and no loan has its receipt at the vault. -/
structure OwnVault (h : Host) (k : Pubkey) (b : Bank) (c : Call Instruction) : Prop where
  own : c.key? 1=some k → c.key? 2=some (vaultPda h k)
  other : c.key? 1≠some k → ∀ v,c.key? 2=some v → v≠vaultPda h k ∧ (b v).data=[]
  receipt : (∃ amount,c.instruction=.borrow amount) → c.key? 3≠some (vaultPda h k)

section Labels

variable {e : Event Instruction} {c : Call Instruction}

theorem outstanding_append_one : outstanding k (es++[e])=loansAfter k (outstanding k es) e := by
  simp [outstanding]

theorem oneLoanAtATime_append_one : oneLoanAtATime k loans (es++[e])=true ↔
    oneLoanAtATime k loans es=true ∧ alone k (es.foldl (loansAfter k) loans) e=true := by
  induction es generalizing loans with
  | nil => simp [oneLoanAtATime]
  | cons _ es ih => simp [oneLoanAtATime,ih,and_assoc]

theorem loansAfter_other (hk : c.key? 1≠some k) : loansAfter k loans (.call c)=loans := if_neg hk

theorem loansAfter_borrow (hk : c.key? 1=some k) (hc : c.instruction=.borrow amount)
    (hr : c.key? 3=some r) : loansAfter k loans (.call c)=r::loans := by
  simp [loansAfter,hk,hc,hr]

theorem loansAfter_repay (hk : c.key? 1=some k) (hc : c.instruction=.repay)
    (hr : c.key? 3=some r) : loansAfter k loans (.call c)=loans.filter fun j => r≠j := by
  simp [loansAfter,hk,hc,hr]

theorem alone_deposit (hk : c.key? 1=some k) (hc : c.instruction=.deposit amount)
    (h : alone k loans (.call c)=true) : loans=[] := by
  simpa [alone,hk,hc] using h

theorem alone_borrow (hk : c.key? 1=some k) (hc : c.instruction=.borrow amount)
    (h : alone k loans (.call c)=true) : loans=[] := by
  simpa [alone,hk,hc] using h

theorem alone_repay (hk : c.key? 1=some k) (hc : c.instruction=.repay) (hr : c.key? 3=some r)
    (h : alone k loans (.call c)=true) : r∈loans := by
  simpa [alone,hk,hc,hr] using h

end Labels

section Calls

variable {h : Host} {c : Call Instruction} {v : Pubkey} {x : FlashLoanReceipt}

theorem Signs.ne (hs : h.KeysSign c) (hj : h.Derived j) (hk : Signs c i k) : j≠k := by
  rintro rfl
  obtain ⟨a,ha,rfl,hsigns⟩ := hk
  exact hs a (mem_of_getElem? ha) hsigns hj

theorem call_kept (hx : (program h).execute c b=.ok b')
    (hs : h.KeysSign c) (hj : h.Derived j) (hv : c.key? 2≠some j)
    (hr : ∀ x,c.instruction=.repay → c.key? 3=some j → receiptAt h b j=some x →
    c.key? 1≠some x.pool) :
    (b j).lamports.toNat≤(b' j).lamports.toNat := by
  cases execute_spec hx with
  | initialized i => exact i.kept j (i.payer.ne hs hj)
  | deposited d =>
    obtain ⟨b1,rest,-,hmoved,-,rfl⟩ := d.written
    have hm := hmoved j
    rw [if_neg (d.payer.ne hs hj)] at hm
    rw [setData_lamports]
    omega
  | @withdrawn _ _ v _ _ _ _ _ w =>
    obtain ⟨b1,rest,-,hmoved,-,rfl⟩ := w.written
    have hm := hmoved j
    have hne : j≠v := fun he => hv (he ▸ w.vaultKey)
    rw [if_neg hne] at hm
    rw [setData_lamports]
    omega
  | borrowed o => exact o.kept j (o.payer.ne hs hj) fun he => hv (he ▸ o.vaultKey)
  | repaid o =>
    refine o.kept j fun he => ?_
    subst he
    refine hr _ o.instruction o.receiptKey (receiptAt_eq_some.mpr ⟨o.owned,o.receipt,o.active⟩) ?_
    rw [o.lender]
    exact o.poolKey

theorem poolAt_of_empty (hdata : (b k).data=[]) : poolAt h b k=none := by
  cases hp : poolAt h b k with
  | none => rfl
  | some => exact absurd hdata (poolAt_eq_some.mp hp).2.1.ne_nil

theorem poolAt_of_receipt (hdata : (b k).data=receiptCodec.encode x) : poolAt h b k=none := by
  cases hp : poolAt h b k with
  | none => rfl
  | some => exact absurd hdata (poolAt_eq_some.mp hp).2.1.ne_receipt

theorem receiptAt_of_pool (hp : poolAt h b k=some p) : receiptAt h b k=none := by
  cases hx : receiptAt h b k with
  | none => rfl
  | some => exact absurd (receiptAt_eq_some.mp hx).2.1 (poolAt_eq_some.mp hp).2.1.ne_receipt

theorem pool_other (hx : (program h).execute c b=.ok b') (hk : c.key? 1≠some k) :
    poolAt h b' k=poolAt h b k := by
  have hne {k0 : Pubkey} (hk0 : c.key? 1=some k0) : k≠k0 := fun he => hk (he ▸ hk0)
  cases execute_spec hx with
  | @initialized _ k0 _ i =>
    by_cases hv : k=vaultPda h k0
    · subst hv
      rw [poolAt_of_empty i.vault'.1,poolAt_of_empty i.freshVault]
    · obtain ⟨hdata,howner⟩ := i.frame k (hne i.poolKey) hv
      exact frontAt_congr howner hdata
  | deposited d =>
    obtain ⟨howner,hdata⟩ := d.frame k
    exact frontAt_congr howner (hdata (hne d.poolKey))
  | withdrawn w =>
    obtain ⟨howner,hdata⟩ := w.frame k
    exact frontAt_congr howner (hdata (hne w.poolKey))
  | @borrowed _ _ _ r _ _ _ _ _ o =>
    by_cases hr : k=r
    · subst hr
      rw [poolAt_of_receipt o.receipt',poolAt_of_empty o.fresh.1]
    · obtain ⟨howner,hdata⟩ := o.frame k hr
      exact frontAt_congr howner (hdata (hne o.poolKey))
  | repaid o =>
    obtain ⟨howner,hdata⟩ := o.frame k
    exact frontAt_congr howner (hdata (hne o.poolKey))

theorem receipt_stays (hx : (program h).execute c b=.ok b') (hr : receiptAt h b j=some x) :
    receiptAt h b' j=some x := by
  obtain ⟨-,hdata,-⟩ := receiptAt_eq_some.mp hr
  have hfull : (b j).data≠[] := by
    intro hnil
    have hlen := receipt_size x
    rw [← hdata,hnil] at hlen
    cases hlen
  have hpool {k p} (hp : Holds b k p) : j≠k := by
    rintro rfl
    exact hp.ne_receipt hdata
  suffices hsame : (b' j).owner=(b j).owner ∧ (b' j).data=(b j).data from
    (recordAt_congr hsame.1 hsame.2).trans hr
  cases execute_spec hx with
  | initialized i =>
    exact (i.frame j (fun he => hfull (he ▸ i.fresh)) fun he => hfull (he ▸ i.freshVault)).symm
  | deposited d => exact ⟨(d.frame j).1,(d.frame j).2 (hpool d.pool)⟩
  | withdrawn w => exact ⟨(w.frame j).1,(w.frame j).2 (hpool w.pool)⟩
  | borrowed o =>
    obtain ⟨howner,hother⟩ := o.frame j fun he => hfull (he ▸ o.fresh.1)
    exact ⟨howner,hother (hpool o.pool)⟩
  | repaid o => exact ⟨(o.frame j).1,(o.frame j).2 (hpool o.pool)⟩

end Calls

/-- Accounts that hold data are not free. -/
structure RentDue (h : Host) : Prop where
  pool : 0<(h.minimumBalance poolSpace).toNat
  receipt : 0<(h.minimumBalance receiptLen).toNat

/-- The state of pool `k` while the receipts in `loans` are outstanding. A loan is backed by what
the vault held when it was taken. -/
structure Backed (h : Host) (k : Pubkey) (b : Bank) (loans : List Pubkey) (p : FlashLoanPool) :
    Prop where
  apart : k≠vaultPda h k
  alive : (b k).lamports≠0#64
  vault : receiptAt h b (vaultPda h k)=none
  idle : loans=[] → (h.minimumBalance 0).toNat+claims p≤(b (vaultPda h k)).lamports.toNat
  lent : ∀ r∈loans,r≠vaultPda h k ∧ h.Derived r ∧ (b r).lamports≠0#64 ∧
    ∃ x,receiptAt h b r=some x ∧ x.pool=k ∧
      (h.minimumBalance 0).toNat+claims p≤x.vaultBalanceBefore.toNat
  single : loans.length≤1

inductive Covered (h : Host) (k : Pubkey) (b : Bank) (loans : List Pubkey) : Prop
  | closed (hnone : poolAt h b k=none) (hloans : loans=[])
  | opened {p : FlashLoanPool} (hp : poolAt h b k=some p) (hb : Backed h k b loans p)

section Steps

variable {h : Host} {k : Pubkey}

theorem ne_zero_of_le {n : U64} (hm : m≠0#64) (hle : m.toNat≤n.toNat) : n≠0#64 := by
  rintro rfl
  exact hm (BitVec.eq_of_toNat_eq (Nat.le_zero.mp hle))

theorem vault_derived (h : Host) (k : Pubkey) : h.Derived (vaultPda h k) := ⟨_,rfl⟩

theorem Covered.outside (hc : Covered h k b loans) (hout : Outside h.programId b b')
    (hkept : ∀ j,h.Derived j → (b j).lamports.toNat≤(b' j).lamports.toNat) :
    Covered h k b' loans := by
  have hpool : poolAt h b' k=poolAt h b k := hout.fronts pool_marked k
  have hreceipt (j : Pubkey) : receiptAt h b' j=receiptAt h b j := hout.records receipt_marked j
  cases hc with
  | closed hnone hloans => exact .closed (hpool.trans hnone) hloans
  | opened hp hb =>
    refine .opened (hpool.trans hp) ⟨hb.apart,?_,(hreceipt _).trans hb.vault,fun hno => ?_,
      fun r hr => ?_,hb.single⟩
    · exact ne_zero_of_le hb.alive (hout.owned (poolAt_eq_some.mp hp).1).2.2
    · exact (hb.idle hno).trans (hkept _ (vault_derived h k))
    · obtain ⟨hne,hderived,hopen,x,hx,hlender,hle⟩ := hb.lent r hr
      exact ⟨hne,hderived,ne_zero_of_le hopen (hkept r hderived),x,(hreceipt r).trans hx,hlender,
        hle⟩

theorem Covered.settle (hc : Covered h k b loans) : Covered h k b.settle loans := by
  cases hc with
  | closed hnone hloans =>
    refine .closed ?_ hloans
    cases hp : poolAt h b.settle k with
    | none => rfl
    | some p =>
      have hne : poolCodec.encode p≠[] := by
        intro hnil
        have hlen := pool_length p
        rw [hnil,length_nil] at hlen
        omega
      have hp' : poolAt h b k=some p := (frontAt_settle hne hp).2
      rw [hnone] at hp'
      cases hp'
  | opened hp hb =>
    have hsame {j : Pubkey} (hj : (b j).lamports≠0#64) : b.settle j=b j := settle_of_ne hj
    have hpool : poolAt h b.settle k=poolAt h b k :=
      frontAt_congr (by rw [hsame hb.alive]) (by rw [hsame hb.alive])
    refine .opened (hpool.trans hp) ⟨hb.apart,?_,?_,fun hno => ?_,fun r hr => ?_,hb.single⟩
    · rw [settle_lamports]
      exact hb.alive
    · cases hx : receiptAt h b.settle (vaultPda h k) with
      | none => rfl
      | some x =>
        have hx' : receiptAt h b (vaultPda h k)=some x :=
          (recordAt_settle receipt_size (by decide) hx).2
        rw [hb.vault] at hx'
        cases hx'
    · rw [settle_lamports]
      exact hb.idle hno
    · obtain ⟨hne,hderived,hopen,x,hx,hlender,hle⟩ := hb.lent r hr
      have hx' : receiptAt h b.settle r=receiptAt h b r :=
        recordAt_congr (by rw [hsame hopen]) (by rw [hsame hopen])
      refine ⟨hne,hderived,?_,x,hx'.trans hx,hlender,hle⟩
      rw [settle_lamports]
      exact hopen

theorem Backed.alive_call (hb : Backed h k b loans p) (hp : poolAt h b k=some p) (hk : h.Derived k)
    (hx : (program h).execute c b=.ok b') (hs : h.KeysSign c)
    (hown : OwnVault h k b c) : (b' k).lamports≠0#64 := by
  refine ne_zero_of_le hb.alive (call_kept hx hs hk (fun hkey => ?_) fun x _ _ hreceipt => ?_)
  · by_cases hpool : c.key? 1=some k
    · rw [hown.own hpool] at hkey
      exact hb.apart (some.inj hkey).symm
    · exact (poolAt_eq_some.mp hp).2.1.ne_nil (hown.other hpool k hkey).2
  · rw [receiptAt_of_pool hp] at hreceipt
    cases hreceipt

theorem Backed.vault_call (hb : Backed h k b loans p) (hx : (program h).execute c b=.ok b')
    (hown : OwnVault h k b c) : receiptAt h b' (vaultPda h k)=none := by
  cases hx' : receiptAt h b' (vaultPda h k) with
  | none => rfl
  | some =>
    obtain hold | ⟨hborrow,hkey,-⟩ := receipt_call hx hx'
    · rw [hb.vault] at hold
      cases hold
    · exact absurd hkey (hown.receipt hborrow)

theorem Backed.lent_call (hb : Backed h k b loans p) (hle : claims p'≤claims p)
    (hx : (program h).execute c b=.ok b') (hs : h.KeysSign c)
    (hown : OwnVault h k b c) (hrepay : c.instruction=.repay → c.key? 1≠some k) :
    ∀ r∈loans,r≠vaultPda h k ∧ h.Derived r ∧ (b' r).lamports≠0#64 ∧ ∃ x,
      receiptAt h b' r=some x ∧ x.pool=k ∧
        (h.minimumBalance 0).toNat+claims p'≤x.vaultBalanceBefore.toNat := by
  intro r hr
  obtain ⟨hne,hderived,hopen,x,hreceipt,hlender,_⟩ := hb.lent r hr
  refine ⟨hne,hderived,ne_zero_of_le hopen (call_kept hx hs hderived (fun hkey => ?_) ?_),x,
    receipt_stays hx hreceipt,hlender,by omega⟩
  · by_cases hpool : c.key? 1=some k
    · rw [hown.own hpool] at hkey
      exact hne (some.inj hkey).symm
    · have hnone : receiptAt h b r=none :=
        recordAt_of_empty receipt_size (by decide) (hown.other hpool r hkey).2
      rw [hreceipt] at hnone
      cases hnone
  · intro y hc _ hy
    cases hreceipt.symm.trans hy
    rw [hlender]
    exact hrepay hc

theorem Covered.other (hc : Covered h k b loans) (hk : h.Derived k)
    (hx : (program h).execute c b=.ok b')
    (hs : h.KeysSign c) (hown : OwnVault h k b c)
    (hpool : c.key? 1≠some k) : Covered h k b' loans := by
  have hsame : poolAt h b' k=poolAt h b k := pool_other hx hpool
  cases hc with
  | closed hnone hloans => exact .closed (hsame.trans hnone) hloans
  | opened hp hb =>
    refine .opened (hsame.trans hp) ⟨hb.apart,hb.alive_call hp hk hx hs hown,hb.vault_call hx hown,
      fun hno => ?_,hb.lent_call le_rfl hx hs hown fun _ => hpool,hb.single⟩
    refine (hb.idle hno).trans (call_kept hx hs (vault_derived h k) ?_ fun x _ _ hreceipt => ?_)
    · exact fun hkey => (hown.other hpool _ hkey).1 rfl
    · rw [hb.vault] at hreceipt
      cases hreceipt

theorem Covered.opening (hrent : RentDue h) (hnone : poolAt h b k=none)
    (hx : (program h).execute c b=.ok b') (hpool : c.key? 1=some k)
    (halone : alone k [] (.call c)=true) : Covered h k b' (loansAfter k [] (.call c)) := by
  have hlive {p : FlashLoanPool} (howned : (b k).owner=h.programId) (hp : Holds b k p)
      (hinit : p.isInitialized=true) : False := by
    rw [poolAt_eq_some.mpr ⟨howned,hp,hinit⟩] at hnone
    cases hnone
  cases execute_spec hx with
  | @initialized _ _ _ i =>
    cases hpool.symm.trans i.poolKey
    have hloans : loansAfter k [] (.call c)=[] := by simp [loansAfter,i.instruction]
    rw [hloans]
    have hapart : k≠vaultPda h k := fun he => i.pool'.ne_nil (by rw [he]; exact i.vault'.1)
    refine .opened (poolAt_eq_some.mpr ⟨i.owned',i.pool',rfl⟩) ⟨hapart,fun hzero => ?_,?_,
      fun _ => i.vault'.2,fun r hr => (by cases hr),Nat.zero_le _⟩
    · have hpos := hrent.pool
      have hle := i.rent
      rw [hzero] at hle
      exact absurd hle (Nat.not_le.mpr hpos)
    · exact recordAt_of_empty receipt_size (by decide) i.vault'.1
  | deposited d =>
    cases hpool.symm.trans d.poolKey
    exact (hlive d.owned d.pool d.live).elim
  | withdrawn w =>
    cases hpool.symm.trans w.poolKey
    exact (hlive w.owned w.pool w.live).elim
  | borrowed o =>
    cases hpool.symm.trans o.poolKey
    exact (hlive o.owned o.pool o.live).elim
  | repaid o => cases alone_repay hpool o.instruction o.receiptKey halone

theorem poolAt_written (hp : poolAt h b k=some p) (howner : (b' k).owner=(b k).owner)
    (hp' : Holds b' k p') (hr : Revised p p') : poolAt h b' k=some p' := by
  obtain ⟨howned,-,hlive⟩ := poolAt_eq_some.mp hp
  exact poolAt_eq_some.mpr ⟨howner.trans howned,hp',hr.live.trans hlive⟩

theorem Backed.deposited {depositor : Pubkey} {amount : U64} (hb : Backed h k b [] p)
    (d : Deposited h c b b' depositor k (vaultPda h k) p p' amount) (hp : poolAt h b k=some p)
    (hs : h.KeysSign c) (halive : (b' k).lamports≠0#64)
    (hvault : receiptAt h b' (vaultPda h k)=none) : Covered h k b' [] := by
  obtain ⟨_,_,-,hmoved,-,rfl⟩ := d.written
  refine .opened (poolAt_written hp (d.frame k).1 d.pool' (.deposited d.result))
    ⟨hb.apart,halive,hvault,fun _ => ?_,fun r hr => (by cases hr),Nat.zero_le _⟩
  have hclaims := (deposited_claims d.result).1
  have hidle := hb.idle rfl
  have hm := hmoved (vaultPda h k)
  rw [if_neg (d.payer.ne hs (vault_derived h k)),if_pos rfl] at hm
  rw [setData_lamports]
  omega

theorem Backed.withdrawn {provider receiver : Pubkey} {amount : U64} {p1 : FlashLoanPool}
    (hb : Backed h k b loans p)
    (w : Withdrawn h c b b' provider k (vaultPda h k) receiver p p1 p' amount)
    (hp : poolAt h b k=some p) (hx : (program h).execute c b=.ok b')
    (hs : h.KeysSign c) (hown : OwnVault h k b c)
    (halive : (b' k).lamports≠0#64) (hvault : receiptAt h b' (vaultPda h k)=none) :
    Covered h k b' loans := by
  have hshare := (withdrawShare_claims w.share).1
  have hclaims := (reduceLiquidity_eq_ok w.result).2.1
  have hle : claims p'≤claims p := by omega
  have hlent := hb.lent_call hle hx hs hown fun hc => by
    rw [w.instruction] at hc
    cases hc
  obtain ⟨_,_,-,hmoved,-,rfl⟩ := w.written
  refine .opened (poolAt_written hp (w.frame k).1 w.pool' (.withdrawn w.share w.result))
    ⟨hb.apart,halive,hvault,fun hno => ?_,hlent,hb.single⟩
  have hidle := hb.idle hno
  have hm := hmoved (vaultPda h k)
  rw [if_pos rfl] at hm
  rw [setData_lamports]
  omega

theorem Backed.borrowed {borrower r receiver : Pubkey} {amount fee : U64}
    (hrent : RentDue h) (hb : Backed h k b [] p)
    (o : Borrowed h c b b' borrower k (vaultPda h k) r receiver p p' amount fee)
    (hp : poolAt h b k=some p) (halive : (b' k).lamports≠0#64)
    (hvault : receiptAt h b' (vaultPda h k)=none) : Covered h k b' [r] := by
  have hclaims : claims p'=claims p := by
    simp only [claims,(lent_eq_ok o.result).2.1]
  have hkr : k≠r := fun he => o.pool.ne_nil (by rw [he]; exact o.fresh.1)
  refine .opened (poolAt_written hp (o.frame k hkr).1 o.pool' (.lent o.result))
    ⟨hb.apart,halive,hvault,fun hno => (by cases hno),fun j hj => ?_,le_rfl⟩
  obtain rfl := mem_singleton.mp hj
  refine ⟨fun he => ?_,⟨_,o.derived.symm⟩,fun hzero => ?_,_,
    receiptAt_eq_some.mpr ⟨o.owned',o.receipt',rfl⟩,rfl,?_⟩
  · have hpos := o.vault
    rw [← he,o.fresh.2] at hpos
    exact absurd hpos (lt_irrefl _)
  · have hle := o.rent
    rw [hzero] at hle
    exact absurd hle (Nat.not_le.mpr hrent.receipt)
  · rw [hclaims]
    exact hb.idle rfl

theorem Backed.repaid {borrower r : Pubkey} {x : FlashLoanReceipt} (hb : Backed h k b [r] p)
    (o : Repaid h c b b' borrower k (vaultPda h k) r x p p') (hp : poolAt h b k=some p)
    (hbooks : Books p)
    (halive : (b' k).lamports≠0#64) (hvault : receiptAt h b' (vaultPda h k)=none) :
    Covered h k b' [] := by
  obtain ⟨hne,-,-,y,hy,-,_⟩ := hb.lent r mem_cons_self
  obtain rfl : x=y :=
    receiptCodec.encode_inj (o.receipt.symm.trans (receiptAt_eq_some.mp hy).2.1)
  refine .opened (poolAt_written hp (o.frame k).1 o.pool' (.repaid o.result))
    ⟨hb.apart,halive,hvault,fun _ => ?_,fun r hr => (by cases hr),Nat.zero_le _⟩
  have hclaims := (repaid_claims hbooks o.result).1
  have hrequired := o.required
  have hkept := o.kept (vaultPda h k) (Ne.symm hne)
  omega

theorem Backed.own (hrent : RentDue h) (hb : Backed h k b loans p) (hp : poolAt h b k=some p)
    (hbooks : Books p) (hk : h.Derived k) (hx : (program h).execute c b=.ok b')
    (hs : h.KeysSign c) (hown : OwnVault h k b c)
    (hpool : c.key? 1=some k) (halone : alone k loans (.call c)=true) :
    Covered h k b' (loansAfter k loans (.call c)) := by
  have halive := hb.alive_call hp hk hx hs hown
  have hvault := hb.vault_call hx hown
  have hv {v : Pubkey} (hkey : c.key? 2=some v) : v=vaultPda h k :=
    some.inj (hkey.symm.trans (hown.own hpool))
  have hholds := (poolAt_eq_some.mp hp).2.1
  cases execute_spec hx with
  | initialized i =>
    cases hpool.symm.trans i.poolKey
    exact absurd i.fresh hholds.ne_nil
  | deposited d =>
    cases hpool.symm.trans d.poolKey
    obtain rfl := hv d.vaultKey
    obtain rfl := hholds.unique d.pool
    obtain rfl := alone_deposit hpool d.instruction halone
    have hloans : loansAfter k [] (.call c)=[] := by simp [loansAfter,d.instruction]
    rw [hloans]
    exact hb.deposited d hp hs halive hvault
  | withdrawn w =>
    cases hpool.symm.trans w.poolKey
    obtain rfl := hv w.vaultKey
    obtain rfl := hholds.unique w.pool
    have hloans : loansAfter k loans (.call c)=loans := by simp [loansAfter,w.instruction]
    rw [hloans]
    exact hb.withdrawn w hp hx hs hown halive hvault
  | borrowed o =>
    cases hpool.symm.trans o.poolKey
    obtain rfl := hv o.vaultKey
    obtain rfl := hholds.unique o.pool
    obtain rfl := alone_borrow hpool o.instruction halone
    rw [loansAfter_borrow hpool o.instruction o.receiptKey]
    exact hb.borrowed hrent o hp halive hvault
  | @repaid _ _ _ r _ _ _ o =>
    cases hpool.symm.trans o.poolKey
    obtain rfl := hv o.vaultKey
    obtain rfl := hholds.unique o.pool
    have hr := alone_repay hpool o.instruction o.receiptKey halone
    -- the loan that is repaid is the only one
    obtain rfl : loans=[r] := by
      match loans,hr,hb.single with
      | [_],hr,_ => rw [mem_singleton.mp hr]
    have hloans : loansAfter k [r] (.call c)=[] := by
      rw [loansAfter_repay hpool o.instruction o.receiptKey]
      simp
    rw [hloans]
    exact hb.repaid o hp hbooks halive hvault

theorem Covered.call (hrent : RentDue h) (hc : Covered h k b loans)
    (hbooks : AllBooks h b) (hk : h.Derived k) (hx : (program h).execute c b=.ok b')
    (hs : h.KeysSign c) (hown : OwnVault h k b c)
    (halone : alone k loans (.call c)=true) : Covered h k b' (loansAfter k loans (.call c)) := by
  by_cases hpool : c.key? 1=some k
  · cases hc with
    | closed hnone hloans =>
      subst hloans
      exact Covered.opening hrent hnone hx hpool halone
    | opened hp hb => exact hb.own hrent hp (hbooks hp) hk hx hs hown hpool halone
  · rw [loansAfter_other hpool]
    exact hc.other hk hx hs hown hpool

end Steps

theorem Covered.run {s : Ledger} (hrent : RentDue h) (hk : h.Derived k)
    (h0 : Untouched h.programId s.bank) (hrun : Run ((program h).TxStep h.Derived) s tr t)
    (hown : ∀ x∈tr,∀ c,x.label=.call c → OwnVault h k x.pre.bank c)
    (hone : oneLoanAtATime k [] (tr.map Transition.label)=true) :
    Covered h k t.bank (outstanding k (tr.map Transition.label)) := by
  refine hrun.traced (I := fun tr t => (∀ x∈tr,∀ c,x.label=.call c → OwnVault h k x.pre.bank c) →
    oneLoanAtATime k [] (tr.map Transition.label)=true →
    Covered h k t.bank (outstanding k (tr.map Transition.label))) ?_ ?_ hown hone
  · intro _ _
    exact .closed (h0.fronts pool_marked k) rfl
  intro tr t e u hrun ih hstep hown hone
  rw [map_append,map_cons,map_nil] at hone ⊢
  obtain ⟨hbefore,halone⟩ := oneLoanAtATime_append_one.mp hone
  have hc := ih (fun x hx => hown x (mem_append_left _ hx)) hbefore
  rw [outstanding_append_one]
  cases hstep with
  | @call c b _ hs hx =>
    have hvault := hown ⟨t,.call c,⟨b,c.clock⟩⟩ (by simp) c rfl
    exact hc.call hrent (AllBooks.run h0 hrun) hk hx hs hvault halone
  | outside _ hout hkept => exact hc.outside hout hkept
  | settle => exact hc.settle

/-- When every loan of a pool was alone and is repaid, its vault covers the rent and what the
pool owes. -/
theorem single_loans_keep_solvent {h : Host} {tokenMint : Pubkey} {s t : Ledger}
    {tr : TxTrace Instruction} {p : FlashLoanPool} (hrent : RentDue h)
    (h0 : Untouched h.programId s.bank) (hrun : Run ((program h).TxStep h.Derived) s tr t)
    (hown : ∀ x∈tr,∀ c,x.label=.call c → OwnVault h (poolPda h tokenMint) x.pre.bank c)
    (hone : oneLoanAtATime (poolPda h tokenMint) [] (tr.map Transition.label)=true)
    (hrepaid : ∀ r x,receiptAt h t.bank r=some x → x.pool=poolPda h tokenMint →
    (t.bank r).lamports=0#64)
    (hp : poolAt h t.bank (poolPda h tokenMint)=some p) :
    (h.minimumBalance 0).toNat+(p.providers.val.map fun ps =>
    ps.deposited.toNat+ps.feesEarned.toNat).sum≤
      (t.bank (vaultPda h (poolPda h tokenMint))).lamports.toNat := by
  have hcovered : Covered h (poolPda h tokenMint) t.bank
      (outstanding (poolPda h tokenMint) (tr.map Transition.label)) :=
    Covered.run hrent ⟨_,rfl⟩ h0 hrun hown hone
  cases hcovered with
  | closed hnone =>
    rw [hp] at hnone
    cases hnone
  | opened hq hb =>
    cases hp.symm.trans hq
    refine hb.idle (eq_nil_iff_forall_not_mem.mpr fun r hr => ?_)
    obtain ⟨-,-,hopen,x,hx,hlender,-⟩ := hb.lent r hr
    exact hopen (hrepaid r x hx hlender)

theorem receipts_derived {h : Host} {s : Ledger} (h0 : Untouched h.programId s.bank)
    (hrun : Run ((program h).TxStep h.Derived) s tr t) (hx : receiptAt h t.bank r=some x) :
    h.Derived r := by
  refine hrun.invariant (I := fun t => ∀ x,receiptAt h t.bank r=some x → h.Derived r) ?_ ?_ x hx
  · intro x hx
    have hnone : receiptAt h s.bank r=none := h0.records receipt_marked r
    rw [hnone] at hx
    cases hx
  · intro t e u ih hstep x hx
    cases hstep with
    | call _ _ hexec =>
      obtain hold | ⟨-,-,hderived⟩ := receipt_call hexec hx
      · exact ih x hold
      · exact hderived
    | outside _ hout => exact ih x ((hout.records receipt_marked r).symm.trans hx)
    | settle => exact ih x (recordAt_settle receipt_size (by decide) hx).2

def onSample : Program.Move Instruction → Bool
  | .call c => c.key? 1==some samplePool && c.key? 2==some sampleVault && c.key? 3!=some sampleVault
  | _ => true

theorem sample_own (h : (program sampleHost).script ms genesis=some (tr,t))
    (hms : ms.all onSample=true) :
    ∀ x∈tr,∀ c,x.label=.call c → OwnVault sampleHost samplePool x.pre.bank c := by
  intro x hx c hc
  have hmem : x.label∈ms.map Move.event := by
    rw [← script_labels h]
    exact mem_map_of_mem hx
  obtain ⟨m,hm,hevent⟩ := mem_map.mp hmem
  rw [hc] at hevent
  have hon := all_eq_true.mp hms m hm
  cases m with
  | call =>
    cases hevent
    simp only [onSample,Bool.and_eq_true,beq_iff_eq,bne_iff_ne] at hon
    obtain ⟨⟨hpool,hvault⟩,hreceipt⟩ := hon
    exact ⟨fun _ => hvault,fun hno => absurd hpool hno,fun _ => hreceipt⟩
  | pay => cases hevent
  | settle => cases hevent

theorem sample_settled {ms : List (Move Instruction)} (hms : ms.all (Move.byUsers sampleUsers)=true)
    (h : (program sampleHost).script ms genesis=some (tr,t))
    (hnone : ([samplePool,sampleVault,sampleReceipt,otherReceipt].all fun r =>
      (receiptAt sampleHost t.bank r).isNone)=true) (r : Pubkey) : receiptAt sampleHost t.bank r=
        none := by
  cases hx : receiptAt sampleHost t.bank r with
  | none => rfl
  | some =>
    have hderived :=
      receipts_derived genesis_untouched (script_by (by decide) sampleUsers_keyed hms h) hx
    have hmem : r∈[samplePool,sampleVault,sampleReceipt,otherReceipt] := by
      simpa using sample_keyed hderived
    have hno := all_eq_true.mp hnone r hmem
    rw [hx] at hno
    cases hno

def singleLoan : List (Program.Move Instruction) :=
  [.call initCall,.call (depositCall 1000000#64),.settle,
    .call (borrowCall 3#256 sampleReceipt 500000#64),.pay 3#256 sampleVault 500450#64,
    .call (repayCall 3#256 sampleReceipt),.settle]

theorem solvent_after_loan :
    ∃ tr t p,Run ((program sampleHost).TxStep sampleHost.Derived) genesis tr t ∧
      poolAt sampleHost t.bank samplePool=some p ∧ claims p=1000450 ∧
      (sampleHost.minimumBalance 0).toNat+
          (p.providers.val.map fun ps => ps.deposited.toNat+ps.feesEarned.toNat).sum≤
        (t.bank sampleVault).lamports.toNat := by
  obtain ⟨⟨tr,t⟩,hscript,hnone,p,hp,hclaims⟩ :
    ∃ x,(program sampleHost).script singleLoan genesis=some x ∧
      ([samplePool,sampleVault,sampleReceipt,otherReceipt].all fun r =>
        (receiptAt sampleHost x.2.bank r).isNone)=true ∧
      ∃ p,poolAt sampleHost x.2.bank samplePool=some p ∧ claims p=1000450 := by decide +kernel
  have hrun := script_by (by decide) sampleUsers_keyed (by decide) hscript
  have hsettled := sample_settled (by decide) hscript hnone
  have hrent : RentDue sampleHost := ⟨by decide,by decide⟩
  refine ⟨tr,t,p,hrun,hp,hclaims,?_⟩
  refine @single_loans_keep_solvent sampleHost 0#256 _ _ _ _ hrent genesis_untouched hrun
    (sample_own hscript (by decide)) ?_ (fun r x hx => ?_) hp
  · rw [script_labels hscript]
    decide
  · rw [hsettled r] at hx
    cases hx

def nestedLoans : List (Program.Move Instruction) :=
  [.call initCall,.call (depositCall 1000000#64),.settle,
    .call (borrowCall 3#256 sampleReceipt 500000#64),
      .call (borrowCall 4#256 otherReceipt 400000#64),
    .pay 4#256 sampleVault 400360#64,.call (repayCall 4#256 otherReceipt),
    .pay 3#256 sampleVault 500090#64,.call (repayCall 3#256 sampleReceipt),.settle]

/-- Two borrowers whose loans overlap: the fee of the inner loan pays most of the outer one's. -/
theorem nested_loans_insolvent : ∃ tr t p,
    Run ((program sampleHost).TxStep sampleHost.Derived) genesis tr t ∧
      (∀ x∈tr,∀ c,x.label=.call c → OwnVault sampleHost samplePool x.pre.bank c) ∧
      outstanding samplePool (tr.map Transition.label)=[] ∧
      (∀ r,receiptAt sampleHost t.bank r=none) ∧ poolAt sampleHost t.bank samplePool=some p ∧
      claims p=1000809 ∧ (t.bank sampleVault).lamports=1891330#64 ∧
      (t.bank sampleVault).lamports.toNat<(sampleHost.minimumBalance 0).toNat+claims p := by
  obtain ⟨⟨tr,t⟩,hscript,hnone,p,hp,hclaims,hvault,hless⟩ :
      ∃ x,(program sampleHost).script nestedLoans genesis=some x ∧
      ([samplePool,sampleVault,sampleReceipt,otherReceipt].all fun r =>
        (receiptAt sampleHost x.2.bank r).isNone)=true ∧
      ∃ p,poolAt sampleHost x.2.bank samplePool=some p ∧ claims p=1000809 ∧
      (x.2.bank sampleVault).lamports=1891330#64 ∧ (x.2.bank sampleVault).lamports.toNat<
        (sampleHost.minimumBalance 0).toNat+claims p := by decide +kernel
  refine ⟨tr,t,p,script_by
    (by decide) sampleUsers_keyed (by decide) hscript,sample_own hscript (by decide),?_,
    sample_settled (by decide) hscript hnone,hp,hclaims,hvault,hless⟩
  rw [script_labels hscript]
  decide

end PrismChain.FlashLoan
