import PrismChain.Programs.FlashLoan.Books

namespace PrismChain.FlashLoan

open Option List Function Program

def receiptAt (h : Host) (b : Bank) (r : Pubkey) : Option FlashLoanReceipt :=
  recordAt receiptCodec FlashLoanReceipt.isActive h.programId b r

theorem receipt_marked : Marked receiptCodec FlashLoanReceipt.isActive := by
  intro x hactive
  change 1#8∈Codec.bool.encode x.isActive++_
  rw [hactive]
  exact mem_append_left _ (by decide)

section Steps

theorem receiptAt_eq_some : receiptAt h b r=some x ↔
    (b r).owner=h.programId ∧ (b r).data=receiptCodec.encode x ∧ x.isActive=true :=
  recordAt_eq_some

theorem Signs.mem (hs : Signs c i k) : k∈c.accounts.map AccountInfo.key := by
  obtain ⟨a,ha,hkey,-⟩ := hs
  exact mem_map.mpr ⟨a,mem_of_getElem? ha,hkey⟩

theorem call_frame (hx : (program h).execute c b=.ok b') (hr : r∉c.accounts.map AccountInfo.key) :
    b' r=b r := by
  have hne {j : Pubkey} (hj : j∈c.accounts.map AccountInfo.key) : r≠j := fun he => hr (he ▸ hj)
  cases execute_spec hx with
  | initialized i =>
    exact i.others r (hne i.payer.mem) (hne (Call.key_mem i.poolKey))
      (hne (Call.key_mem i.vaultKey))
  | deposited d =>
    obtain ⟨b1,rest,-,-,hothers,rfl⟩ := d.written
    rw [← hothers r (hne d.payer.mem) (hne (Call.key_mem d.vaultKey))]
    exact update_of_ne (hne (Call.key_mem d.poolKey)) _ _
  | withdrawn w =>
    obtain ⟨b1,rest,-,-,hothers,rfl⟩ := w.written
    rw [← hothers r (hne (Call.key_mem w.vaultKey)) (hne (Call.key_mem w.receiverKey))]
    exact update_of_ne (hne (Call.key_mem w.poolKey)) _ _
  | borrowed o =>
    exact o.others r (hne o.payer.mem) (hne (Call.key_mem o.poolKey))
      (hne (Call.key_mem o.vaultKey))
      (hne (Call.key_mem o.receiptKey)) (hne (Call.key_mem o.receiverKey))
  | repaid o =>
    exact o.others r (hne o.payer.mem) (hne (Call.key_mem o.poolKey))
      (hne (Call.key_mem o.receiptKey))

theorem receipt_kept (hframe : (b' r).owner=(b r).owner ∧ (r≠k → (b' r).data=(b r).data))
    (hpool : Holds b' k p) (hx' : receiptAt h b' r=some x) : receiptAt h b r=some x := by
  have hr : r≠k := fun he => hpool.ne_receipt (by rw [← he]; exact (receiptAt_eq_some.mp hx').2.1)
  exact (recordAt_congr hframe.1 (hframe.2 hr)).symm.trans hx'

theorem receipt_call (hx : (program h).execute c b=.ok b') (hx' : receiptAt h b' r=some x) :
    receiptAt h b r=some x ∨ (∃ amount,c.instruction=.borrow amount) ∧ c.key? 3=some r ∧
      h.Derived r := by
  cases execute_spec hx with
  | @initialized _ k _ i =>
    left
    obtain ⟨-,hdata',-⟩ := receiptAt_eq_some.mp hx'
    have hk : r≠k := fun he => i.pool'.ne_receipt (by rw [← he]; exact hdata')
    have hv : r≠vaultPda h k := by
      intro he
      rw [he,i.vault'.1] at hdata'
      exact absurd (congrArg length hdata'.symm) (by rw [receipt_size x]; decide)
    obtain ⟨hdata,howner⟩ := i.frame r hk hv
    exact (recordAt_congr howner hdata).symm.trans hx'
  | deposited d => exact .inl (receipt_kept (d.frame r) d.pool' hx')
  | withdrawn w => exact .inl (receipt_kept (w.frame r) w.pool' hx')
  | @borrowed _ k _ r' _ _ _ amount _ o =>
    by_cases hr : r=r'
    · subst hr
      exact .inr ⟨⟨amount,o.instruction⟩,o.receiptKey,_,o.derived.symm⟩
    · exact .inl (receipt_kept (o.frame r hr) o.pool' hx')
  | repaid o => exact .inl (receipt_kept (o.frame r) o.pool' hx')

end Steps

/-- Every loan of the transaction is repaid in it, and afterwards no instruction is passed the
receipt account. -/
def RepaidWithin (cs : List (Call Instruction)) : Prop :=
  ∀ {front c back amount r},cs=front++c::back → c.instruction=.borrow amount →
    c.key? 3=some r → ∃ mid d rest,back=mid++d::rest ∧ d.instruction=.repay ∧
      d.key? 3=some r ∧ ∀ e∈rest,r∉e.accounts.map AccountInfo.key

section Transactions

theorem issued_within (htx : (program h).history cs s=some (tr,t))
    (hnone : receiptAt h s.bank r=none) (hx : receiptAt h t.bank r=some x) :
    ∃ c∈cs,(∃ amount,c.instruction=.borrow amount) ∧ c.key? 3=some r ∧ h.Derived r := by
  induction cs generalizing s tr with
  | nil =>
    cases htx
    rw [hnone] at hx
    cases hx
  | cons c cs ih =>
    obtain ⟨b,_,hexec,_,htail,rfl⟩ := history_cons htx
    cases hmid : receiptAt h b r with
    | none =>
      obtain ⟨d,hd,hborrow⟩ := ih htail hmid
      exact ⟨d,mem_cons_of_mem _ hd,hborrow⟩
    | some =>
      obtain hold | hborrow := receipt_call hexec hmid
      · rw [hnone] at hold
        cases hold
      · exact ⟨c,mem_cons_self,hborrow⟩

theorem history_frame (htx : (program h).history cs s=some (tr,t))
    (hr : ∀ c∈cs,r∉c.accounts.map AccountInfo.key) : t.bank r=s.bank r := by
  induction cs generalizing s tr with
  | nil =>
    cases htx
    rfl
  | cons c cs ih =>
    obtain ⟨b,_,hexec,_,htail,rfl⟩ := history_cons htx
    have hrest : t.bank r=b r := ih htail fun d hd => hr d (mem_cons_of_mem _ hd)
    exact hrest.trans (call_frame hexec (hr c mem_cons_self))

theorem repay_closes (hx : (program h).execute c b=.ok b') (hc : c.instruction=.repay)
    (hr : c.key? 3=some r) (hsigner : ¬Signs c 0 r) : (b' r).lamports=0#64 := by
  cases execute_spec hx with
  | initialized i =>
    have hi := i.instruction
    rw [hc] at hi
    cases hi
  | deposited d =>
    have hi := d.instruction
    rw [hc] at hi
    cases hi
  | withdrawn w =>
    have hi := w.instruction
    rw [hc] at hi
    cases hi
  | borrowed o =>
    have hi := o.instruction
    rw [hc] at hi
    cases hi
  | @repaid _ _ _ r' _ _ _ o =>
    cases hr.symm.trans o.receiptKey
    exact o.closed fun he => hsigner (he ▸ o.payer)

end Transactions

/-- A transaction that repays what it borrows ends without an active receipt. -/
theorem repaid_transaction_closes {h : Host} {cs : List (Call Instruction)} {s t : Ledger}
    {tr : Trace Instruction} (hstart : ∀ r,receiptAt h s.bank r=none)
    (hsigners : ∀ c∈cs,∀ a∈c.accounts,a.isSigner=true → ¬h.Derived a.key)
    (htx : (program h).history cs s=some (tr,t)) (hrepaid : RepaidWithin cs) (r : Pubkey) :
    receiptAt h t.bank.settle r=none := by
  cases hx : receiptAt h t.bank.settle r with
  | none => rfl
  | some =>
    obtain ⟨hopen,hactive⟩ := recordAt_settle receipt_size (by decide) hx
    obtain ⟨c,hc,⟨_,hborrow⟩,hkey,hderived⟩ := issued_within htx (hstart r) hactive
    obtain ⟨_,_,rfl⟩ := append_of_mem hc
    obtain ⟨_,d,_,rfl,hd,hdkey,hrest⟩ := hrepaid rfl hborrow hkey
    -- cut the transaction at the repayment
    obtain ⟨_,u,_,-,hback,-⟩ := history_append htx
    obtain ⟨b,_,-,_,hmid,-⟩ := history_cons hback
    obtain ⟨_,v,_,-,htail,-⟩ := history_append hmid
    obtain ⟨b',_,hexec,_,hafter,-⟩ := history_cons htail
    have hsigner : ¬Signs d 0 r := by
      rintro ⟨a,ha,rfl,hsigns⟩
      exact hsigners d (by simp) a (mem_of_getElem? ha) hsigns hderived
    have hclosed : (b' r).lamports=0#64 := repay_closes hexec hd hdkey hsigner
    have hend : t.bank r=b' r := history_frame hafter hrest
    rw [hend] at hopen
    exact absurd hclosed hopen

def funded : List (Call Instruction) := [initCall,depositCall 1000000#64]

theorem funded_without_receipts (hs : (program sampleHost).history funded genesis=some (tr,s))
    (r : Pubkey) : receiptAt sampleHost s.bank r=none := by
  cases hx : receiptAt sampleHost s.bank r with
  | none => rfl
  | some =>
    have hnone : receiptAt sampleHost genesis.bank r=none :=
      genesis_untouched.records receipt_marked r
    obtain ⟨c,hc,⟨_,hborrow⟩,-⟩ := issued_within hs hnone hx
    simp only [funded,mem_cons,not_mem_nil,or_false] at hc
    obtain rfl | rfl := hc <;> cases hborrow

def loanCalls : List (Call Instruction) :=
  [borrowCall 3#256 sampleReceipt 500000#64,depositCall 500450#64,repayCall 3#256 sampleReceipt]

theorem loanCalls_repaid : RepaidWithin loanCalls := by
  intro front c back amount r hcs hc hr
  match front with
  | [] =>
    cases hcs
    exact ⟨[depositCall 500450#64],repayCall 3#256 sampleReceipt,[],rfl,rfl,hr,
      fun _ he => by cases he⟩
  | [_] =>
    obtain ⟨rfl,-⟩ := cons.inj (cons.inj hcs).2
    cases hc
  | [_,_] =>
    obtain ⟨rfl,-⟩ := cons.inj (cons.inj (cons.inj hcs).2).2
    cases hc
  | _::_::_::_ => simp [loanCalls] at hcs

theorem repaid_loan_closes : ∃ s tr t,(∀ r,receiptAt sampleHost s.bank r=none) ∧
      (program sampleHost).history loanCalls s=some (tr,t) ∧
      ∀ r,receiptAt sampleHost t.bank.settle r=none := by
  have hresult : (((program sampleHost).history funded genesis).bind fun x =>
      (program sampleHost).history loanCalls x.2).isSome=true := by decide +kernel
  obtain ⟨⟨tr,t⟩,htx⟩ := isSome_iff_exists.mp hresult
  obtain ⟨⟨_,s⟩,hs,htx⟩ := bind_eq_some_iff.mp htx
  have hstart := funded_without_receipts hs
  have hsigners : ∀ c∈loanCalls,∀ a∈c.accounts,a.isSigner=true → ¬sampleHost.Derived a.key := by
    intro c hc a ha hsigns
    refine sampleUsers_keyed _ ?_
    revert c a
    decide
  exact ⟨s,tr,t,hstart,htx,repaid_transaction_closes hstart hsigners htx loanCalls_repaid⟩

/-- A loan that is never repaid commits: the receipt stays active and the vault is short. -/
theorem borrow_commits_alone : ∃ s tr t x,(∀ r,receiptAt sampleHost s.bank r=none) ∧
      (program sampleHost).history [borrowCall 3#256 sampleReceipt 500000#64] s=some (tr,t) ∧
      receiptAt sampleHost t.bank.settle sampleReceipt=some x ∧
      (s.bank sampleVault).lamports=1890880#64 ∧
      (t.bank.settle sampleVault).lamports=1390880#64 := by
  obtain ⟨⟨_,s⟩,hs,⟨tr,t⟩,htx,hactive,hbefore,hafter⟩ :
      ∃ x,(program sampleHost).history funded genesis=some x ∧
      ∃ y,(program sampleHost).history [borrowCall 3#256 sampleReceipt 500000#64] x.2=some y ∧
      (receiptAt sampleHost y.2.bank.settle sampleReceipt).isSome=true ∧
      (x.2.bank sampleVault).lamports=1890880#64 ∧
      (y.2.bank.settle sampleVault).lamports=1390880#64 := by decide +kernel
  obtain ⟨x,hx⟩ := isSome_iff_exists.mp hactive
  exact ⟨s,tr,t,x,funded_without_receipts hs,htx,hx,hbefore,hafter⟩

end PrismChain.FlashLoan
