import PrismChain.Programs.BatchTx.Processor

namespace PrismChain.BatchTx

open FixedWidth

def transferAt (h : Host) (κ : Kind) : Bank → Pubkey → Option κ.Record :=
  recordAt κ.codec κ.isInitialized h.programId

structure Opened (h : Host) (c : Call Instruction) (b b' : Bank) (κ : Kind) (k : Pubkey)
    (deposit : U64) (x : κ.Record) : Prop where
  signer : c.signer? 0=some (κ.creator x)
  recordKey : c.key? 1=some k
  place : k=recordPda h κ x
  live : κ.isInitialized x=true
  unpaid : κ.status x=.pending
  fresh : (b k).data=[]
  record' : (b' k).data=κ.codec.encode x
  owned' : (b' k).owner=h.programId
  escrow' :
    (b' (escrowPda h k)).owner=h.programId ∧ deposit.toNat≤(b' (escrowPda h k)).lamports.toNat
  frame : ∀ j,j≠k → (b' j).data=(b j).data ∧
    ((b' j).owner=(b j).owner ∨ (b' j).owner=h.programId ∧ (b j).data=[])
  kept : ∀ j,j≠κ.creator x → (b j).lamports.toNat≤(b' j).lamports.toNat

structure Settled (h : Host) (c : Call Instruction) (b b' : Bank) (κ : Kind) (k v dst : Pubkey)
    (n : Nat) (x x' : κ.Record) : Prop where
  recordKey : c.key? 1=some k
  escrowKey : c.key? 2=some v
  owned : (b k).owner=h.programId
  record : (b k).data=κ.codec.encode x
  live : κ.isInitialized x=true
  unpaid : κ.status x=.pending
  written : ∃ b₁,Paid b b₁ v dst n ∧ b'=b₁.setData k (κ.codec.encode x')

inductive Due (c : Call Instruction) (b : Bank) (balance : U64) :
    (κ : Kind) → κ.Record → κ.Record → Nat → Prop
  | scheduled {x : ScheduledTransfer} (hi : c.instruction=.executeScheduledTransfer)
      (hready : x.ready c.clock=true) : Due c b balance .scheduled x
        {x with status := .executed,executedAt := c.clock.unixTimestamp} balance.toNat
  | conditional {x : ConditionalTransfer} (hi : c.instruction=.executeConditionalTransfer)
      (htime : c.clock.unixTimestamp.toInt≤x.expiresAt.toInt)
      (hmet : x.conditionMet (b x.conditionAccount).lamports=true) :
      Due c b balance .conditional x {x with status := .executed} balance.toNat
  | recurring {x : RecurringTransfer} {completed : U64}
      (hi : c.instruction=.executeRecurringTransfer)
      (hinterval : x.intervalSeconds.toInt≤
        (saturatingSubSigned c.clock.unixTimestamp x.lastExecutedAt).toInt)
      (hcount : completed.toNat=x.executionsCompleted.toNat+1) :
      Due c b balance .recurring x (x.afterExecution completed c.clock.unixTimestamp) x.amount.toNat

inductive Accepted (h : Host) (c : Call Instruction) (b b' : Bank) : Prop
  | batched {recipients : List BatchRecipient} {sender : Pubkey}
      (hi : c.instruction=.batchTransfer recipients) (hsigner : c.signer? 0=some sender)
      (hsame : SameState b b')
      (hkept : ∀ j,j≠sender → (b j).lamports.toNat≤(b' j).lamports.toNat)
  | opened {κ : Kind} {k : Pubkey} {deposit : U64} {x : κ.Record}
      (o : Opened h c b b' κ k deposit x)
  | executed {κ : Kind} {k v : Pubkey} {n : Nat} {x x' : κ.Record}
      (hdue : Due c b (b v).lamports κ x x' n) (o : Settled h c b b' κ k v (κ.recipient x) n x x')
  | cancelled {k v : Pubkey} {x : ScheduledTransfer} (hi : c.instruction=.cancelScheduledTransfer)
      (hsigner : c.signer? 0=some x.creator)
      (o : Settled h c b b' .scheduled k v x.creator (b v).lamports.toNat x
        {x with status := .cancelled})

section Parts

variable {κ : Kind}

theorem loadPending_eq_ok : loadPending h κ f k=.ok x ↔ (f.view k).owner=h.programId ∧
    (f.view k).data=κ.codec.encode x ∧ κ.isInitialized x=true ∧ κ.status x=.pending := by
  simp only [loadPending,steps_ok,Codec.tryFromSlice_eq_some]
  constructor
  · rintro ⟨-,howner,w,hdata,-,hlive,-,hpending,rfl⟩
    exact ⟨howner,hdata,hlive,hpending⟩
  · rintro ⟨howner,hdata,hlive,hpending⟩
    exact ⟨(),howner,x,hdata,(),hlive,(),hpending,rfl⟩

theorem payRecipients_spec (hp : payRecipients iv sender recipients accounts ⟨b,b⟩=.ok g) :
    ∃ b',g=⟨b',b'⟩ ∧ SameState b b' ∧ ∀ j,j≠sender →
      (b j).lamports.toNat≤(b' j).lamports.toNat := by
  induction recipients generalizing b accounts with
  | nil =>
    rw [payRecipients,pure_eq_ok] at hp
    exact ⟨b,hp.symm,SameState.refl b,fun _ _ => le_rfl⟩
  | cons r _ ih =>
    unfold payRecipients at hp
    split at hp
    case isTrue => exact ih hp
    split at hp <;> simp only [steps_ok] at hp
    rename_i account _
    obtain ⟨-,hkey,f,hinvoke,hrest⟩ := hp
    have hkeys {b1 : Bank} (ht : iv.transfer sender r.address r.amount b=.ok b1) :
        ∀ k,k∉[sender,account.key] → b1 k=b k := by
      intro k hk
      simp only [List.mem_cons,List.not_mem_nil,or_false,not_or] at hk
      exact (Invocation.transfer_spec ht).2.2.2.2.2 k hk.1 (hkey ▸ hk.2)
    obtain ⟨b1,htransfer,rfl⟩ := Invocation.invoke_clean hinvoke hkeys
    obtain ⟨-,-,-,hsame,hmoved,-⟩ := Invocation.transfer_spec htransfer
    obtain ⟨b',hg,hsame',hkept'⟩ := ih hrest
    refine ⟨b',hg,SameState.trans hsame hsame',fun j hj => le_trans ?_ (hkept' j hj)⟩
    have hm := hmoved j
    rw [if_neg hj] at hm
    omega

end Parts

section Handlers

variable {c : Call Instruction} {κ : Kind}

theorem batched_of (hi : c.instruction=.batchTransfer recipients)
    (hp : processBatchTransfer h c.accounts recipients ⟨b,b⟩=.ok f) : Accepted h c b f.view := by
  simp only [processBatchTransfer,steps_ok] at hp
  obtain ⟨-,-,hp⟩ := hp
  split at hp <;> simp only [steps_ok] at hp
  rename_i hacc
  obtain ⟨-,hsigns,_,-,-,-,hpay⟩ := hp
  obtain ⟨_,rfl,hsame,hkept⟩ := payRecipients_spec hpay
  exact .batched hi (by simp [Call.signer?,hacc,hsigns]) hsame hkept

theorem opened_of (hacc : c.accounts=creator::account::escrow::rest)
    (hsigns : creator.isSigner=true)
    (hcreator : κ.creator x=creator.key) (hlive : κ.isInitialized x=true)
    (hpending : κ.status x=.pending)
    (hp : openTransfer h c.accounts κ creator.key account.key escrow.key deposit x ⟨b,b⟩=.ok f) :
    Opened h c b f.view κ account.key deposit x := by
  simp only [openTransfer,steps_ok] at hp
  obtain ⟨-,hplace,-,hescrow,_,hinvoke,_,hinvoke',hstore⟩ := hp
  obtain ⟨b1,hcreate,rfl⟩ := Invocation.invoke_create hinvoke
  obtain ⟨b2,hcreate',rfl⟩ := Invocation.invoke_create hinvoke'
  obtain ⟨-,hfresh,-,-,-,-,hzeros,howner,hothers,hmoved,-⟩ := Invocation.createAccount_spec hcreate
  obtain ⟨-,hfresh',-,-,-,-,hempty,howner',hothers',hmoved',-⟩ :=
    Invocation.createAccount_spec hcreate'
  have hsize : (b1 account.key).data.length=κ.size := by
    rw [hzeros]
    exact List.length_replicate
  -- the record has its zeros by now, so it is not the account that is created next
  have hne : account.key≠escrow.key := by
    intro heq
    rw [heq,hfresh'] at hsize
    exact κ.size_pos.ne hsize
  have hsize2 : (b2 account.key).data.length=κ.size := by rw [(hothers' _ hne).1,hsize]
  rw [Frame.store_eq_ok κ.hasSize hsize2] at hstore
  subst hstore
  refine ⟨?_,?_,hplace.symm,hlive,hpending,hfresh,Bank.setData_same _ _ _,?_,?_,fun j hj => ?_,
    fun j hj => ?_⟩
  · simp [Call.signer?,hacc,hsigns,hcreator]
  · simp [Call.key?,hacc]
  · dsimp only
    rw [Bank.setData_owner,(hothers' _ hne).2,howner]
  · dsimp only
    rw [hescrow,Bank.setData_owner,Bank.setData_lamports]
    exact ⟨howner',Invocation.create_funded hcreate'⟩
  · dsimp only
    rw [Bank.setData_other _ _ hj,Bank.setData_owner]
    by_cases hj' : j=escrow.key
    · subst hj'
      have hnil : (b escrow.key).data=[] := (hothers _ hj).1.symm.trans hfresh'
      exact ⟨hempty.trans hnil.symm,Or.inr ⟨howner',hnil⟩⟩
    · rw [(hothers' j hj').1,(hothers' j hj').2,(hothers j hj).1,(hothers j hj).2]
      exact ⟨rfl,Or.inl rfl⟩
  · rw [hcreator] at hj
    have hm := hmoved j
    have hm' := hmoved' j
    rw [if_neg hj] at hm hm'
    dsimp only
    rw [Bank.setData_lamports]
    omega

theorem settled_of {e : ProgramError} (hacc : c.accounts=executor::account::escrow::rest)
    (hload : loadPending h κ ⟨b,b⟩ account.key=.ok x)
    (hpay : Frame.pay ⟨b,b⟩ escrow.key dst amount e=.ok f1)
    (hstore : f1.store κ.codec x' account.key=.ok f) :
    Settled h c b f.view κ account.key escrow.key dst amount.toNat x x' := by
  obtain ⟨howner,hdata,hlive,hpending⟩ := loadPending_eq_ok.mp hload
  obtain ⟨b1,rfl,hpaid⟩ := Frame.pay_spec hpay
  dsimp only at howner hdata
  have hsize : (b1 account.key).data.length=κ.size := by
    rw [(hpaid.same _).1,hdata]
    exact κ.hasSize x
  rw [Frame.store_eq_ok κ.hasSize hsize] at hstore
  subst hstore
  exact ⟨by simp [Call.key?,hacc],by simp [Call.key?,hacc],howner,hdata,hlive,hpending,b1,hpaid,rfl⟩

theorem scheduled_opened_of
    (hp : processCreateScheduled h c.clock c.accounts recipient amount slot time nonce
    ⟨b,b⟩=.ok f) :
    Accepted h c b f.view := by
  unfold processCreateScheduled at hp
  split at hp <;> simp only [steps_ok] at hp
  rename_i hacc
  obtain ⟨-,hsigns,-,-,-,-,-,-,hopen⟩ := hp
  exact .opened (opened_of hacc hsigns rfl rfl rfl hopen)

theorem conditional_opened_of (hp : processCreateConditional h c.clock c.accounts recipient
      amount account type threshold ttl ⟨b,b⟩=.ok f) : Accepted h c b f.view := by
  unfold processCreateConditional at hp
  split at hp <;> simp only [steps_ok] at hp
  rename_i hacc
  obtain ⟨-,hsigns,-,-,hopen⟩ := hp
  exact .opened (opened_of hacc hsigns rfl rfl rfl hopen)

theorem recurring_opened_of
    (hp : processCreateRecurring h c.clock c.accounts recipient amount interval maximum nonce
      ⟨b,b⟩=.ok f) : Accepted h c b f.view := by
  unfold processCreateRecurring at hp
  split at hp <;> simp only [steps_ok] at hp
  rename_i hacc
  obtain ⟨-,hsigns,-,-,-,-,_,-,hopen⟩ := hp
  exact .opened (opened_of hacc hsigns rfl rfl rfl hopen)

theorem scheduled_executed_of (hi : c.instruction=.executeScheduledTransfer)
    (hp : processExecuteScheduled h c.clock c.accounts ⟨b,b⟩=.ok f) : Accepted h c b f.view := by
  unfold processExecuteScheduled at hp
  split at hp <;> simp only [steps_ok] at hp
  rename_i hacc
  obtain ⟨x,hload,-,hrecipient,-,hready,_,hpay,hstore⟩ := hp
  rw [hrecipient] at hpay
  exact .executed (.scheduled hi hready) (settled_of hacc hload hpay hstore)

theorem conditional_executed_of (hi : c.instruction=.executeConditionalTransfer)
    (hp : processExecuteConditional h c.clock c.accounts ⟨b,b⟩=.ok f) : Accepted h c b f.view := by
  unfold processExecuteConditional at hp
  split at hp <;> simp only [steps_ok] at hp
  rename_i hacc
  obtain ⟨x,hload,-,hrecipient,-,haccount,-,htime,-,hmet,_,hpay,hstore⟩ := hp
  rw [hrecipient] at hpay
  rw [haccount] at hmet
  exact .executed (.conditional hi htime hmet) (settled_of hacc hload hpay hstore)

theorem recurring_executed_of (hi : c.instruction=.executeRecurringTransfer)
    (hp : processExecuteRecurring h c.clock c.accounts ⟨b,b⟩=.ok f) : Accepted h c b f.view := by
  unfold processExecuteRecurring at hp
  split at hp <;> simp only [steps_ok] at hp
  rename_i hacc
  obtain ⟨x,hload,-,hrecipient,-,hinterval,-,-,_,hpay,_,hcount,hstore⟩ := hp
  rw [hrecipient] at hpay
  exact .executed (.recurring hi hinterval (checkedAdd_eq_some.mp hcount))
    (settled_of hacc hload hpay hstore)

theorem cancelled_of (hi : c.instruction=.cancelScheduledTransfer)
    (hp : processCancelScheduled h c.accounts ⟨b,b⟩=.ok f) : Accepted h c b f.view := by
  unfold processCancelScheduled at hp
  split at hp <;> simp only [steps_ok] at hp
  rename_i hacc
  obtain ⟨-,hsigns,x,hload,-,hcreator,_,hpay,hstore⟩ := hp
  rw [← hcreator] at hpay
  exact .cancelled hi
    (by simp [Call.signer?,hacc,hsigns,hcreator]) (settled_of hacc hload hpay hstore)

theorem execute_spec (hp : (program h).execute c b=.ok b') : Accepted h c b b' := by
  obtain ⟨f,hf,-,rfl⟩ := Program.execute_eq_ok.mp hp
  change processInstruction h c.clock c.accounts c.instruction ⟨b,b⟩=.ok f at hf
  cases hi : c.instruction with
  | batchTransfer => rw [hi] at hf; exact batched_of hi hf
  | createScheduledTransfer => rw [hi] at hf; exact scheduled_opened_of hf
  | executeScheduledTransfer => rw [hi] at hf; exact scheduled_executed_of hi hf
  | cancelScheduledTransfer => rw [hi] at hf; exact cancelled_of hi hf
  | createConditionalTransfer => rw [hi] at hf; exact conditional_opened_of hf
  | executeConditionalTransfer => rw [hi] at hf; exact conditional_executed_of hi hf
  | createRecurringTransfer => rw [hi] at hf; exact recurring_opened_of hf
  | executeRecurringTransfer => rw [hi] at hf; exact recurring_executed_of hi hf

end Handlers

section Records

variable {κ : Kind}

theorem Due.kept (hdue : Due c b balance κ x x' n) :
    κ.isInitialized x'=κ.isInitialized x ∧ κ.seeds x'=κ.seeds x := by
  cases hdue <;> exact ⟨rfl,rfl⟩

theorem Opened.before (o : Opened h c b b' κ k deposit x) : transferAt h ι b k=none :=
  recordAt_of_empty ι.hasSize ι.size_pos o.fresh

theorem Opened.after (o : Opened h c b b' κ k deposit x) : transferAt h κ b' k=some x :=
  recordAt_eq_some.mpr ⟨o.owned',o.record',o.live⟩

theorem Opened.others (o : Opened h c b b' κ k deposit x) (hj : j≠k) :
    transferAt h ι b' j=transferAt h ι b j := by
  obtain ⟨hdata,hsame | ⟨-,hnil⟩⟩ := o.frame j hj
  · exact recordAt_congr hsame hdata
  · have hempty {b0 : Bank} (hd : (b0 j).data=[]) : transferAt h ι b0 j=none :=
      recordAt_of_empty ι.hasSize ι.size_pos hd
    rw [hempty hnil,hempty (hdata.trans hnil)]

theorem Settled.before (o : Settled h c b b' κ k v dst n x x') : transferAt h κ b k=some x :=
  recordAt_eq_some.mpr ⟨o.owned,o.record,o.live⟩

theorem Settled.after (o : Settled h c b b' κ k v dst n x x') (hlive : κ.isInitialized x'=true) :
    transferAt h κ b' k=some x' := by
  obtain ⟨_,hpaid,rfl⟩ := o.written
  exact recordAt_setData_same ((hpaid.same k).2.trans o.owned) hlive

theorem Settled.others (o : Settled h c b b' κ k v dst n x x') (hj : j≠k) :
    transferAt h ι b' j=transferAt h ι b j := by
  obtain ⟨_,hpaid,rfl⟩ := o.written
  exact (recordAt_setData_other _ hj).trans (recordAt_congr (hpaid.same j).2 (hpaid.same j).1)

theorem transferAt_kind (hdata : (b k).data=κ.codec.encode x) (hne : ι≠κ) :
    transferAt h ι b k=none := by
  refine recordAt_of_length ι.hasSize fun hlen => hne (Kind.size_inj ?_)
  rw [← hlen,hdata,κ.hasSize x]

end Records

inductive Next (h : Host) (c : Call Instruction) (κ : Kind) (k : Pubkey) :
    Option κ.Record → Option κ.Record → Prop
  | kept {o : Option κ.Record} : Next h c κ k o o
  | opened {x : κ.Record} (hk : c.key? 1=some k) (hplace : k=recordPda h κ x) :
      Next h c κ k none (some x)
  | executed {x x' : κ.Record} {b : Bank} {balance : U64} {n : Nat} (hk : c.key? 1=some k)
      (hdue : Due c b balance κ x x' n) : Next h c κ k (some x) (some x')
  | cancelled {x x' : κ.Record} (hk : c.key? 1=some k) (hi : c.instruction=.cancelScheduledTransfer)
      (hseeds : κ.seeds x'=κ.seeds x) : Next h c κ k (some x) (some x')

theorem Accepted.next {h : Host} {c : Call Instruction} {b b' : Bank} (ha : Accepted h c b b')
    (ι : Kind) (j : Pubkey) : Next h c ι j (transferAt h ι b j) (transferAt h ι b' j) := by
  have hsame (heq : transferAt h ι b' j=transferAt h ι b j) :
      Next h c ι j (transferAt h ι b j) (transferAt h ι b' j) := by
    rw [heq]
    exact .kept
  cases ha with
  | batched _ _ hs => exact hsame (recordAt_congr (hs j).2 (hs j).1)
  | @opened κ k _ x o =>
    by_cases hj : j=k
    · subst hj
      by_cases hκ : ι=κ
      · subst hκ
        rw [o.before,o.after]
        exact .opened o.recordKey o.place
      · exact hsame ((transferAt_kind o.record' hκ).trans o.before.symm)
    · exact hsame (o.others hj)
  | @executed κ k v n x x' hdue o =>
    by_cases hj : j=k
    · subst hj
      by_cases hκ : ι=κ
      · subst hκ
        rw [o.before,o.after (hdue.kept.1.trans o.live)]
        exact .executed o.recordKey hdue
      · obtain ⟨b1,-,rfl⟩ := o.written
        exact hsame ((transferAt_kind (Bank.setData_same _ _ _) hκ).trans
          (transferAt_kind o.record hκ).symm)
    · exact hsame (o.others hj)
  | @cancelled k v x hi _ o =>
    by_cases hj : j=k
    · subst hj
      by_cases hκ : ι=.scheduled
      · subst hκ
        rw [o.before,o.after o.live]
        exact .cancelled o.recordKey hi rfl
      · obtain ⟨b1,-,rfl⟩ := o.written
        exact hsame ((transferAt_kind (Bank.setData_same _ _ _) hκ).trans
          (transferAt_kind o.record hκ).symm)
    · exact hsame (o.others hj)

end PrismChain.BatchTx
