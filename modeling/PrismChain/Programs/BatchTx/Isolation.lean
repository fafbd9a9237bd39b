import PrismChain.Framework.Transactions
import PrismChain.Programs.BatchTx.Transition

namespace PrismChain.BatchTx

open Option List Program

def RecordAddress (h : Host) (k : Pubkey) : Prop := ∃ κ x,recordPda h κ x=k

def Separate (h : Host) : Prop :=
  ∀ j k,RecordAddress h j → RecordAddress h k → escrowPda h j=escrowPda h k → j=k

def Kind.executes : Kind → Instruction
  | scheduled => .executeScheduledTransfer
  | conditional => .executeConditionalTransfer
  | recurring => .executeRecurringTransfer

def Instruction.pays : Instruction → Bool
  | .executeScheduledTransfer | .cancelScheduledTransfer | .executeConditionalTransfer
  | .executeRecurringTransfer => true
  | _ => false

def OwnEscrow (h : Host) (c : Call Instruction) : Prop :=
  c.instruction.pays=true → ∀ k,c.key? 1=some k → c.key? 2=some (escrowPda h k)

theorem escrow_derived (h : Host) (k : Pubkey) : h.Derived (escrowPda h k) := ⟨_,rfl⟩

theorem Due.executes (hdue : Due c b balance κ x x' n) :
    c.instruction=κ.executes ∧ c.instruction.pays=true := by
  cases hdue with
  | scheduled hi | conditional hi | recurring hi => rw [hi]; exact ⟨rfl,rfl⟩

section Places

variable {h : Host} {b : Bank} {κ : Kind} {k : Pubkey} {x : κ.Record}

def Placed (h : Host) (b : Bank) : Prop :=
  ∀ κ k x,transferAt h κ b k=some x → k=recordPda h κ x

theorem Placed.address (hp : Placed h b) (hx : transferAt h κ b k=some x) : RecordAddress h k :=
  ⟨κ,x,(hp κ k x hx).symm⟩

theorem recordPda_congr (hseeds : κ.seeds y=κ.seeds x) : recordPda h κ y=recordPda h κ x := by
  unfold recordPda
  rw [hseeds]

theorem Next.placed (hn : Next h c κ k o o') (hy : o'=some y)
    (hbefore : ∀ x,o=some x → k=recordPda h κ x) : k=recordPda h κ y := by
  cases hn with
  | kept => exact hbefore y hy
  | opened _ hplace =>
    cases hy
    exact hplace
  | @executed x _ _ _ _ _ hdue =>
    cases hy
    exact (hbefore x rfl).trans (recordPda_congr hdue.kept.2).symm
  | @cancelled x _ _ _ hseeds =>
    cases hy
    exact (hbefore x rfl).trans (recordPda_congr hseeds).symm

theorem Placed.step {s : Ledger} (hp : Placed h s.bank)
    (hstep : (program h).TxStep h.Derived s a t) :
    Placed h t.bank := by
  intro κ k y hy
  cases hstep with
  | call _ _ hexec => exact ((execute_spec hexec).next κ k).placed hy (hp κ k)
  | outside _ hout => exact hp κ k y ((hout.records κ.marked k).symm.trans hy)
  | settle => exact hp κ k y (recordAt_settle κ.hasSize κ.size_pos hy).2

theorem placed_run {s : Ledger} (h0 : Untouched h.programId s.bank)
    (hrun : Run ((program h).TxStep h.Derived) s tr t) : Placed h t.bank := by
  refine hrun.invariant (I := fun t => Placed h t.bank) ?_ fun hp hstep => hp.step hstep
  intro κ k x hx
  have hnone : transferAt h κ s.bank k=none := h0.records κ.marked k
  rw [hnone] at hx
  cases hx

end Places

section Debits

variable {h : Host} {c : Call Instruction} {κ : Kind}

theorem Settled.moved (o : Settled h c b b' κ k v dst n x x') : Moved b b' v dst n := by
  obtain ⟨_,hpaid,rfl⟩ := o.written
  intro j
  rw [Bank.setData_lamports]
  exact hpaid.moved j

theorem Settled.debited (o : Settled h c b b' κ k v dst n x x')
    (hless : (b' j).lamports.toNat<(b j).lamports.toNat) : j=v := by
  by_contra hj
  have hm := o.moved j
  rw [if_neg hj] at hm
  omega

theorem signer_not_derived (hsigner : c.signer? 0=some sender)
    (hsigners : h.KeysSign c) (hj : h.Derived j) : j≠sender := by
  rintro rfl
  obtain ⟨a,ha,hkey,hsigns⟩ := Call.signer_mem hsigner
  exact hsigners a ha hsigns (by rw [hkey]; exact hj)

/-- If the escrow of a record address loses lamports to a payment on the authority of a record that
was passed with its own escrow, then that is the record. -/
theorem Settled.own (o : Settled h c b b' κ k v dst n x x') (hsep : Separate h)
    (hplaced : Placed h b)
    (hown : OwnEscrow h c) (hpays : c.instruction.pays=true) (hj : RecordAddress h j)
    (hless : (b' (escrowPda h j)).lamports.toNat<(b (escrowPda h j)).lamports.toNat) :
    k=j ∧ v=escrowPda h j := by
  have hv : v=escrowPda h k := some.inj (o.escrowKey.symm.trans (hown hpays k o.recordKey))
  have hd : escrowPda h j=v := o.debited hless
  exact ⟨(hsep j k hj (hplaced.address o.before) (hd.trans hv)).symm,hd.symm⟩

end Debits

/-- An escrow is opened only by an instruction given its own record, for the recipient or, when the
transfer is cancelled, for the creator. -/
theorem escrow_opened_by_own_record {h : Host} {s t u : Ledger} {tr : TxTrace Instruction}
    {a : Event Instruction} {k : Pubkey} (hsep : Separate h) (h0 : Untouched h.programId s.bank)
    (hrun : Run ((program h).TxStep h.Derived) s tr t)
    (hstep : (program h).TxStep h.Derived t a u) (hown : ∀ c,a=.call c → OwnEscrow h c)
    (hk : RecordAddress h k)
    (hless : (u.bank (escrowPda h k)).lamports.toNat<(t.bank (escrowPda h k)).lamports.toNat) :
    ∃ c κ x n,a=.call c ∧ c.key? 1=some k ∧ transferAt h κ t.bank k=some x ∧
      (c.instruction=κ.executes ∧ Moved t.bank u.bank (escrowPda h k) (κ.recipient x) n ∨
        c.instruction=.cancelScheduledTransfer ∧
          Moved t.bank u.bank (escrowPda h k) (κ.creator x) n) := by
  have hplaced := placed_run h0 hrun
  have hderived := escrow_derived h k
  obtain ⟨c,rfl,hsigners,hexec⟩ := hstep.debit hderived hless
  cases execute_spec hexec with
  | batched _ hsigner _ hkept =>
    have hkeep := hkept _ (signer_not_derived hsigner hsigners hderived)
    exact absurd hless (Nat.not_lt.mpr hkeep)
  | opened o =>
    have hkeep := o.kept _ (signer_not_derived o.signer hsigners hderived)
    exact absurd hless (Nat.not_lt.mpr hkeep)
  | executed hdue o =>
    obtain ⟨rfl,rfl⟩ := o.own hsep hplaced (hown c rfl) hdue.executes.2 hk hless
    exact ⟨c,_,_,_,rfl,o.recordKey,o.before,Or.inl ⟨hdue.executes.1,o.moved⟩⟩
  | cancelled hi _ o =>
    obtain ⟨rfl,rfl⟩ := o.own hsep hplaced (hown c rfl) (by rw [hi]; rfl) hk hless
    exact ⟨c,_,_,_,rfl,o.recordKey,o.before,Or.inr ⟨hi,o.moved⟩⟩

def sampleRecord : Pubkey := 0x6136cc32e511fe4073fbf5e865ab4aca37633918c83b79508550d25969ce0169#256
def sampleEscrow : Pubkey := 0x147d52d707e3e40e17383e5cb00d13d18337a62c1d51235bfb3cc2c73ddcdccb#256
def attackRecord : Pubkey := 0x26a0f98460c632c4efbdca106e1e31ade089049bc185c956b47bbd84b561b871#256
def attackEscrow : Pubkey := 0xc4ca807562233ac6479d8887b40de509d216856dcc99adbe7ec48443daf5c6e1#256
def otherRecord : Pubkey := 0x00e7618d382fd27119d037594cafc91d3ac0726fbb1f891a89d734ffeef1794f#256
def otherEscrow : Pubkey := 0xc53e4f9090f11de37fc8f1d51e5687148c90667ec8fc68ede759cc6ece74a580#256

def sampleHost : Host where
  programId := 1#256
  findProgramAddress seeds _ :=
    if seeds.head?=some escrowSeed then
      if seeds=[escrowSeed,sampleRecord.bytes] then (sampleEscrow,253#8)
      else if seeds=[escrowSeed,attackRecord.bytes] then (attackEscrow,255#8)
      else (otherEscrow,254#8)
    else if seeds=[scheduleSeed,Pubkey.bytes 2#256,leBytes 8 0] then (sampleRecord,252#8)
    else if seeds=[scheduleSeed,Pubkey.bytes 3#256,leBytes 8 0] then (attackRecord,253#8)
    else (otherRecord,255#8)
  minimumBalance n := BitVec.ofNat 64 ((n+128)*6960)
  clockSysvar := 5#256

theorem sampleHost_derived (hk : sampleHost.Derived k) :
    k∈[sampleRecord,sampleEscrow,attackRecord,attackEscrow,otherRecord,otherEscrow] := by
  obtain ⟨_,rfl⟩ := hk
  simp only [sampleHost]
  split_ifs <;> simp

theorem sampleHost_users : ∀ k∈[2#256,3#256],¬sampleHost.Derived k := by
  intro k hk hd
  have hderived := sampleHost_derived hd
  simp only [mem_cons,not_mem_nil,or_false] at hk
  obtain rfl | rfl := hk <;>
  · revert hderived
    decide

theorem sampleHost_address (hk : RecordAddress sampleHost k) :
    k=sampleRecord ∨ k=attackRecord ∨ k=otherRecord := by
  obtain ⟨κ,x,rfl⟩ := hk
  have hseeds : (κ.seeds x).head?≠some escrowSeed := by
    cases κ <;> simp only [Kind.seeds,head?_cons] <;> decide
  simp only [recordPda,sampleHost,if_neg hseeds]
  split_ifs <;> simp

theorem sampleHost_separate : Separate sampleHost := by
  have hone : escrowPda sampleHost sampleRecord=sampleEscrow := by decide +kernel
  have htwo : escrowPda sampleHost attackRecord=attackEscrow := by decide +kernel
  have hthree : escrowPda sampleHost otherRecord=otherEscrow := by decide +kernel
  intro j k hj hk he
  obtain rfl | rfl | rfl := sampleHost_address hj <;>
    obtain rfl | rfl | rfl := sampleHost_address hk <;>
    simp only [hone,htwo,hthree] at he <;> first | rfl | exact absurd he (by decide)

def genesis : Ledger where
  bank k := if k=2#256 ∨ k=3#256 then ⟨10000000000#64,[],systemProgram⟩ else ⟨0#64,[],systemProgram⟩
  clock := ⟨1#64,1000#64⟩

theorem genesis_untouched : Untouched sampleHost.programId genesis.bank := by
  refine untouched_of_foreign fun k => ?_
  unfold genesis
  dsimp only
  split_ifs <;> decide

def scheduleCall : Call Instruction where
  clock := ⟨2#64,1000#64⟩
  accounts := [⟨2#256,true,true⟩,⟨sampleRecord,false,true⟩,⟨sampleEscrow,false,true⟩,
    systemInfo]
  instruction := .createScheduledTransfer 4#256 5000000000#64 0#64 5000#64 0#64

def executeCall : Call Instruction where
  clock := ⟨3#64,5000#64⟩
  accounts := [⟨3#256,true,true⟩,⟨sampleRecord,false,true⟩,⟨sampleEscrow,false,true⟩,
    ⟨4#256,false,true⟩,systemInfo]
  instruction := .executeScheduledTransfer

def attackSchedule : Call Instruction where
  clock := ⟨2#64,1000#64⟩
  accounts := [⟨3#256,true,true⟩,⟨attackRecord,false,true⟩,⟨attackEscrow,false,true⟩,
    systemInfo]
  instruction := .createScheduledTransfer 3#256 1000000#64 0#64 0#64 0#64

def attackExecute : Call Instruction where
  clock := ⟨3#64,2000#64⟩
  accounts := [⟨3#256,true,true⟩,⟨attackRecord,false,true⟩,⟨sampleEscrow,false,true⟩,
    ⟨3#256,true,true⟩,systemInfo]
  instruction := .executeScheduledTransfer

theorem escrow_opened_for_recipient : ∃ tr t u,
    Run ((program sampleHost).TxStep sampleHost.Derived) genesis tr t ∧
      (program sampleHost).TxStep sampleHost.Derived t (.call executeCall) u ∧
      ∃ κ x n,transferAt sampleHost κ t.bank sampleRecord=some x ∧
        Moved t.bank u.bank sampleEscrow (κ.recipient x) n := by
  obtain ⟨tr,t,u,hrun,hstep,hbefore,hafter⟩ := exists_script_step (P := program sampleHost)
    (s := genesis) (q := fun t u => (t.bank sampleEscrow).lamports=5000000000#64 ∧
      (u.bank sampleEscrow).lamports=0#64) [.call scheduleCall,.settle] executeCall
    (by decide) sampleHost_users (by decide) (by decide +kernel)
  have hown : OwnEscrow sampleHost executeCall := by
    intro _ k hk
    cases hk
    decide +kernel
  have hescrow : escrowPda sampleHost sampleRecord=sampleEscrow := by decide +kernel
  have hless : (u.bank (escrowPda sampleHost sampleRecord)).lamports.toNat<
      (t.bank (escrowPda sampleHost sampleRecord)).lamports.toNat := by
    rw [hescrow,hbefore,hafter]
    decide
  have haddress : RecordAddress sampleHost sampleRecord :=
    ⟨.scheduled,newScheduled sampleHost 2#256 4#256 5000000000#64 0#64 5000#64 0#64 1000#64,
      by decide +kernel⟩
  obtain ⟨c,κ,y,n,hc,-,hy,hpaid | hcancel⟩ := escrow_opened_by_own_record sampleHost_separate
    genesis_untouched hrun hstep (fun c hc => by cases hc; exact hown) haddress hless
  · rw [hescrow] at hpaid
    exact ⟨tr,t,u,hrun,hstep,κ,y,n,hy,hpaid.2⟩
  · cases hc
    cases hcancel.1

/-- The attacker's transfer is executed and they have what was in the escrow of the other one,
which is still pending. -/
theorem escrow_opened_by_other_record : ∃ tr t u x,Untouched sampleHost.programId genesis.bank ∧
      Run ((program sampleHost).TxStep sampleHost.Derived) genesis tr t ∧
      (program sampleHost).TxStep sampleHost.Derived t (.call attackExecute) u ∧
      transferAt sampleHost .scheduled t.bank sampleRecord=some x ∧
      Kind.status .scheduled x=.pending ∧ attackExecute.key? 1≠some sampleRecord ∧
      escrowPda sampleHost sampleRecord=sampleEscrow ∧
      (t.bank sampleEscrow).lamports=5000000000#64 ∧ (u.bank sampleEscrow).lamports=0#64 ∧
      (u.bank 3#256).lamports=14997308720#64 := by
  obtain ⟨tr,t,u,hrun,hstep,x,hx,hpending,hbalances⟩ := exists_script_step
    (P := program sampleHost) (s := genesis) (q := fun t u =>
      ∃ x,transferAt sampleHost .scheduled t.bank sampleRecord=some x ∧
      Kind.status .scheduled x=.pending ∧ (t.bank sampleEscrow).lamports=5000000000#64 ∧
      (u.bank sampleEscrow).lamports=0#64 ∧ (u.bank 3#256).lamports=14997308720#64)
    [.call scheduleCall,.call attackSchedule,.settle] attackExecute
    (by decide) sampleHost_users (by decide) (by decide +kernel)
  exact ⟨tr,t,u,x,genesis_untouched,hrun,hstep,hx,hpending,by decide,by decide +kernel,hbalances⟩

end PrismChain.BatchTx
