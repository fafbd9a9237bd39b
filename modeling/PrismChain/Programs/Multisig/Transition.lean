import PrismChain.Programs.Multisig.Processor

namespace PrismChain.PrismMultisig

open FixedWidth List

def multisigKey? (c : Call Instruction) : Option Pubkey :=
  match c.instruction with
  | .createMultisig _ _ _ _ => none
  | .cancelTransaction => none
  | _ => c.key? 0

def transactionKey? (c : Call Instruction) : Option Pubkey :=
  match c.instruction with
  | .approveTransaction => c.key? 1
  | .rejectTransaction => c.key? 1
  | .executeTransaction => c.key? 1
  | .cancelTransaction => c.key? 0
  | _ => none

def Instruction.approves : Instruction → Bool
  | .proposeTransaction _ => true
  | .approveTransaction => true
  | _ => false

structure Shaped (m : Multisig) : Prop where
  distinct : m.signers.val.Nodup
  many : minSigners≤ m.signers.val.length
  few : m.signers.val.length≤ maxSigners
  positive : 1≤ m.threshold.toNat
  reachable : m.threshold.toNat≤ m.signers.val.length

/-- The instructions that only the multisig itself may give. -/
def Instruction.changesOwn : Instruction → Bool
  | .addSigner _ => true
  | .removeSigner _ => true
  | .changeThreshold _ => true
  | _ => false

def Instruction.threshold (i : Instruction) (old : U8) : U8 :=
  match i with
  | .createMultisig threshold _ _ _ => threshold
  | .changeThreshold newThreshold => newThreshold
  | _ => old

section Effects

variable (h : Runtime) (fm : Formats) (c : Call Instruction) (b b' : Bank)

structure Kept (k : Pubkey) (m : Multisig) : Prop where
  quiet : c.instruction.approves=false
  place : (∃ label,k=(multisigPda h label).1) ∨ multisigKey? c=some k
  wrote : Wrote fm.multisig h.programId b b' k m

structure Proposed (km kt proposer : Pubkey) (m : Multisig) (ix : MultisigInstructionData) :
    Prop where
  instruction : c.instruction=.proposeTransaction ix
  multisigKey : c.key? 0=some km
  transactionKey : c.key? 1=some kt
  proposerKey : c.key? 2=some proposer
  multisig : fm.multisig.load (b km).data=some m
  entitled : proposer∈m.signers.val
  place : kt=(transactionPda h km m.transactionCount).1
  wrote : ∃ b₁ count bump,Wrote fm.multisig h.programId b b₁ km {m with transactionCount := count} ∧
    Wrote fm.transaction h.programId b₁ b' kt
      (newTransaction km proposer m.transactionCount ix c.clock.unixTimestamp bump)

structure Approved (km kt approver : Pubkey) (m : Multisig) (t : MultisigTransaction)
    (approvals : Vec Pubkey) : Prop where
  instruction : c.instruction=.approveTransaction
  multisigKey : c.key? 0=some km
  transactionKey : c.key? 1=some kt
  approverKey : c.key? 2=some approver
  multisig : fm.multisig.load (b km).data=some m
  entitled : approver∈m.signers.val
  transaction : fm.transaction.load (b kt).data=some t
  pending : t.status=.pending
  first : approver∉t.approvals.val
  pushed : approvals.val=t.approvals.val++[approver]
  wrote : Wrote fm.transaction h.programId b b' kt
    (endorsed t approvals m.threshold c.clock.unixTimestamp)

structure Opposed (kt : Pubkey) (t t' : MultisigTransaction) : Prop where
  quiet : c.instruction.approves=false
  transactionKey : transactionKey? c=some kt
  transaction : fm.transaction.load (b kt).data=some t
  pending : t.status=.pending
  sameMultisig : t'.multisig=t.multisig
  sameApprovals : t'.approvals=t.approvals
  sameLife : t'.isInitialized=t.isInitialized
  unapproved : t'.status≠.approved
  wrote : Wrote fm.transaction h.programId b b' kt t'

inductive Accepted : Prop
  | kept {k : Pubkey} {m : Multisig} (u : Kept h fm c b b' k m)
  | proposed {km kt proposer : Pubkey} {m : Multisig} {ix : MultisigInstructionData}
      (u : Proposed h fm c b b' km kt proposer m ix)
  | approved {km kt approver : Pubkey} {m : Multisig} {t : MultisigTransaction}
      {approvals : Vec Pubkey} (u : Approved h fm c b b' km kt approver m t approvals)
  | opposed {kt : Pubkey} {t t' : MultisigTransaction} (u : Opposed h fm c b b' kt t t')
  | idle {km m : Pubkey} {i : U64} (hkey : multisigKey? c=some km)
      (hplace : km=(transactionPda h m i).1)

/-- What an instruction that calls nobody does, with all that it has checked. -/
inductive Effect : Prop
  | created {k : Pubkey} {threshold : U8} {signers : Vec Pubkey} {timeLock : I64}
      {label : BitVec 256} {m : Multisig}
      (hi : c.instruction=.createMultisig threshold signers timeLock label)
      (hkey : c.key? 0=some k) (hplace : k=(multisigPda h label).1) (hm : Shaped m)
      (hthreshold : m.threshold=threshold) (w : Wrote fm.multisig h.programId b b' k m)
  | changed {k : Pubkey} {m m' : Multisig} (hi : c.instruction.changesOwn=true)
      (hkey : c.key? 0=some k) (hm : fm.multisig.load (b k).data=some m)
      (hm' : Shaped m → Shaped m')
      (hthreshold : m'.threshold=c.instruction.threshold m.threshold)
      (w : Wrote fm.multisig h.programId b b' k m')
  | proposed {km kt proposer : Pubkey} {m : Multisig} {ix : MultisigInstructionData}
      (u : Proposed h fm c b b' km kt proposer m ix) (hgrew : ∃ b₁ count,count≠m.transactionCount ∧
        Wrote fm.multisig h.programId b b₁ km {m with transactionCount := count})
  | approved {km kt approver : Pubkey} {m : Multisig} {t : MultisigTransaction}
      {approvals : Vec Pubkey} (u : Approved h fm c b b' km kt approver m t approvals)
      (hrejections : approver∉t.rejections.val)
  | rejected {km kt rejector : Pubkey} {m : Multisig} {t : MultisigTransaction}
      {rejections : Vec Pubkey} (hi : c.instruction=.rejectTransaction) (hkm : c.key? 0=some km)
      (hkt : c.key? 1=some kt) (hkr : c.key? 2=some rejector)
      (hm : fm.multisig.load (b km).data=some m) (hentitled : rejector∈m.signers.val)
      (ht : fm.transaction.load (b kt).data=some t) (hpending : t.status=.pending)
      (hrejections : rejector∉t.rejections.val) (happrovals : rejector∉t.approvals.val)
      (hpush : rejections.val=t.rejections.val++[rejector])
      (w : Wrote fm.transaction h.programId b b' kt (opposed t rejections m))
  | cancelled {k : Pubkey} {t : MultisigTransaction} (hi : c.instruction=.cancelTransaction)
      (hkey : c.key? 0=some k) (ht : fm.transaction.load (b k).data=some t)
      (hpending : t.status=.pending)
      (w : Wrote fm.transaction h.programId b b' k {t with status := .cancelled})
  | idle {k m : Pubkey} {i : U64} {ix : MultisigInstructionData}
      (hi : c.instruction=.proposeTransaction ix) (hkm : c.key? 0=some k) (hkt : c.key? 1=some k)
      (hplace : k=(transactionPda h m i).1) (hsame : b'=b)

/-- What an accepted `ExecuteTransaction` does: it makes a call, by which `b` becomes `b₁` and in
which the instructions `nested` of the program are processed, and then notes the execution. -/
structure Executed (n : Nat) (km kt : Pubkey) (m : Multisig) (t : MultisigTransaction) (b₁ : Bank)
    (nested : List Event) : Prop where
  instruction : c.instruction=.executeTransaction
  multisigKey : c.key? 0=some km
  transactionKey : c.key? 1=some kt
  multisig : fm.multisig.load (b km).data=some m
  transaction : fm.transaction.load (b kt).data=some t
  approved : t.status=.approved
  called : (∃ c',processTo h fm n c' b=.ok (b₁,nested)) ∨
    nested=[] ∧ ∃ p clk accounts data,p≠h.programId ∧ h.foreign p clk accounts data b=.ok b₁
  wrote : ∃ d,fm.transaction.store {t with status := .executed,executedAt := c.clock.unixTimestamp}
    (b₁ kt).data=some d ∧ b'=b₁.setData kt d

end Effects

section Handlers

variable {h : Runtime} {accounts : List AccountInfo} {f : Frame} {m m' : Multisig}

theorem loadMultisig_eq_ok :
    loadMultisig fm f k=.ok m ↔ fm.multisig.load (f.view k).data=some m := okOr_eq_ok

theorem loadTransaction_eq_ok :
    loadTransaction fm f k=.ok t ↔ fm.transaction.load (f.view k).data=some t := okOr_eq_ok

theorem isSignerOf_eq_true : isSignerOf m k=true ↔ k∈m.signers.val := by
  simp [isSignerOf]

theorem endorsed_fields (t : MultisigTransaction) (approvals : Vec Pubkey) (threshold : U8)
    (now : I64) : (endorsed t approvals threshold now).approvals=approvals ∧
      (endorsed t approvals threshold now).multisig=t.multisig ∧
      (endorsed t approvals threshold now).isInitialized=t.isInitialized := by
  unfold endorsed
  split_ifs <;> exact ⟨rfl,rfl,rfl⟩

theorem Shaped.added (hnew : k∉m.signers.val) (hroom : m.signers.val.length< maxSigners)
    (hpush : m.signers.push k=some signers) (hm : Shaped m) :
    Shaped {m with signers := signers} := by
  obtain ⟨hdistinct,_,-,hpositive,_⟩ := hm
  have hlist := Vec.push_eq_some.mp hpush
  have hlength : signers.val.length=m.signers.val.length+1 := by
    rw [hlist,length_append,length_singleton]
  refine ⟨?_,?_,?_,hpositive,?_⟩
  · dsimp only
    rw [hlist,← concat_eq_append]
    exact hdistinct.concat hnew
  · dsimp only
    omega
  · dsimp only
    omega
  · dsimp only
    omega

theorem Shaped.removed (hi : i< m.signers.val.length)
    (hthreshold : m.threshold.toNat≤ m.signers.val.length-1)
    (hmany : minSigners≤ m.signers.val.length-1)
    (hm : Shaped m) : Shaped {m with signers := removeAt m.signers i} := by
  have hlength : (removeAt m.signers i).val.length=m.signers.val.length-1 :=
    length_eraseIdx_of_lt hi
  have hfew := hm.few
  refine ⟨hm.distinct.sublist (eraseIdx_sublist _ _),?_,?_,hm.positive,?_⟩
  all_goals
    dsimp only
    omega

variable (hsync : Synced h.programId accounts f)
include hsync

theorem create_effect {threshold : U8}
    (hp : createMultisig h fm threshold signers timeLock label accounts ⟨b,b⟩=.ok f) :
    Effect h fm ⟨clock,accounts,.createMultisig threshold signers timeLock label⟩ b f.view := by
  unfold createMultisig at hp
  split at hp <;> simp only [steps_ok] at hp
  rename_i multisigInfo payerInfo _ _ _
  obtain ⟨-,-,-,hmany,-,hfew,-,hpositive,-,hreachable,-,-,-,hdistinct,-,hplace,-,-,hsave⟩ := hp
  exact .created rfl rfl hplace
    ⟨(sortKeys_apart _).mp hdistinct,hmany,hfew,hpositive,hreachable⟩ rfl
    (wrote_of_save hsave hsync (by simp))

theorem own_effect {i : Instruction} (hi : i.changesOwn=true) (hchange : ∀ {m m'},change m=.ok m' →
      (Shaped m → Shaped m') ∧ m'.threshold=i.threshold m.threshold)
    (hp : onOwnMultisig fm change accounts ⟨b,b⟩=.ok f) :
    Effect h fm ⟨clock,accounts,i⟩ b f.view := by
  unfold onOwnMultisig at hp
  split at hp <;> simp only [steps_ok,loadMultisig_eq_ok] at hp
  rename_i multisigInfo authorityInfo _
  obtain ⟨-,-,m,hm,m',hm',hsave⟩ := hp
  exact .changed hi rfl hm (hchange hm').1 (hchange hm').2 (wrote_of_save hsave hsync (by simp))

theorem propose_effect (hp : proposeTransaction h fm clock ix accounts ⟨b,b⟩=.ok f) :
    Effect h fm ⟨clock,accounts,.proposeTransaction ix⟩ b f.view := by
  unfold proposeTransaction at hp
  split at hp <;> simp only [steps_ok,loadMultisig_eq_ok,isSignerOf_eq_true] at hp
  rename_i multisigInfo transactionInfo proposerInfo _ _ _ _
  obtain ⟨-,-,-,-,-,-,m,hm,-,hentitled,count,hcount,-,-,-,hplace,_,hfirst,hsecond⟩ := hp
  have hgrew : count≠m.transactionCount := by
    rintro rfl
    have hnext := checkedAdd_eq_some.mp hcount
    have hone : (1#64).toNat=1 := rfl
    omega
  obtain ⟨b1,hw1,hw2⟩ | ⟨hsame,-,hview⟩ :=
    wrote_of_saves_or_same hfirst hsecond hsync (by simp) (by simp)
  · exact .proposed ⟨rfl,rfl,rfl,rfl,hm,hentitled,hplace,b1,count,_,hw1,hw2⟩ ⟨b1,count,hgrew,hw1⟩
  · exact .idle rfl rfl (congrArg some hsame.symm) (hsame.trans hplace) hview

theorem approve_effect (hp : approveTransaction h fm clock accounts ⟨b,b⟩=.ok f) :
    Effect h fm ⟨clock,accounts,.approveTransaction⟩ b f.view := by
  unfold approveTransaction at hp
  split at hp
  case h_2 => cases hp
  rename_i multisigInfo transactionInfo approverInfo _ _
  simp only [steps_ok,loadMultisig_eq_ok,loadTransaction_eq_ok,isSignerOf_eq_true] at hp
  obtain ⟨-,-,m,hm,-,hentitled,t,ht,-,hpending,-,hfirst,-,hrejections,_,hpush,-,-,hsave⟩ := hp
  exact .approved ⟨rfl,rfl,rfl,rfl,hm,hentitled,ht,hpending,hfirst,Vec.push_eq_some.mp hpush,
    wrote_of_save hsave hsync (by simp)⟩ hrejections

theorem reject_effect (hp : rejectTransaction fm accounts ⟨b,b⟩=.ok f) :
    Effect h fm ⟨clock,accounts,.rejectTransaction⟩ b f.view := by
  unfold rejectTransaction at hp
  split at hp
  case h_2 => cases hp
  rename_i multisigInfo transactionInfo rejectorInfo _ _
  simp only [steps_ok,loadMultisig_eq_ok,loadTransaction_eq_ok,isSignerOf_eq_true] at hp
  obtain ⟨-,-,m,hm,-,hentitled,t,ht,-,hpending,-,hrejections,-,happrovals,_,hpush,hsave⟩ := hp
  exact .rejected rfl rfl rfl rfl hm hentitled ht hpending hrejections happrovals
    (Vec.push_eq_some.mp hpush) (wrote_of_save hsave hsync (by simp))

theorem cancel_effect (hp : cancelTransaction fm accounts ⟨b,b⟩=.ok f) :
    Effect h fm ⟨clock,accounts,.cancelTransaction⟩ b f.view := by
  unfold cancelTransaction at hp
  split at hp <;> simp only [steps_ok,loadTransaction_eq_ok] at hp
  rename_i transactionInfo proposerInfo _
  obtain ⟨-,-,t,ht,-,-,-,hpending,hsave⟩ := hp
  exact .cancelled rfl rfl ht hpending (wrote_of_save hsave hsync (by simp))

theorem plain_effect (hp : plainInstruction h fm clock accounts i ⟨b,b⟩=.ok f) :
    Effect h fm ⟨clock,accounts,i⟩ b f.view := by
  cases i with
  | createMultisig _ signers => exact create_effect hsync hp
  | proposeTransaction => exact propose_effect hsync hp
  | approveTransaction => exact approve_effect hsync hp
  | rejectTransaction => exact reject_effect hsync hp
  | cancelTransaction => exact cancel_effect hsync hp
  | executeTransaction => cases hp
  | addSigner =>
    refine own_effect hsync rfl (fun hchange => ?_) hp
    simp only [steps_ok] at hchange
    obtain ⟨-,hnew,-,hroom,signers,hpush,rfl⟩ := hchange
    exact ⟨.added hnew hroom hpush,rfl⟩
  | removeSigner =>
    refine own_effect hsync rfl (fun hchange => ?_) hp
    simp only [steps_ok] at hchange
    obtain ⟨i,hfind,-,hthreshold,-,hmany,rfl⟩ := hchange
    obtain ⟨hi,-⟩ := findIdx?_eq_some_iff_getElem.mp hfind
    exact ⟨.removed hi hthreshold hmany,rfl⟩
  | changeThreshold =>
    refine own_effect hsync rfl (fun hchange => ?_) hp
    simp only [steps_ok] at hchange
    obtain ⟨-,hpositive,-,hreachable,rfl⟩ := hchange
    exact ⟨fun hm => ⟨hm.distinct,hm.many,hm.few,hpositive,hreachable⟩,rfl⟩

omit hsync

theorem Effect.accepted {c : Call Instruction} (u : Effect h fm c b b') : Accepted h fm c b b' := by
  cases u with
  | created hi hkey hplace hm hthreshold w =>
    exact .kept ⟨by rw [hi]; rfl,.inl ⟨_,hplace⟩,w⟩
  | changed hi hkey hm _ hthreshold w =>
    obtain ⟨_,_,i⟩ := c
    refine .kept ⟨?_,.inr ?_,w⟩ <;> cases i <;> first | rfl | exact hkey | cases hi
  | proposed u => exact .proposed u
  | approved u => exact .approved u
  | @rejected km kt rejector m t rejections hi hkm hkt hkr hm hentitled ht hpending hrejections
      happrovals hpush w =>
    have hopposed : (opposed t rejections m).multisig=t.multisig ∧
        (opposed t rejections m).approvals=t.approvals ∧
        (opposed t rejections m).isInitialized=t.isInitialized ∧
        (opposed t rejections m).status≠.approved := by
      unfold opposed
      dsimp only
      split_ifs
      · exact ⟨rfl,rfl,rfl,nofun⟩
      · exact ⟨rfl,rfl,rfl,by rw [hpending]; nofun⟩
    exact .opposed ⟨by rw [hi]; rfl,by simp [transactionKey?,hi,hkt],ht,hpending,hopposed.1,
      hopposed.2.1,hopposed.2.2.1,hopposed.2.2.2,w⟩
  | cancelled hi hkey ht hpending w =>
    refine .opposed ⟨by rw [hi]; rfl,by simp [transactionKey?,hi,hkey],ht,hpending,?_,?_,?_,?_,w⟩
    · rfl
    · rfl
    · rfl
    · nofun
  | idle hi hkm hkt hplace => exact .idle (by simp [multisigKey?,hi,hkm]) hplace

theorem dispatch_spec (hd : dispatch h clock self ix b=.ok (b',nested)) :
    (∃ c,self c b=.ok (b',nested)) ∨
      nested=[] ∧ ∃ p clk accounts data,p≠h.programId ∧ h.foreign p clk accounts data b=.ok b' := by
  unfold dispatch at hd
  split at hd
  case isTrue =>
    obtain ⟨i,-,hself⟩ := bind_eq_ok.mp hd
    exact .inl ⟨_,hself⟩
  case isFalse hforeign =>
    obtain ⟨_,hb1,hpure⟩ := bind_eq_ok.mp hd
    cases pure_eq_ok.mp hpure
    exact .inr ⟨rfl,_,_,_,_,hforeign,hb1⟩

theorem execute_transaction_spec
    (hp : executeTransaction h fm clock (processTo h fm n) accounts ⟨b,b⟩=.ok (f,nested)) :
    ∃ km kt m t b1,Executed h fm ⟨clock,accounts,.executeTransaction⟩ b f.view n km kt m t b1
      nested := by
  unfold executeTransaction at hp
  split at hp <;> simp only [steps_ok,loadMultisig_eq_ok,loadTransaction_eq_ok] at hp
  rename_i multisigInfo transactionInfo executorInfo _ remaining
  obtain ⟨-,-,m,hm,-,-,t,ht,-,_,-,_,-,_,-,_,-,-,-,-,-,-,_,-,
    called,hcalled,g,hsave,heq⟩ := hp
  cases heq
  simp only [invokeSigned,steps_ok] at hcalled
  obtain ⟨-,-,-,-,-,-,-,-,⟨b1,nested⟩,hdispatch,rfl⟩ := hcalled
  obtain ⟨d,hd,rfl⟩ := Frame.save_eq_ok.mp hsave
  have happroved : t.status=.approved := by
    cases hstatus : t.status <;> simp_all
  exact ⟨_,_,m,t,b1,rfl,rfl,rfl,hm,ht,happroved,dispatch_spec hdispatch,d,hd,rfl⟩

end Handlers

section Processing

variable {log : List Event}

theorem processInstruction_plain (hi : i≠.executeTransaction) :
    processInstruction h fm self clock accounts i f=
      (plainInstruction h fm clock accounts i f >>= fun g => pure (g,[])) := by
  cases i <;> first | rfl | exact absurd rfl hi

theorem processTo_eq_ok : processTo h fm (n+1) c b=.ok (b',log) ↔
    ∃ f nested,processInstruction h fm (processTo h fm n) c.clock c.accounts c.instruction ⟨b,b⟩=
        .ok (f,nested) ∧
      Synced h.programId c.accounts f ∧
      f.view=b' ∧ log=⟨c,b⟩::nested := by
  rw [processTo,bind_eq_ok]
  simp only [steps_ok,Prod.mk.injEq]
  constructor
  · rintro ⟨⟨f,nested⟩,hdone,_,hsync,hview,hlog⟩
    exact ⟨f,nested,hdone,hsync,hview,hlog.symm⟩
  · rintro ⟨f,nested,hdone,hsync,hview,hlog⟩
    exact ⟨⟨f,nested⟩,hdone,(),hsync,hview,hlog.symm⟩

theorem processTo_spec (hp : processTo h fm (n+1) c b=.ok (b',log)) :
    (log=[⟨c,b⟩] ∧ Accepted h fm c b b' ∧ c.instruction≠.executeTransaction) ∨
    ∃ km kt m t b1 nested,log=⟨c,b⟩::nested ∧ Executed h fm c b b' n km kt m t b1 nested := by
  obtain ⟨f,nested,hdone,hsync,rfl,rfl⟩ := processTo_eq_ok.mp hp
  obtain ⟨_,_,i⟩ := c
  by_cases hi : i=.executeTransaction
  · subst hi
    obtain ⟨km,kt,m,t,b1,u⟩ := execute_transaction_spec hdone
    exact .inr ⟨km,kt,m,t,b1,nested,rfl,u⟩
  · rw [processInstruction_plain hi,bind_eq_ok] at hdone
    obtain ⟨g,hg,hpure⟩ := hdone
    cases pure_eq_ok.mp hpure
    exact .inl ⟨rfl,(plain_effect hsync hg).accepted,hi⟩

theorem execute_eq_ok :
    (program h fm).execute c b=.ok b' ↔ ∃ log,processTo h fm 5 c b=.ok (b',log) := by
  simp only [Program.execute_eq_ok,processTo_eq_ok]
  constructor
  · rintro ⟨f,hf,hsync,hview⟩
    change Except.map Prod.fst (processInstruction h fm (processTo h fm 4) c.clock c.accounts
      c.instruction ⟨b,b⟩)=.ok f at hf
    cases hdone :
      processInstruction h fm (processTo h fm 4) c.clock c.accounts c.instruction ⟨b,b⟩ with
    | error =>
      rw [hdone] at hf
      cases hf
    | ok done =>
      rw [hdone] at hf
      cases hf
      exact ⟨_,done.1,done.2,rfl,hsync,hview,rfl⟩
  · rintro ⟨log,f,_,hdone,hsync,hview,-⟩
    refine ⟨f,?_,hsync,hview⟩
    change Except.map Prod.fst (processInstruction h fm (processTo h fm 4) c.clock c.accounts
      c.instruction ⟨b,b⟩)=.ok f
    rw [hdone]
    rfl

theorem eventsOf_eq (hp : processTo h fm 5 c b=.ok (b',log)) : eventsOf h fm c b=log := by
  unfold eventsOf
  rw [hp]

end Processing
end PrismChain.PrismMultisig
