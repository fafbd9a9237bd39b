import PrismChain.Programs.Multisig.Shape

namespace PrismChain.PrismMultisig

open Option List Function Program

def undecided (m : Multisig) (t : MultisigTransaction) : List Pubkey :=
  m.signers.val.filter fun k => k∉t.approvals.val ∧ k∉t.rejections.val

/-- The approvals that the record can still come to. -/
def attainable (m : Multisig) (t : MultisigTransaction) : Nat :=
  t.approvals.val.length+(undecided m t).length

/-- The votes of those who are signers no more. -/
def departed (m : Multisig) (t : MultisigTransaction) : Nat :=
  (t.approvals.val.filter (·∉m.signers.val)).length+(t.rejections.val.filter
    (·∉m.signers.val)).length

section Counting

variable {l l' : List Pubkey}

theorem common_length (hl : l.Nodup) (hl' : l'.Nodup) :
    (l.filter (·∈l')).length=(l'.filter (·∈l)).length := by
  refine ((perm_ext_iff_of_nodup (hl.filter _) (hl'.filter _)).mpr fun k => ?_).length_eq
  simp [and_comm]

theorem length_split (l l' : List Pubkey) :
    l.length=(l.filter (·∈l')).length+(l.filter (·∉l')).length := by
  have hsplit := length_eq_length_filter_add (l := l) fun k => decide (k∈l')
  simpa using hsplit

theorem Voted.count (hv : Voted h b t) (hm : Shaped m) :
    m.signers.val.length+departed m t=attainable m t+t.rejections.val.length := by
  have hsigners := length_split m.signers.val t.approvals.val
  have hothers := length_split (m.signers.val.filter (·∉t.approvals.val)) t.rejections.val
  have hrejectors : (m.signers.val.filter (·∉t.approvals.val)).filter (·∈t.rejections.val)=
      m.signers.val.filter (·∈t.rejections.val) := by
    rw [List.filter_filter]
    refine filter_congr fun k _ => ?_
    have := @hv.apart k
    simpa using fun hr ha => this ha hr
  have hundecided : (m.signers.val.filter (·∉t.approvals.val)).filter (·∉t.rejections.val)=
      undecided m t := by
    rw [List.filter_filter]
    refine filter_congr fun k _ => ?_
    simp [Bool.and_comm]
  have happrovals := length_split t.approvals.val m.signers.val
  have hrejections := length_split t.rejections.val m.signers.val
  rw [hrejectors,hundecided] at hothers
  rw [common_length hm.distinct hv.approvals] at hsigners
  rw [common_length hm.distinct hv.rejections] at hothers
  unfold departed attainable
  omega

end Counting

theorem opposed_rejected {m : Multisig} {t : MultisigTransaction} {rejections : Vec Pubkey}
    (hpending : t.status=.pending) (hle : rejections.val.length≤ m.signers.val.length) :
    (opposed t rejections m).status=.rejected ↔
      m.signers.val.length-rejections.val.length< m.threshold.toNat := by
  have hpossible : (2^64+m.signers.val.length-rejections.val.length)%2^64=
      m.signers.val.length-rejections.val.length := by
    have := m.signers.property
    omega
  unfold opposed
  dsimp only
  rw [hpossible]
  split_ifs with hfew
  · exact iff_of_true rfl hfew
  · exact iff_of_false (by dsimp only; rw [hpending]; nofun) hfew

theorem opposed_fields (t : MultisigTransaction) (rejections : Vec Pubkey) (m : Multisig) :
    (opposed t rejections m).rejections=rejections ∧
    (opposed t rejections m).approvals=t.approvals ∧
      (opposed t rejections m).multisig=t.multisig := by
  unfold opposed
  dsimp only
  split_ifs <;> exact ⟨rfl,rfl,rfl⟩

/-- A rejection is accurate just if the votes of those who have left make no difference: they let
the code take the record for lost too early, or wrap its subtraction around. -/
theorem rejection_accurate_iff {h : Runtime} (hlaw : h.Lawful) {s : Ledger}
    (h0 : Untouched h.programId s.bank) (hrun : Run ((program h .values).Step anyCall) s tr s')
    {e : Event} (he : e∈events h .values tr) (hi : e.call.instruction=.rejectTransaction)
    (hkt : e.call.key? 1=some kt) (hkr : e.call.key? 2=some rejector)
    (ht : Formats.values.transaction.load (e.bank kt).data=some t)
    (hkm : e.call.key? 0=some t.multisig)
    (hm : Formats.values.multisig.load (e.bank t.multisig).data=some m) :
    ∃ b' t',e.Left h b' ∧ cellAt Formats.values.transaction h.programId b' kt=some t' ∧
      t'.approvals=t.approvals ∧ t'.rejections.val=t.rejections.val++[rejector] ∧
      ((t'.rejections.val.length≤ m.signers.val.length ∧
        (t'.status=.rejected ↔ attainable m t'< m.threshold.toNat)) ↔
      m.threshold.toNat+departed m t'≤ attainable m t' ∨
        departed m t'≤ attainable m t' ∧ attainable m t'< m.threshold.toNat) := by
  obtain ⟨-,hevents⟩ := (Sane.invariant h).run hlaw (start_sane h0) hrun fun _ _ => trivial
  obtain ⟨hs,hleft⟩ := hevents e he
  obtain ⟨b',hleft⟩ := hleft (by rw [hi]; nofun)
  cases hleft.effect with
  | created hi' => cases hi'.symm.trans hi
  | changed hi' =>
    rw [hi] at hi'
    cases hi'
  | proposed u => cases u.instruction.symm.trans hi
  | approved u => cases u.instruction.symm.trans hi
  | cancelled hi' => cases hi'.symm.trans hi
  | idle hi' => cases hi'.symm.trans hi
  | @rejected km' kt' _ m' t0 rejections _ hkm' hkt' hkr' hm' hentitled ht' hpending
      hfirst happroved
      hpush w =>
    cases hkt.symm.trans hkt'
    cases hkr.symm.trans hkr'
    cases ht.symm.trans ht'
    cases hkm.symm.trans hkm'
    cases hm.symm.trans hm'
    have howner : (e.bank kt).owner=h.programId := by
      refine w.owned_of_ne transaction_exact ht fun hsame => ?_
      have hsame' := congrArg MultisigTransaction.rejections hsame
      rw [(opposed_fields t rejections m).1] at hsame'
      rw [← hsame'] at hfirst
      exact hfirst (by rw [hpush]; simp)
    have hvoted := hs.voted (cellAt_eq_some.mpr ⟨howner,ht⟩) hpending
    have hshaped := hs.shaped (cellAt_eq_some.mpr ⟨hvoted.owned,hm⟩)
    have hcount := (hvoted.opposed hfirst happroved hpush m).count hshaped
    obtain ⟨hsame,hkept,-⟩ := opposed_fields t rejections m
    refine ⟨b',_,hleft,w.cell transaction_exact howner,hkept,by rw [hsame,hpush],?_⟩
    rw [hsame] at hcount ⊢
    constructor
    · rintro ⟨hle,hexact⟩
      rw [opposed_rejected hpending hle] at hexact
      omega
    · intro hcond
      have hle : rejections.val.length≤ m.signers.val.length := by omega
      rw [opposed_rejected hpending hle]
      omega

theorem Effect.unapproving (u : Effect h .borsh c b b') : c.instruction≠.approveTransaction := by
  intro hi'
  cases u with
  | created hi | changed hi | rejected hi | cancelled hi | idle hi =>
    simp [hi',Instruction.changesOwn] at hi
  | proposed u => cases hi'.symm.trans u.instruction
  | approved u =>
    obtain ⟨_,hput,-⟩ := u.wrote.put
    have hle := Storage.inPlace_le u.transaction hput
    unfold endorsed at hle
    split_ifs at hle <;>
      simp [transactionCodec,statusCodec,Codec.vec_length pubkey_length,u.pushed] at hle

theorem processTo_unapproving (hp : processTo h .borsh n c b=.ok (b',log)) {e : Event}
    (he : e∈log) : e.call.instruction≠.approveTransaction := by
  induction n generalizing c b b' log with
  | zero => cases hp
  | succ n ih =>
    obtain ⟨rfl,-,hi⟩ | ⟨_,_,_,_,_,_,rfl,u⟩ := processTo_spec hp
    · obtain rfl := mem_singleton.mp he
      obtain ⟨_,_,hdone,hsync,-⟩ := processTo_eq_ok.mp hp
      rw [processInstruction_plain hi,bind_eq_ok] at hdone
      obtain ⟨_,hg,hpure⟩ := hdone
      obtain ⟨rfl,-⟩ := Prod.mk.inj (pure_eq_ok.mp hpure)
      exact (plain_effect hsync hg).unapproving
    · obtain rfl | he := mem_cons.mp he
      · simp [u.instruction]
      · obtain ⟨_,hc⟩ | ⟨rfl,-⟩ := u.called
        · exact ih hc he
        · cases he

/-- An approval makes the record longer than the data it was read from: none is ever processed, at
whatever depth of the calls. -/
theorem no_approval_processed (h : Runtime) (tr : Trace Instruction) :
    .approveTransaction∉(events h .borsh tr).map (·.call.instruction) := by
  intro hin
  obtain ⟨e,he,hi⟩ := mem_map.mp hin
  obtain ⟨x,-,hx⟩ := mem_flatMap.mp he
  split at hx
  · unfold eventsOf at hx
    split at hx
    · exact processTo_unapproving ‹_› hx hi
    · cases hx
  · cases hx

def sampleVote (i : Instruction) (transaction signer : Pubkey) : Call Instruction :=
  ⟨⟨1#64,300#64⟩,[⟨3#256,false,true⟩,⟨transaction,false,true⟩,⟨signer,true,false⟩,
    ⟨4#256,false,false⟩,systemInfo,⟨5#256,false,false⟩],i⟩

def votingStart : Ledger :=
  ⟨Function.update sampleBank 6002#256 ⟨1000#64,[],100#256⟩,⟨0#64,0#64⟩⟩

theorem voting_untouched : Untouched sampleRuntime.programId votingStart.bank := by
  intro k howner x hx
  change (update sampleBank 6002#256 _ k).owner=_ at howner
  change x∈(update sampleBank 6002#256 _ k).data at hx
  by_cases hk : k=6002#256
  · rw [hk,update_self] at hx
    cases hx
  · rw [update_of_ne hk] at howner hx
    exact sample_untouched k howner x hx

theorem first_rejection_accurate : ∃ tr s' e b' t' m,
    Run ((program sampleRuntime .values).Step anyCall) votingStart tr s' ∧
    e∈events sampleRuntime .values tr ∧ e.Left sampleRuntime b' ∧
    cellAt Formats.values.transaction 100#256 b' 6000#256=some t' ∧
    t'.rejections.val=[32#256] ∧ t'.rejections.val.length≤ m.signers.val.length ∧
    (t'.status=.rejected ↔ attainable m t'< m.threshold.toNat) := by
  obtain ⟨⟨tr,s'⟩,hhistory,e,he,hi,hkm,hkt,hkr,t,ht,hown,hayes,hnoes,m,hm,hsigners,hthreshold⟩ :
      ∃ x∈(program sampleRuntime .values).history [ownCall,proposeCall,sampleVote .rejectTransaction
        6000#256 32#256] votingStart, ∃ e∈events sampleRuntime .values
        x.1,e.call.instruction=.rejectTransaction ∧ e.call.key? 0=some 3#256 ∧
      e.call.key? 1=some 6000#256 ∧ e.call.key? 2=some 32#256 ∧
      ∃ t∈Formats.values.transaction.load (e.bank 6000#256).data,t.multisig=3#256 ∧
      t.approvals.val=[31#256] ∧ t.rejections.val=[] ∧
      ∃ m∈Formats.values.multisig.load (e.bank 3#256).data, m.signers.val=[31#256,32#256,33#256] ∧
      m.threshold=2#8 := by decide +kernel
  have hrun := history_anyCall hhistory
  rw [← hown] at hkm hm
  obtain ⟨b',t',hleft,ht',hsame,hpush,hexact⟩ := rejection_accurate_iff sampleRuntime_lawful
    voting_untouched hrun he hi hkt hkr ht hkm hm
  rw [hnoes,nil_append] at hpush
  have hvalues : attainable m t'=2 ∧ departed m t'=0 := by
    unfold attainable undecided departed
    rw [hsame,hayes,hpush,hsigners]
    decide
  refine ⟨tr,s',e,b',t',m,hrun,he,hleft,ht',hpush,hexact.mpr (Or.inl ?_)⟩
  rw [hvalues.1,hvalues.2,hthreshold]
  decide

def removal : MultisigInstructionData :=
  ⟨100#256,⟨_,short_metas⟩,⟨7#8::Pubkey.bytes 31#256,by decide⟩⟩

/-- The signer 31 has approved the transaction 6000 and is then removed. A rejection by 32 ends it,
although with the approval of 33 it would have reached the threshold. -/
theorem rejected_too_early : ∃ x t m,(program sampleRuntime .values).history
      [ownCall,proposeCall,sampleVote (.proposeTransaction removal) 6002#256 32#256,
        sampleVote .approveTransaction 6002#256 33#256,executeCall 3#256 6002#256 33#256 100#256,
        sampleVote .rejectTransaction 6000#256 32#256] votingStart=some x ∧
    cellAt Formats.values.transaction 100#256 x.2.bank 6000#256=some t ∧ t.multisig=3#256 ∧
    cellAt Formats.values.multisig 100#256 x.2.bank 3#256=some m ∧
    t.rejections.val=[32#256] ∧ t.status=.rejected ∧ ¬attainable m t< m.threshold.toNat := by
  simp only [exists_and_left]
  decide +kernel

end PrismChain.PrismMultisig
