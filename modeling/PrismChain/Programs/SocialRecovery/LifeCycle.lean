import PrismChain.Programs.SocialRecovery.Transition

namespace PrismChain.SocialRecovery

open Option List Program

def Separate (h : Host) : Prop := ∀ owner o i,(configPda h owner).1≠(requestPda h o i).1

def Initiates (c : Call Instruction) (k : Pubkey) : Prop :=
  (∃ newOwner,c.instruction=.initiateRecovery newOwner) ∧ c.key? 1=some k

structure Sound (r : RecoveryRequest) : Prop where
  distinct : r.approvals.val.Nodup
  reached : r.status=.approved ∨ r.status=.executed → r.threshold.toNat≤ r.approvals.val.length ∧
      r.approvedAt.toInt≤ r.createdAt.toInt+recoveryExpirySecs.toInt
  waited : r.status=.executed → r.approvedAt.toInt+recoveryDelaySecs.toInt≤ r.executedAt.toInt
  unexpired : r.status≠.expired

structure Follows (r r' : RecoveryRequest) : Prop where
  grown : r.approvals.val<+:r'.approvals.val
  final : r.status=.executed ∨ r.status=.cancelled → r'=r

theorem Follows.refl (r : RecoveryRequest) : Follows r r := ⟨prefix_rfl,fun _ => rfl⟩

theorem Follows.trans (h : Follows r r') (h' : Follows r' r'') : Follows r r'' where
  grown := h.grown.trans h'.grown
  final := by
    intro hend
    obtain rfl := h.final hend
    exact h'.final hend

theorem newRequest_sound (cfg : RecoveryConfig) (guardian newOwner : Pubkey)
    (now : I64) (bump : U8) :
    Sound (newRequest cfg guardian newOwner now bump) where
  distinct := nodup_singleton guardian
  reached := by rintro (h | h) <;> cases h
  waited := nofun
  unexpired := nofun

section Steps

variable {c : Call Instruction} {b : Bank} {r r' : RecoveryRequest}

theorem Next.sound (hn : Next h fm c b b' k r r') (hr : Sound r) : Sound r' := by
  cases hn with
  | same => exact hr
  | @approved _ _ _ approvals hi u =>
    have hdistinct : approvals.val.Nodup := by
      rw [u.pushed,← concat_eq_append]
      exact hr.distinct.concat u.first
    unfold endorsed
    split_ifs with hmet
    · exact ⟨hdistinct,fun _ => ⟨hmet,u.inTime⟩,nofun,nofun⟩
    · refine ⟨hdistinct,?_,?_,?_⟩ <;> dsimp only <;> rw [u.pending]
      · rintro (h | h) <;> cases h
      · nofun
      · nofun
  | executed hi u =>
    exact ⟨hr.distinct,fun _ => hr.reached (.inl u.approved),fun _ => u.delayed,nofun⟩
  | cancelled hi u =>
    refine ⟨hr.distinct,?_,nofun,nofun⟩
    rintro (h | h) <;> cases h

theorem Next.follows (hn : Next h fm c b b' k r r') : Follows r r' := by
  cases hn with
  | same => exact .refl r
  | approved hi u =>
    refine ⟨?_,?_⟩
    · rw [endorsed_approvals,u.pushed]
      exact prefix_append _ _
    · rw [u.pending]
      rintro (h | h) <;> cases h
  | executed hi u =>
    refine ⟨prefix_rfl,?_⟩
    rw [u.approved]
    rintro (h | h) <;> cases h
  | cancelled hi u =>
    refine ⟨prefix_rfl,?_⟩
    obtain hs | hs := u.unfinished <;> rw [hs] <;> rintro (h | h) <;> cases h

theorem Accepted.request_after (u : Accepted h fm c b b') (hfm : fm.Decoded) (hsep : Separate h)
    (hk : k=(requestPda h o i).1) (hno : ¬Initiates c k)
    (hr : cellAt fm.request h.programId b k=some r) :
    ∃ r',cellAt fm.request h.programId b' k=some r' ∧ Next h fm c b b' k r r' := by
  obtain ⟨howner,hload⟩ := cellAt_eq_some.mp hr
  -- it is enough that a request is still there: `request_before` says which one
  suffices hthere : ∃ r',cellAt fm.request h.programId b' k=some r' by
    obtain ⟨r',hr'⟩ := hthere
    obtain ⟨_,_,newOwner,_,hi,v,-⟩ | ⟨r0,hr0,hnext⟩ := u.request_before hfm hr'
    · exact absurd ⟨⟨newOwner,hi⟩,v.requestKey⟩ hno
    · cases hr.symm.trans hr0
      exact ⟨r',hr',hnext⟩
  -- a config that is read somewhere is not read here
  have hconfig {j : Pubkey} {cfg : RecoveryConfig} (hj : fm.config.load (b j).data=some cfg) :
      k≠j := by
    rintro rfl
    exact hfm.apart hj hload
  cases u with
  | initialized _ v =>
    obtain ⟨owner,hplace⟩ := v.place
    have hne := hsep owner o i
    rw [← hplace,← hk] at hne
    exact ⟨r,by rw [cellAt_congr (v.wrote.other hne.symm),hr]⟩
  | @initiated kc kr guardian newOwner cfg hi v =>
    obtain ⟨b1,_,hw1,hw2⟩ := v.wrote
    have hkr : k≠kr := by
      rintro rfl
      exact hno ⟨⟨_,hi⟩,v.requestKey⟩
    have hkc := hconfig (cellAt_eq_some.mp v.config).2
    exact ⟨r,by rw [cellAt_congr (hw2.other hkr),cellAt_congr (hw1.other hkc),hr]⟩
  | @approved kc kr guardian cfg r0 _ hi v =>
    by_cases hkr : k=kr
    · subst hkr
      exact ⟨_,v.wrote.cell hfm.request howner⟩
    · exact ⟨r,by rw [cellAt_congr (v.wrote.other hkr),hr]⟩
  | @executed kc kr cfg r0 hi v =>
    obtain ⟨b1,hw1,hw2⟩ := v.wrote
    by_cases hkr : k=kr
    · subst hkr
      exact ⟨_,hw2.cell hfm.request ((hw1.owner k).trans howner)⟩
    · exact ⟨r,by rw [cellAt_congr (hw2.other hkr),cellAt_congr (hw1.other (hconfig v.config)),hr]⟩
  | @cancelled kr owner r0 hi v =>
    by_cases hkr : k=kr
    · subst hkr
      exact ⟨_,v.wrote.cell hfm.request howner⟩
    · exact ⟨r,by rw [cellAt_congr (v.wrote.other hkr),hr]⟩
  | reconfigured _ v =>
    exact ⟨r,by rw [cellAt_congr (v.wrote.other (hconfig v.config)),hr]⟩

end Steps

section Runs

variable {fm : Formats} {k : Pubkey} {s : Ledger} {tr : Trace Instruction}

def Undisturbed (k : Pubkey) (tr : Trace Instruction) : Prop :=
  ∀ x∈tr,∀ c,x.label=.call c → ¬Initiates c k

theorem request_run (hfm : fm.Decoded) (hsep : Separate h) (hk : k=(requestPda h o i).1)
    (hr : cellAt fm.request h.programId s.bank k=some r) (hsound : Sound r)
    (hrun : Run ((program h fm).Step anyCall) s tr t) (hno : Undisturbed k tr) :
    ∃ r',cellAt fm.request h.programId t.bank k=some r' ∧ Sound r' ∧ Follows r r' := by
  induction hrun with
  | start => exact ⟨r,hr,hsound,.refl r⟩
  | @next tr t u e _ hstep ih =>
    obtain ⟨r1,hr1,hsound1,hfollows⟩ := ih fun x hx => hno x (mem_append_left _ hx)
    cases hstep with
    | @call c b' hclock _ hx =>
      have hnext := hno ⟨t,.call c,⟨b',c.clock⟩⟩ (by simp) c rfl
      obtain ⟨r',hr',hn⟩ := (execute_spec hfm hx).request_after hfm hsep hk hnext hr1
      exact ⟨r',hr',hn.sound hsound1,hfollows.trans hn.follows⟩
    | outside hclock hout =>
      exact ⟨r1,(Outside.cells hfm.request hout k).trans hr1,hsound1,hfollows⟩

end Runs

/-- The life of a request from the instruction that makes it, seen at any two later times before it
is made anew. -/
theorem request_life_cycle {h : Host} {fm : Formats} (hfm : fm.Decoded) (hsep : Separate h)
    {s u t w : Ledger} {c : Call Instruction} {k : Pubkey} {tr tr' : Trace Instruction}
    (hmade : (program h fm).Step anyCall s (.call c) u) (hc : Initiates c k)
    (howner : (s.bank k).owner=h.programId)
    (hrun : Run ((program h fm).Step anyCall) u tr t) (hno : Undisturbed k tr)
    (hrun' : Run ((program h fm).Step anyCall) t tr' w) (hno' : Undisturbed k tr') :
    ∃ r r',cellAt fm.request h.programId t.bank k=some r ∧
      cellAt fm.request h.programId w.bank k=some r' ∧ Sound r ∧ Sound r' ∧ Follows r r' := by
  cases hmade with
  | @call _ _ _ _ hx =>
    obtain ⟨⟨newOwner,hi⟩,hkey⟩ := hc
    cases execute_spec hfm hx with
    | @initiated _ kr _ newOwner _ hi' v =>
      obtain rfl := some.inj (v.requestKey.symm.trans hkey)
      obtain ⟨_,_,hw₁,hw₂⟩ := v.wrote
      have hcell := hw₂.cell hfm.request ((hw₁.owner kr).trans howner)
      obtain ⟨r,hr,hsound,-⟩ :=
        request_run hfm hsep v.place hcell (newRequest_sound _ _ _ _ _) hrun hno
      obtain ⟨r',hr',hsound',hfollows⟩ := request_run hfm hsep v.place hr hsound hrun' hno'
      exact ⟨r,r',hr,hr',hsound,hsound',hfollows⟩
    | initialized hi' => cases hi.symm.trans hi'
    | approved hi' => cases hi.symm.trans hi'
    | executed hi' => cases hi.symm.trans hi'
    | cancelled hi' => cases hi.symm.trans hi'
    | reconfigured hi' =>
      rw [hi] at hi'
      cases hi'

def sampleHost : Host where
  programId := 1#256
  findProgramAddress seeds _ :=
    match seeds with
    | [_,owner] => (BitVec.ofNat 256 (2*leValue owner+1),255#8)
    | [_,owner,requestId] => (BitVec.ofNat 256 (2*(1000*leValue owner+leValue requestId)),255#8)
    | _ => (0#256,0#8)
  minimumBalance _ := 0#64
  clockSysvar := 4#256

theorem sampleHost_separate : Separate sampleHost := by
  intro owner o i heq
  have hparity := congrArg (fun x : Pubkey => x.toNat%2) heq
  simp only [configPda,requestPda,sampleHost,BitVec.toNat_ofNat] at hparity
  omega

def sampleBank : Bank := fun k =>
  if k=41#256 ∨ k=40000#256 ∨ k=40002#256 ∨ k=43#256 ∨ k=42000#256 then ⟨1000#64,[],1#256⟩
  else ⟨0#64,[],systemProgram⟩

def sampleStart : Ledger := ⟨sampleBank,⟨0#64,0#64⟩⟩

theorem short_guardians : [31#256,32#256,33#256].length<2^32 := by decide

def guardianKeys : Vec Pubkey := ⟨[31#256,32#256,33#256],short_guardians⟩

def initializeCall (guardians : Vec Pubkey) (owner config : Pubkey) : Call Instruction :=
  ⟨⟨1#64,10#64⟩,[⟨config,false,true⟩,⟨owner,true,false⟩,systemInfo,
    ⟨5#256,false,false⟩],.initializeRecovery guardians⟩

def initiateCall (now : I64) (config request guardian newOwner : Pubkey) : Call Instruction :=
  ⟨⟨1#64,now⟩,[⟨config,false,true⟩,⟨request,false,true⟩,⟨guardian,true,false⟩,⟨4#256,false,false⟩,
    systemInfo,⟨5#256,false,false⟩],.initiateRecovery newOwner⟩

def onRequestCall (i : Instruction) (now : I64) (config request signer : Pubkey) :
    Call Instruction :=
  ⟨⟨1#64,now⟩,[⟨config,false,true⟩,⟨request,false,true⟩,⟨signer,true,false⟩,⟨4#256,false,false⟩],i⟩

def recoveryCalls : List (Call Instruction) :=
  [initializeCall guardianKeys 20#256 41#256,initiateCall 100#64 41#256 40000#256 31#256 90#256,
    onRequestCall .approveRecovery 200#64 41#256 40000#256 32#256,
    onRequestCall .executeRecovery 173000#64 41#256 40000#256 90#256]

def statusesAt (k : Pubkey) (tr : Trace Instruction) : List (Option RecoveryStatus) :=
  tr.map fun x => (cellAt Formats.values.request 1#256 x.post.bank k).map RecoveryRequest.status

theorem recovery_life_cycle : ∃ s u t w c tr tr' r r',
    (program sampleHost .values).Step anyCall s (.call c) u ∧ Initiates c 40000#256 ∧
    Run ((program sampleHost .values).Step anyCall) u tr t ∧
    Run ((program sampleHost .values).Step anyCall) t tr' w ∧
    r.status=.approved ∧ r'.status=.executed ∧ Sound r ∧ Sound r' ∧ Follows r r' := by
  obtain ⟨⟨_,w⟩,hhistory,hlist⟩ :
      ∃ x,(program sampleHost .values).history recoveryCalls sampleStart=some x ∧
      statusesAt 40000#256 x.1=[none,some .pending,some .approved,some .executed] := by
      decide +kernel
  obtain ⟨b₁,_,hx₁,-,hrest₁,rfl⟩ := history_cons hhistory
  obtain ⟨b₂,_,hx₂,hclock₂,hrest₂,rfl⟩ := history_cons hrest₁
  obtain ⟨b₃,_,hx₃,hclock₃,hrest₃,rfl⟩ := history_cons hrest₂
  obtain ⟨b₄,_,hx₄,hclock₄,_,rfl⟩ := history_cons hrest₃
  have hmade : (program sampleHost .values).Step anyCall ⟨b₁,⟨1#64,10#64⟩⟩
      (.call (initiateCall 100#64 41#256 40000#256 31#256 90#256)) ⟨b₂,⟨1#64,100#64⟩⟩ :=
    .call hclock₂ trivial hx₂
  have hinitiates : Initiates (initiateCall 100#64 41#256 40000#256 31#256 90#256) 40000#256 :=
    ⟨⟨_,rfl⟩,rfl⟩
  have hquiet {c : Call Instruction} {s u : Ledger} (hc : ∀ o,c.instruction≠.initiateRecovery o) :
      Undisturbed 40000#256 ([]++[⟨s,.call c,u⟩]) := by
    simp only [Undisturbed,nil_append,mem_singleton]
    rintro _ rfl d hd ⟨⟨o,ho⟩,-⟩
    cases hd
    exact hc o ho
  have happrove : Run ((program sampleHost .values).Step anyCall) ⟨b₂,⟨1#64,100#64⟩⟩ _ _ :=
    Run.start.next (.call hclock₃ trivial hx₃)
  have hexecute : Run ((program sampleHost .values).Step anyCall) ⟨b₃,⟨1#64,200#64⟩⟩ _ _ :=
    Run.start.next (.call hclock₄ trivial hx₄)
  have howner : (b₁ 40000#256).owner=1#256 :=
    (execute_spec Formats.values_decoded hx₁).owner_kept
  obtain ⟨r,r',hr,hr',hsound,hsound',hfollows⟩ := request_life_cycle Formats.values_decoded
    sampleHost_separate hmade hinitiates howner happrove (hquiet nofun) hexecute (hquiet nofun)
  have hr₃ : (cellAt Formats.values.request 1#256 b₃ 40000#256).map RecoveryRequest.status=
      some .approved := some.inj (congrArg (·[2]?) hlist)
  have hr₄ : (cellAt Formats.values.request 1#256 b₄ 40000#256).map RecoveryRequest.status=
      some .executed := some.inj (congrArg (·[3]?) hlist)
  rw [show cellAt Formats.values.request 1#256 b₃ 40000#256=some r from hr] at hr₃
  rw [show cellAt Formats.values.request 1#256 b₄ 40000#256=some r' from hr'] at hr₄
  exact ⟨_,_,_,_,_,_,_,r,r',hmade,hinitiates,happrove,hexecute,some.inj hr₃,
    some.inj hr₄,hsound,hsound',hfollows⟩

end PrismChain.SocialRecovery
