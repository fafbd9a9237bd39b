import PrismChain.Programs.SocialRecovery.LifeCycle

namespace PrismChain.SocialRecovery

open Option List Program

structure Approval where
  guardian : Pubkey
  time : I64
  config : Option RecoveryConfig
  deriving DecidableEq

structure Dossier where
  config : Pubkey
  approvals : List Approval
  deriving DecidableEq

section History

variable (h : Host) (fm : Formats)

def approvalOf (b : Bank) (c : Call Instruction) : Option (Pubkey×Approval) :=
  match c.key? 0,c.key? 2 with
  | some kc,some guardian =>
    some (kc,⟨guardian,c.clock.unixTimestamp,cellAt fm.config h.programId b kc⟩)
  | _,_ => none

def Dossier.record (d : Option Dossier) (b : Bank) (c : Call Instruction) : Option Dossier :=
  match c.instruction with
  | .initiateRecovery _ => (approvalOf h fm b c).map fun x => ⟨x.1,[x.2]⟩
  | .approveRecovery => d.bind fun d => (approvalOf h fm b c).map fun x =>
      {d with approvals := d.approvals++[x.2]}
  | _ => d

def Dossier.next (k : Pubkey) (d : Option Dossier) (x : LogEntry Instruction) :
    Option Dossier :=
  match x.label with
  | .outside => d
  | .call c => if c.key? 1=some k then Dossier.record h fm d x.pre.bank c else d

def dossier (k : Pubkey) (tr : Trace Instruction) : Option Dossier :=
  tr.foldl (Dossier.next h fm k) none

def Matched (tr : Trace Instruction) (c : Call Instruction) : Prop :=
  c.instruction=.approveRecovery ∨ c.instruction=.executeRecovery →
    ∀ k,c.key? 1=some k → ∃ d,dossier h fm k tr=some d ∧ c.key? 0=some d.config

def Matching (tr : Trace Instruction) : Prop :=
  ∀ pre x post,tr=pre++x::post → ∀ c,x.label=.call c → Matched h fm pre c

end History

section Dossiers

variable {c : Call Instruction}

theorem dossier_append_one :
    dossier h fm k (tr++[x])=Dossier.next h fm k (dossier h fm k tr) x := by
  simp [dossier]

theorem Matching.before (hm : Matching h fm (tr++tr')) : Matching h fm tr := by
  intro pre x post htr c hc
  exact hm pre x (post++tr') (by rw [htr]; simp) c hc

theorem Matching.last (hm : Matching h fm (tr++[⟨s,.call c,t⟩])) : Matched h fm tr c :=
  hm tr _ [] rfl c rfl

theorem dossier_outside : dossier h fm k (tr++[⟨s,.outside,t⟩])=dossier h fm k tr := by
  rw [dossier_append_one]
  rfl

theorem dossier_call : dossier h fm k (tr++[⟨s,.call c,t⟩])=
    if c.key? 1=some k then Dossier.record h fm (dossier h fm k tr) s.bank c
    else dossier h fm k tr := dossier_append_one

theorem dossier_initiated (hi : c.instruction=.initiateRecovery newOwner) (h0 : c.key? 0=some kc)
    (h1 : c.key? 1=some k) (h2 : c.key? 2=some guardian) :
    dossier h fm k (tr++[⟨s,.call c,t⟩])=some ⟨kc,[⟨guardian,c.clock.unixTimestamp,
      cellAt fm.config h.programId s.bank kc⟩]⟩ := by
  rw [dossier_call,if_pos h1,Dossier.record,hi,approvalOf,h0,h2]
  rfl

theorem dossier_approved (hi : c.instruction=.approveRecovery) (h0 : c.key? 0=some kc)
    (h1 : c.key? 1=some k) (h2 : c.key? 2=some guardian) (hd : dossier h fm k tr=some d) :
    dossier h fm k (tr++[⟨s,.call c,t⟩])=some {d with approvals := d.approvals++
      [⟨guardian,c.clock.unixTimestamp,cellAt fm.config h.programId s.bank kc⟩]} := by
  rw [dossier_call,if_pos h1,Dossier.record,hi,approvalOf,h0,h2,hd]
  rfl

theorem dossier_passed (hpass : Passes c k) :
    dossier h fm k (tr++[⟨s,.call c,t⟩])=dossier h fm k tr := by
  by_cases h1 : c.key? 1=some k
  · rw [dossier_call,if_pos h1,Dossier.record]
    cases hc : c.instruction with
    | initiateRecovery newOwner => exact absurd hc ((hpass h1).2 newOwner)
    | approveRecovery => exact absurd hc (hpass h1).1
    | _ => rfl
  · rw [dossier_call,if_neg h1]

end Dossiers

def Authorised (h : Host) (fm : Formats) (tr : Trace Instruction) (kc kr : Pubkey)
    (r : RecoveryRequest) (now : I64) : Prop :=
  ∃ d,dossier h fm kr tr=some d ∧ d.config=kc ∧ (d.approvals.map Approval.guardian).Nodup ∧
    r.threshold.toNat≤d.approvals.length ∧ ∀ a∈d.approvals,
      (∃ cfg,a.config=some cfg ∧ a.guardian∈cfg.guardians.val) ∧
      a.time.toInt+recoveryDelaySecs.toInt≤now.toInt

/-- The request's approvals are those on file, by guardians of their time. -/
structure Backed (d : Dossier) (r : RecoveryRequest) (now : I64) : Prop where
  approvals : r.approvals.val=d.approvals.map Approval.guardian
  distinct : (d.approvals.map Approval.guardian).Nodup
  guards : ∀ a∈d.approvals,∃ cfg,a.config=some cfg ∧ a.guardian∈cfg.guardians.val
  past : ∀ a∈d.approvals,a.time.toInt≤now.toInt
  reached : r.status=.approved → r.threshold.toNat≤d.approvals.length ∧
    ∀ a∈d.approvals,a.time.toInt≤ r.approvedAt.toInt

structure Kept (h : Host) (fm : Formats) (tr : Trace Instruction) (t : Ledger) : Prop where
  live : ∀ k cfg,cellAt fm.config h.programId t.bank k=some cfg → cfg.isInitialized=true
  backed : ∀ k r,cellAt fm.request h.programId t.bank k=some r →
    ∃ d,dossier h fm k tr=some d ∧ (t.bank d.config).owner=h.programId ∧
      Backed d r t.clock.unixTimestamp

section Invariant

variable {h : Host} {fm : Formats} {s t : Ledger} {c : Call Instruction} {d : Dossier}
  {r' : RecoveryRequest}

theorem Backed.later {now' : I64} (hb : Backed d r now) (hle : now.toInt≤now'.toInt) :
    Backed d r now' :=
  {hb with past := fun a ha => (hb.past a ha).trans hle}

theorem Kept.empty (hfm : fm.Decoded) (h0 : Untouched h.programId s.bank) : Kept h fm [] s where
  live k cfg hcfg := by
    rw [h0.cells hfm.config k] at hcfg
    cases hcfg
  backed k r hr := by
    rw [h0.cells hfm.request k] at hr
    cases hr

theorem Kept.outside (hkept : Kept h fm tr t) (hfm : fm.Decoded) (hclock : t.clock.before s.clock)
    (hout : Outside h.programId t.bank s.bank) : Kept h fm (tr++[⟨t,.outside,s⟩]) s where
  live k cfg hcfg := by
    rw [Outside.cells hfm.config hout k] at hcfg
    exact hkept.live k cfg hcfg
  backed k r hr := by
    rw [Outside.cells hfm.request hout k] at hr
    obtain ⟨d,hd,howner,hb⟩ := hkept.backed k r hr
    exact ⟨d,by rw [dossier_outside,hd],(hout.owned howner).1,hb.later hclock.2⟩

theorem Backed.approved {kc guardian : Pubkey} {cfg : RecoveryConfig}
    {approvals : Vec Pubkey} {now : I64}
    {a : Approval} (hb : Backed d r now) (hclock : now.toInt≤c.clock.unixTimestamp.toInt)
    (u : Approved h fm c t.bank b' kc k guardian cfg r approvals)
    (ha : a=⟨guardian,c.clock.unixTimestamp,some cfg⟩) :
    Backed {d with approvals := d.approvals++[a]} (endorsed r approvals c.clock.unixTimestamp)
      c.clock.unixTimestamp := by
  have hkeys : approvals.val=(d.approvals++[a]).map Approval.guardian := by
    rw [u.pushed,hb.approvals,map_append,ha]
    rfl
  have hpast : ∀ x∈d.approvals++[a],x.time.toInt≤c.clock.unixTimestamp.toInt := by
    intro x hx
    cases mem_append.mp hx with
    | inl hold => exact (hb.past x hold).trans hclock
    | inr hnew => rw [mem_singleton.mp hnew,ha]
  refine ⟨?_,?_,?_,hpast,?_⟩
  · rw [endorsed_approvals]
    exact hkeys
  · rw [← hkeys,u.pushed,← concat_eq_append]
    refine Nodup.concat u.first ?_
    rw [hb.approvals]
    exact hb.distinct
  · intro x hx
    cases mem_append.mp hx with
    | inl hold => exact hb.guards x hold
    | inr hnew =>
      rw [mem_singleton.mp hnew,ha]
      exact ⟨cfg,rfl,u.guards⟩
  · unfold endorsed
    split_ifs with hmet
    · intro _
      rw [hkeys,length_map] at hmet
      exact ⟨hmet,hpast⟩
    · intro hstatus
      dsimp only at hstatus
      rw [u.pending] at hstatus
      cases hstatus

theorem backed_newRequest {cfg : RecoveryConfig} (hguard : guardian∈cfg.guardians.val) :
    Backed ⟨kc,[⟨guardian,now,some cfg⟩]⟩ (newRequest cfg guardian newOwner now bump) now := by
  refine ⟨rfl,nodup_singleton _,?_,?_,nofun⟩
  · intro a ha
    rw [mem_singleton.mp ha]
    exact ⟨cfg,rfl,hguard⟩
  · intro a ha
    rw [mem_singleton.mp ha]

theorem Kept.call (hkept : Kept h fm tr t) (hfm : fm.Decoded) (hclock : t.clock.before c.clock)
    (hmatch : Matched h fm tr c) (u : Accepted h fm c t.bank b') :
    Kept h fm (tr++[⟨t,.call c,⟨b',c.clock⟩⟩]) ⟨b',c.clock⟩ where
  live k cfg hcfg := by
    obtain v | ⟨cfg0,hcfg0,hlife,-⟩ := u.config_before hfm hcfg
    · exact v.live
    · rw [hlife]
      exact hkept.live k cfg0 hcfg0
  backed k r' hr' := by
    obtain ⟨kc,guardian,_,cfg,hi,v,rfl⟩ | ⟨r,hr,hnext⟩ := u.request_before hfm hr'
    · refine ⟨_,dossier_initiated hi v.configKey v.requestKey v.guardianKey,?_,?_⟩
      · exact u.owner_kept.trans (cellAt_eq_some.mp v.config).1
      · rw [v.config]
        exact backed_newRequest v.guards
    · obtain ⟨d,hd,howner,hb⟩ := hkept.backed k r hr
      have howner' : (b' d.config).owner=h.programId := u.owner_kept.trans howner
      cases hnext with
      | @approved kc guardian cfg _ hi v =>
        -- the config that is passed is the one of the history, so its guardians are the right ones
        obtain ⟨_,hd',hkey⟩ := hmatch (Or.inl hi) k v.requestKey
        cases hd.symm.trans hd'
        cases hkey.symm.trans v.configKey
        refine ⟨_,dossier_approved hi v.configKey v.requestKey v.guardianKey hd,howner',?_⟩
        exact hb.approved hclock.2 v (by rw [cellAt_owned howner,v.config])
      | same hpass =>
        exact ⟨d,by rw [dossier_passed hpass,hd],howner',hb.later hclock.2⟩
      | executed hi v =>
        refine ⟨d,by rw [dossier_passed fun _ => by simp [hi],hd],howner',?_⟩
        exact {hb.later hclock.2 with reached := nofun}
      | cancelled hi v =>
        refine ⟨d,by rw [dossier_passed fun _ => by simp [hi],hd],howner',?_⟩
        exact {hb.later hclock.2 with reached := nofun}

theorem kept_run (hfm : fm.Decoded) (h0 : Untouched h.programId s.bank)
    (hrun : Run ((program h fm).Step anyCall) s tr t) (hmatch : Matching h fm tr) :
    Kept h fm tr t := by
  induction hrun with
  | start => exact .empty hfm h0
  | @next tr t u e _ hstep ih =>
    have hkept := ih hmatch.before
    cases hstep with
    | @call _ _ hclock _ hx => exact hkept.call hfm hclock hmatch.last (execute_spec hfm hx)
    | outside hclock hout => exact hkept.outside hfm hclock hout

end Invariant

/-- With matching pairs of config and request, an owner changes only by the execution of a request
that was made for the config and that enough of its guardians had approved long enough before. -/
theorem owner_change_authorised {h : Host} {fm : Formats} (hfm : fm.Decoded) {s t u : Ledger}
    {tr : Trace Instruction} {e : Action Instruction} (h0 : Untouched h.programId s.bank)
    (hrun : Run ((program h fm).Step anyCall) s tr t)
    (hstep : (program h fm).Step anyCall t e u)
    (hmatch : Matching h fm (tr++[⟨t,e,u⟩])) {kc : Pubkey} {cfg cfg' : RecoveryConfig}
    (hcfg : cellAt fm.config h.programId t.bank kc=some cfg)
    (hcfg' : cellAt fm.config h.programId u.bank kc=some cfg') (hne : cfg'.owner≠cfg.owner) :
    ∃ c kr r,e=.call c ∧ c.instruction=.executeRecovery ∧ c.key? 0=some kc ∧ c.key? 1=some kr ∧
      cellAt fm.request h.programId t.bank kr=some r ∧ cfg'.owner=r.newOwner ∧
      Authorised h fm tr kc kr r c.clock.unixTimestamp := by
  have hkept := kept_run hfm h0 hrun hmatch.before
  cases hstep with
  | outside hclock hout =>
    have hsame := Outside.cells hfm.config hout kc
    rw [show cellAt fm.config (program h fm).id t.bank kc=some cfg from hcfg] at hsame
    cases hcfg'.symm.trans hsame
    exact absurd rfl hne
  | @call c _ hclock _ hx =>
    obtain v | ⟨_,hcfg₀,-,howner⟩ := (execute_spec hfm hx).config_before hfm hcfg'
    · -- a config in use is not initialized again
      have hfresh := v.fresh (cellAt_eq_some.mp hcfg).2
      rw [hkept.live kc cfg hcfg] at hfresh
      cases hfresh
    · cases hcfg.symm.trans hcfg₀
      obtain ⟨kr,r,hi,v,hnew⟩ := howner.resolve_left hne
      refine ⟨c,kr,r,rfl,hi,v.configKey,v.requestKey,v.request,hnew,?_⟩
      obtain ⟨d,hd,-,hb⟩ := hkept.backed kr r v.request
      obtain ⟨_,hd',hkey⟩ := hmatch.last (Or.inr hi) kr v.requestKey
      cases hd.symm.trans hd'
      obtain ⟨hreached,htimes⟩ := hb.reached v.approved
      refine ⟨d,hd,some.inj (hkey.symm.trans v.configKey),hb.distinct,hreached,?_⟩
      intro a ha
      refine ⟨hb.guards a ha,?_⟩
      have htime := htimes a ha
      have hdelay := v.delayed
      omega

def matched (h : Host) (fm : Formats) (tr : Trace Instruction) (c : Call Instruction) : Bool :=
  if c.instruction=.approveRecovery ∨ c.instruction=.executeRecovery then
    match c.key? 1 with
    | none => true
    | some k =>
      match dossier h fm k tr with
      | none => false
      | some d => c.key? 0==some d.config
  else true

def matchingFrom (h : Host) (fm : Formats) (pre : Trace Instruction) : Trace Instruction → Bool
  | [] => true
  | x::xs =>
    (match x.label with
      | .outside => true
      | .call c => matched h fm pre c) && matchingFrom h fm (pre++[x]) xs

theorem matched_spec (hm : matched h fm tr c=true) : Matched h fm tr c := by
  intro hi k hk
  rw [matched,if_pos hi,hk] at hm
  dsimp only at hm
  cases hd : dossier h fm k tr with
  | none =>
    rw [hd] at hm
    cases hm
  | some d =>
    rw [hd] at hm
    exact ⟨d,rfl,by simpa using hm⟩

theorem matchingFrom_spec (hm : matchingFrom h fm pre tr=true) (htr : tr=p++x::q)
    (hc : x.label=.call c) : Matched h fm (pre++p) c := by
  induction p generalizing pre tr with
  | nil =>
    subst htr
    simp only [nil_append,matchingFrom,hc,Bool.and_eq_true] at hm
    rw [append_nil]
    exact matched_spec hm.1
  | cons _ p ih =>
    subst htr
    simp only [cons_append,matchingFrom,Bool.and_eq_true] at hm
    rw [append_cons]
    exact ih hm.2 rfl

theorem matching_of_check (hm : matchingFrom h fm [] tr=true) : Matching h fm tr :=
  fun _ _ _ htr _ hc => matchingFrom_spec hm htr hc

def ownerOf (b : Bank) (k : Pubkey) : Option Pubkey :=
  (cellAt Formats.values.config 1#256 b k).map RecoveryConfig.owner

def executeCall (request : Pubkey) : Call Instruction :=
  onRequestCall .executeRecovery 173000#64 41#256 request 90#256

theorem sample_untouched : Untouched sampleHost.programId sampleStart.bank := by
  intro k hk x hx
  have hempty : (sampleBank k).data=[] := by
    unfold sampleBank
    split_ifs <;> rfl
  rw [show sampleStart.bank=sampleBank from rfl,hempty] at hx
  cases hx

theorem recovery_authorised : ∃ tr t u e kr r now,
    Run ((program sampleHost .values).Step anyCall) sampleStart tr t ∧
    (program sampleHost .values).Step anyCall t e u ∧
    ownerOf t.bank 41#256=some 20#256 ∧ ownerOf u.bank 41#256=some 90#256 ∧
    Authorised sampleHost .values tr 41#256 kr r now := by
  obtain ⟨⟨tr,t⟩,hhistory,hclock,b',hx,hm,cfg,hcfg,ho,cfg',hcfg',ho'⟩ : ∃ x,
      (program sampleHost .values).history (recoveryCalls.take 3) sampleStart=some x ∧
      x.2.clock.before (executeCall 40000#256).clock ∧
      ∃ b',(program sampleHost .values).execute (executeCall 40000#256) x.2.bank=.ok b' ∧
      matchingFrom sampleHost .values []
        (x.1++[⟨x.2,.call (executeCall 40000#256),⟨b',(executeCall 40000#256).clock⟩⟩])=true ∧
      ∃ cfg,cellAt Formats.values.config 1#256 x.2.bank 41#256=some cfg ∧ cfg.owner=20#256 ∧
      ∃ cfg',cellAt Formats.values.config 1#256 b' 41#256=some cfg' ∧ cfg'.owner=90#256 := by
    decide +kernel
  have hrun := history_anyCall hhistory
  have hstep : (program sampleHost .values).Step anyCall t _ _ := .call hclock trivial hx
  obtain ⟨c,kr,r,-,-,-,-,-,-,hauth⟩ := owner_change_authorised Formats.values_decoded
    sample_untouched hrun hstep (matching_of_check hm) hcfg hcfg' (by rw [ho,ho']; decide)
  exact ⟨tr,t,_,_,kr,r,_,hrun,hstep,by rw [ownerOf,hcfg,map_some,ho],
    by rw [ownerOf,hcfg',map_some,ho'],hauth⟩

def takeoverCalls : List (Call Instruction) :=
  [initializeCall guardianKeys 20#256 41#256,
    initializeCall ⟨[61#256,62#256,63#256],by decide⟩ 21#256 43#256,
    initiateCall 100#64 43#256 42000#256 61#256 90#256,
    onRequestCall .approveRecovery 200#64 43#256 42000#256 62#256]

/-- The request for the config 43 is executed on the config 41, none of whose guardians has signed
anything. -/
theorem takeover_by_another_config : ∃ tr t u c,
    Run ((program sampleHost .values).Step anyCall) sampleStart tr t ∧
    (program sampleHost .values).Step anyCall t (.call c) u ∧
    ownerOf t.bank 41#256=some 20#256 ∧ ownerOf u.bank 41#256=some 90#256 ∧
    ∀ kr r now,c.key? 1=some kr → ¬Authorised sampleHost .values tr 41#256 kr r now := by
  obtain ⟨⟨tr,t⟩,hhistory,hclock,b',hx,howner,howner',hmade⟩ : ∃ x,
      (program sampleHost .values).history takeoverCalls sampleStart=some x ∧
      x.2.clock.before (executeCall 42000#256).clock ∧
      ∃ b',(program sampleHost .values).execute (executeCall 42000#256) x.2.bank=.ok b' ∧
      ownerOf x.2.bank 41#256=some 20#256 ∧ ownerOf b' 41#256=some 90#256 ∧
      (dossier sampleHost .values 42000#256 x.1).map Dossier.config=some 43#256 := by decide +kernel
  refine ⟨tr,t,_,_,history_anyCall hhistory,.call hclock trivial hx,howner,howner',?_⟩
  rintro kr r now hkr ⟨d,hd,hconfig,-⟩
  obtain rfl : kr=42000#256 := (some.inj hkr).symm
  rw [hd,map_some,hconfig] at hmade
  cases some.inj hmade

end PrismChain.SocialRecovery
