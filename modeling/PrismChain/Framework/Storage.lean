import PrismChain.Framework.Execution

namespace PrismChain

open List Function Invocation Bank

variable {α β : Type}

abbrev Vec (α : Type) := {l : List α // l.length<2^32}

theorem short_nil : ([] : List α).length<2^32 := by simp

def Vec.single (a : α) : Vec α := ⟨[a],by rw [List.length_singleton]; decide⟩

/-- A vector that has become too long has no encoding. -/
def Vec.push (v : Vec α) (a : α) : Option (Vec α) :=
  if h : (v.val++[a]).length<2^32 then some ⟨v.val++[a],h⟩ else none

theorem Vec.push_eq_some {v : Vec α} : v.push a=some w ↔ w.val=v.val++[a] := by
  unfold Vec.push
  constructor
  · intro h
    split_ifs at h with hlen
    rw [← Option.some.inj h]
  · intro h
    have hlen : (v.val++[a]).length<2^32 := h ▸ w.property
    rw [dif_pos hlen]
    exact congrArg some (Subtype.ext h.symm)

/-- How a program keeps values of one type in the data of its accounts: `store` overwrites the front
of the data and `fill` all of it. Whatever is read after a write is what was written. -/
structure Storage (α : Type) where
  load : List Byte → Option α
  store : α → List Byte → Option (List Byte)
  fill : α → List Byte → Option (List Byte)
  load_store : ∀ {a a' d d'},store a d=some d' → load d'=some a' → a'=a
  load_fill : ∀ {a a' d d'},fill a d=some d' → load d'=some a' → a'=a

namespace Storage

/-- Borsh in place: the data has the length it has, all of it is read, and a value that does not
fit cannot be written. -/
def inPlace (c : Codec α) : Storage α where
  load := c.tryFromSlice
  store := c.writeTo
  fill a d := if d.length=(c.encode a).length then some (c.encode a) else none
  load_store := by
    intro a a' d d' hstore hload
    unfold Codec.writeTo at hstore
    split_ifs at hstore
    have hread := c.tryFromSlice_eq_some.mp hload
    rw [← Option.some.inj hstore,← List.append_nil (c.encode a')] at hread
    exact (c.encode_append_inj hread).1.symm
  load_fill := by
    intro a a' d d' hfill hload
    split_ifs at hfill
    rw [← Option.some.inj hfill] at hload
    exact (c.encode_inj (c.tryFromSlice_eq_some.mp hload)).symm

/-- Data that was read whole takes no longer value. -/
theorem inPlace_le {c : Codec α} (hload : (inPlace c).load d=some a)
    (hput : (inPlace c).store a' d=some d' ∨ (inPlace c).fill a' d=some d') :
    (c.encode a').length≤(c.encode a).length := by
  simp only [inPlace,Codec.writeTo,Option.ite_none_right_eq_some] at hload hput
  rw [← c.tryFromSlice_eq_some.mp hload]
  obtain ⟨h,-⟩ | ⟨h,-⟩ := hput
  · exact h
  · exact h.ge

/-- Whole values: an account holds one value of the kind that its first byte names and always has
the size for it. -/
def whole (kind : Byte) (c : Codec α) : Storage α where
  load
    | [] => none
    | tag::bs => if tag=kind then c.tryFromSlice bs else none
  store a _ := some (kind::c.encode a)
  fill a _ := some (kind::c.encode a)
  load_store := by
    intro a a' d d' hstore hload
    rw [← Option.some.inj hstore] at hload
    simp only [if_true] at hload
    exact (c.encode_inj (c.tryFromSlice_eq_some.mp hload)).symm
  load_fill := by
    intro a a' d d' hstore hload
    rw [← Option.some.inj hstore] at hload
    simp only [if_true] at hload
    exact (c.encode_inj (c.tryFromSlice_eq_some.mp hload)).symm

/-- Decoded values instead of bytes: every value can be written and is read back, and zeros are not
a value. -/
structure Exact (s : Storage α) : Prop where
  storable : ∀ a d,∃ d',s.store a d=some d'
  stored : ∀ {a d d'},s.store a d=some d' → s.load d'=some a
  filled : ∀ {a d d'},s.fill a d=some d' → s.load d'=some a
  blank : ∀ {d},(∀ x∈d,x=0#8) → s.load d=none

/-- No data is read as a value of both kinds. -/
def Apart (s : Storage α) (t : Storage β) : Prop :=
  ∀ {d a b},s.load d=some a → t.load d=some b → False

variable {s : Storage α}

theorem whole_exact (hkind : kind≠0#8) (c : Codec α) : (whole kind c).Exact where
  storable a _ := ⟨_,rfl⟩
  stored := by
    intro a d d' h
    rw [← Option.some.inj h]
    simp only [whole,if_true]
    exact c.tryFromSlice_eq_some.mpr rfl
  filled := by
    intro a d d' h
    rw [← Option.some.inj h]
    simp only [whole,if_true]
    exact c.tryFromSlice_eq_some.mpr rfl
  blank := by
    intro d h
    cases d with
    | nil => rfl
    | cons tag bs =>
      have hzero : tag=0#8 := h tag mem_cons_self
      simp only [whole]
      rw [if_neg (by rw [hzero]; exact hkind.symm)]

theorem whole_load (h : (whole kind c).load (tag::bs)=some a) : tag=kind := by
  by_contra hne
  simp [whole,hne] at h

theorem whole_apart (hne : k≠k') (c : Codec α) (c' : Codec β) :
    (whole k c).Apart (whole k' c') := by
  intro d a b h h'
  cases d with
  | nil => cases h
  | cons tag bs => exact hne ((whole_load h).symm.trans (whole_load h'))

/-- `data_len() > 0 && data[0] != 0`, a test by which programs take an account to be in use. -/
def started (d : List Byte) : Bool := d.head?.any (·≠0#8)

/-- The same test where the first byte names the kind. -/
def wholeStarted (d : List Byte) : Bool := started d.tail

theorem whole_length (hload : (whole kind c).load d=some a) : d.length=(c.encode a).length+1 := by
  cases d with
  | nil => cases hload
  | cons tag bs =>
    have hread : c.tryFromSlice bs=some a := by
      simpa [whole,whole_load hload] using hload
    rw [c.tryFromSlice_eq_some.mp hread,length_cons]

theorem whole_started {c : Codec α} (hfirst : (c.encode a).head?=some first)
    (hload : (whole kind c).load d=some a) : wholeStarted d=decide (first≠0#8) := by
  cases d with
  | nil => cases hload
  | cons tag bs =>
    have hread : c.tryFromSlice bs=some a := by
      simpa [whole,whole_load hload] using hload
    rw [c.tryFromSlice_eq_some.mp hread]
    simp only [wholeStarted,started,tail_cons,hfirst,Option.any_some]

theorem Apart.symm (h : s.Apart t) : t.Apart s := fun ht hs => h hs ht

end Storage

/-- `data[..n].copy_from_slice(..)`; a slice that is too long ends the program. -/
def Frame.save (f : Frame) (s : Storage α) (a : α) (k : Pubkey) : ProgramResult := do
  let d ← okOr (s.store a (f.view k).data) .programFailedToComplete
  pure {f with view := f.view.setData k d}

def Frame.fill (f : Frame) (s : Storage α) (a : α) (k : Pubkey) : ProgramResult := do
  let d ← okOr (s.fill a (f.view k).data) .programFailedToComplete
  pure {f with view := f.view.setData k d}

/-- `serialize(&mut &mut data[..])`; a value that does not fit is an error. -/
def Frame.serialize (f : Frame) (s : Storage α) (a : α) (k : Pubkey)  : ProgramResult := do
  let d ← okOr (s.store a (f.view k).data) .borshIoError
  pure {f with view := f.view.setData k d}

theorem Frame.save_eq_ok {f : Frame} : f.save s a k=.ok g ↔
      ∃ d,s.store a (f.view k).data=some d ∧ g=⟨f.synced,f.view.setData k d⟩ := by
  simp only [save,steps_ok]
  exact exists_congr fun d => and_congr_right fun _ => eq_comm

theorem Frame.fill_eq_ok {f : Frame} :
    f.fill s a k=.ok g ↔ ∃ d,s.fill a (f.view k).data=some d ∧ g=⟨f.synced,f.view.setData k d⟩ := by
  simp only [fill,steps_ok]
  exact exists_congr fun d => and_congr_right fun _ => eq_comm

theorem Frame.serialize_eq_ok {f : Frame} : f.serialize s a k=.ok g ↔ f.save s a k=.ok g := by
  simp only [serialize,save,steps_ok]

/-- The value that a program finds in an account of its own. -/
def cellAt (s : Storage α) (id : Pubkey) (b : Bank) (k : Pubkey) : Option α :=
  if (b k).owner=id then s.load (b k).data else none

section Cells

variable {s : Storage α} {t : Storage β} {id k : Pubkey} {b b' : Bank} {a : α} {d : List Byte}
  {accounts : List AccountInfo}

theorem cellAt_eq_some : cellAt s id b k=some a ↔ (b k).owner=id ∧ s.load (b k).data=some a := by
  unfold cellAt
  by_cases h : (b k).owner=id <;> simp [h]

theorem cellAt_owned (h : (b k).owner=id) : cellAt s id b k=s.load (b k).data := if_pos h

theorem cellAt_foreign (h : (b k).owner≠id) : cellAt s id b k=none := if_neg h

theorem cellAt_congr (h : b' k=b k) : cellAt s id b' k=cellAt s id b k := by
  unfold cellAt
  rw [h]

theorem Outside.cell_owned (hout : Outside id b b') (howner : (b k).owner=id) :
    cellAt s id b' k=cellAt s id b k := by
  obtain ⟨howner',hdata,-⟩ := hout.owned howner
  rw [cellAt_owned howner,cellAt_owned howner',hdata]

theorem Outside.cells (hs : s.Exact) (hout : Outside id b b') (k : Pubkey) :
    cellAt s id b' k=cellAt s id b k := by
  by_cases howner : (b k).owner=id
  · exact hout.cell_owned howner
  · rw [cellAt_foreign howner]
    by_cases howner' : (b' k).owner=id
    · rw [cellAt_owned howner',hs.blank ((hout k).2 howner howner')]
    · exact cellAt_foreign howner'

theorem Untouched.cells (hs : s.Exact) (h0 : Untouched id b) (k : Pubkey) :
    cellAt s id b k=none := by
  by_cases howner : (b k).owner=id
  · rw [cellAt_owned howner,hs.blank (h0 k howner)]
  · exact cellAt_foreign howner

/-- The value `a` was written to the account `k`, which belongs to the program or keeps its data. -/
structure Wrote (s : Storage α) (id : Pubkey) (b b' : Bank) (k : Pubkey) (a : α) : Prop where
  put : ∃ d,(s.store a (b k).data=some d ∨ s.fill a (b k).data=some d) ∧ b'=b.setData k d ∧
    ((b k).owner=id ∨ d=(b k).data)

namespace Wrote

theorem other (w : Wrote s id b b' k a) (hj : j≠k) : b' j=b j := by
  obtain ⟨d,-,rfl,-⟩ := w.put
  exact update_of_ne hj _ _

theorem owner (w : Wrote s id b b' k a) (j : Pubkey) : (b' j).owner=(b j).owner := by
  obtain ⟨d,-,rfl,-⟩ := w.put
  exact setData_owner _ _ _ _

theorem foreign (w : Wrote s id b b' k a) (howner : (b k).owner≠id) : b'=b := by
  obtain ⟨d,-,rfl,howned⟩ := w.put
  rw [howned.resolve_left howner]
  exact update_eq_self k b

theorem read (w : Wrote s id b b' k a) (ha' : s.load (b' k).data=some a') : a'=a := by
  obtain ⟨d,hput,rfl,-⟩ := w.put
  rw [setData_same] at ha'
  cases hput with
  | inl hstore => exact s.load_store hstore ha'
  | inr hfill => exact s.load_fill hfill ha'

theorem loaded (w : Wrote s id b b' k a) (hs : s.Exact) : s.load (b' k).data=some a := by
  obtain ⟨d,hput,rfl,-⟩ := w.put
  rw [setData_same]
  cases hput with
  | inl hstore => exact hs.stored hstore
  | inr hfill => exact hs.filled hfill

theorem cell (w : Wrote s id b b' k a) (hs : s.Exact) (howner : (b k).owner=id) :
    cellAt s id b' k=some a :=
  cellAt_eq_some.mpr ⟨(w.owner k).trans howner,w.loaded hs⟩

theorem owned_of_ne (w : Wrote s id b b' k a) (hs : s.Exact) (ha0 : s.load (b k).data=some a0)
    (hne : a≠a0) : (b k).owner=id := by
  by_contra howner
  have ha := w.loaded hs
  rw [w.foreign howner,ha0] at ha
  exact hne (Option.some.inj ha).symm

theorem cell_before (w : Wrote s id b b' k a) (ha' : cellAt s id b' j=some a') :
    (j=k ∧ (b k).owner=id ∧ a'=a) ∨ (j≠k ∧ cellAt s id b j=some a') := by
  obtain ⟨howner,hload⟩ := cellAt_eq_some.mp ha'
  by_cases hj : j=k
  · subst hj
    exact .inl ⟨rfl,(w.owner j).symm.trans howner,w.read hload⟩
  · rw [cellAt_congr (w.other hj)] at ha'
    exact .inr ⟨hj,ha'⟩

theorem other_kind_before (w : Wrote s id b b' k a) (hs : s.Exact) (hst : s.Apart t)
    (hx : cellAt t id b' j=some x) : cellAt t id b j=some x := by
  have hj : j≠k := by
    rintro rfl
    exact hst (w.loaded hs) (cellAt_eq_some.mp hx).2
  rwa [cellAt_congr (w.other hj)] at hx

end Wrote

theorem owned_of_sync (hsync : Synced id accounts f)
    (hk : k∈accounts.map AccountInfo.key) :
    (f.synced k).owner=id ∨ (f.view k).data=(f.synced k).data := by
  have hcheck := (checkAccount_eq_ok.mp ((sync_eq_ok.mp hsync).1 k hk)).2.2.2
  cases hcheck with
  | inl hsame => exact .inr hsame.symm
  | inr howner => exact .inl howner

theorem wrote_of_save (hsave : Frame.save ⟨b,b⟩ s a k=.ok f)
    (hsync : Synced id accounts f)
    (hk : k∈accounts.map AccountInfo.key) : Wrote s id b f.view k a := by
  obtain ⟨d,hd,rfl⟩ := Frame.save_eq_ok.mp hsave
  have howned := owned_of_sync hsync hk
  rw [setData_same] at howned
  exact ⟨d,.inl hd,rfl,howned⟩

theorem wrote_of_fill (hfill : Frame.fill ⟨b,b⟩ s a k=.ok f)
    (hsync : Synced id accounts f)
    (hk : k∈accounts.map AccountInfo.key) : Wrote s id b f.view k a := by
  obtain ⟨d,hd,rfl⟩ := Frame.fill_eq_ok.mp hfill
  have howned := owned_of_sync hsync hk
  rw [setData_same] at howned
  exact ⟨d,.inr hd,rfl,howned⟩

theorem wrote_of_saves (hfirst : Frame.save ⟨b,b⟩ t x j=.ok f1)
    (hsecond : f1.save s a k=.ok f)
    (hsync : Synced id accounts f)
    (hj : j∈accounts.map AccountInfo.key) (hk : k∈accounts.map AccountInfo.key)
    (hjk : j=k → (b k).owner=id) : ∃ b1,Wrote t id b b1 j x ∧ Wrote s id b1 f.view k a := by
  obtain ⟨e,he,rfl⟩ := Frame.save_eq_ok.mp hfirst
  obtain ⟨d,hd,rfl⟩ := Frame.save_eq_ok.mp hsecond
  have hownj := owned_of_sync hsync hj
  have hownk := owned_of_sync hsync hk
  rw [setData_same] at hownk
  dsimp only at hownj hownk
  by_cases hne : j=k
  · subst hne
    have howner := hjk rfl
    exact ⟨b.setData j e,⟨e,.inl he,rfl,.inl howner⟩,
      ⟨d,.inl hd,rfl,.inl ((setData_owner _ _ _ _).trans howner)⟩⟩
  · rw [setData_other _ _ hne,setData_same] at hownj
    refine ⟨b.setData j e,⟨e,.inl he,rfl,hownj⟩,⟨d,.inl hd,rfl,?_⟩⟩
    rw [setData_owner,setData_other _ _ (Ne.symm hne)]
    exact hownk

/-- Two writes to one account of somebody else can only have left everything as it was. -/
theorem wrote_of_saves_or_same (hfirst : Frame.save ⟨b,b⟩ t x j=.ok f1)
    (hsecond : f1.save s a k=.ok f) (hsync : Synced id accounts f)
    (hj : j∈accounts.map AccountInfo.key) (hk : k∈accounts.map AccountInfo.key) :
    (∃ b1,Wrote t id b b1 j x ∧ Wrote s id b1 f.view k a) ∨ j=k ∧ (b k).owner≠id ∧ f.view=b := by
  by_cases hown : j=k → (b k).owner=id
  · exact .inl (wrote_of_saves hfirst hsecond hsync hj hk hown)
  obtain ⟨rfl,howner⟩ := Classical.not_imp.mp hown
  refine .inr ⟨rfl,howner,?_⟩
  obtain ⟨e,-,rfl⟩ := Frame.save_eq_ok.mp hfirst
  obtain ⟨d,-,rfl⟩ := Frame.save_eq_ok.mp hsecond
  have hsame := (owned_of_sync hsync hk).resolve_left howner
  rw [setData_same] at hsame
  rw [hsame]
  funext i
  by_cases hi : i=j
  · subst hi
    simp [setData]
  · simp [setData,hi]

/-- In one account of somebody else, two values of different kinds could not both be there. -/
theorem wrote_of_saves_apart (hx0 : t.load (b j).data=some x0)
    (hts : t.Apart s) (hs : s.Exact) (hfirst : Frame.save ⟨b,b⟩ t x j=.ok f1)
    (hsecond : f1.save s a k=.ok f) (hsync : Synced id accounts f)
    (hj : j∈accounts.map AccountInfo.key) (hk : k∈accounts.map AccountInfo.key) :
    ∃ b1,Wrote t id b b1 j x ∧ Wrote s id b1 f.view k a := by
  refine wrote_of_saves hfirst hsecond hsync hj hk ?_
  rintro rfl
  obtain ⟨e,-,rfl⟩ := Frame.save_eq_ok.mp hfirst
  obtain ⟨d,hd,rfl⟩ := Frame.save_eq_ok.mp hsecond
  have howned := owned_of_sync hsync hk
  rw [setData_same] at howned
  refine howned.resolve_right fun hsame => ?_
  have hload := hs.stored hd
  rw [hsame] at hload
  exact hts hx0 hload

theorem sync_of_write {accounts : List AccountInfo} (howner : (b k).owner=id)
    (hwritable : (mk id accounts).writable k=true) (keys : List Pubkey) :
    sync ⟨id,accounts⟩ keys ⟨b,b.setData k d⟩=.ok () := by
  refine sync_of_data (fun j => b.setData_lamports _ _ _) (fun j => ?_) keys
  by_cases hj : j=k
  · subst hj
    exact .inr ⟨howner,hwritable⟩
  · exact .inl (b.setData_other d hj)

/-- An account was created at the unused address `k` and the value `a` written to it. -/
structure Allotted (s : Storage α) (id : Pubkey) (b b' : Bank) (k : Pubkey) (space : Nat) (a : α) :
    Prop where
  fresh : (b k).data=[]
  unowned : (b k).owner=systemProgram
  owned' : (b' k).owner=id
  written : s.store a (List.replicate space 0#8)=some (b' k).data
  others : ∀ j,j≠k → (b' j).data=(b j).data ∧ (b' j).owner=(b j).owner

theorem allotted_of {iv : Invocation} (hcreate : iv.createAccount payer k lamports space b=.ok b1)
    (hstore : s.store a (b1 k).data=some d) :
    Allotted s iv.programId b (b1.setData k d) k space a := by
  obtain ⟨-,hfresh,hunowned,-,-,-,hzeros,howner,hothers,-,-⟩ := createAccount_spec hcreate
  refine ⟨hfresh,hunowned,(b1.setData_owner _ _ _).trans howner,?_,fun j hj => ?_⟩
  · rw [b1.setData_same,← hzeros,hstore]
  · rw [b1.setData_other d hj,b1.setData_owner]
    exact hothers j hj

/-- The value `a` was serialized into the account `k`, which belongs to the program or keeps its
data. -/
structure Stored (s : Storage α) (id : Pubkey) (b b' : Bank) (k : Pubkey) (a : α) : Prop where
  store : s.store a (b k).data=some (b' k).data
  owner : (b' k).owner=(b k).owner
  owned : (b k).owner=id ∨ (b' k).data=(b k).data
  others : ∀ j,j≠k → b' j=b j

theorem stored_of_put (hd : s.store a (b k).data=some d) (howned : (b k).owner=id ∨ d=(b k).data) :
    Stored s id b (b.setData k d) k a :=
  ⟨by rw [b.setData_same,hd],b.setData_owner k k d,by rw [b.setData_same]; exact howned,
    fun _ hj => update_of_ne hj _ _⟩

theorem stored_of_serialize (hserialize : Frame.serialize ⟨b,b⟩ s a k=.ok f)
    (hsync : Synced id accounts f)
    (hk : k∈accounts.map AccountInfo.key) : Stored s id b f.view k a := by
  obtain ⟨d,hd,rfl⟩ := Frame.save_eq_ok.mp (Frame.serialize_eq_ok.mp hserialize)
  have howned := owned_of_sync hsync hk
  rw [setData_same] at howned
  exact stored_of_put hd howned

/-- A new account with its value, and then a write to another account or over the same one. -/
theorem allotted_stored (hcreate : createAccount ⟨id,accounts⟩ payer j lamports space b=.ok b1)
    (hfirst : Frame.serialize ⟨b1,b1⟩ t x j=.ok f1) (hsecond : f1.serialize s a k=.ok f)
    (hsync : Synced id accounts f)
    (hk : k∈accounts.map AccountInfo.key) :
    ∃ b2,Allotted t id b b2 j space x ∧ Stored s id b2 f.view k a := by
  have howner := (createAccount_spec hcreate).2.2.2.2.2.2.2.1
  obtain ⟨d,hd,rfl⟩ := Frame.save_eq_ok.mp (Frame.serialize_eq_ok.mp hfirst)
  obtain ⟨e,he,rfl⟩ := Frame.save_eq_ok.mp (Frame.serialize_eq_ok.mp hsecond)
  refine ⟨b1.setData j d,allotted_of hcreate hd,stored_of_put he ?_⟩
  by_cases hne : k=j
  · subst hne
    exact .inl ((b1.setData_owner _ _ _).trans howner)
  · have howned := owned_of_sync hsync hk
    rw [setData_same] at howned
    rw [b1.setData_owner,b1.setData_other d hne]
    exact howned

theorem stored_pair (hne : j≠k)
    (hfirst : Frame.serialize ⟨b,b⟩ t x j=.ok f1) (hsecond : f1.serialize s a k=.ok f)
    (hsync : Synced id accounts f)
    (hj : j∈accounts.map AccountInfo.key) (hk : k∈accounts.map AccountInfo.key) :
    ∃ b1,Stored t id b b1 j x ∧ Stored s id b1 f.view k a := by
  obtain ⟨d,hd,rfl⟩ := Frame.save_eq_ok.mp (Frame.serialize_eq_ok.mp hfirst)
  obtain ⟨e,he,rfl⟩ := Frame.save_eq_ok.mp (Frame.serialize_eq_ok.mp hsecond)
  have hownj := owned_of_sync hsync hj
  have hownk := owned_of_sync hsync hk
  dsimp only at hownj hownk
  rw [setData_other _ _ hne,setData_same] at hownj
  rw [setData_same] at hownk
  refine ⟨b.setData j d,stored_of_put hd hownj,stored_of_put he ?_⟩
  rw [setData_owner,setData_other _ _ (Ne.symm hne)]
  exact hownk

theorem Stored.cells (u : Stored s id b b' k a) (hs : s.Exact) (howner : (b k).owner=id)
    (j : Pubkey) : cellAt s id b' j=if j=k then some a else cellAt s id b j := by
  by_cases hj : j=k
  · rw [if_pos hj,hj]
    exact cellAt_eq_some.mpr ⟨u.owner.trans howner,hs.stored u.store⟩
  · rw [if_neg hj,cellAt_congr (u.others j hj)]

theorem Stored.other_cells (u : Stored s id b b' k a) (hs : s.Exact) (hst : s.Apart t)
    (hnone : cellAt t id b k=none) (j : Pubkey) : cellAt t id b' j=cellAt t id b j := by
  by_cases hj : j=k
  · rw [hj,hnone]
    cases hx : cellAt t id b' k with
    | none => rfl
    | some x => exact (hst (hs.stored u.store) (cellAt_eq_some.mp hx).2).elim
  · exact cellAt_congr (u.others j hj)

theorem Stored.foreign_cells (u : Stored s id b b' k a) (howner : (b k).owner≠id) (j : Pubkey) :
    cellAt t id b' j=cellAt t id b j := by
  by_cases hj : j=k
  · rw [hj,cellAt_foreign howner,cellAt_foreign (u.owner ▸ howner)]
  · exact cellAt_congr (u.others j hj)

theorem Stored.owned_of_ne (u : Stored s id b b' k a) (hs : s.Exact)
    (ha0 : s.load (b k).data=some a0) (hne : a≠a0) : (b k).owner=id := by
  obtain howner | hsame := u.owned
  · exact howner
  · have hload := hs.stored u.store
    rw [hsame,ha0] at hload
    exact absurd (Option.some.inj hload).symm hne

theorem created_cells {iv : Invocation} (hcreate : iv.createAccount payer k lamports space b=.ok b')
    (ht : t.Exact) (j : Pubkey) : cellAt t iv.programId b' j=cellAt t iv.programId b j := by
  obtain ⟨-,hfresh,-,-,-,-,hzeros,howner,hothers,-,-⟩ := createAccount_spec hcreate
  by_cases hj : j=k
  · have hbefore : cellAt t iv.programId b k=none := by
      unfold cellAt
      rw [hfresh,ht.blank (by simp),ite_self]
    rw [hj,hbefore,cellAt_owned howner,hzeros]
    exact ht.blank fun x hx => eq_of_mem_replicate hx
  · unfold cellAt
    rw [(hothers j hj).1,(hothers j hj).2]

namespace Allotted

theorem before (u : Allotted s id b b' k space a) (hempty : t.load []=none) :
    cellAt t id b k=none := by
  unfold cellAt
  rw [u.fresh,hempty,ite_self]

theorem cell (u : Allotted s id b b' k space a) (hs : s.Exact) : cellAt s id b' k=some a :=
  cellAt_eq_some.mpr ⟨u.owned',hs.stored u.written⟩

end Allotted
end Cells
end PrismChain
