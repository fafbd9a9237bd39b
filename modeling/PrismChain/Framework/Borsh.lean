import PrismChain.Framework.FixedWidth

namespace PrismChain

open List Option BitVec

abbrev Byte := BitVec 8

/-- The low `n` base-256 digits of `v`, least significant first. -/
def leBytes : Nat → Nat → List Byte
  | 0,_ => []
  | n+1,v => BitVec.ofNat 8 v::leBytes n (v/256)

def leValue : List Byte → Nat
  | [] => 0
  | b::bs => b.toNat+256*leValue bs

@[simp] theorem leBytes_length (n v : Nat) : (leBytes n v).length=n := by
  induction n generalizing v with
  | zero => rfl
  | succ n ih => simp [leBytes,ih]

theorem leValue_lt (bs : List Byte) : leValue bs<256^bs.length := by
  induction bs with
  | nil => simp [leValue]
  | cons b bs =>
    have hb := b.isLt
    rw [leValue,length_cons,pow_succ]
    omega

theorem leValue_leBytes (n v : Nat) : leValue (leBytes n v)=v%256^n := by
  induction n generalizing v with
  | zero => simp [leBytes,leValue,Nat.mod_one]
  | succ n ih =>
    rw [leBytes,leValue,ih,toNat_ofNat,Nat.pow_succ 256,Nat.mul_comm (256^n) 256,Nat.mod_mul]

theorem leBytes_leValue (bs : List Byte) : leBytes bs.length (leValue bs)=bs := by
  induction bs with
  | nil => rfl
  | cons b bs ih =>
    have hb := b.isLt
    have hdiv : (b.toNat+256*leValue bs)/256=leValue bs := by omega
    have hhead : BitVec.ofNat 8 (b.toNat+256*leValue bs)=b := by
      apply eq_of_toNat_eq
      rw [toNat_ofNat]
      omega
    rw [leValue,length_cons,leBytes,hdiv,ih,hhead]

theorem leValue_append (as bs : List Byte) :
    leValue (as++bs)=leValue as+256^as.length*leValue bs := by
  induction as with
  | nil => simp [leValue]
  | cons _ as ih =>
    rw [List.cons_append,leValue,leValue,ih,length_cons,pow_succ]
    ring

theorem leValue_drop (j : Nat) (bs : List Byte) : leValue (bs.drop j)=leValue bs/256^j := by
  induction j generalizing bs with
  | zero => simp
  | succ j ih =>
    cases bs with
    | nil => simp [leValue]
    | cons b bs =>
      have hb := b.isLt
      have hdiv : (b.toNat+256*leValue bs)/256=leValue bs := by omega
      rw [drop_succ_cons,ih,leValue,Nat.pow_succ',← Nat.div_div_eq_div_mul,hdiv]

theorem leValue_take (m : Nat) (bs : List Byte) : leValue (bs.take m)=leValue bs%256^m := by
  induction m generalizing bs with
  | zero => simp [leValue,Nat.mod_one]
  | succ m ih =>
    cases bs with
    | nil => simp [leValue]
    | cons b bs =>
      have hb := b.isLt
      have hmod : (b.toNat+256*leValue bs)%256=b.toNat := by omega
      have hdiv : (b.toNat+256*leValue bs)/256=leValue bs := by omega
      rw [take_succ_cons,leValue,ih,leValue,Nat.pow_succ',Nat.mod_mul,hmod,hdiv]

theorem leValue_slice (j m : Nat) (bs : List Byte) :
    leValue ((bs.drop j).take m)=leValue bs/256^j%256^m := by
  rw [leValue_take,leValue_drop]

theorem pow256 (n : Nat) : 256^n=2^(8*n) := by
  rw [pow_mul]
  rfl

/-- A self-delimiting wire format. Reading takes back exactly what was written and
accepts nothing that writing does not produce. -/
structure Codec (α : Type) where
  encode : α → List Byte
  decode : List Byte → Option (α×List Byte)
  decode_encode : ∀ a rest,decode (encode a++rest)=some (a,rest)
  decode_sound : ∀ {bs a rest},decode bs=some (a,rest) → bs=encode a++rest

namespace Codec

variable {α β : Type}

theorem encode_append_inj (c : Codec α) (h : c.encode a++r=c.encode b++s) : a=b ∧ r=s := by
  have ha := c.decode_encode a r
  rw [h,c.decode_encode b s] at ha
  simpa [eq_comm] using ha

theorem encode_inj (c : Codec α) (h : c.encode a=c.encode b) : a=b :=
  (c.encode_append_inj (r := []) (s := []) (by rw [h])).1

def uint (n : Nat) : Codec (BitVec (8*n)) where
  encode a := leBytes n a.toNat
  decode bs :=
    if n≤bs.length then some (BitVec.ofNat (8*n) (leValue (bs.take n)),bs.drop n) else none
  decode_encode := by
    intro a rest
    have hlen : n≤(leBytes n a.toNat++rest).length := by simp
    have htake : (leBytes n a.toNat++rest).take n=leBytes n a.toNat := by
      rw [List.take_append_of_le_length (by simp),List.take_of_length_le (by simp)]
    have hdrop : (leBytes n a.toNat++rest).drop n=rest := by
      rw [List.drop_append_of_le_length (by simp),List.drop_of_length_le (by simp)]
      rfl
    have hval : BitVec.ofNat (8*n) (leValue (leBytes n a.toNat))=a := by
      apply BitVec.eq_of_toNat_eq
      rw [BitVec.toNat_ofNat,leValue_leBytes,pow256,Nat.mod_mod,Nat.mod_eq_of_lt a.isLt]
    rw [if_pos hlen,htake,hdrop,hval]
  decode_sound := by
    intro bs a rest h
    split_ifs at h with hlen
    cases h
    have htake : (bs.take n).length=n := by simp [hlen]
    have hlt : leValue (bs.take n)<2^(8*n) := by
      have h := leValue_lt (bs.take n)
      rwa [htake,pow256] at h
    have hback := leBytes_leValue (bs.take n)
    rw [htake] at hback
    rw [BitVec.toNat_ofNat,Nat.mod_eq_of_lt hlt,hback,List.take_append_drop]

def pair (c : Codec α) (d : Codec β) : Codec (α×β) where
  encode x := c.encode x.1++d.encode x.2
  decode bs := (c.decode bs).bind fun x => (d.decode x.2).map fun y => ((x.1,y.1),y.2)
  decode_encode := by
    rintro ⟨a,b⟩ rest
    rw [List.append_assoc,c.decode_encode]
    simp [d.decode_encode]
  decode_sound := by
    rintro bs ⟨a,b⟩ rest h
    obtain ⟨⟨a',mid⟩,hc,h⟩ := Option.bind_eq_some_iff.mp h
    obtain ⟨⟨b',tail⟩,hd,he⟩ := Option.map_eq_some_iff.mp h
    simp only [Prod.mk.injEq] at he hd
    obtain ⟨⟨rfl,rfl⟩,rfl⟩ := he
    rw [c.decode_sound hc,d.decode_sound hd,List.append_assoc]

/-- Values of `β` carried on the wire as those values of `α` that `read` admits. -/
def narrow (c : Codec α) (read : α → Option β) (write : β → α)
    (hread : ∀ b,read (write b)=some b) (hwrite : ∀ {a b},read a=some b → a=write b) :
    Codec β where
  encode b := c.encode (write b)
  decode bs := (c.decode bs).bind fun x => (read x.1).map fun b => (b,x.2)
  decode_encode := by
    intro b rest
    simp [c.decode_encode,hread]
  decode_sound := by
    intro bs b rest h
    obtain ⟨⟨a,mid⟩,hc,h⟩ := Option.bind_eq_some_iff.mp h
    obtain ⟨b',hb,he⟩ := Option.map_eq_some_iff.mp h
    obtain ⟨rfl,rfl⟩ := Prod.mk.inj he
    have ha : a=write b' := hwrite hb
    rw [c.decode_sound hc,ha]

def record (c : Codec α) (make : α → β) (fields : β → α)
    (hmake : ∀ b,make (fields b)=b := by intro _; rfl)
    (hfields : ∀ a,fields (make a)=a := by intro _; rfl) : Codec β :=
  c.narrow (fun a => some (make a)) fields (fun b => by rw [hmake])
    (fun h => by rw [← Option.some.inj h,hfields])

/-- The tag byte of an enumeration with `n` variants. -/
def variant (n : Nat) (hn : n≤256) : Codec (Fin n) :=
  (uint 1).narrow (fun a => if h : a.toNat<n then some ⟨a.toNat,h⟩ else none)
    (fun i => BitVec.ofNat 8 i.val)
    (by
      intro i
      have h : (BitVec.ofNat 8 i.val).toNat=i.val := by
        rw [BitVec.toNat_ofNat]
        exact Nat.mod_eq_of_lt (i.isLt.trans_le hn)
      have hlt : (BitVec.ofNat 8 i.val).toNat<n := by rw [h]; exact i.isLt
      rw [dif_pos hlt]
      exact congrArg some (Fin.ext h))
    (by
      intro a b h
      split_ifs at h with ha
      rw [← Option.some.inj h]
      exact (BitVec.setWidth_eq a).symm.trans (BitVec.ofNat_toNat 8 a).symm)

/-- All values of an enumeration in the order of their tags. -/
structure Tags (α : Type) where
  all : List α
  complete : ∀ a,a∈all := by intro a; cases a <;> decide
  distinct : all.Nodup := by decide
  short : all.length≤256 := by decide

/-- One byte: the place of the value among all of them. -/
def enumeration [DecidableEq α] (t : Tags α) : Codec α :=
  (uint 1).narrow (fun x => t.all[x.toNat]?) (fun a => BitVec.ofNat 8 (t.all.idxOf a))
    (by
      intro a
      have hlt := idxOf_lt_length_of_mem (t.complete a)
      rw [BitVec.toNat_ofNat,Nat.mod_eq_of_lt (hlt.trans_le t.short)]
      exact getElem?_idxOf (t.complete a))
    (by
      intro x a h
      obtain ⟨hlt,rfl⟩ := List.getElem?_eq_some_iff.mp h
      rw [t.distinct.idxOf_getElem _ hlt]
      exact (BitVec.setWidth_eq x).symm.trans (BitVec.ofNat_toNat 8 x).symm)

def bool : Codec Bool :=
  enumeration ⟨[false,true],by intro a; cases a <;> decide,by decide,by decide⟩

def u8 : Codec U8 := uint 1
def u32 : Codec U32 := uint 4
def u64 : Codec U64 := uint 8
def u128 : Codec U128 := uint 16
def i64 : Codec I64 := uint 8
def i128 : Codec I128 := uint 16

def decodeMany (c : Codec α) : Nat → List Byte → Option (List α×List Byte)
  | 0,bs => some ([],bs)
  | n+1,bs => (c.decode bs).bind fun x =>
      (decodeMany c n x.2).map fun y => (x.1::y.1,y.2)

theorem decodeMany_encode (c : Codec α) (l : List α) (rest : List Byte) :
    c.decodeMany l.length ((l.map c.encode).flatten++rest)=some (l,rest) := by
  induction l with
  | nil => rfl
  | cons _ l ih =>
    simp only [length_cons,map_cons,flatten_cons,List.append_assoc,decodeMany,
      c.decode_encode,bind_some,ih,map_some]

theorem decodeMany_sound (c : Codec α) (h : c.decodeMany n bs=some (l,rest)) :
    l.length=n ∧ bs=(l.map c.encode).flatten++rest := by
  induction n generalizing bs l with
  | zero =>
    cases h
    exact ⟨rfl,rfl⟩
  | succ n ih =>
    obtain ⟨⟨a,mid⟩,ha,h⟩ := bind_eq_some_iff.mp h
    obtain ⟨⟨l',tail⟩,hl,he⟩ := map_eq_some_iff.mp h
    cases he
    obtain ⟨hlen,hmid⟩ := ih hl
    have hmid' : mid=(l'.map c.encode).flatten++tail := hmid
    refine ⟨by simp [hlen],?_⟩
    rw [c.decode_sound ha,hmid',map_cons,flatten_cons,List.append_assoc]

/-- A vector as its 32-bit length and its elements; longer vectors have no encoding. -/
def vec (c : Codec α) : Codec {l : List α // l.length<2^32} where
  encode l := u32.encode (BitVec.ofNat 32 l.val.length)++(l.val.map c.encode).flatten
  decode bs := (u32.decode bs).bind fun n => (c.decodeMany n.1.toNat n.2).bind fun x =>
    if h : x.1.length<2^32 then some (⟨x.1,h⟩,x.2) else none
  decode_encode := by
    rintro ⟨l,hl⟩ rest
    have hn : (BitVec.ofNat 32 l.length).toNat=l.length := by
      rw [BitVec.toNat_ofNat,Nat.mod_eq_of_lt hl]
    rw [List.append_assoc,u32.decode_encode]
    simp only [Option.bind_some,hn,c.decodeMany_encode,hl,dite_true]
  decode_sound := by
    rintro bs ⟨l,hl⟩ rest h
    obtain ⟨⟨n,mid⟩,hn,h⟩ := Option.bind_eq_some_iff.mp h
    obtain ⟨⟨l',tail⟩,hx,h⟩ := Option.bind_eq_some_iff.mp h
    obtain ⟨hlen,hmid⟩ := c.decodeMany_sound hx
    split_ifs at h
    simp only [Option.some.injEq,Prod.mk.injEq,Subtype.mk.injEq] at h
    obtain ⟨rfl,rfl⟩ := h
    have hmid' : mid=(l'.map c.encode).flatten++tail := hmid
    have hback : BitVec.ofNat 32 l'.length=n := by
      rw [hlen]
      exact (BitVec.ofNat_toNat 32 n).trans (BitVec.setWidth_eq n)
    rw [u32.decode_sound hn,hmid',hback,List.append_assoc]

/-- A byte says whether a value follows. -/
def option (c : Codec α) : Codec (Option α) where
  encode
    | none => [0#8]
    | some a => 1#8::c.encode a
  decode
    | [] => none
    | tag::bs =>
      if tag=0#8 then some (none,bs)
      else if tag=1#8 then (c.decode bs).map fun x => (some x.1,x.2) else none
  decode_encode := by
    intro a rest
    cases a with
    | none => simp
    | some a => simp [c.decode_encode]
  decode_sound := by
    intro bs a rest h
    cases bs with
    | nil => cases h
    | cons tag bs =>
      dsimp only at h
      split_ifs at h with h0 h1
      · cases h
        rw [h0]
        rfl
      · obtain ⟨x,hx,he⟩ := Option.map_eq_some_iff.mp h
        cases he
        rw [h1,c.decode_sound hx]
        rfl

def unit : Codec Unit where
  encode _ := []
  decode bs := some ((),bs)
  decode_encode _ _ := rfl
  decode_sound := by
    rintro bs ⟨⟩ rest h
    exact (Prod.mk.inj (Option.some.inj h)).2

/-- An enumeration with `n` variants: the tag, then what the variant carries. -/
def sigma {n : Nat} (hn : n≤256) {ρ : Fin n → Type} (c : ∀ i,Codec (ρ i)) : Codec (Σ i,ρ i) where
  encode x := (variant n hn).encode x.1++(c x.1).encode x.2
  decode bs := ((variant n hn).decode bs).bind fun t =>
    ((c t.1).decode t.2).map fun x => (⟨t.1,x.1⟩,x.2)
  decode_encode := by
    rintro ⟨i,a⟩ rest
    rw [List.append_assoc,(variant n hn).decode_encode]
    simp [(c i).decode_encode]
  decode_sound := by
    rintro bs ⟨i,a⟩ rest h
    obtain ⟨⟨j,mid⟩,ht,h⟩ := Option.bind_eq_some_iff.mp h
    obtain ⟨⟨x,tail⟩,hx,he⟩ := Option.map_eq_some_iff.mp h
    obtain ⟨hvalue,rfl⟩ := Prod.mk.inj he
    obtain ⟨rfl,hcarried⟩ := Sigma.mk.inj hvalue
    obtain rfl := eq_of_heq hcarried
    have hmid : mid=(c j).encode x++tail := (c j).decode_sound hx
    rw [(variant n hn).decode_sound ht,hmid,List.append_assoc]

/-- The bytes of a string, always well-formed UTF-8. -/
def utf8 (s : String) : List Byte := s.toByteArray.data.toList.map UInt8.toBitVec

theorem short_empty : (utf8 "").length<2^32 := by decide

def ofUtf8 (bs : List Byte) : Option String :=
  String.fromUTF8? ⟨(bs.map UInt8.ofBitVec).toArray⟩

theorem ofUtf8_utf8 (s : String) : ofUtf8 (utf8 s)=some s := by
  have hbytes : (utf8 s).map UInt8.ofBitVec=s.toByteArray.data.toList := by
    simp [utf8,Function.comp_def]
  have harr : (⟨((utf8 s).map UInt8.ofBitVec).toArray⟩ : ByteArray)=s.toByteArray := by
    rw [hbytes]
  have hvalid : (⟨((utf8 s).map UInt8.ofBitVec).toArray⟩ : ByteArray).IsValidUTF8 := by
    rw [harr]
    exact s.isValidUTF8
  rw [ofUtf8,String.fromUTF8?,dif_pos hvalid]
  congr 1
  apply String.toByteArray_inj.mp
  exact harr

theorem utf8_of_ofUtf8 (h : ofUtf8 bs=some s) : bs=utf8 s := by
  rw [ofUtf8,String.fromUTF8?] at h
  split_ifs at h with hv
  rw [← some.inj h]
  simp [utf8,String.fromUTF8,Function.comp_def]

def string : Codec {s : String // (utf8 s).length<2^32} :=
  (vec u8).narrow
    (fun l => (ofUtf8 l.val).bind fun s => if h : (utf8 s).length<2^32 then some ⟨s,h⟩ else none)
    (fun s => ⟨utf8 s.val,s.property⟩)
    (by
      rintro ⟨s,hs⟩
      simp only [ofUtf8_utf8,Option.bind_some,dif_pos hs])
    (by
      rintro ⟨l,hl⟩ ⟨s,hs⟩ h
      obtain ⟨s',hs',h⟩ := Option.bind_eq_some_iff.mp h
      split_ifs at h
      obtain rfl := Subtype.mk.inj (Option.some.inj h)
      exact Subtype.ext (utf8_of_ofUtf8 hs'))

def HasSize (c : Codec α) (n : Nat) : Prop := ∀ a,(c.encode a).length=n

theorem uint_size (n : Nat) : (uint n).HasSize n := fun a => leBytes_length n a.toNat

theorem narrow_size {c : Codec α} {read : α → Option β} {n : Nat} {h1 h2} (hc : c.HasSize n) :
    (c.narrow read write h1 h2).HasSize n := fun b => hc (write b)

theorem enumeration_size [DecidableEq α] (t : Tags α) : (enumeration t).HasSize 1 :=
  narrow_size (uint_size 1)

theorem bool_size : bool.HasSize 1 := enumeration_size _

@[simp] theorem uint_length (n : Nat) (x : BitVec (8*n)) :
    ((uint n).encode x).length=n := uint_size n x
@[simp] theorem u8_length (x : U8) : (u8.encode x).length=1 := uint_size 1 x
@[simp] theorem u32_length (x : U32) : (u32.encode x).length=4 := uint_size 4 x
@[simp] theorem u64_length (x : U64) : (u64.encode x).length=8 := uint_size 8 x
@[simp] theorem u128_length (x : U128) : (u128.encode x).length=16 := uint_size 16 x
@[simp] theorem i64_length (x : I64) : (i64.encode x).length=8 := uint_size 8 x
@[simp] theorem i128_length (x : I128) : (i128.encode x).length=16 := uint_size 16 x
@[simp] theorem bool_length (x : Bool) : (bool.encode x).length=1 := bool_size x
@[simp] theorem enumeration_length [DecidableEq α] (t : Tags α) (a : α) :
    ((enumeration t).encode a).length=1 := enumeration_size t a

theorem flatten_size {c : Codec α} (hc : c.HasSize n) (l : List α) :
    ((l.map c.encode).flatten).length=n*l.length := by
  induction l with
  | nil => rfl
  | cons a l ih =>
    rw [map_cons,flatten_cons,length_append,ih,hc a,length_cons]
    ring

theorem vec_length {c : Codec α} (hc : c.HasSize n) (l : {l : List α // l.length<2^32}) :
    (c.vec.encode l).length=4+n*l.val.length := by
  have hcount : u32.HasSize 4 := uint_size 4
  change (u32.encode _++(l.val.map c.encode).flatten).length=_
  rw [length_append,flatten_size hc,hcount]

@[simp] theorem pair_length (c : Codec α) (d : Codec β) (x : α×β) :
    ((c.pair d).encode x).length=(c.encode x.1).length+(d.encode x.2).length := length_append

@[simp] theorem record_length {c : Codec α} {h1 h2} (b : β) :
    ((c.record make fields h1 h2).encode b).length=(c.encode (fields b)).length := rfl

theorem string_length (s : {s : String // (utf8 s).length<2^32}) :
    (string.encode s).length=4+(utf8 s.val).length := by
  have hlen := vec_length (c := u8) (uint_size 1) ⟨utf8 s.val,s.property⟩
  rwa [Nat.one_mul] at hlen

/-- Decoding of a whole buffer: unread bytes are an error. -/
def tryFromSlice (c : Codec α) (bs : List Byte) : Option α :=
  (c.decode bs).bind fun x => if x.2.isEmpty then some x.1 else none

theorem tryFromSlice_eq_some (c : Codec α) : c.tryFromSlice bs=some a ↔ bs=c.encode a := by
  constructor
  · intro h
    obtain ⟨⟨_,rest⟩,hd,h⟩ := bind_eq_some_iff.mp h
    split_ifs at h with hr
    have hrest : rest=[] := isEmpty_iff.mp hr
    rw [c.decode_sound hd,hrest,append_nil,← some.inj h]
  · rintro rfl
    have h := c.decode_encode a []
    rw [append_nil] at h
    simp [tryFromSlice,h]

/-- Decoding of what a buffer begins with, whatever follows it. -/
def front (c : Codec α) (bs : List Byte) : Option α := (c.decode bs).map Prod.fst

theorem front_eq_some (c : Codec α) : c.front bs=some a ↔ ∃ rest,bs=c.encode a++rest := by
  constructor
  · intro h
    obtain ⟨⟨_,rest⟩,hd,rfl⟩ := map_eq_some_iff.mp h
    exact ⟨rest,c.decode_sound hd⟩
  · rintro ⟨rest,rfl⟩
    rw [front,c.decode_encode]
    rfl

theorem tryFromSlice_take {c : Codec α} (hc : c.HasSize n) {bs : List Byte} :
    c.tryFromSlice (bs.take n)=some a ↔ bs=c.encode a++bs.drop n := by
  rw [c.tryFromSlice_eq_some]
  constructor
  · intro h
    rw [← h,take_append_drop]
  intro h
  have hsame := (take_append_drop n bs).trans h
  have hlen : n≤bs.length := by
    rw [h,length_append,hc a]
    exact Nat.le_add_right _ _
  exact (append_inj hsame (by rw [length_take,Nat.min_eq_left hlen,hc a])).1

/-- Serialization into the front of a fixed buffer: what does not fit is an error and
what lies behind the value is left as it was. -/
def writeTo (c : Codec α) (a : α) (buf : List Byte) : Option (List Byte) :=
  if (c.encode a).length≤buf.length then some (c.encode a++buf.drop (c.encode a).length) else none

theorem writeTo_of_size {c : Codec α} (hc : c.HasSize n) {buf : List Byte} (hb : buf.length=n)
    (a : α) : c.writeTo a buf=some (c.encode a) := by
  unfold writeTo
  rw [hc a,if_pos hb.ge,drop_of_length_le hb.le,append_nil]

end Codec
end PrismChain
