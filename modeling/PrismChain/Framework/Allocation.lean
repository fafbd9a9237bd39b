import PrismChain.Framework.Cells

namespace PrismChain

open List Option

variable {α : Type} {c : Codec α} {a : α} {space : Nat}

/-- Whatever was in an account of `space` bytes, the value can be written to its front and is what
the whole account decodes to afterwards. -/
def Codec.ReadBack (c : Codec α) (space : Nat) (a : α) : Prop :=
  ∀ d : List Byte,d.length=space → (c.writeTo a d).bind c.tryFromSlice=some a

theorem Codec.writeTo_length (h : c.writeTo a d=some d') : d'.length=d.length := by
  unfold Codec.writeTo at h
  split_ifs at h with hle
  rw [← some.inj h,length_append,length_drop]
  omega

/-- A decoder that insists on the last byte needs values that fill their accounts. -/
theorem Codec.written_iff (h : c.writeTo a d=some d') :
    c.tryFromSlice d'=some a ↔ (c.encode a).length=d.length := by
  have hlen := Codec.writeTo_length h
  rw [c.tryFromSlice_eq_some]
  constructor
  · rintro rfl
    exact hlen
  · intro hfull
    unfold Codec.writeTo at h
    rw [if_pos hfull.le,some_inj,hfull,drop_length,append_nil] at h
    exact h.symm

theorem Codec.readBack_iff : c.ReadBack space a ↔ (c.encode a).length=space := by
  constructor
  · intro h
    obtain ⟨_,hwrite,hread⟩ :=
      bind_eq_some_iff.mp (h (replicate space 0#8) length_replicate)
    rw [Codec.written_iff hwrite,length_replicate] at hread
    exact hread
  · intro hfull d hd
    have hwrite : c.writeTo a d=some (c.encode a) := by
      unfold Codec.writeTo
      rw [hfull,if_pos hd.ge,← hd,drop_length,append_nil]
    rw [hwrite,bind_some]
    exact c.tryFromSlice_eq_some.mpr rfl

section Created

variable {iv : Invocation}

theorem created_data (hcreate : iv.createAccount payer k amount space b=.ok b1) :
    (b1 k).data=replicate space 0#8 :=
  (Invocation.createAccount_spec hcreate).2.2.2.2.2.2.1

theorem blank_write (hblank : (b k).data=replicate space 0#8)
    (hstore : Frame.serialize ⟨b,b⟩ (.inPlace c) a k=.ok f) :
    c.writeTo a (replicate space 0#8)=some (f.view k).data := by
  obtain ⟨d,hd,rfl⟩ := Frame.save_eq_ok.mp (Frame.serialize_eq_ok.mp hstore)
  rw [Bank.setData_same,← hblank]
  exact hd

end Created

end PrismChain
