namespace StatusPage

def Binary64.signWeight : Nat := 0x8000000000000000

/-- A double: its sign and the 63 bits below the sign. -/
@[ext]
structure Binary64 where
  negative : Bool
  field : Nat
  field_lt : field < Binary64.signWeight
deriving DecidableEq

namespace Binary64

def hiddenBit : Nat := 0x10000000000000

def infinityField : Nat := 0x7FF0000000000000

def unitsPerOne : Nat := 1 <<< 1074

/-- Finite magnitudes are multiples of `2 ^ -1074`; this is the multiple that a field stands for. -/
def unitsOfField (field : Nat) : Nat :=
  if field < hiddenBit then field
  else (hiddenBit + field % hiddenBit) <<< (field / hiddenBit - 1)

inductive Magnitude where
  | finite (units : Nat)
  | infinite
  | nan
deriving DecidableEq

def magnitude (x : Binary64) : Magnitude :=
  if x.field < infinityField then .finite (unitsOfField x.field)
  else if x.field = infinityField then .infinite
  else .nan

def infinity (negative : Bool) : Binary64 := ⟨negative, infinityField, by decide⟩

def nan : Binary64 := ⟨false, 0x7FF8000000000000, by decide⟩

def ofBits (bits : UInt64) : Binary64 :=
  ⟨signWeight ≤ bits.toNat, bits.toNat % signWeight, Nat.mod_lt _ (by decide)⟩

def toBits (x : Binary64) : UInt64 :=
  .ofNat (x.field + if x.negative then signWeight else 0)

theorem toBits_toNat (x : Binary64) :
    x.toBits.toNat = x.field + if x.negative then signWeight else 0 := by
  have bound := x.field_lt
  simp only [toBits, UInt64.toNat_ofNat', signWeight] at bound ⊢
  split <;> omega

theorem ofBits_toBits (x : Binary64) : ofBits x.toBits = x := by
  have bound := x.field_lt
  simp only [signWeight] at bound
  ext
  · simp only [ofBits, toBits_toNat, signWeight]
    cases x.negative <;> simp <;> omega
  · simp only [ofBits, toBits_toNat, signWeight]
    split <;> omega

theorem toBits_ofBits (bits : UInt64) : (ofBits bits).toBits = bits := by
  have bound := bits.toNat_lt
  apply UInt64.toNat_inj.1
  simp only [toBits_toNat, ofBits, signWeight]
  by_cases signed : 9223372036854775808 ≤ bits.toNat <;> simp [signed] <;> omega

end Binary64

end StatusPage
