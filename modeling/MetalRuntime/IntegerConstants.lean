import MetalRuntime.Foundations.LittleEndian
import MetalRuntime.Specialization

/-!
# Integer constants

A Python `int` and a numpy scalar of the declared type reach Metal along different paths: the
first is checked against the range of the type and converted, the second is copied. Both are
little-endian two's complement, so they agree wherever both are accepted.
-/

namespace MetalRuntime

open Foundations

/-- The integer types have at least one byte and at most eight, and are those of an integer
element type of the same size. -/
theorem integerType_size {type : MTLDataType} {signed : Bool} {size : ℕ}
    (h : integerType type = some (signed, size)) :
    0 < size ∧ size ≤ 8 ∧ ∃ dtype, constantDtype type = some dtype ∧ dtype.itemsize = size := by
  cases type <;> cases h <;> exact ⟨by decide, by decide, _, rfl, rfl⟩

/-- Shifting a word right by whole bytes leaves the byte of that place lowest. -/
private theorem shifted_byte (bits : UInt64) {i : ℕ} (hi : i < 8) :
    (bits >>> UInt64.ofNat (8 * i)).toUInt8 = UInt8.ofNat (bits.toNat / 256 ^ i) := by
  have hshift : (UInt64.ofNat (8 * i)).toNat % 64 = 8 * i := by
    rw [UInt64.toNat_ofNat']
    omega
  rw [← UInt8.toNat_inj, UInt64.toNat_toUInt8, UInt64.toNat_shiftRight, hshift,
    Nat.shiftRight_eq_div_pow, pow_mul, UInt8.toNat_ofNat']
  rfl

/-- The bytes of a value, and zeros up to eight bytes. -/
theorem toBytes_eq {size : ℕ} (hsize : size ≤ 8) (bits : UInt64) :
    toBytes size bits = toLittleEndian size bits.toNat ++ List.replicate (8 - size) 0 := by
  refine List.ext_getElem ?_ ?_
  · simp only [toBytes, List.length_map, List.length_range, List.length_append,
      length_toLittleEndian, List.length_replicate]
    omega
  · intro i hi _
    have hplace : i < 8 := by simpa [toBytes] using hi
    simp only [toBytes, List.getElem_map, List.getElem_range]
    by_cases hinside : i < size
    · rw [if_pos hinside, List.getElem_append_left (by simpa using hinside), shifted_byte _ hplace]
      simp only [toLittleEndian, List.getElem_map, List.getElem_range]
    · rw [if_neg hinside, List.getElem_append_right (by simpa using hinside),
        List.getElem_replicate]

/-- A signed word and the unsigned word with its bits differ by a whole range of words. -/
private theorem toNat_toUInt64_emod (v : Int64) {count : ℤ} (hcount : count ∣ 2 ^ 64) :
    (v.toUInt64.toNat : ℤ) % count = v.toInt % count := by
  have hcond := BitVec.toInt_eq_toNat_cond v.toBitVec
  have hint : v.toInt = v.toBitVec.toInt := rfl
  have hnat : v.toUInt64.toNat = v.toBitVec.toNat := rfl
  rw [hint, hnat, hcond]
  split
  · rfl
  · obtain ⟨q, hq⟩ := hcount
    have hcast : ((2 ^ 64 : ℕ) : ℤ) = count * q := by
      rw [← hq]
      rfl
    rw [hcast, Int.sub_mul_emod_self_left]

/-- The low bytes of a signed word are its two's complement bytes. -/
theorem toLittleEndian_toUInt64 {size : ℕ} (hsize : size ≤ 8) (v : Int64) :
    toLittleEndian size v.toUInt64.toNat = encodeInteger size v.toInt := by
  have hcount : (256 ^ size : ℤ) ∣ 2 ^ 64 := by
    have hword : (2 : ℤ) ^ 64 = 256 ^ 8 := by norm_num
    rw [hword]
    exact pow_dvd_pow 256 hsize
  have hmod := toNat_toUInt64_emod v hcount
  refine littleEndian_injective (by simp) ?_
  rw [encodeInteger, littleEndian_toLittleEndian, littleEndian_toLittleEndian, ← hmod]
  have hcast : ((v.toUInt64.toNat : ℤ) % 256 ^ size).toNat = v.toUInt64.toNat % 256 ^ size := by
    exact_mod_cast Int.toNat_natCast (v.toUInt64.toNat % 256 ^ size)
  rw [hcast, Nat.mod_mod]

/-- The comparisons of words that decide whether an integer fits are those of the range. -/
theorem fitsInteger_iff (signed : Bool) {size : ℕ} (hsize : size ≤ 8) (v : Int64) :
    fitsInteger signed size v = true ↔ InIntegerRange signed size v.toInt := by
  have hsigned : (2 : ℤ) ^ (8 * size - 1) ≤ 2 ^ 63 :=
    pow_le_pow_right₀ (by decide) (by omega)
  have hunsigned : (2 : ℕ) ^ (8 * size) ≤ 2 ^ 64 := Nat.pow_le_pow_right (by decide) (by omega)
  have hpositive : (0 : ℤ) < 2 ^ (8 * size - 1) := by positivity
  cases signed with
  | true =>
    have hlow := Int64.toInt_ofInt_of_le (n := -2 ^ (8 * size - 1)) (by omega) (by omega)
    have hhigh := Int64.toInt_ofInt_of_le (n := 2 ^ (8 * size - 1) - 1) (by omega) (by omega)
    rw [fitsInteger, if_pos rfl, decide_eq_true_eq, Int64.le_iff_toInt_le, Int64.le_iff_toInt_le,
      hlow, hhigh]
    rfl
  | false =>
    rw [fitsInteger, if_neg (by decide), decide_eq_true_eq]
    have hcount := Nat.two_pow_pos (8 * size)
    have hlimit : (UInt64.ofNat (2 ^ (8 * size) - 1)).toNat = 2 ^ (8 * size) - 1 := by
      rw [UInt64.toNat_ofNat', Nat.mod_eq_of_lt]
      omega
    have hcast : ((2 ^ (8 * size) : ℕ) : ℤ) = 2 ^ (8 * size) := by push_cast; rfl
    have hsign : 0 ≤ v ↔ 0 ≤ v.toInt := Int64.le_iff_toInt_le
    change _ ↔ 0 ≤ v.toInt ∧ v.toInt ≤ 2 ^ (8 * size) - 1
    rw [hsign, UInt64.le_iff_toNat_le, hlimit]
    refine and_congr_right fun hnonneg => ?_
    have hvalue : v.toUInt64.toNat = v.toInt.toNat :=
      Int64.toNat_toUInt64_of_le (hsign.mpr hnonneg)
    rw [hvalue, ← hcast]
    omega

/-- The checked conversion returns exactly for the integers of the type: their two's complement
bytes, and zeros up to eight bytes. -/
theorem intToBytes_eq (signed : Bool) {size : ℕ} (hsize : size ≤ 8) (v : Int64)
    (name mslName : ByteString) :
    (InIntegerRange signed size v.toInt ∧ intToBytes signed size v name mslName =
      .ok (encodeInteger size v.toInt ++ List.replicate (8 - size) 0)) ∨
    (¬ InIntegerRange signed size v.toInt ∧
      ∃ what, intToBytes signed size v name mslName = .error (.compileError what)) := by
  have hrange := fitsInteger_iff signed hsize v
  by_cases hv : InIntegerRange signed size v.toInt
  · refine Or.inl ⟨hv, ?_⟩
    rw [← hrange] at hv
    rw [intToBytes, rejectIf, if_neg (not_not.mpr hv), toBytes_eq hsize,
      toLittleEndian_toUInt64 hsize]
    rfl
  · refine Or.inr ⟨hv, ?_⟩
    rw [← hrange] at hv
    rw [intToBytes, rejectIf, if_pos hv]
    exact ⟨_, rfl⟩

/-- Coercing a plain integer to an integer type is the checked conversion. -/
theorem coerce_int (conversions : FloatConversions) {type : MTLDataType} {signed : Bool}
    {size : ℕ} (htype : integerType type = some (signed, size)) (name : ByteString) (v : Int64) :
    ∃ mslName, coerce conversions ⟨name, .int v⟩ type = intToBytes signed size v name mslName := by
  obtain ⟨-, -, dtype, hdtype, -⟩ := integerType_size htype
  obtain ⟨mslName, hname⟩ := Option.isSome_iff_exists.mp (mslTypeName_of_constantDtype hdtype).1
  refine ⟨mslName, ?_⟩
  simp only [coerce, hdtype, hname, htype]

/-- A scalar of another type than the declared one is rejected. -/
theorem coerce_exact_of_ne (conversions : FloatConversions) (name : ByteString)
    {scalar : ExactScalar} {type : MTLDataType} (h : constantDtype type ≠ some scalar.dtype) :
    ∃ what, coerce conversions ⟨name, .exact scalar⟩ type = .error (.compileError what) := by
  cases htarget : constantDtype type with
  | none => exact ⟨_, by simp only [coerce, htarget]; rfl⟩
  | some target =>
    have hne : scalar.dtype ≠ target := fun heq => h (htarget.trans (congrArg some heq.symm))
    obtain ⟨mslName, hmslName⟩ :=
      Option.isSome_iff_exists.mp (mslTypeName_of_constantDtype htarget).1
    obtain ⟨text, htext⟩ := Option.isSome_iff_exists.mp scalar.supported
    have hthrows : coerce conversions ⟨name, .exact scalar⟩ type =
        .error (typeError name mslName (ascii "a '" ++ text ++ ascii "' scalar")) := by
      simp only [coerce, htarget, hmslName, if_pos hne, htext]
    exact ⟨_, hthrows⟩

/-- A numpy scalar holds an integer of its type: the bytes of the type denote it, and the
others are zero. -/
def ExactScalar.Holds (scalar : ExactScalar) (signed : Bool) (v : ℤ) : Prop :=
  decodeInteger signed (scalar.bytes.take scalar.dtype.itemsize) = v ∧
    scalar.bytes.drop scalar.dtype.itemsize = List.replicate (8 - scalar.dtype.itemsize) 0

/-- A scalar is determined by the integer it holds. -/
theorem ExactScalar.Holds.bytes_eq {scalar : ExactScalar} {signed : Bool} {v : ℤ}
    (h : scalar.Holds signed v) (hsize : 0 < scalar.dtype.itemsize)
    (hrange : InIntegerRange signed scalar.dtype.itemsize v) :
    scalar.bytes = encodeInteger scalar.dtype.itemsize v ++
      List.replicate (8 - scalar.dtype.itemsize) 0 := by
  have hlength := scalar.length_bytes
  have hfits := DType.itemsize_le scalar.supported
  have htake : scalar.bytes.take scalar.dtype.itemsize =
      encodeInteger scalar.dtype.itemsize v := by
    refine @decodeInteger_injective signed _ _ ?_ ?_
    · rw [List.length_take, length_encodeInteger]
      omega
    · rw [h.1, decodeInteger_encodeInteger hsize hrange]
  rw [← htake, ← h.2, List.take_append_drop]

/-- For every word and every integer type, a plain integer is accepted exactly in the range of
the type, as its two's complement bytes with zeros up to eight bytes; every scalar of the
type that holds the integer, and there is one, is accepted as the same bytes. An integer out
of the range and a scalar of another type throw. -/
theorem integer_constants_exact (conversions : FloatConversions) {type : MTLDataType}
    {signed : Bool} {size : ℕ} (htype : integerType type = some (signed, size))
    (name : ByteString) (v : Int64) :
    ((∃ bytes, coerce conversions ⟨name, .int v⟩ type = .ok bytes) ↔
      InIntegerRange signed size v.toInt) ∧
    (∀ bytes, coerce conversions ⟨name, .int v⟩ type = .ok bytes →
      bytes.take size = encodeInteger size v.toInt ∧
      decodeInteger signed (bytes.take size) = v.toInt ∧
      bytes.drop size = List.replicate (8 - size) 0 ∧
      (∃ scalar : ExactScalar, constantDtype type = some scalar.dtype ∧
        scalar.Holds signed v.toInt) ∧
      ∀ name' (scalar : ExactScalar), constantDtype type = some scalar.dtype →
        scalar.Holds signed v.toInt →
        coerce conversions ⟨name', .exact scalar⟩ type = .ok bytes) ∧
    (¬ InIntegerRange signed size v.toInt →
      ∃ what, coerce conversions ⟨name, .int v⟩ type = .error (.compileError what)) ∧
    ∀ name' (scalar : ExactScalar), constantDtype type ≠ some scalar.dtype →
      ∃ what, coerce conversions ⟨name', .exact scalar⟩ type = .error (.compileError what) := by
  obtain ⟨hpositive, hsize, dtype, hdtype, rfl⟩ := integerType_size htype
  obtain ⟨mslName, hcoerce⟩ := coerce_int conversions htype name v
  have hothers : ∀ name' (scalar : ExactScalar), constantDtype type ≠ some scalar.dtype →
      ∃ what, coerce conversions ⟨name', .exact scalar⟩ type = .error (.compileError what) :=
    fun name' _ h => coerce_exact_of_ne conversions name' h
  rw [hcoerce]
  obtain ⟨hrange, hok⟩ | ⟨hrange, what, herror⟩ :=
    intToBytes_eq signed hsize v name mslName
  · rw [hok]
    refine ⟨iff_of_true ⟨_, rfl⟩ hrange, ?_, fun h => absurd hrange h, hothers⟩
    intro bytes hbytes
    cases hbytes
    have htake : (encodeInteger dtype.itemsize v.toInt ++
        List.replicate (8 - dtype.itemsize) 0).take dtype.itemsize =
          encodeInteger dtype.itemsize v.toInt := List.take_left' (length_encodeInteger _ _)
    have hdrop : (encodeInteger dtype.itemsize v.toInt ++
        List.replicate (8 - dtype.itemsize) 0).drop dtype.itemsize =
          List.replicate (8 - dtype.itemsize) 0 := List.drop_left' (length_encodeInteger _ _)
    have hdecode := decodeInteger_encodeInteger hpositive hrange
    refine ⟨htake, by rw [htake, hdecode], hdrop, ⟨⟨dtype, _, ?_,
      (mslTypeName_of_constantDtype hdtype).2⟩, hdtype, ?_, hdrop⟩, ?_⟩
    · rw [List.length_append, length_encodeInteger, List.length_replicate]
      omega
    · rw [htake, hdecode]
    · intro name' scalar hscalar hholds
      have hsame : scalar.dtype = dtype := Option.some.inj (hscalar.symm.trans hdtype)
      rw [coerce_exact_of_eq conversions name' hscalar, hholds.bytes_eq, hsame] <;> rwa [hsame]
  · rw [herror]
    refine ⟨iff_of_false ?_ hrange, ?_, fun _ => ⟨what, rfl⟩, hothers⟩
    · intro hbytes
      obtain ⟨bytes, hbytes⟩ := hbytes
      cases hbytes
    · intro bytes hbytes
      cases hbytes

/-- The least `short`, from a plain integer: its two bytes denote it. -/
theorem least_short_encoded :
    coerce hostConversions ⟨ascii "k", .int (-32768)⟩ .short =
      .ok [0x00, 0x80, 0, 0, 0, 0, 0, 0] ∧
    decodeInteger true [0x00, 0x80] = -32768 := by
  have hcoerce : coerce hostConversions ⟨ascii "k", .int (-32768)⟩ .short =
    .ok [0x00, 0x80, 0, 0, 0, 0, 0, 0] := by decide
  obtain ⟨-, hbytes, -⟩ :=
    @integer_constants_exact hostConversions .short true 2 rfl (ascii "k") (-32768)
  exact ⟨hcoerce, (hbytes _ hcoerce).2.1⟩

end MetalRuntime
