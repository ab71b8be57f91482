import Mathlib.Data.List.Basic
import Mathlib.Data.UInt

/-!
# Flat byte memory

An address space of bytes, with reads and writes of consecutive ranges. A write changes
exactly its own range, so ranges that do not overlap do not influence each other.
-/

namespace Foundations

/-- The contents of an address space. -/
abbrev Memory := ℕ → UInt8

/-- Replace consecutive elements of a list. -/
def overwrite (bytes : List UInt8) (start : ℕ) (new : List UInt8) : List UInt8 :=
  bytes.take start ++ (new ++ bytes.drop (start + new.length))

namespace Memory

/-- The bytes of a range. -/
def read (memory : Memory) (address count : ℕ) : List UInt8 :=
  (List.range count).map fun i => memory (address + i)

/-- Write consecutive bytes. -/
def write (memory : Memory) (address : ℕ) (bytes : List UInt8) : Memory := fun a =>
  if address ≤ a then (bytes[a - address]?).getD (memory a) else memory a

/-- `memcpy` between ranges that do not overlap. -/
def memcpy (memory : Memory) (destination source count : ℕ) : Memory :=
  memory.write destination (memory.read source count)

/-- A read returns as many bytes as it was asked for. -/
@[simp] theorem length_read (memory : Memory) (address count : ℕ) :
    (memory.read address count).length = count := by
  rw [read, List.length_map, List.length_range]

/-- A read by index. -/
theorem getElem?_read (memory : Memory) (address : ℕ) {count i : ℕ} (hi : i < count) :
    (memory.read address count)[i]? = some (memory (address + i)) := by
  rw [read, List.getElem?_map, List.getElem?_range hi]
  rfl

/-- The later bytes of a range are a range of their own. -/
theorem drop_read (memory : Memory) (address count start : ℕ) :
    (memory.read address count).drop start = memory.read (address + start) (count - start) := by
  apply List.ext_getElem?
  intro i
  rw [List.getElem?_drop]
  by_cases hi : start + i < count
  · rw [getElem?_read _ _ hi, getElem?_read _ _ (Nat.lt_sub_of_add_lt (by omega)), Nat.add_assoc]
  · rw [List.getElem?_eq_none (by rw [length_read]; omega),
      List.getElem?_eq_none (by rw [length_read]; omega)]

/-- The first bytes of a range are a range of their own. -/
theorem take_read (memory : Memory) (address : ℕ) {count n : ℕ} (h : n ≤ count) :
    (memory.read address count).take n = memory.read address n := by
  rw [read, ← List.map_take, List.take_range, Nat.min_eq_left h]
  rfl

/-- Reading back what was written. -/
theorem read_write_self (memory : Memory) (address : ℕ) (bytes : List UInt8) :
    (memory.write address bytes).read address bytes.length = bytes := by
  apply List.ext_getElem?
  intro i
  by_cases hi : i < bytes.length
  · rw [getElem?_read _ _ hi, write, if_pos (Nat.le_add_right address i), Nat.add_sub_cancel_left,
      List.getElem?_eq_getElem hi, Option.getD_some]
  · rw [List.getElem?_eq_none (by rw [length_read]; omega), List.getElem?_eq_none (by omega)]

/-- A write outside a range leaves the range as it was. -/
theorem read_write_of_disjoint (memory : Memory) {address count target : ℕ} {bytes : List UInt8}
    (h : address + count ≤ target ∨ target + bytes.length ≤ address) :
    (memory.write target bytes).read address count = memory.read address count := by
  apply List.map_congr_left
  intro i hi
  have hlt := List.mem_range.mp hi
  unfold write
  by_cases hle : target ≤ address + i
  · rw [if_pos hle, List.getElem?_eq_none (by omega), Option.getD_none]
  · rw [if_neg hle]

/-- A write inside a range replaces its bytes in the range. -/
theorem read_write_of_inside (memory : Memory) (address : ℕ) {count start : ℕ} {bytes : List UInt8}
    (h : start + bytes.length ≤ count) :
    (memory.write (address + start) bytes).read address count =
      overwrite (memory.read address count) start bytes := by
  have htake : ((memory.read address count).take start).length = start := by
    rw [List.length_take, length_read]
    omega
  apply List.ext_getElem?
  intro i
  unfold overwrite
  by_cases hi : i < count
  · rw [getElem?_read _ _ hi, write]
    by_cases hbefore : i < start
    · rw [if_neg (by omega), List.getElem?_append_left (by omega), List.getElem?_take_of_lt hbefore,
        getElem?_read _ _ hi]
    · rw [if_pos (by omega), List.getElem?_append_right (by omega), htake,
        Nat.add_sub_add_left]
      by_cases hinside : i - start < bytes.length
      · rw [List.getElem?_append_left hinside, List.getElem?_eq_getElem hinside, Option.getD_some]
      · rw [List.getElem?_append_right (by omega), List.getElem?_eq_none (by omega),
          Option.getD_none, List.getElem?_drop,
          show start + bytes.length + (i - start - bytes.length) = i by omega,
          getElem?_read _ _ hi]
  · rw [List.getElem?_eq_none (by rw [length_read]; omega), List.getElem?_eq_none]
    simp only [List.length_append, htake, List.length_drop, length_read]
    omega

/-- A write changes only the bytes that it writes. -/
theorem write_of_outside (memory : Memory) {address target : ℕ} {bytes : List UInt8}
    (h : ¬ (target ≤ address ∧ address < target + bytes.length)) :
    memory.write target bytes address = memory address := by
  unfold write
  by_cases hle : target ≤ address
  · rw [if_pos hle, List.getElem?_eq_none (by omega), Option.getD_none]
  · rw [if_neg hle]

/-- Copying nothing changes nothing. -/
theorem memcpy_zero (memory : Memory) (destination source : ℕ) :
    memory.memcpy destination source 0 = memory := by
  funext a
  rw [memcpy, read, List.range_zero, List.map_nil, write, List.getElem?_nil, Option.getD_none,
    ite_self]

/-- A copy makes the destination equal to the source. -/
theorem read_memcpy_self (memory : Memory) (destination source count : ℕ) :
    (memory.memcpy destination source count).read destination count =
      memory.read source count := by
  have h := read_write_self memory destination (memory.read source count)
  rwa [length_read] at h

/-- A copy leaves every range outside its destination as it was. -/
theorem read_memcpy_of_disjoint (memory : Memory) {destination source count address n : ℕ}
    (h : address + n ≤ destination ∨ destination + count ≤ address) :
    (memory.memcpy destination source count).read address n = memory.read address n :=
  read_write_of_disjoint memory (by rwa [length_read])

end Memory

end Foundations
