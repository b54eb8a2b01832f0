import Chip8.Fault

/-!
The memory: 4096 bytes that hold the font, the program and its data.

A range of bytes is read or written as a whole or not at all. The check compares the end of the
range with the size of the memory, so a range that lies inside is never refused.
-/

namespace Chip8

structure Memory where
  bytes : Vector UInt8 4096
  deriving DecidableEq

/-- The opcode at `pointer` in some bytes: the byte there is the high one. -/
def opcodeAt (bytes : Array UInt8) (pointer : Nat) : Except MemoryFault Opcode :=
  if h : pointer + 1 < bytes.size then
    .ok (Opcode.ofBytes bytes[pointer] bytes[pointer + 1])
  else
    .error (.outOfBounds pointer bytes.size)

namespace Memory

def size : Nat := 4096

/-- Where programs are loaded and started. -/
def programStart : Nat := 0x200

/-- The bytes from the start of a program to the end of the memory. -/
def programCapacity : Nat := size - programStart

def zeros : Memory := ⟨Vector.replicate 4096 0⟩

def clear (m : Memory) : Memory := ⟨m.bytes.map fun _ => 0⟩

/-- Puts bytes one after another, from an address on; what leaves the memory is dropped. -/
def place (m : Memory) : (address : Nat) → (data : List UInt8) → Memory
  | _, [] => m
  | address, byte :: data => place ⟨m.bytes.setIfInBounds address byte⟩ (address + 1) data

/-- Whether `count` bytes from `address` on lie inside the memory. -/
def checkRange (address count : Nat) : Except MemoryFault Unit :=
  if address + count ≤ size then .ok () else .error (.outOfBounds (max address size) size)

/-- The `count` bytes from `address` on. -/
def read (m : Memory) (address count : Nat) : Except MemoryFault (List UInt8) :=
  match checkRange address count with
  | .ok () => .ok ((m.bytes.toArray.extract address (address + count)).toList)
  | .error fault => .error fault

/-- The memory with `data` written from `address` on. -/
def write (m : Memory) (address : Nat) (data : List UInt8) : Except MemoryFault Memory :=
  match checkRange address data.length with
  | .ok () => .ok (m.place address data)
  | .error fault => .error fault

def fetch (m : Memory) (address : Nat) : Except MemoryFault Opcode :=
  opcodeAt m.bytes.toArray address

theorem clear_eq_zeros (m : Memory) : m.clear = zeros := by
  refine congrArg mk (Vector.ext fun i hi => ?_)
  rw [Vector.getElem_map, Vector.getElem_replicate]

/-- What `place` leaves at an address: a byte of the data where the data lie. -/
theorem getElem_place (m : Memory) (address : Nat) (data : List UInt8) (i : Nat) (hi : i < 4096) :
    (m.place address data).bytes[i] =
      if h : address ≤ i ∧ i - address < data.length then data[i - address] else m.bytes[i] := by
  induction data generalizing m address with
  | nil => simp only [place, List.length_nil, Nat.not_lt_zero, and_false, dite_false]
  | cons byte data ih =>
    rw [place, ih]
    by_cases hrest : address + 1 ≤ i ∧ i - (address + 1) < data.length
    · have hall : address ≤ i ∧ i - address < (byte :: data).length := by
        rw [List.length_cons]
        omega
      have hpred : i - address = (i - (address + 1)) + 1 := by omega
      rw [dif_pos hrest, dif_pos hall]
      simp only [hpred, List.getElem_cons_succ]
    · rw [dif_neg hrest]
      by_cases hfirst : address = i
      · subst hfirst
        simp
      · have hnone : ¬ (address ≤ i ∧ i - address < (byte :: data).length) := by
          rw [List.length_cons]
          omega
        rw [dif_neg hnone, Vector.getElem_setIfInBounds_ne hi hfirst]

theorem getElem?_place (m : Memory) {address k : Nat} {data : List UInt8} (hk : k < data.length)
    (hfit : address + data.length ≤ size) :
    (m.place address data).bytes[address + k]? = some data[k] := by
  have hlt : address + k < 4096 := Nat.lt_of_lt_of_le (Nat.add_lt_add_left hk address) hfit
  rw [Vector.getElem?_eq_getElem hlt, getElem_place, dif_pos (by omega)]
  simp only [Nat.add_sub_cancel_left]

theorem read_of_le (m : Memory) {address count : Nat} (h : address + count ≤ size) :
    m.read address count = .ok (m.bytes.toArray.extract address (address + count)).toList := by
  rw [read, checkRange, if_pos h]

theorem read_of_lt (m : Memory) {address count : Nat} (h : size < address + count) :
    m.read address count = .error (.outOfBounds (max address size) size) := by
  rw [read, checkRange, if_neg (Nat.not_le.2 h)]

theorem write_of_le (m : Memory) {address : Nat} {data : List UInt8}
    (h : address + data.length ≤ size) : m.write address data = .ok (m.place address data) := by
  rw [write, checkRange, if_pos h]

theorem write_of_lt (m : Memory) {address : Nat} {data : List UInt8}
    (h : size < address + data.length) :
    m.write address data = .error (.outOfBounds (max address size) size) := by
  rw [write, checkRange, if_neg (Nat.not_le.2 h)]

/-- What is read is what lies in memory, byte by byte. -/
theorem of_read_eq_ok {m : Memory} {address count : Nat} {data : List UInt8}
    (h : m.read address count = .ok data) :
    data.length = count ∧ ∀ k, k < count → data[k]? = m.bytes[address + k]? := by
  by_cases hin : address + count ≤ size
  · rw [read_of_le m hin] at h
    cases h
    have hsize : m.bytes.toArray.size = size := m.bytes.size_toArray
    refine ⟨?_, fun k hk => ?_⟩
    · rw [Array.length_toList, Array.size_extract, hsize]
      omega
    · have hlt : address + k < 4096 := Nat.lt_of_lt_of_le (Nat.add_lt_add_left hk address) hin
      rw [Array.getElem?_toList, Array.getElem?_extract_of_lt (by omega)]
      exact (Vector.getElem?_eq_getElem hlt).symm
  · rw [read_of_lt m (Nat.lt_of_not_le hin)] at h
    cases h

/-- Reading finds the data that lie in memory. -/
theorem read_eq_ok_of_bytes {m : Memory} {address : Nat} {data : List UInt8}
    (hfit : address + data.length ≤ size)
    (hbytes : ∀ k < data.length, m.bytes[address + k]? = data[k]?) :
    m.read address data.length = .ok data := by
  have hread := read_of_le m hfit
  obtain ⟨hlength, hfound⟩ := of_read_eq_ok hread
  rw [hread]
  refine congrArg Except.ok (List.ext_getElem? fun k => ?_)
  by_cases hk : k < data.length
  · rw [hfound k hk, hbytes k hk]
  · have hout := Nat.le_of_not_lt hk
    rw [List.getElem?_eq_none (by rw [hlength]; exact hout), List.getElem?_eq_none hout]

/-- Data that are put where they lie already change nothing. -/
theorem place_eq_self {m : Memory} {address count : Nat} {data : List UInt8}
    (h : m.read address count = .ok data) : m.place address data = m := by
  obtain ⟨hlength, hfound⟩ := of_read_eq_ok h
  refine congrArg mk (Vector.ext fun i hi => ?_)
  rw [getElem_place]
  split
  · rename_i hinside
    have hbyte := hfound (i - address) (hlength ▸ hinside.2)
    rw [Nat.add_sub_cancel' hinside.1, List.getElem?_eq_getElem hinside.2,
      Vector.getElem?_eq_getElem hi] at hbyte
    exact Option.some.inj hbyte
  · rfl

theorem le_size_of_read {m : Memory} {address count : Nat} {data : List UInt8}
    (h : m.read address count = .ok data) : address + count ≤ size := by
  refine Nat.le_of_not_lt fun hout => ?_
  rw [read_of_lt m hout] at h
  cases h

theorem of_write_eq_ok {m after : Memory} {address : Nat} {data : List UInt8}
    (h : m.write address data = .ok after) :
    address + data.length ≤ size ∧ after = m.place address data := by
  by_cases hfit : address + data.length ≤ size
  · rw [write_of_le m hfit] at h
    exact ⟨hfit, (Except.ok.inj h).symm⟩
  · rw [write_of_lt m (Nat.lt_of_not_le hfit)] at h
    cases h

theorem fetch_of_lt (m : Memory) {address : Nat} (h : address + 1 < 4096) :
    m.fetch address = .ok (Opcode.ofBytes m.bytes[address] m.bytes[address + 1]) := by
  have hsize : address + 1 < m.bytes.toArray.size := by
    rw [m.bytes.size_toArray]
    exact h
  rw [fetch, opcodeAt, dif_pos hsize]
  rfl

theorem lt_of_fetch_eq_ok {m : Memory} {address : Nat} {opcode : Opcode}
    (h : m.fetch address = .ok opcode) : address + 1 < size := by
  by_cases hlt : address + 1 < m.bytes.toArray.size
  · rw [m.bytes.size_toArray] at hlt
    exact hlt
  · rw [fetch, opcodeAt, dif_neg hlt] at h
    cases h

/-- Data that were placed in memory are fetched from there. -/
theorem fetch_place (m : Memory) {address k : Nat} {data : List UInt8}
    (hk : k + 1 < data.length) (hfit : address + data.length ≤ size) :
    (m.place address data).fetch (address + k) = .ok (Opcode.ofBytes data[k] data[k + 1]) := by
  have hlt : address + k + 1 < 4096 := by
    rw [size] at hfit
    omega
  rw [fetch_of_lt _ hlt, getElem_place, getElem_place, dif_pos (by omega), dif_pos (by omega)]
  simp only [Nat.add_sub_cancel_left, Nat.add_assoc]

end Memory

end Chip8
