import Std.Data.HashMap

/-!
# Physical memory

Memory is a total map from addresses to bytes; an address that was never
written holds zero. Behind the map stands a table of 4 KiB pages, of which only
the written ones exist, but everything below is stated through `Memory.read`.

- `Memory.read`, `Memory.write`: one byte.
- `Memory.load`, `Memory.store`: a little-endian number of several bytes.
- `Memory.fill`, `Memory.copy`, `Memory.writeBytes`, `Memory.readBytes`: runs
  of bytes.

Main statements: `read_write` says that a write is seen at its address and
nowhere else, and `read_store_of_lt`, `read_store_of_ge` that storing a number
touches only its own bytes.
-/

namespace Supervisor

/-- Bytes per page of the backing table. -/
abbrev Memory.pageBytes : Nat := 4096

/-- A page of the backing table. -/
abbrev Memory.Page := Vector UInt8 Memory.pageBytes

/-- Byte-addressed memory, zero where nothing was written. -/
structure Memory where
  /-- The pages that have been written to, by page number. -/
  pages : Std.HashMap Nat Memory.Page := ∅

namespace Memory

/-- A page of zeros. -/
def blankPage : Page := Vector.replicate pageBytes 0

/-- The place of an address inside its page. -/
def offset (address : Nat) : Fin pageBytes :=
  ⟨address % pageBytes, Nat.mod_lt _ (by decide)⟩

/-- Memory in which every byte is zero. -/
def zeroed : Memory := {}

/-- The byte at `address`. -/
def read (m : Memory) (address : Nat) : UInt8 :=
  (m.pages[address / pageBytes]?.getD blankPage)[offset address]

/-- Puts `byte` at `address`. -/
def write (m : Memory) (address : Nat) (byte : UInt8) : Memory :=
  ⟨m.pages.alter (address / pageBytes) fun page =>
    some ((page.getD blankPage).set (offset address) byte)⟩

/-! ## What a write changes -/

theorem offset_inj {a b : Nat} (hpage : a / pageBytes = b / pageBytes)
    (hoffset : offset a = offset b) : a = b := by
  have h : a % pageBytes = b % pageBytes := congrArg Fin.val hoffset
  rw [← Nat.div_add_mod a pageBytes, ← Nat.div_add_mod b pageBytes, hpage, h]

@[simp] theorem read_zeroed (address : Nat) : zeroed.read address = 0 := by
  simp [zeroed, read, blankPage]

/-- A write is seen at its own address and nowhere else. -/
theorem read_write (m : Memory) (a b : Nat) (byte : UInt8) :
    (m.write a byte).read b = if a = b then byte else m.read b := by
  by_cases hpage : a / pageBytes = b / pageBytes
  · by_cases hoffset : offset a = offset b
    · rw [if_pos (offset_inj hpage hoffset)]
      simp [read, write, hpage, hoffset]
    · have hne : a ≠ b := fun h => hoffset (h ▸ rfl)
      have hval : (offset a).val ≠ (offset b).val := fun h => hoffset (Fin.ext h)
      rw [if_neg hne]
      simp only [read, write, hpage, Std.HashMap.getElem?_alter_self, Option.getD_some,
        Fin.getElem_fin]
      exact Vector.getElem_set_ne _ _ hval
  · have hne : a ≠ b := fun h => hpage (h ▸ rfl)
    rw [if_neg hne]
    simp [read, write, Std.HashMap.getElem?_alter, hpage]

@[simp] theorem read_write_self (m : Memory) (a : Nat) (byte : UInt8) :
    (m.write a byte).read a = byte := by
  simp [read_write]

theorem read_write_of_ne (m : Memory) {a b : Nat} (byte : UInt8) (h : a ≠ b) :
    (m.write a byte).read b = m.read b := by
  simp [read_write, h]

/-! ## Little-endian numbers -/

/-- The number whose `count` bytes, least significant first, start at
`address`. -/
def load (m : Memory) (address : Nat) : Nat → Nat
  | 0 => 0
  | count + 1 => (m.read address).toNat + 256 * m.load (address + 1) count

/-- Writes the `count` low bytes of `value`, least significant first, from
`address` on. -/
def store (m : Memory) (address : Nat) : Nat → Nat → Memory
  | 0, _ => m
  | count + 1, value => (m.write address (UInt8.ofNat value)).store (address + 1) count (value / 256)

/-- The 64-bit number at `address`. -/
def word (m : Memory) (address : Nat) : Nat :=
  m.load address 8

/-- Stores a 64-bit number at `address`. -/
def setWord (m : Memory) (address value : Nat) : Memory :=
  m.store address 8 value

theorem read_store_of_lt (m : Memory) {a b : Nat} (count value : Nat) (h : b < a) :
    (m.store a count value).read b = m.read b := by
  induction count generalizing m a value with
  | zero => rfl
  | succ count ih =>
    rw [store, ih _ _ (Nat.lt_succ_of_lt h), read_write_of_ne _ _ (by omega)]

theorem read_store_of_ge (m : Memory) {a b : Nat} (count value : Nat) (h : a + count ≤ b) :
    (m.store a count value).read b = m.read b := by
  induction count generalizing m a value with
  | zero => rfl
  | succ count ih =>
    rw [store, ih _ _ (by omega), read_write_of_ne _ _ (by omega)]

theorem load_congr {m n : Memory} {a count : Nat}
    (h : ∀ b, a ≤ b → b < a + count → m.read b = n.read b) : m.load a count = n.load a count := by
  induction count generalizing a with
  | zero => rfl
  | succ count ih =>
    rw [load, load, h a (Nat.le_refl a) (by omega),
      ih fun b hlo hhi => h b (by omega) (by omega)]

/-! ## Runs of bytes -/

/-- The `count` bytes from `address` on. -/
def readBytes (m : Memory) (address count : Nat) : List UInt8 :=
  (List.range count).map fun i => m.read (address + i)

/-- Writes the given bytes from `address` on. -/
def writeBytes (m : Memory) (address : Nat) : List UInt8 → Memory
  | [] => m
  | byte :: rest => (m.write address byte).writeBytes (address + 1) rest

/-- Puts `byte` into the `count` cells from `address` on. -/
def fill (m : Memory) (address : Nat) : Nat → UInt8 → Memory
  | 0, _ => m
  | count + 1, byte => (m.write address byte).fill (address + 1) count byte

/-- Copies `count` bytes from `source` to `target`, lowest address first. -/
def copy (m : Memory) (source target : Nat) : Nat → Memory
  | 0 => m
  | count + 1 => (m.write target (m.read source)).copy (source + 1) (target + 1) count

end Memory

end Supervisor
