/-!
# Cells

The cells of a map stand in a row, one byte each: `1` is an open cell and `0` a blocked one.
-/

namespace TileRoute

structure Cells where
  bytes : ByteArray

namespace Cells

def byte (isOpen : Bool) : UInt8 := if isOpen then 1 else 0

def ofList (cells : List Bool) : Cells := ⟨⟨(cells.map byte).toArray⟩⟩

def size (c : Cells) : Nat := c.bytes.size

/-- Puts a row behind other cells, so many times. -/
def extend (row : ByteArray) : ByteArray → Nat → ByteArray
  | cells, 0 => cells
  | cells, n + 1 => extend row (cells ++ row) n

/-- Open cells, as many as asked for. They are put on in rows of 4096 first, and what is left to be
put on one by one does not take long. -/
def opened (n : Nat) : Cells :=
  let row := extend ⟨#[1]⟩ .empty 4096
  ⟨extend ⟨#[1]⟩ (extend row (.emptyWithCapacity n) (n / 4096)) (n % 4096)⟩

/-- A cell that is not there is not open. -/
def isOpen (c : Cells) (i : Nat) : Bool := c.bytes[i]? == some 1

def block (c : Cells) (i : Nat) : Cells := ⟨c.bytes.set! i 0⟩

theorem ext_data {c d : Cells} (h : c.bytes.data = d.bytes.data) : c = d :=
  congrArg Cells.mk (ByteArray.ext h)

theorem extend_replicate (m n k : Nat) :
    extend ⟨.replicate m 1⟩ ⟨.replicate n 1⟩ k = ⟨.replicate (n + k * m) 1⟩ := by
  induction k generalizing n with
  | zero => rw [extend, Nat.zero_mul, Nat.add_zero]
  | succ k ih =>
    have hrow : (⟨.replicate n 1⟩ ++ ⟨.replicate m 1⟩ : ByteArray) = ⟨.replicate (n + m) 1⟩ := by
      refine ByteArray.ext ?_
      rw [ByteArray.data_append, Array.replicate_append_replicate]
    have hsum : n + (k + 1) * m = n + m + k * m := by
      rw [Nat.succ_mul, Nat.add_comm (k * m), Nat.add_assoc]
    rw [extend, hrow, ih, hsum]

theorem data_opened (n : Nat) : (opened n).bytes.data = Array.replicate n 1 := by
  have hrow : extend ⟨.replicate 1 1⟩ ⟨.replicate 0 1⟩ 4096 = ⟨.replicate 4096 1⟩ :=
    extend_replicate 1 0 4096
  have hrows : extend ⟨.replicate 4096 1⟩ ⟨.replicate 0 1⟩ (n / 4096) =
      ⟨.replicate (0 + n / 4096 * 4096) 1⟩ := extend_replicate 4096 0 (n / 4096)
  have hall := extend_replicate 1 (0 + n / 4096 * 4096) (n % 4096)
  rw [← hrows, ← hrow, Nat.mul_one, Nat.zero_add, Nat.div_add_mod'] at hall
  exact congrArg ByteArray.data hall

@[simp] theorem size_opened (n : Nat) : (opened n).size = n := by
  change (opened n).bytes.data.size = n
  rw [data_opened, Array.size_replicate]

@[simp] theorem size_block (c : Cells) (i : Nat) : (c.block i).size = c.size :=
  Array.size_setIfInBounds

end Cells

end TileRoute
