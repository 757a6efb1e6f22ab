import Mathlib.Data.List.Basic

/-! Reads and writes of buffers, and differences of unsigned numbers. Each fails where a program
would leave the buffer or wrap round. -/
namespace Memory

inductive Fault
  | outside
  | wrapped
  | null
deriving DecidableEq

variable {α : Type}

/-- The `count` items from `start` on. -/
def read (buf : List α) (start count : Nat) : Except Fault (List α) :=
  if start+count ≤ buf.length then .ok ((buf.drop start).take count) else .error .outside

/-- The buffer after `items` have been stored in it from `start` on. -/
def stored (buf : List α) (start : Nat) (items : List α) : List α := buf.take start ++ items ++ buf.drop (start+items.length)

def write (buf : List α) (start : Nat) (items : List α) : Except Fault (List α) :=
  if start+items.length ≤ buf.length then .ok (stored buf start items) else .error .outside

def minus (first second : Nat) : Except Fault Nat := if second ≤ first then .ok (first-second) else .error .wrapped

def deref (pointer : Option α) : Except Fault α := pointer.elim (.error .null) .ok

/-- What follows an operation that has not failed. -/
@[simp] theorem ok_bind {β γ : Type} (value : β) (next : β → Except Fault γ) : (Except.ok value >>= next) = next value := rfl

variable {buf items : List α} {start count first second : Nat}

theorem read_ok (inside : start+count ≤ buf.length) : read buf start count = .ok ((buf.drop start).take count) := if_pos inside

theorem read_start (inside : count ≤ buf.length) : read buf 0 count = .ok (buf.take count) := by
  rw [read_ok (by omega),List.drop_zero]

theorem stored_length (inside : start+items.length ≤ buf.length) : (stored buf start items).length = buf.length := by
  simp only [stored,List.length_append,List.length_take,List.length_drop]
  omega

theorem stored_take (inside : start ≤ buf.length) :
    (stored buf start items).take (start+items.length) = buf.take start ++ items := by
  rw [stored,List.take_left']
  simp only [List.length_append,List.length_take]
  omega

theorem write_ok (inside : start+items.length ≤ buf.length) : write buf start items = .ok (stored buf start items) := if_pos inside

theorem minus_ok (enough : second ≤ first) : minus first second = .ok (first-second) := if_pos enough

end Memory
