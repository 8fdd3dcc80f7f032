import Worksheet.Address
import Worksheet.Value

/-!
What a session remembers: the values of the cells that it has finished, and how many lookups were
answered from them and how many cells were entered.
-/
namespace Worksheet

structure Memo where
  /-- Finished cells, the last one first. -/
  entries : List (Coord × Value) := []
  hits : Nat := 0
  misses : Nat := 0

namespace Memo

def find? (m : Memo) (c : Coord) : Option Value := m.entries.lookup c

/-- Count an answered lookup. -/
def hit (m : Memo) : Memo := { m with hits := m.hits + 1 }

/-- Count an entered cell. -/
def miss (m : Memo) : Memo := { m with misses := m.misses + 1 }

/-- Remember the value of a finished cell. -/
def keep (m : Memo) (c : Coord) (v : Value) : Memo := { m with entries := (c, v) :: m.entries }

@[simp] theorem find?_hit (m : Memo) (c : Coord) : m.hit.find? c = m.find? c := rfl

@[simp] theorem find?_miss (m : Memo) (c : Coord) : m.miss.find? c = m.find? c := rfl

theorem find?_keep (m : Memo) (c d : Coord) (v : Value) :
    (m.keep c v).find? d = if d = c then some v else m.find? d := by
  unfold find? keep
  rw [List.lookup_cons]
  by_cases h : d = c
  · rw [if_pos h, beq_iff_eq.mpr h]
  · rw [if_neg h, beq_eq_false_iff_ne.mpr h]

/-- The cells with an error and its code, the first to be finished first. -/
def errors (m : Memo) : List (Coord × ErrorCode) :=
  m.entries.reverse.filterMap fun (c, v) => v.error?.map fun code => (c, code)

end Memo
end Worksheet
