import Mathlib

/-! Arithmetic on non-negative integers of a bounded type: `none` is a result
that the type cannot hold. -/

namespace AsComponents.Checked

variable {max m n : Nat}

/-- A conversion to a type with this maximum. -/
def fit (max n : Nat) : Option Nat := if n ≤ max then some n else none

def addIn (max m n : Nat) : Option Nat := fit max (m + n)

def mulIn (max m n : Nat) : Option Nat := fit max (m * n)

def sub (m n : Nat) : Option Nat := if n ≤ m then some (m - n) else none

theorem fit_eq (h : n ≤ max) : fit max n = some n := if_pos h

theorem addIn_eq (h : m + n ≤ max) : addIn max m n = some (m + n) := if_pos h

theorem mulIn_eq (h : m * n ≤ max) : mulIn max m n = some (m * n) := if_pos h

theorem sub_eq (h : n ≤ m) : sub m n = some (m - n) := if_pos h

end AsComponents.Checked
