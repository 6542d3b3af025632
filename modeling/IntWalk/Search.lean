/-!
# Binary search for a boundary

`boundary p xs` looks for the place in an array where `p` stops being true.  If
`p` is true of a first stretch of the array and false of the rest, it finds the
index at which that rest begins; the number of looks is logarithmic.
-/

namespace IntWalk

variable {α : Type}

/-- Halves the window from `lo` up to `hi` until it is empty. -/
def boundaryWithin (p : α → Bool) (xs : Array α) (lo hi : Nat) (fits : hi ≤ xs.size) : Nat :=
  if window : lo < hi then
    let mid := lo + (hi - lo) / 2
    have inside : mid < xs.size := by omega
    if p xs[mid] then boundaryWithin p xs (mid + 1) hi fits
    else boundaryWithin p xs lo mid (by omega)
  else lo
termination_by hi - lo

/-- The index at which `p` stops being true. -/
def boundary (p : α → Bool) (xs : Array α) : Nat :=
  boundaryWithin p xs 0 xs.size (Nat.le_refl _)

theorem le_boundaryWithin {p : α → Bool} {xs : Array α} {lo hi : Nat} {fits : hi ≤ xs.size}
    (h : lo ≤ hi) :
    lo ≤ boundaryWithin p xs lo hi fits ∧ boundaryWithin p xs lo hi fits ≤ hi := by
  fun_induction boundaryWithin p xs lo hi fits with
  | case1 lo hi fits window mid inside hp ih =>
    have : mid = lo + (hi - lo) / 2 := rfl
    have := ih (by omega)
    omega
  | case2 lo hi fits window mid inside hp ih =>
    have : mid = lo + (hi - lo) / 2 := rfl
    have := ih (by omega)
    omega
  | case3 => omega

theorem boundary_le_size (p : α → Bool) (xs : Array α) : boundary p xs ≤ xs.size :=
  (le_boundaryWithin (Nat.zero_le _)).2

end IntWalk
