/-!
# Part numbers

The parts of a transfer are numbered from zero by 32-bit words, so there is a
last part, and it has no successor.
-/

namespace IntWalk

/-- The number of a part. -/
abbrev Part := UInt32

namespace Part

/-- The greatest part number. -/
def last : Part := 4294967295

/-- The part after this one, if there is one. -/
def next? (p : Part) : Option Part := if p = last then none else some (p + 1)

theorem toNat_lt (p : Part) : p.toNat < 4294967296 := UInt32.toNat_lt p

@[simp] theorem toNat_last : last.toNat = 4294967295 := rfl

theorem toNat_add_one {p : Part} (h : p ≠ last) : (p + 1).toNat = p.toNat + 1 := by
  have hp : p.toNat ≠ 4294967295 := fun e => h (UInt32.toNat_inj.1 e)
  have := toNat_lt p
  rw [UInt32.toNat_add, UInt32.toNat_one]
  omega

/-- The part after `p` is the one whose number is greater by one. -/
theorem next?_eq_some_iff {p q : Part} : p.next? = some q ↔ p.toNat + 1 = q.toNat := by
  unfold next?
  constructor
  · intro h
    split at h
    · exact absurd h (by simp)
    · next hp => rw [← toNat_add_one hp, Option.some.inj h]
  · intro h
    have hp : p ≠ last := by
      rintro rfl
      have := toNat_lt q
      rw [toNat_last] at h
      omega
    rw [if_neg hp, Option.some.injEq]
    exact UInt32.toNat_inj.1 (by rw [toNat_add_one hp, h])

theorem next?_eq_none_iff {p : Part} : p.next? = none ↔ p = last := by
  simp [next?]

end Part

end IntWalk
