import IntWalk.Error
import IntWalk.Text.Quoted

/-!
# Errors for a developer to read

An error written as the value that it is, with its cause and its numbers, and
free text between quotes.
-/

namespace IntWalk

/-- The refusal written for a developer to read. -/
def Refusal.inspect : Refusal → String
  | nothingReturned => "NothingReturned"
  | alreadyRemoved => "AlreadyRemoved"

/-- The error written for a developer to read. -/
def WalkError.inspect : WalkError → String
  | exhausted yielded => s!"Exhausted \x7b yielded: {yielded} \x7d"
  | refused why => s!"IllegalRemoval({why.inspect})"

/-- The error written for a developer to read. -/
def StoreError.inspect : StoreError → String
  | outOfRange value capacity => s!"ValueOutOfRange \x7b value: {value}, capacity: {capacity} \x7d"
  | negative value => s!"NegativeValue({value})"
  | tooLarge value largest => s!"ValueTooLarge \x7b value: {value}, max: {largest} \x7d"
  | inconsistent why => s!"Inconsistent({Text.quoted why.message})"
  | badCapacity why => s!"InvalidConfiguration({Text.quoted why.message})"

end IntWalk
