import TileRoute.Dice.Keystream

/-!
# Dice

A die has a seed and counts the numbers it has drawn. To draw below a bound, a number of 64 bits is
multiplied by the bound: the upper half of the product is the result if the lower half lies in the
zone in which every result is equally likely, and otherwise the next number is tried.
-/

namespace TileRoute

structure Dice where
  seed : UInt64
  drawn : Nat := 0
  deriving DecidableEq

namespace Dice

/-- The dice of a seed. Where the settings have none, the seed is meant to come from outside, so
that no two runs need be alike. What comes from outside is not modelled, and the seed is `0` then:
a run without a seed is only one of the runs that there can be. -/
def ofSeed (seed? : Option Nat) : Dice where
  seed := UInt64.ofNat (seed?.getD 0)

def wordCount : Nat := 18446744073709551616

/-- The greatest lower half that is accepted: the bound, shifted up to 64 bits, less one. -/
def zone (bound : Nat) : Nat := (bound <<< (63 - bound.log2)) - 1

def accepted? (bound number : Nat) : Option Nat :=
  let product := number * bound
  if product % wordCount ≤ zone bound then some (product / wordCount) else none

/-- The result below a bound and the count of the numbers drawn for it. More than half of all
numbers are accepted, so the count of the tries is never in the way. -/
def firstAccepted (seed : UInt64) (bound : Nat) : Nat → Nat → Nat × Nat
  | 0, drawn => (0, drawn)
  | tries + 1, drawn =>
    match accepted? bound (Keystream.pair seed drawn) with
    | some result => (result, drawn + 1)
    | none => firstAccepted seed bound tries (drawn + 1)

def below (d : Dice) (bound : Nat) : Nat × Dice :=
  let (result, drawn) := firstAccepted d.seed bound 1024 d.drawn
  (result, { d with drawn })

theorem accepted?_lt {bound number result : Nat} (hn : number < wordCount) (hb : 0 < bound)
    (h : accepted? bound number = some result) : result < bound := by
  simp only [accepted?] at h
  split at h
  · simp only [Option.some.injEq] at h
    subst h
    exact Nat.div_lt_of_lt_mul (Nat.mul_lt_mul_of_pos_right hn hb)
  · cases h

theorem firstAccepted_lt (seed : UInt64) {bound : Nat} (hb : 0 < bound) (tries drawn : Nat) :
    (firstAccepted seed bound tries drawn).1 < bound := by
  induction tries generalizing drawn with
  | zero => exact hb
  | succ n ih =>
    simp only [firstAccepted]
    split
    · exact accepted?_lt (Keystream.pair_lt seed drawn) hb (by assumption)
    · exact ih (drawn + 1)

theorem below_lt (d : Dice) {bound : Nat} (hb : 0 < bound) : (d.below bound).1 < bound :=
  firstAccepted_lt d.seed hb 1024 d.drawn

end Dice

end TileRoute
