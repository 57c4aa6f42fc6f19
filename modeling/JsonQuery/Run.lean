import JsonQuery.Value.Basic

/-!
The state of an evaluation: how deep it is, the identities it may still give, and the generator of
random numbers. A nested evaluation that fails leaves the depth as it was.
-/
namespace JsonQuery

attribute [local instance (20000)] instPowNat

/-- A source of random numbers, in one of its states; the states are numbered. -/
structure Generator where
  /-- A number below a bound that is drawn in a state, and the state after it. -/
  choose : Nat → Nat → Nat × Nat
  choose_lt : ∀ {bound : Nat}, 0 < bound → ∀ state, (choose bound state).1 < bound
  state : Nat

namespace Generator

def below (bound : Nat) (g : Generator) : Nat × Generator :=
  let (number, state) := g.choose bound g.state
  (number, { g with state })

theorem below_lt {bound : Nat} (positive : 0 < bound) (g : Generator) : (g.below bound).1 < bound :=
  g.choose_lt positive g.state

/-- One such source: the state goes up by a fixed odd amount, its bits are mixed into a word, and the
number is the share of the range of words that the word falls into. -/
def mixing (seed : UInt64) : Generator where
  choose bound state :=
    let state := UInt64.ofNat state + 0x9E3779B97F4A7C15
    let a := (state ^^^ (state >>> 30)) * 0xBF58476D1CE4E5B9
    let b := (a ^^^ (a >>> 27)) * 0x94D049BB133111EB
    ((b ^^^ (b >>> 31)).toNat * bound / 2 ^ (64 : Nat), state.toNat)
  choose_lt positive state := by
    apply Nat.div_lt_of_lt_mul
    exact Nat.mul_lt_mul_of_pos_right (UInt64.toNat_lt _) positive
  state := seed.toNat

end Generator

structure Run where
  depth : Nat
  /-- The most there have been at once. -/
  deepest : Nat
  supply : Nat
  generator : Generator

/-- A computation that reads and changes the state and may fail; the state survives a failure. -/
abbrev Eval := ExceptT Fault (StateM Run)

namespace Run

def start (generator : Generator) : Run := ⟨0, 0, 0, generator⟩

def seeded (seed : UInt64) : Run := start (.mixing seed)

end Run

namespace Eval

variable {α : Type}

/-- What there is to go on with after an outcome: no program goes on after a fatal fault. -/
def caught : Except Fault α → Except Fault (Except Fault α)
  | .ok a => .ok (.ok a)
  | .error fault => if fault.isFatal then .error fault else .ok (.error fault)

def attempt (body : Eval α) : Eval (Except Fault α) := fun run =>
  let (outcome, after) := body.run run
  (caught outcome, after)

def ofExcept (outcome : Except Fault α) : Eval α := fun run => (outcome, run)

/-- An evaluation one level deeper, unless `limit` levels are open. -/
def nested (limit : Nat) (body : Eval α) : Eval α := fun run =>
  if run.depth < limit then
    let depth := run.depth + 1
    let (outcome, after) := body.run { run with depth, deepest := max run.deepest depth }
    (outcome, { after with depth := run.depth })
  else (.error (.recursionLimit limit), run)

def freshIdentity : Eval Identity := fun run =>
  (.ok (.made run.supply), { run with supply := run.supply + 1 })

def draw (f : Generator → α × Generator) : Eval α := fun run =>
  let (result, generator) := f run.generator
  (.ok result, { run with generator })

end Eval

end JsonQuery
