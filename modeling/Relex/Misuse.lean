/-! # Misuse of a lexer

Wrong uses that a lexer recovers from. They are recorded or answered, and never end a run.
-/

namespace Relex

/-- A wrong use of a lexer. -/
inductive Misuse where
  /-- A start was asked for at a state word from which reading cannot be taken up. -/
  | refusedState (state : UInt32)
  /-- A snapshot was asked for inside the frontmatter, where none can be given. -/
  | noSnapshot (offset : Nat)
  deriving Repr, DecidableEq

/-- A state word in messages: hexadecimal, in lower case and without leading zeros. -/
def stateText (state : UInt32) : String :=
  "0x" ++ String.ofList (Nat.toDigits 16 state.toNat)

def Misuse.message : Misuse → String
  | .refusedState state =>
    "state " ++ stateText state ++ " is not restartable, starting from the initial state"
  | .noSnapshot offset =>
    "no position snapshot at offset " ++ toString offset ++
      ": frontmatter script is being delegated"

end Relex
