import Relex.Token.Kind

/-! # Tokens -/

namespace Relex

/-- A token covers the bytes of a source from `start` up to, but not including, `stop`. -/
structure Token where
  kind : Kind
  start : Nat
  stop : Nat
  deriving Repr, DecidableEq

end Relex
