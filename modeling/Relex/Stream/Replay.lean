import Relex.Stream.Reader

/-! # Replayed tokens

A list of tokens can stand in for a grammar: it reads itself out, whatever the source. The
snapshot at a token is its place in the list, and the state shown there is the same number.
-/

namespace Relex

/-- Tokens to be read out as they are. -/
structure Replay where
  tokens : List Token

namespace Replay

/-- What is shown at a place in the list. The tokens have no states of their own, so the index stands for
    the state as well, cut to a word: it tells the places apart where only states are compared. -/
def placeAt (offset index : Nat) : Place Nat Unit where
  offset := offset
  state := .ofNat index
  snapshot := .ok index
  live := ()

/-- The tokens from an index on. Behind the last token the stream stands at the end of the source that it
    is started with, wherever that token ends, and an index beyond the list stays as it is. -/
def tape (replay : Replay) (source : String) (index : Nat) : Tape Nat Unit where
  readings := ((replay.tokens.drop index).zipIdx index).map fun (token, i) =>
    { kind := token.kind, stop := token.stop, place := placeAt token.start i }
  final := placeAt source.utf8ByteSize (max index replay.tokens.length)

instance : Reader Replay Nat Unit where
  idle replay := replay.tape "" 0
  start replay source _ _ _ := .ok (replay.tape source 0)
  resume replay source _ index := .ok (replay.tape source index)
  regionEnd _ source _ := source.utf8ByteSize

end Replay

end Relex
