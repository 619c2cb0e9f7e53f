import Relex.Stream.Reader

/-! # Sessions with a lexer

A session works one lexer by commands. It keeps the source that was last named and snapshots under
names of slots, and both outlive the lexer when it is replaced by a fresh one.
-/

namespace Relex

structure Session (ρ π ι : Type) where
  lexer : Lexer ρ π ι
  /-- The source for the next start. -/
  source : String := ""
  /-- The saved snapshots by slot; the first one of a slot counts. -/
  saved : List (String × π) := []

namespace Session

/-- What can be asked of a session. -/
inductive Command (ρ : Type) where
  /-- Takes a fresh lexer for a reader. -/
  | replace (reader : ρ)
  /-- Starts the lexer, `times` times over, on a source or on the one named last. Without an end the
      region reaches to the end of the source. -/
  | start (source? : Option String) (start : Nat) (stop? : Option Nat) (state : UInt32)
      (times : Nat)
  | advance (times : Nat)
  /-- Leaves everything as it is. -/
  | look
  /-- Asks for the snapshot of the current place. -/
  | snapshot
  /-- Asks for the snapshot of the current place, and saves it if there is one. -/
  | save (slot : String)
  /-- Asks for a saved snapshot. -/
  | recall (slot : String)
  /-- Takes up reading from a saved snapshot. -/
  | restore (slot : String)
  /-- Asks whether two saved snapshots are equal. -/
  | compare (slot other : String)
  /-- Reads to the end. -/
  | collect
  /-- Takes out the recorded misuses. -/
  | takeMisuses

/-- What a session answers. -/
inductive Reply (π ι : Type) where
  | none
  /-- The snapshot of the current place, or why there is none. -/
  | snapshot (answer : Except Misuse π)
  /-- What a slot holds. -/
  | recalled (snapshot? : Option π)
  /-- A slot that the command needs is empty. -/
  | noSuchSlot
  | equal (answer : Bool)
  | readings (readings : List (Reading π ι))
  | misuses (misuses : List Misuse)

variable {ρ π ι : Type} [Reader ρ π ι]

/-- A session whose lexer has not been started. -/
def idle (reader : ρ) : Session ρ π ι where
  lexer := Lexer.idle reader

/-- Starts a lexer on the same region several times over. -/
def startTimes (source : String) (start stop : Nat) (state : UInt32) :
    (times : Nat) → Lexer ρ π ι → Except Text.RangeError (Lexer ρ π ι)
  | 0, lexer => .ok lexer
  | times + 1, lexer => do
    let lexer ← lexer.start source start stop state
    startTimes source start stop state times lexer

def advanceTimes : (times : Nat) → Lexer ρ π ι → Lexer ρ π ι
  | 0, lexer => lexer
  | times + 1, lexer => advanceTimes times lexer.advance

/-- Carries out a command. Only starting and restoring can fail, on bounds that do not fit the
    source. -/
def run [DecidableEq π] (session : Session ρ π ι) :
    Command ρ → Except Text.RangeError (Reply π ι × Session ρ π ι)
  | .replace reader => .ok (.none, { session with lexer := Lexer.idle reader })
  | .start source? start stop? state times => do
    let source := source?.getD session.source
    let lexer ← startTimes source start (stop?.getD source.utf8ByteSize) state times session.lexer
    return (.none, { session with lexer := lexer, source := source })
  | .advance times => .ok (.none, { session with lexer := advanceTimes times session.lexer })
  | .look => .ok (.none, session)
  | .snapshot => .ok (.snapshot session.lexer.snapshot, session)
  | .save slot =>
    match session.lexer.snapshot with
    | .ok snapshot =>
      .ok (.snapshot (.ok snapshot), { session with saved := (slot, snapshot) :: session.saved })
    | .error misuse => .ok (.snapshot (.error misuse), session)
  | .recall slot => .ok (.recalled (session.saved.lookup slot), session)
  | .restore slot =>
    match session.saved.lookup slot with
    | some snapshot => do
      let lexer ← session.lexer.restore snapshot
      return (.none, { session with lexer := lexer })
    | none => .ok (.noSuchSlot, session)
  | .compare slot other =>
    match session.saved.lookup slot, session.saved.lookup other with
    | some s, some t => .ok (.equal (decide (s = t)), session)
    | _, _ => .ok (.noSuchSlot, session)
  | .collect =>
    let tape := session.lexer.tape
    .ok (.readings tape.readings,
      { session with lexer := { session.lexer with tape := .ended tape.final } })
  | .takeMisuses =>
    let (misuses, lexer) := session.lexer.takeMisuses
    .ok (.misuses misuses, { session with lexer := lexer })

end Session

end Relex
