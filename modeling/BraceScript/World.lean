import BraceScript.Environment
import BraceScript.Session
import BraceScript.Value.Source

/-!
# The world of a run

A `World` is all that an evaluation reads and changes: the sessions, the environment they share, the
code blocks, the launched lines, what has been written, and the counter from which maps take their
numbers. Everything here is a plain function of the world; what fails, and in which order things
happen, is told by the runs built on it.

A launched line waits until the run that launched it gives way. Lines start in the order of their
launches, and a launch is known by its place in that order, counted from one. A run may keep the
output to itself until it ends: then what the launched lines write is put aside, and a line that
wrote something has not ended before that is written.
-/

namespace BraceScript

/-- Who writes: a command that prints, or the program around it. -/
inductive Channel where
  | print
  | shell
deriving DecidableEq, Repr, Inhabited

/-- A piece of what has been written. -/
structure Written where
  channel : Channel
  text : String
deriving DecidableEq, Repr, Inhabited

/-- A launched line, and the handle on which it runs. -/
structure Launch where
  handle : Handle
  line : String
  hasEnded : Bool := false
deriving DecidableEq, Repr, Inhabited

/-- What the launched line with a number wrote while the output was not free. -/
structure PutAside where
  task : Nat
  written : Array Written
deriving Repr, Inhabited

/-- The state of a run. -/
structure World where
  sessions : Array Session
  environment : Environment := {}
  blocks : Array Block := #[]
  written : Array Written := #[]
  nextMap : Nat := 0
  launches : Array Launch := #[]
  /-- How many of the launched lines have been started. -/
  started : Nat := 0
  /-- Does the run keep the output to itself? -/
  keepsOutput : Bool := false
  putAside : Array PutAside := #[]
deriving Repr, Inhabited

namespace World

/-- The world with an environment and some new sessions, which search the same namespaces. -/
def initial (environment : Environment) (searchOrder : List String) (sessions : Nat) : World where
  sessions := Array.replicate sessions { searchOrder }
  environment := environment

/-- The world with an environment and one new session. -/
def start (environment : Environment) : World :=
  initial environment Session.standardSearchOrder 1

/-- The world of a run that keeps the output to itself. -/
def keepOutput (w : World) : World :=
  { w with keepsOutput := true }

/-- The session with a number. -/
def session (w : World) (id : Nat) : Session :=
  w.sessions.getD id { searchOrder := [] }

/-- The world with a session changed. -/
def modifySession (w : World) (id : Nat) (f : Session → Session) : World :=
  { w with sessions := w.sessions.modify id f }

/-- The terminating value of a session. -/
def ending (w : World) (id : Nat) : Option Value :=
  (w.session id).ending

/-- The value of a variable. -/
def valueOf? (w : World) (id : Nat) (name : String) : Option Value :=
  Table.value? name (w.session id).bindings

/-- The world with a variable set. -/
def setVariable (w : World) (id : Nat) (name : String) (v : Value) : World :=
  w.modifySession id (·.setVariable name v)

/-- The world without a variable. -/
def removeVariable (w : World) (id : Nat) (name : String) : World :=
  w.modifySession id (·.removeVariable name)

/-- Changes a variable by a function of its value, null counting as no value; gives the new value.
-/
def updateVariable (w : World) (id : Nat) (name : String) (f : Option Value → Value) :
    Value × World :=
  let old := (w.valueOf? id name).bind fun v => if v.isNull then none else some v
  let new := f old
  (new, w.setVariable id name new)

/-- The value of a variable, which is first set to `v` where there is none. -/
def variableOr (w : World) (id : Nat) (name : String) (v : Value) : Value × World :=
  match w.valueOf? id name with
  | some old => (old, w)
  | none => (v, w.setVariable id name v)

/-- Terminates a session; gives the terminating value that stands. -/
def terminate (w : World) (id : Nat) (v : Value) : Value × World :=
  ((w.ending id).getD v, w.modifySession id (·.terminate v))

/-- The world with the last result of a session set. -/
def setLast (w : World) (id : Nat) (v : Value) : World :=
  w.modifySession id ({ · with last := v })

/-- The world with the namespaces that a session searches set. -/
def setSearchOrder (w : World) (id : Nat) (names : List String) : World :=
  w.modifySession id ({ · with searchOrder := names })

/-- The world in which a session has been dropped. -/
def dropSession (w : World) (id : Nat) : World :=
  w.modifySession id ({ · with isLive := false })

/-- The world after a text has been written. -/
def write (w : World) (channel : Channel) (text : String) : World :=
  { w with written := w.written.push ⟨channel, text⟩ }

/-- What has been written on a channel, in order. -/
def writtenOn (w : World) (channel : Channel) : String :=
  String.join ((w.written.toList.filter (·.channel = channel)).map Written.text)

/-- All that has been written, in order. -/
def allWritten (w : World) : String :=
  String.join (w.written.toList.map Written.text)

/-- The world with a setting. -/
def setSetting (w : World) (name value : String) : World :=
  { w with environment := w.environment.set name value }

/-- The world without a setting. -/
def unsetSetting (w : World) (name : String) : World :=
  { w with environment := w.environment.unset name }

/-- A new map with some entries. -/
def newMap (w : World) (entries : Table Value) : Value × World :=
  (.map w.nextMap entries, { w with nextMap := w.nextMap + 1 })

/-- Launches a line; gives its number. The numbers are taken never to wrap around: 64 bits suffice
for all launches that can be made. -/
def launch (w : World) (handle : Handle) (line : String) : Nat × World :=
  (w.launches.size + 1, { w with launches := w.launches.push { handle, line } })

/-- Does a launched line wait? -/
def hasWaiting (w : World) : Bool :=
  w.started < w.launches.size

/-- Starts the line that has waited longest; gives its number and its launch. -/
def startNext? (w : World) : Option ((Nat × Launch) × World) :=
  w.launches[w.started]?.map fun launch =>
    ((w.started + 1, launch), { w with started := w.started + 1 })

theorem startNext?_eq_none {w : World} (h : w.hasWaiting = false) : w.startNext? = none := by
  have h : w.launches.size ≤ w.started := by simpa [hasWaiting] using h
  simp [startNext?, h]

/-- The world in which the launched line with a number has ended. -/
def endLaunch (w : World) (task : Nat) : World :=
  { w with launches := w.launches.modify (task - 1) ({ · with hasEnded := true }) }

/-- The world after the launched line with a number has run aside: `before` is what had been
written when it started, and what it wrote itself is put aside. -/
def closeAside (w : World) (before : Array Written) (task : Nat) : World :=
  if w.written.isEmpty then { w.endLaunch task with written := before }
  else { w with written := before, putAside := w.putAside.push ⟨task, w.written⟩ }

/-- The world in which the output is free again, with what was put aside written. -/
def release (w : World) : World :=
  w.putAside.foldl (fun w a => { w.endLaunch a.task with written := w.written ++ a.written })
    { w with keepsOutput := false, putAside := #[] }

/-- Has the launched line with a number not ended yet? -/
def isAlive (w : World) (task : Nat) : Bool :=
  w.launches[task - 1]?.any (!·.hasEnded)

/-- The block with a number. -/
def block (w : World) (id : Nat) : Block :=
  w.blocks.getD id default

/-- The world with a block changed. -/
def modifyBlock (w : World) (id : Nat) (f : Block → Block) : World :=
  { w with blocks := w.blocks.modify id f }

/-- A new, empty block with a name; it is not yet kept anywhere. -/
def newBlock (w : World) (name : String) : Nat × World :=
  (w.blocks.size, { w with blocks := w.blocks.push { name } })

/-- The display text of a value. -/
def display (w : World) (v : Value) : String :=
  v.display w.blocks

/-- The source of some values joined into a line. -/
def joinSource (w : World) (vs : List Value) : String :=
  Value.joinSource w.blocks vs

/-! ### Blocks by name -/

/-- Makes an empty block under a name, in place of what the name stood for. -/
def makeBlock (w : World) (session : Nat) (name : String) : Nat × World :=
  let (id, w) := w.newBlock name
  (id, w.setVariable session (Block.slot name) (.block id))

/-- The block under a name. -/
def findBlock? (w : World) (session : Nat) (name : String) : Option Nat :=
  match w.valueOf? session (Block.slot name) with
  | some (.block id) => some id
  | _ => none

/-- Removes what stands under a name. -/
def deleteBlock (w : World) (session : Nat) (name : String) : World :=
  w.removeVariable session (Block.slot name)

/-- The names under which a session keeps blocks, sorted. -/
def blockNames (w : World) (session : Nat) : List String :=
  ((w.session session).namesFrom (Block.slot "")).filterMap (Text.dropLead? · (Block.slot ""))

/-- Is a block masked for a handle? The mask lists it, and has not been used up on this chain. -/
def isMasked (w : World) (context : BlockContext) (name : String) : Bool :=
  let mask := w.environment.getD Environment.blockMask ""
  !context.maskConsumed && (mask = "1" || Text.contains mask (name ++ ";"))

/-- The context in which the lines of a block run: a masked block keeps the name of the block around
it and uses up the mask. -/
def enterContext (w : World) (context : BlockContext) (name : String) : BlockContext :=
  if w.isMasked context name then { context with maskConsumed := true }
  else { context with current := some name }

/-- The handle on which the lines of a block run. -/
def enterBlock (w : World) (h : Handle) (name : String) : Handle :=
  { h with context := w.enterContext h.context name }

end World
end BraceScript
