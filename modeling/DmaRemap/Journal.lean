import DmaRemap.Level
import DmaRemap.Register.Access
import DmaRemap.Register.Field

/-!
The journal of a run: messages with a severity, of which only the sufficiently severe are kept, and
the effects that a unit working beside the software can observe, all in the order they took place.
-/

namespace DmaRemap

/-- How severe a message is, most severe first. -/
inductive Severity where
  | error
  | warn
  | info
  | debug
  | trace
deriving DecidableEq, Repr

namespace Severity

def rank : Severity → Nat
  | error => 1
  | warn => 2
  | info => 3
  | debug => 4
  | trace => 5

def label : Severity → String
  | error => "ERROR"
  | warn => "WARN"
  | info => "INFO"
  | debug => "DEBUG"
  | trace => "TRACE"

end Severity

/-- A kept message. -/
structure Message where
  severity : Severity
  text : String
deriving DecidableEq, Repr

def Message.render (message : Message) : String :=
  message.severity.label ++ " " ++ message.text

/-- Something that a unit can observe. -/
inductive Effect where
  /-- A word of a table was written. -/
  | write (table : PhysicalAddress) (slot : Slot) (word : Word)
  /-- All words of a table were set to zero. -/
  | wipe (table : PhysicalAddress)
  /-- A register was accessed. -/
  | access (made : RegisterAccess)
deriving DecidableEq, Repr

def Effect.access? : Effect → Option RegisterAccess
  | access made => some made
  | _ => none

/-- Messages and effects in the order they arose, and the least severe kind of message that is kept,
if any is. -/
structure Journal where
  threshold : Option Severity
  messages : Array Message := #[]
  effects : Array Effect := #[]
deriving DecidableEq, Repr

namespace Journal

/-- The journal that goes on from here with nothing in it yet. -/
def fresh (journal : Journal) : Journal := { threshold := journal.threshold }

/-- Whether messages of this severity are kept. -/
def keeps (journal : Journal) (severity : Severity) : Bool :=
  journal.threshold.any fun least => severity.rank ≤ least.rank

/-- Appends a message if its severity is kept; the text is only made then. -/
def record (journal : Journal) (severity : Severity) (text : Unit → String) : Journal :=
  if journal.keeps severity then
    { journal with messages := journal.messages.push ⟨severity, text ()⟩ }
  else
    journal

def observe (journal : Journal) (effect : Effect) : Journal :=
  { journal with effects := journal.effects.push effect }

/-- The register accesses among the effects. -/
def accesses (journal : Journal) : List RegisterAccess :=
  journal.effects.toList.filterMap Effect.access?

end Journal

end DmaRemap
