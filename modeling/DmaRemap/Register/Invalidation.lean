import DmaRemap.DomainId
import DmaRemap.Pci.Device
import DmaRemap.Register.Field

namespace DmaRemap

/-- How much an invalidation covers, widest first. -/
inductive Granularity where
  | global
  | domain
  /-- One device for the context cache, one range of pages for the IOTLB. -/
  | device
deriving DecidableEq, Repr

namespace Granularity

def code : Granularity → Nat
  | global => 1
  | domain => 2
  | device => 3

/-- The scope with a code. Zero says that nothing was invalidated. -/
def ofCode? : Nat → Option Granularity
  | 1 => some global
  | 2 => some domain
  | 3 => some device
  | _ => none

/-- Whether `performed` covers more than `requested`. -/
def isCoarserThan (performed requested : Granularity) : Bool :=
  performed.code < requested.code

def name : Granularity → String
  | global => "global"
  | domain => "domain"
  | device => "device"

instance : ToString Granularity := ⟨name⟩

end Granularity

/-- The context command register, which invalidates the context cache. -/
structure ContextCommand where
  raw : Word
deriving DecidableEq, Repr

namespace ContextCommand

def domainField : Field := ⟨0, 16⟩
def sourceField : Field := ⟨16, 16⟩
def actualField : Field := ⟨59, 2⟩
def requestField : Field := ⟨61, 2⟩
def invalidateField : Field := ⟨63, 1⟩

/-- A request for an invalidation. -/
def invalidate (granularity : Granularity) (source : RoutingId) (domain : DomainId) :
    ContextCommand :=
  let request := requestField.set (invalidateField.put 0 true) granularity.code
  ⟨domainField.set (sourceField.set request source.val.val) domain.val.val⟩

/-- The command, done with the scope of the code `actual`. -/
def complete (command : ContextCommand) (actual : Nat) : ContextCommand :=
  ⟨actualField.set (invalidateField.put command.raw false) actual⟩

def inProgress (command : ContextCommand) : Bool := invalidateField.isSet command.raw

def requestCode (command : ContextCommand) : Nat := requestField.get command.raw

def requested (command : ContextCommand) : Option Granularity :=
  Granularity.ofCode? command.requestCode

/-- The scope the unit covered. -/
def actual (command : ContextCommand) : Option Granularity :=
  Granularity.ofCode? (actualField.get command.raw)

def source (command : ContextCommand) : RoutingId := .ofNat (sourceField.get command.raw)

def domain (command : ContextCommand) : DomainId := .ofNat (domainField.get command.raw)

end ContextCommand

/-- The IOTLB invalidate register. -/
structure IotlbCommand where
  raw : Word
deriving DecidableEq, Repr

namespace IotlbCommand

def domainField : Field := ⟨32, 16⟩
def drainWritesField : Field := ⟨48, 1⟩
def drainReadsField : Field := ⟨49, 1⟩
def actualField : Field := ⟨57, 2⟩
def requestField : Field := ⟨60, 2⟩
def invalidateField : Field := ⟨63, 1⟩

/-- A request for an invalidation that also drains reads and writes in flight. -/
def invalidate (granularity : Granularity) (domain : DomainId) : IotlbCommand :=
  let request := requestField.set (invalidateField.put 0 true) granularity.code
  let draining := drainWritesField.put (drainReadsField.put request true) true
  ⟨domainField.set draining domain.val.val⟩

/-- The command, done with the scope of the code `actual`. -/
def complete (command : IotlbCommand) (actual : Nat) : IotlbCommand :=
  ⟨actualField.set (invalidateField.put command.raw false) actual⟩

def inProgress (command : IotlbCommand) : Bool := invalidateField.isSet command.raw

def requestCode (command : IotlbCommand) : Nat := requestField.get command.raw

def requested (command : IotlbCommand) : Option Granularity :=
  Granularity.ofCode? command.requestCode

/-- The scope the unit covered. -/
def actual (command : IotlbCommand) : Option Granularity :=
  Granularity.ofCode? (actualField.get command.raw)

def domain (command : IotlbCommand) : DomainId := .ofNat (domainField.get command.raw)

end IotlbCommand

end DmaRemap
