import DmaRemap.Pci.Device
import DmaRemap.Register.Field

namespace DmaRemap

open Text (hex bit)

/-- Why a request was blocked. -/
inductive FaultReason where
  | reserved
  | rootEntryNotPresent
  | contextEntryNotPresent
  | contextEntryInvalid
  | addressBeyondWidth
  | writeToReadOnly
  | readNotPermitted
  | pageEntryInvalid
  | rootEntryReserved
  | contextEntryReserved
  | pageEntryReserved
  | invalidTranslationType
  | unknown (code : BitVec 8)
deriving DecidableEq, Repr

namespace FaultReason

/-- The reason with a code. -/
def ofCode (code : BitVec 8) : FaultReason :=
  match code.toNat with
  | 0 => reserved
  | 1 => rootEntryNotPresent
  | 2 => contextEntryNotPresent
  | 3 => contextEntryInvalid
  | 4 => addressBeyondWidth
  | 5 => writeToReadOnly
  | 6 => readNotPermitted
  | 7 => pageEntryInvalid
  | 8 => rootEntryReserved
  | 9 => contextEntryReserved
  | 10 => pageEntryReserved
  | 11 => invalidTranslationType
  | _ => unknown code

def code : FaultReason → BitVec 8
  | reserved => 0
  | rootEntryNotPresent => 1
  | contextEntryNotPresent => 2
  | contextEntryInvalid => 3
  | addressBeyondWidth => 4
  | writeToReadOnly => 5
  | readNotPermitted => 6
  | pageEntryInvalid => 7
  | rootEntryReserved => 8
  | contextEntryReserved => 9
  | pageEntryReserved => 10
  | invalidTranslationType => 11
  | unknown code => code

def name : FaultReason → String
  | reserved => "Reserved"
  | rootEntryNotPresent => "RootEntryNotPresent"
  | contextEntryNotPresent => "ContextEntryNotPresent"
  | contextEntryInvalid => "ContextEntryInvalid"
  | addressBeyondWidth => "AddressBeyondMgaw"
  | writeToReadOnly => "WriteToReadOnly"
  | readNotPermitted => "ReadNotPermitted"
  | pageEntryInvalid => "PageEntryInvalid"
  | rootEntryReserved => "RootEntryReserved"
  | contextEntryReserved => "ContextEntryReserved"
  | pageEntryReserved => "PageEntryReserved"
  | invalidTranslationType => "InvalidTranslationType"
  | unknown code => s!"Unknown({code.toNat})"

def description : FaultReason → String
  | reserved => "reserved"
  | rootEntryNotPresent => "root entry not present"
  | contextEntryNotPresent => "context entry not present"
  | contextEntryInvalid => "invalid context entry"
  | addressBeyondWidth => "address beyond guest address width"
  | writeToReadOnly => "write to read-only page"
  | readNotPermitted => "read from non-readable page"
  | pageEntryInvalid => "invalid page-table entry"
  | rootEntryReserved => "reserved bit set in root entry"
  | contextEntryReserved => "reserved bit set in context entry"
  | pageEntryReserved => "reserved bit set in page-table entry"
  | invalidTranslationType => "invalid translation type"
  | unknown _ => "unknown"

end FaultReason

/-- What a blocked request wanted. -/
inductive RequestType where
  | write
  | read
  | page
  | atomic
deriving DecidableEq, Repr

namespace RequestType

/-- The type with the given low and high type bits. -/
def ofBits : (low high : Bool) → RequestType
  | false, false => write
  | true, false => read
  | false, true => page
  | true, true => atomic

def low : RequestType → Bool
  | write | page => false
  | read | atomic => true

def high : RequestType → Bool
  | write | read => false
  | page | atomic => true

def name : RequestType → String
  | write => "write"
  | read => "read"
  | page => "page"
  | atomic => "atomic"

end RequestType

/-- What a unit reports about a blocked request. -/
structure FaultRecord where
  /-- The place of the record among the unit's fault records. -/
  index : Nat
  reason : FaultReason
  request : RequestType
  addressType : BitVec 8
  execute : Bool
  privileged : Bool
  pasid : Option (BitVec 16)
  source : RoutingId
  /-- The address of the page that was requested. -/
  address : Word
deriving DecidableEq, Repr

namespace FaultRecord

def infoField : Field := ⟨12, 52⟩
def sourceField : Field := ⟨0, 16⟩
def typeHighField : Field := ⟨28, 1⟩
def privilegedField : Field := ⟨29, 1⟩
def executeField : Field := ⟨30, 1⟩
def pasidPresentField : Field := ⟨31, 1⟩
def reasonField : Field := ⟨32, 8⟩
def pasidField : Field := ⟨40, 10⟩
def addressTypeField : Field := ⟨60, 2⟩
def typeLowField : Field := ⟨62, 1⟩
def faultField : Field := ⟨63, 1⟩

/-- Whether the high word of a record holds a fault. -/
def isFault (high : Word) : Bool := faultField.isSet high

/-- The high word that clears a record when it is written. -/
def clearing : Word := faultField.put 0 true

/-- The record in a pair of words, if they hold a fault. -/
def decode? (index : Nat) (low high : Word) : Option FaultRecord :=
  if isFault high then
    some {
      index
      reason := .ofCode (BitVec.ofNat 8 (reasonField.get high))
      request := .ofBits (typeLowField.isSet high) (typeHighField.isSet high)
      addressType := BitVec.ofNat 8 (addressTypeField.get high)
      execute := executeField.isSet high
      privileged := privilegedField.isSet high
      pasid :=
        if pasidPresentField.isSet high then some (BitVec.ofNat 16 (pasidField.get high)) else none
      source := .ofNat (sourceField.get high)
      address := BitVec.ofNat 64 (infoField.get low <<< 12) }
  else
    none

/-- The low word a unit reports a record in. -/
def encodeLow (record : FaultRecord) : Word :=
  infoField.set 0 (record.address.toNat >>> 12)

/-- The high word a unit reports a record in. -/
def encodeHigh (record : FaultRecord) : Word :=
  let word := faultField.put 0 true
  let word := typeLowField.put word record.request.low
  let word := addressTypeField.set word record.addressType.toNat
  let word := pasidField.set word (record.pasid.getD 0).toNat
  let word := reasonField.set word record.reason.code.toNat
  let word := pasidPresentField.put word record.pasid.isSome
  let word := executeField.put word record.execute
  let word := privilegedField.put word record.privileged
  let word := typeHighField.put word record.request.high
  sourceField.set word record.source.val.val

instance : ToString FaultRecord := ⟨fun record =>
  s!"fault record {record.index}: reason {hex record.reason.code.toNat} " ++
  s!"({record.reason.description}), " ++
  s!"{record.request.name} request at {hex record.address.toNat} from {record.source}, " ++
  s!"AT={record.addressType.toNat} EXE={bit record.execute} PRIV={bit record.privileged}" ++
  match record.pasid with
  | some pasid => s!" PASID={hex pasid.toNat}"
  | none => ""⟩

end FaultRecord

end DmaRemap
